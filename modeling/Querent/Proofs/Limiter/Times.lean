import Mathlib.Data.List.Nodup
import Mathlib.Data.List.TakeWhile
import Mathlib.Tactic.Common
import Querent.Limiter

/-! The times that a limiter keeps of a workspace. Those in the window change at a check of this
workspace alone: no check of another one and no sweep makes a difference to them. -/
namespace Querent.Limiter

variable {l l' : Limiter} {workspace other : Int} {limit window now later since : Nat}
  {times : List Nat} {hits : List Hits} {h : Hits}

/-! ### Times in the window -/

theorem recent_eq_filter (hsorted : times.Pairwise (· ≤ ·)) :
    recent window now times = times.filter fun t => decide (now - t < window) := by
  unfold recent
  induction times with
  | nil => rfl
  | cons t times ih =>
    obtain ⟨hfirst, hrest⟩ := List.pairwise_cons.1 hsorted
    by_cases ht : window ≤ now - t
    · rw [List.dropWhile_cons_of_pos (by simpa using ht), ih hrest,
        List.filter_cons_of_neg (by simpa using ht)]
    · rw [List.dropWhile_cons_of_neg (by simpa using ht)]
      symm
      apply List.filter_eq_self.2
      intro t' ht'
      have hle : t ≤ t' := by
        rcases List.mem_cons.1 ht' with rfl | ht'
        · exact Nat.le_refl _
        · exact hfirst t' ht'
      apply decide_eq_true
      omega

theorem recent_recent (hle : now ≤ later) :
    recent window later (recent window now times) = recent window later times := by
  unfold recent
  induction times with
  | nil => rfl
  | cons t times ih =>
    by_cases ht : window ≤ now - t
    · have ht' : window ≤ later - t := by omega
      rw [List.dropWhile_cons_of_pos (by simpa using ht), ih,
        List.dropWhile_cons_of_pos (by simpa using ht')]
    · rw [List.dropWhile_cons_of_neg (by simpa using ht)]

/-- Where times are in order, any of them is in the window exactly if the newest is. -/
theorem exists_mem_iff_newest (hsorted : times.Pairwise (· ≤ ·)) :
    (∃ t ∈ times, now - t < window) ↔ ∃ newest, times.getLast? = some newest ∧ now - newest < window := by
  constructor
  · rintro ⟨t, ht, hin⟩
    obtain ⟨init, newest, rfl⟩ := (List.eq_nil_or_concat times).resolve_left (List.ne_nil_of_mem ht)
    rw [List.concat_eq_append] at ht hsorted ⊢
    have hle : t ≤ newest := by
      rcases List.mem_append.1 ht with ht | ht
      · exact (List.pairwise_append.1 hsorted).2.2 t ht newest (List.mem_singleton_self newest)
      · exact (List.mem_singleton.1 ht).le
    exact ⟨newest, List.getLast?_concat, by omega⟩
  · rintro ⟨newest, hlast, hin⟩
    exact ⟨newest, List.mem_of_getLast? hlast, hin⟩

/-- The accepted requests of a workspace that are still in the window. -/
def inWindow (l : Limiter) (workspace : Int) (now : Nat) : List Nat :=
  recent l.window now (l.times workspace)

/-! ### The times of a workspace -/

/-- Each workspace has one entry, with its times in order and none after `now`. -/
structure Fit (l : Limiter) (now : Nat) : Prop where
  keys : (l.hits.map (·.workspace)).Nodup
  sorted : ∀ h ∈ l.hits, h.times.Pairwise (· ≤ ·)
  past : ∀ h ∈ l.hits, ∀ t ∈ h.times, t ≤ now

theorem times_of_mem (keys : (l.hits.map (·.workspace)).Nodup) (hmem : h ∈ l.hits) :
    l.times h.workspace = h.times := by
  unfold times
  cases hfind : l.hits.find? (·.workspace == h.workspace) with
  | none =>
    have hnone := List.find?_eq_none.1 hfind h hmem
    simp at hnone
  | some h' =>
    have hkey : h'.workspace = h.workspace := by simpa using List.find?_some hfind
    have hsame : h' = h := List.inj_on_of_nodup_map keys (List.mem_of_find?_eq_some hfind) hmem hkey
    simp [hsame]

theorem times_of_absent (habsent : ∀ h ∈ l.hits, h.workspace ≠ workspace) :
    l.times workspace = [] := by
  unfold times
  rw [List.find?_eq_none.2 (by simpa using habsent)]
  rfl

theorem times_eq_nil_or (l : Limiter) (workspace : Int) :
    l.times workspace = [] ∨ ∃ h ∈ l.hits, h.workspace = workspace ∧ l.times workspace = h.times := by
  unfold times
  cases hfind : l.hits.find? (·.workspace == workspace) with
  | none => exact .inl rfl
  | some h =>
    exact .inr ⟨h, List.mem_of_find?_eq_some hfind, by simpa using List.find?_some hfind, rfl⟩

namespace Fit

theorem mono (hfit : l.Fit now) (hle : now ≤ later) : l.Fit later where
  keys := hfit.keys
  sorted := hfit.sorted
  past h hmem t ht := Nat.le_trans (hfit.past h hmem t ht) hle

theorem times_sorted (hfit : l.Fit now) (workspace : Int) :
    (l.times workspace).Pairwise (· ≤ ·) := by
  rcases times_eq_nil_or l workspace with hnil | ⟨h, hmem, -, htimes⟩
  · rw [hnil]
    exact .nil
  · rw [htimes]
    exact hfit.sorted h hmem

theorem times_past (hfit : l.Fit now) (workspace : Int) : ∀ t ∈ l.times workspace, t ≤ now := by
  rcases times_eq_nil_or l workspace with hnil | ⟨h, hmem, -, htimes⟩
  · simp [hnil]
  · rw [htimes]
    exact hfit.past h hmem

theorem inWindow_sorted (hfit : l.Fit since) (workspace : Int) (now : Nat) :
    (l.inWindow workspace now).Pairwise (· ≤ ·) :=
  (hfit.times_sorted workspace).sublist (List.dropWhile_sublist _)

theorem inWindow_past (hfit : l.Fit since) (workspace : Int) (now : Nat) :
    ∀ t ∈ l.inWindow workspace now, t ≤ since :=
  fun t ht => hfit.times_past workspace t ((List.dropWhile_sublist _).subset ht)

end Fit

/-! ### Putting times in place -/

theorem putHits_keys (workspace : Int) (times : List Nat) (hits : List Hits) :
    (putHits workspace times hits).map (·.workspace) =
      if workspace ∈ hits.map (·.workspace) then hits.map (·.workspace)
      else hits.map (·.workspace) ++ [workspace] := by
  induction hits with
  | nil => simp [putHits]
  | cons h hits ih =>
    unfold putHits
    by_cases hkey : h.workspace = workspace
    · simp [hkey]
    · have hne : workspace ≠ h.workspace := fun heq => hkey heq.symm
      simp only [beq_iff_eq, hkey, if_false, List.map_cons, ih, List.mem_cons, hne, false_or]
      split <;> rfl

theorem mem_putHits (hmem : h ∈ putHits workspace times hits) :
    h = { workspace, times } ∨ h ∈ hits := by
  induction hits with
  | nil =>
    left
    simpa [putHits] using hmem
  | cons h' hits ih =>
    unfold putHits at hmem
    split at hmem
    · rcases List.mem_cons.1 hmem with rfl | hmem
      · left; rfl
      · right; exact List.mem_cons_of_mem _ hmem
    · rcases List.mem_cons.1 hmem with rfl | hmem
      · right; exact List.mem_cons_self
      · rcases ih hmem with hnew | hold
        · left; exact hnew
        · right; exact List.mem_cons_of_mem _ hold

theorem find?_putHits_self : (putHits workspace times hits).find? (·.workspace == workspace) =
    some { workspace, times } := by
  induction hits with
  | nil => simp [putHits]
  | cons h hits ih =>
    unfold putHits
    by_cases hkey : h.workspace = workspace
    · simp [hkey]
    · simpa [hkey] using ih

theorem find?_putHits_other (hne : other ≠ workspace) :
    (putHits workspace times hits).find? (·.workspace == other) =
      hits.find? (·.workspace == other) := by
  induction hits with
  | nil => simp [putHits, hne.symm]
  | cons h hits ih =>
    unfold putHits
    by_cases hkey : h.workspace = workspace
    · simp [hkey, hne.symm]
    · simp only [beq_iff_eq, hkey, if_false, List.find?_cons, ih]

/-! ### Forgetting workspaces -/

/-- A workspace keeps its times or is forgotten, and then none of them was in the window. -/
theorem times_sweep (hfit : l.Fit since) (workspace : Int) (now : Nat) :
    (l.sweep now).times workspace = l.times workspace ∨
      (l.sweep now).times workspace = [] ∧ ∀ t ∈ l.times workspace, l.window ≤ now - t := by
  have hkeys : ((l.sweep now).hits.map (·.workspace)).Nodup :=
    hfit.keys.sublist (List.filter_sublist.map _)
  rcases times_eq_nil_or l workspace with hnil | ⟨h, hmem, rfl, htimes⟩
  · rcases times_eq_nil_or (l.sweep now) workspace with hnil' | ⟨h, hmem, rfl, -⟩
    · left
      rw [hnil, hnil']
    · have hold : h ∈ l.hits := List.mem_of_mem_filter hmem
      left
      rw [times_of_mem hkeys hmem, times_of_mem hfit.keys hold]
  · by_cases hkept : h ∈ (l.sweep now).hits
    · left
      rw [times_of_mem hkeys hkept, htimes]
    · right
      constructor
      · apply times_of_absent
        intro h' hmem' hkey
        have hold : h' ∈ l.hits := List.mem_of_mem_filter hmem'
        have hsame : h' = h := List.inj_on_of_nodup_map hfit.keys hold hmem hkey
        exact hkept (hsame ▸ hmem')
      · intro t ht
        rw [htimes] at ht
        -- were it in the window, the newest time would be, and the workspace were kept
        by_contra hleft
        obtain ⟨newest, hlast, hin⟩ :=
          (exists_mem_iff_newest (hfit.sorted h hmem)).1 ⟨t, ht, Nat.lt_of_not_le hleft⟩
        exact hkept (List.mem_filter.2 ⟨hmem, by simp [hlast, hin]⟩)

theorem inWindow_sweep (hfit : l.Fit since) (hle : now ≤ later) (workspace : Int) :
    (l.sweep now).inWindow workspace later = l.inWindow workspace later := by
  have hwindow : (l.sweep now).window = l.window := rfl
  unfold inWindow
  rw [hwindow]
  rcases times_sweep hfit workspace now with hsame | ⟨hnil, hout⟩
  · rw [hsame]
  · have hgone : recent l.window later (l.times workspace) = [] := by
      unfold recent
      rw [List.dropWhile_eq_nil_iff]
      intro t ht
      have := hout t ht
      apply decide_eq_true
      omega
    rw [hnil, hgone]
    rfl

theorem Fit.sweep (hfit : l.Fit since) (now : Nat) : (l.sweep now).Fit since where
  keys := hfit.keys.sublist (List.filter_sublist.map _)
  sorted h hmem := hfit.sorted h (List.mem_of_mem_filter hmem)
  past h hmem := hfit.past h (List.mem_of_mem_filter hmem)

/-! ### Checks -/

/-- The limiter as a check finds it: now and then it is swept first. -/
def swept (l : Limiter) (now : Nat) : Limiter :=
  if l.checks % sweepEvery == sweepEvery - 1 then l.sweep now else l

/-- The times of a workspace behind a check. -/
def checkedTimes (l : Limiter) (workspace : Int) (now : Nat) : List Nat :=
  let times := (l.swept now).inWindow workspace now
  if times.length < l.limit then times ++ [now] else times

theorem swept_limit (l : Limiter) (now : Nat) :
    (l.swept now).limit = l.limit ∧ (l.swept now).window = l.window := by
  unfold swept
  split <;> exact ⟨rfl, rfl⟩

theorem Fit.swept (hfit : l.Fit since) (now : Nat) : (l.swept now).Fit since := by
  unfold Limiter.swept
  split
  · exact hfit.sweep now
  · exact hfit

theorem inWindow_swept (hfit : l.Fit since) (hle : now ≤ later) (workspace : Int) :
    (l.swept now).inWindow workspace later = l.inWindow workspace later := by
  unfold swept
  split
  · exact inWindow_sweep hfit hle workspace
  · rfl

theorem check_eq (l : Limiter) (workspace : Int) (now : Nat) :
    l.check workspace now =
      (decide (((l.swept now).inWindow workspace now).length < l.limit),
        { l.swept now with
          hits := putHits workspace (l.checkedTimes workspace now) (l.swept now).hits
          checks := l.checks + 1 }) := by
  obtain ⟨hlimit, hwindow⟩ := swept_limit l now
  have hswept : (if l.checks % sweepEvery == sweepEvery - 1 then l.sweep now else l) =
      l.swept now := rfl
  simp only [check, checkedTimes, inWindow, hswept, hlimit, hwindow, decide_eq_true_eq]

@[simp] theorem check_limit (l : Limiter) (workspace : Int) (now : Nat) :
    (l.check workspace now).2.limit = l.limit := by
  rw [check_eq]
  exact (swept_limit l now).1

@[simp] theorem check_window (l : Limiter) (workspace : Int) (now : Nat) :
    (l.check workspace now).2.window = l.window := by
  rw [check_eq]
  exact (swept_limit l now).2

theorem check_fst (hfit : l.Fit since) (workspace : Int) (now : Nat) :
    (l.check workspace now).1 = decide ((l.inWindow workspace now).length < l.limit) := by
  rw [check_eq, inWindow_swept hfit (Nat.le_refl now)]

theorem checkedTimes_eq (hfit : l.Fit since) (workspace : Int) (now : Nat) :
    l.checkedTimes workspace now = l.inWindow workspace now ++
      if (l.check workspace now).1 = true then [now] else [] := by
  unfold checkedTimes
  rw [check_fst hfit, inWindow_swept hfit (Nat.le_refl now)]
  by_cases hroom : (l.inWindow workspace now).length < l.limit <;> simp [hroom]

theorem check_times_self (l : Limiter) (workspace : Int) (now : Nat) :
    (l.check workspace now).2.times workspace = l.checkedTimes workspace now := by
  rw [check_eq]
  unfold times
  rw [find?_putHits_self]
  rfl

theorem check_times_other (hne : other ≠ workspace) (now : Nat) :
    (l.check workspace now).2.times other = (l.swept now).times other := by
  rw [check_eq]
  unfold times
  rw [find?_putHits_other hne]

theorem pairwise_append_now (hsorted : times.Pairwise (· ≤ ·)) (hpast : ∀ t ∈ times, t ≤ now)
    (accepted : Bool) : (times ++ if accepted = true then [now] else []).Pairwise (· ≤ ·) := by
  cases accepted
  · simpa using hsorted
  · rw [if_pos rfl, List.pairwise_append]
    refine ⟨hsorted, by simp, ?_⟩
    intro t ht t' ht'
    rw [List.mem_singleton.1 ht']
    exact hpast t ht

theorem inWindow_check_self (hfit : l.Fit since) (hpast : since ≤ now) (hle : now ≤ later) :
    (l.check workspace now).2.inWindow workspace later = l.inWindow workspace later ++
      (if (l.check workspace now).1 = true then [now] else []).filter
        fun t => decide (later - t < l.window) := by
  have hsorted := hfit.inWindow_sorted workspace now
  have hold := (hfit.mono hpast).inWindow_past workspace now
  conv_lhs => unfold inWindow
  rw [check_times_self, checkedTimes_eq hfit, check_window,
    recent_eq_filter (pairwise_append_now hsorted hold _), List.filter_append,
    ← recent_eq_filter hsorted]
  unfold inWindow
  rw [recent_recent hle]

theorem inWindow_check_other (hfit : l.Fit since) (hle : now ≤ later) (hne : other ≠ workspace) :
    (l.check workspace now).2.inWindow other later = l.inWindow other later := by
  rw [← inWindow_swept hfit hle other]
  unfold inWindow
  rw [check_times_other hne, check_window, (swept_limit l now).2]

theorem Fit.check (hfit : l.Fit since) (hpast : since ≤ now) (workspace : Int) :
    (l.check workspace now).2.Fit now := by
  have hswept : (l.swept now).Fit since := hfit.swept now
  have hsorted := hfit.inWindow_sorted workspace now
  have hold := (hfit.mono hpast).inWindow_past workspace now
  rw [check_eq]
  constructor
  · dsimp only
    rw [putHits_keys]
    split
    · exact hswept.keys
    · rename_i habsent
      rw [← List.concat_eq_append]
      exact (List.nodup_concat _ _).2 ⟨habsent, hswept.keys⟩
  · intro h hmem
    rcases mem_putHits hmem with rfl | hmem
    · rw [checkedTimes_eq hfit]
      exact pairwise_append_now hsorted hold _
    · exact hswept.sorted h hmem
  · intro h hmem
    rcases mem_putHits hmem with rfl | hmem
    · rw [checkedTimes_eq hfit]
      intro t ht
      rcases List.mem_append.1 ht with ht | ht
      · exact hold t ht
      · split at ht <;> simp at ht
        omega
    · exact (hswept.mono hpast).past h hmem

end Querent.Limiter
