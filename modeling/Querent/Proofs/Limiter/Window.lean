import Mathlib.Data.List.Induction
import Querent.Proofs.Limiter.Times

/-! What a limiter decides along a run of checks and sweeps. A check is let through exactly if fewer
than the limit were let through for its workspace within the window before it. Nothing else has a part
in a decision: neither what other workspaces ask, nor what was turned away, nor any sweep. -/
namespace Querent.Limiter

/-- What is done with a limiter. -/
inductive Act where
  | check (workspace : Int) (now : Nat)
  | sweep (now : Nat)

namespace Act

def time : Act → Nat
  | check _ now | sweep now => now

/-- A check comes no earlier than a time. Nothing is decided at a sweep, which may lag behind. -/
def NotBefore (time : Nat) : Act → Prop
  | check _ now => time ≤ now
  | sweep _ => True

instance (time : Nat) (a : Act) : Decidable (a.NotBefore time) := by
  cases a <;> unfold NotBefore <;> infer_instance

/-- The workspace and the time of a check. -/
def request? : Act → Option (Int × Nat)
  | check workspace now => some (workspace, now)
  | sweep _ => none

end Act

/-- No check is earlier than what comes before it. -/
def InTime (acts : List Act) : Prop := acts.Pairwise fun a b => b.NotBefore a.time

instance (acts : List Act) : Decidable (InTime acts) :=
  inferInstanceAs (Decidable (acts.Pairwise fun a b => b.NotBefore a.time))

/-- A check and what it came to. -/
structure Verdict where
  workspace : Int
  time : Nat
  allowed : Bool
deriving DecidableEq

def Verdict.request (v : Verdict) : Int × Nat := (v.workspace, v.time)

def verdicts (l : Limiter) : List Act → List Verdict
  | [] => []
  | .check workspace now :: acts =>
    { workspace, time := now, allowed := (l.check workspace now).1 } ::
      (l.check workspace now).2.verdicts acts
  | .sweep now :: acts => (l.sweep now).verdicts acts

/-- How many requests of a workspace were let through in the window before a time. -/
def counted (window : Nat) (workspace : Int) (now : Nat) (log : List Verdict) : Nat :=
  log.countP fun v => v.allowed && v.workspace == workspace && decide (now - v.time < window)

/-- A check is let through exactly if fewer than the limit were in the window before it. -/
def Exact (limit window : Nat) (log : List Verdict) : Prop :=
  ∀ before v after, log = before ++ v :: after →
    (v.allowed = true ↔ counted window v.workspace v.time before < limit)

variable {l : Limiter} {workspace : Int} {limit window now later since : Nat}
  {log log' kept : List Verdict} {v : Verdict} {acts : List Act}

theorem exact_nil : Exact limit window [] := by simp [Exact]

theorem exact_concat : Exact limit window (log ++ [v]) ↔
    Exact limit window log ∧
      (v.allowed = true ↔ counted window v.workspace v.time log < limit) := by
  constructor
  · intro hexact
    refine ⟨fun before v' after heq => ?_, hexact log v [] rfl⟩
    exact hexact before v' (after ++ [v]) (by simp [heq])
  · rintro ⟨hexact, hlast⟩ before v' after heq
    rcases List.eq_nil_or_concat after with rfl | ⟨after, v'', rfl⟩
    · obtain ⟨rfl, hv⟩ := List.append_inj' heq rfl
      obtain rfl := List.singleton_inj.1 hv
      exact hlast
    · have hlong : log ++ [v] = (before ++ v' :: after) ++ [v''] := by simp [heq]
      obtain ⟨rfl, -⟩ := List.append_inj' hlong rfl
      exact hexact before v' after rfl

/-! ### What the limiter remembers of a log -/

/-- The times at which a workspace was let through. -/
def accepted (workspace : Int) (log : List Verdict) : List Nat :=
  (log.filter fun v => v.allowed && v.workspace == workspace).map (·.time)

theorem accepted_concat : accepted workspace (log ++ [v]) = accepted workspace log ++
    if v.allowed = true ∧ v.workspace = workspace then [v.time] else [] := by
  unfold accepted
  rw [List.filter_append, List.map_append]
  by_cases hv : v.allowed = true ∧ v.workspace = workspace <;> simp [hv]

theorem length_filter_accepted : ((accepted workspace log).filter
    fun t => decide (now - t < window)).length = counted window workspace now log := by
  unfold accepted counted
  rw [List.filter_map, List.length_map, List.filter_filter, List.countP_eq_length_filter]
  congr 2
  funext v
  simp [Bool.and_comm]

/-- From `now` on, the times in the window are those of the log. -/
structure Tracks (l : Limiter) (log : List Verdict) (now : Nat) : Prop where
  fit : l.Fit now
  inWindow : ∀ workspace later, now ≤ later → l.inWindow workspace later =
    (accepted workspace log).filter fun t => decide (later - t < l.window)

/-- A limiter that has let nothing through yet, however often it has been asked. -/
def fresh (limit window checks : Nat) : Limiter := { limit, window, hits := [], checks }

theorem tracks_fresh (limit window checks : Nat) : Tracks (fresh limit window checks) [] 0 where
  fit := ⟨.nil, by simp [fresh], by simp [fresh]⟩
  inWindow _ _ _ := rfl

namespace Tracks

theorem allowed (h : Tracks l log since) (hle : since ≤ now) (workspace : Int) :
    (l.check workspace now).1 = true ↔ counted l.window workspace now log < l.limit := by
  rw [check_fst h.fit, h.inWindow workspace now hle, length_filter_accepted, decide_eq_true_eq]

theorem check (h : Tracks l log since) (hle : since ≤ now) (workspace : Int) :
    Tracks (l.check workspace now).2
      (log ++ [{ workspace, time := now, allowed := (l.check workspace now).1 }]) now where
  fit := h.fit.check hle workspace
  inWindow other later hlater := by
    have hold := h.inWindow other later (Nat.le_trans hle hlater)
    rw [check_window, accepted_concat, List.filter_append, ← hold]
    by_cases hne : other = workspace
    · subst hne
      simpa using inWindow_check_self h.fit hle hlater
    · have hnone : ¬ ((l.check workspace now).1 = true ∧ workspace = other) :=
        fun hboth => hne hboth.2.symm
      rw [inWindow_check_other h.fit hlater hne, if_neg hnone, List.filter_nil, List.append_nil]

theorem sweep (h : Tracks l log since) (now : Nat) : Tracks (l.sweep now) log (max since now) where
  fit := (h.fit.sweep now).mono (Nat.le_max_left since now)
  inWindow workspace later hlater := by
    rw [inWindow_sweep h.fit (by omega)]
    exact h.inWindow workspace later (by omega)

/-- Along a run each decision is the one of the definition. -/
theorem exact_append (h : Tracks l log since) (hexact : Exact l.limit l.window log)
    (hsince : ∀ a ∈ acts, a.NotBefore since) (htime : InTime acts) :
    Exact l.limit l.window (log ++ l.verdicts acts) := by
  induction acts generalizing l log since with
  | nil => simpa [verdicts] using hexact
  | cons a acts ih =>
    obtain ⟨hfirst, hrest⟩ := List.pairwise_cons.1 htime
    cases a with
    | check workspace now =>
      have hle : since ≤ now := hsince _ List.mem_cons_self
      let v : Verdict := { workspace, time := now, allowed := (l.check workspace now).1 }
      have hlong : Exact l.limit l.window (log ++ [v]) :=
        exact_concat.2 ⟨hexact, h.allowed hle workspace⟩
      have hnext := ih (h.check hle workspace) (by simpa using hlong) hfirst hrest
      rw [List.append_assoc] at hnext
      simpa [verdicts] using hnext
    | sweep now =>
      refine ih (h.sweep now) hexact ?_ hrest
      intro b hb
      have hnow := hfirst b hb
      have hold := hsince b (List.mem_cons_of_mem _ hb)
      cases b with
      | check workspace later => exact Nat.max_le.2 ⟨hold, hnow⟩
      | sweep later => trivial

end Tracks

theorem verdicts_exact (limit window checks : Nat) (htime : InTime acts) :
    Exact limit window ((fresh limit window checks).verdicts acts) := by
  have hall : ∀ a ∈ acts, a.NotBefore 0 := by
    intro a _
    cases a with
    | check workspace now => exact Nat.zero_le now
    | sweep now => trivial
  exact (tracks_fresh limit window checks).exact_append exact_nil hall htime

theorem verdicts_request (l : Limiter) (acts : List Act) :
    (l.verdicts acts).map Verdict.request = acts.filterMap Act.request? := by
  induction acts generalizing l with
  | nil => rfl
  | cons a acts ih =>
    cases a with
    | check workspace now => exact congrArg _ (ih _)
    | sweep now => exact ih _

/-! ### What decides and what does not -/

namespace Exact

/-- What is accepted in a span shorter than the window. -/
theorem countP_le (hexact : Exact limit window log) (workspace : Int) (start : Nat) :
    log.countP (fun v => v.allowed && v.workspace == workspace &&
      (decide (start ≤ v.time) && decide (v.time < start + window))) ≤ limit := by
  induction log using List.reverseRecOn with
  | nil => simp
  | append_singleton log v ih =>
    obtain ⟨hexact, hlast⟩ := exact_concat.1 hexact
    have hold := ih hexact
    rw [List.countP_append]
    by_cases hv : v.allowed = true ∧ v.workspace = workspace ∧
        start ≤ v.time ∧ v.time < start + window
    · obtain ⟨hallowed, rfl, hstart, hend⟩ := hv
      have hroom := hlast.1 hallowed
      -- all that counts for the span was in the window when the last one was let through
      have hcounted : log.countP (fun v' => v'.allowed && v'.workspace == v.workspace &&
          (decide (start ≤ v'.time) && decide (v'.time < start + window))) ≤
            counted window v.workspace v.time log := by
        apply List.countP_mono_left
        intro v' _ hv'
        simp only [Bool.and_eq_true, decide_eq_true_eq] at hv' ⊢
        exact ⟨hv'.1, by omega⟩
      have hone : [v].countP (fun v' => v'.allowed && v'.workspace == v.workspace &&
          (decide (start ≤ v'.time) && decide (v'.time < start + window))) ≤ 1 :=
        List.countP_le_length
      omega
    · have hnone : [v].countP (fun v' => v'.allowed && v'.workspace == workspace &&
          (decide (start ≤ v'.time) && decide (v'.time < start + window))) = 0 := by
        rw [List.countP_eq_zero]
        intro v' hv'
        obtain rfl := List.mem_singleton.1 hv'
        simpa [and_assoc] using hv
      omega

/-- Decisions are settled by the requests. -/
theorem unique (hexact : Exact limit window log) (hexact' : Exact limit window log')
    (hsame : log.map Verdict.request = log'.map Verdict.request) : log = log' := by
  induction log using List.reverseRecOn generalizing log' with
  | nil => simpa using hsame.symm
  | append_singleton log v ih =>
    rcases List.eq_nil_or_concat log' with rfl | ⟨log', v', rfl⟩
    · simp at hsame
    · rw [List.concat_eq_append] at hexact' hsame ⊢
      rw [List.map_append, List.map_append] at hsame
      obtain ⟨hinit, hlast⟩ := List.append_inj' hsame rfl
      obtain ⟨hexact, hv⟩ := exact_concat.1 hexact
      obtain ⟨hexact', hv'⟩ := exact_concat.1 hexact'
      obtain rfl := ih hexact hexact' hinit
      obtain ⟨hworkspace, htime⟩ : v.workspace = v'.workspace ∧ v.time = v'.time := by
        simpa [Verdict.request] using hlast
      have hallowed : v.allowed = v'.allowed := by
        rw [Bool.eq_iff_iff, hv, hv', hworkspace, htime]
      cases v
      cases v'
      simp_all

/-- A workspace by itself. -/
theorem filter_workspace (hexact : Exact limit window log) (workspace : Int) :
    Exact limit window (log.filter (·.workspace == workspace)) := by
  induction log using List.reverseRecOn with
  | nil => exact exact_nil
  | append_singleton log v ih =>
    obtain ⟨hexact, hlast⟩ := exact_concat.1 hexact
    rw [List.filter_append]
    by_cases hv : v.workspace = workspace
    · have hcounted : counted window v.workspace v.time (log.filter (·.workspace == workspace)) =
          counted window v.workspace v.time log := by
        unfold counted
        rw [List.countP_filter]
        congr 1
        funext v'
        by_cases hv' : v'.workspace = workspace <;> simp [hv, hv']
      rw [List.filter_cons_of_pos (by simpa using hv), List.filter_nil, exact_concat, hcounted]
      exact ⟨ih hexact, hlast⟩
    · rw [List.filter_cons_of_neg (by simpa using hv), List.filter_nil, List.append_nil]
      exact ih hexact

theorem counted_eq_of_filter {log log' : List Verdict}
    (hsame : log.filter (·.allowed) = log'.filter (·.allowed)) (workspace : Int) (now : Nat) :
    counted window workspace now log = counted window workspace now log' := by
  have hall (log : List Verdict) : counted window workspace now log =
      (log.filter (·.allowed)).countP
        fun v => v.workspace == workspace && decide (now - v.time < window) := by
    unfold counted
    rw [List.countP_filter]
    congr 1
    funext v
    rw [Bool.and_comm v.allowed, Bool.and_assoc, Bool.and_comm v.allowed, Bool.and_assoc]
  rw [hall, hall, hsame]

/-- Requests that were turned away may be left out. -/
theorem thin (hexact : Exact limit window log) (hkept : kept.Sublist log)
    (hall : kept.filter (·.allowed) = log.filter (·.allowed)) : Exact limit window kept := by
  induction log using List.reverseRecOn generalizing kept with
  | nil => rw [List.sublist_nil.1 hkept]; exact exact_nil
  | append_singleton log v ih =>
    obtain ⟨hexact, hlast⟩ := exact_concat.1 hexact
    obtain ⟨init, tail, rfl, hinit, htail⟩ := List.sublist_append_iff.1 hkept
    rw [List.filter_append, List.filter_append] at hall
    rcases List.sublist_singleton.1 htail with rfl | rfl
    · rw [List.filter_nil, List.append_nil] at hall
      have hrejected : [v].filter (·.allowed) = [] := by
        have hlength := congrArg List.length hall
        have hle := (hinit.filter (·.allowed)).length_le
        rw [List.length_append] at hlength
        rw [← List.length_eq_zero_iff]
        omega
      rw [hrejected, List.append_nil] at hall
      rw [List.append_nil]
      exact ih hexact hinit hall
    · have hsame := List.append_cancel_right hall
      rw [exact_concat, counted_eq_of_filter hsame]
      exact ⟨ih hexact hinit hsame, hlast⟩

end Exact

/-- Along any run in time the limiter decides by the definition of a sliding window, and no span
shorter than the window holds more than the limit. A run that asks for one workspace what this one does,
some of what was turned away left out, is given the same decisions for it. -/
theorem sliding_window (limit window checks : Nat) (htime : InTime acts) :
    let log := (fresh limit window checks).verdicts acts
    log.map Verdict.request = acts.filterMap Act.request? ∧
    Exact limit window log ∧
    (∀ workspace start, log.countP (fun v => v.allowed && v.workspace == workspace &&
      (decide (start ≤ v.time) && decide (v.time < start + window))) ≤ limit) ∧
    ∀ workspace checks' acts' kept, InTime acts' →
      kept.Sublist (log.filter (·.workspace == workspace)) →
      kept.filter (·.allowed) = (log.filter (·.workspace == workspace)).filter (·.allowed) →
      (acts'.filterMap Act.request?).filter (·.1 == workspace) = kept.map Verdict.request →
      ((fresh limit window checks').verdicts acts').filter (·.workspace == workspace) = kept := by
  intro log
  have hexact : Exact limit window log := verdicts_exact limit window checks htime
  refine ⟨verdicts_request _ acts, hexact, hexact.countP_le, ?_⟩
  intro workspace checks' acts' kept htime' hkept hall hsame
  have hexact' := (verdicts_exact limit window checks' htime').filter_workspace workspace
  apply hexact'.unique ((hexact.filter_workspace workspace).thin hkept hall)
  rw [← hsame, ← verdicts_request, List.filter_map]
  rfl

/-- The second check falls on the sweep of every 256 and is turned away. With it, the sweep and the
other workspace left out, the last one is let through all the same. -/
theorem sliding_window_swept :
    let acts := [.check 1 0, .check 1 5, .sweep 7, .check 2 7, .check 1 10]
    let kept := [{ workspace := 1, time := 0, allowed := true },
      { workspace := 1, time := 10, allowed := true }]
    InTime acts ∧ InTime [.check 1 0, .check 1 10] ∧
      Exact 1 10 ((fresh 1 10 254).verdicts acts) ∧
      ((fresh 1 10 254).verdicts acts).map (·.allowed) = [true, false, true, true] ∧
      ((fresh 1 10 0).verdicts [.check 1 0, .check 1 10]).filter (·.workspace == 1) = kept := by
  intro acts kept
  have htime : InTime acts := by decide
  have htime' : InTime [.check 1 0, .check 1 10] := by decide
  obtain ⟨-, hexact, -, hother⟩ := sliding_window 1 10 254 htime
  refine ⟨htime, htime', hexact, by decide, ?_⟩
  exact hother 1 0 [.check 1 0, .check 1 10] kept htime' (by decide) (by decide) (by decide)

end Querent.Limiter
