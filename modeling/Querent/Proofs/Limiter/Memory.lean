import Mathlib.Data.List.Dedup
import Querent.Proofs.Limiter.Window

/-! What a limiter remembers along a run of checks. A sweep leaves the workspaces that were let through
within the window, and from one sweep to the next each check adds at most one. -/
namespace Querent.Limiter

variable {l : Limiter} {workspace : Int} {limit window now later since : Nat} {log : List Verdict}
  {calls : List (Int × Nat)}

/-! ### Sweeps -/

theorem inWindow_ne_nil (hfit : l.Fit since) (workspace : Int) (now : Nat) :
    l.inWindow workspace now ≠ [] ↔ ∃ t ∈ l.times workspace, now - t < l.window := by
  rw [inWindow, recent_eq_filter (hfit.times_sorted workspace), ne_eq, List.filter_eq_nil_iff]
  simp

/-- A sweep leaves the workspaces that have a request in the window. -/
theorem mem_sweep (hfit : l.Fit since) : workspace ∈ (l.sweep now).hits.map (·.workspace) ↔
    l.inWindow workspace now ≠ [] := by
  rw [inWindow_ne_nil hfit, exists_mem_iff_newest (hfit.times_sorted workspace), List.mem_map]
  constructor
  · rintro ⟨h, hmem, rfl⟩
    obtain ⟨hold, hkept⟩ := List.mem_filter.1 hmem
    rw [times_of_mem hfit.keys hold]
    split at hkept
    · rename_i newest hlast
      exact ⟨newest, hlast, of_decide_eq_true hkept⟩
    · cases hkept
  · rintro ⟨newest, hlast, hin⟩
    rcases times_eq_nil_or l workspace with hnil | ⟨h, hmem, rfl, htimes⟩
    · rw [hnil] at hlast
      cases hlast
    · rw [htimes] at hlast
      exact ⟨h, List.mem_filter.2 ⟨hmem, by simp [hlast, hin]⟩, rfl⟩

/-- The workspaces of which a request was let through in the window before a time. -/
def live (window now : Nat) (log : List Verdict) : List Int :=
  ((log.filter fun v => v.allowed && decide (now - v.time < window)).map (·.workspace)).dedup

theorem mem_live : workspace ∈ live window now log ↔
    ∃ t ∈ accepted workspace log, now - t < window := by
  simp only [live, accepted, List.mem_dedup, List.mem_map, List.mem_filter, Bool.and_eq_true,
    decide_eq_true_eq, beq_iff_eq]
  constructor
  · rintro ⟨v, ⟨hv, hallowed, hin⟩, rfl⟩
    exact ⟨v.time, ⟨v, ⟨hv, hallowed, rfl⟩, rfl⟩, hin⟩
  · rintro ⟨_, ⟨v, ⟨hv, hallowed, rfl⟩, rfl⟩, hin⟩
    exact ⟨v, ⟨hv, hallowed, hin⟩, rfl⟩

namespace Tracks

theorem mono (h : Tracks l log now) (hle : now ≤ later) : Tracks l log later where
  fit := h.fit.mono hle
  inWindow workspace time htime := h.inWindow workspace time (Nat.le_trans hle htime)

theorem mem_sweep (h : Tracks l log now) (workspace : Int) :
    workspace ∈ (l.sweep now).hits.map (·.workspace) ↔ workspace ∈ live l.window now log := by
  rw [Limiter.mem_sweep h.fit, h.inWindow workspace now (Nat.le_refl now), mem_live, ne_eq,
    List.filter_eq_nil_iff]
  simp

theorem tracked_sweep (h : Tracks l log now) :
    (l.sweep now).tracked = (live l.window now log).length := by
  have hperm : ((l.sweep now).hits.map (·.workspace)).Perm (live l.window now log) :=
    (List.perm_ext_iff_of_nodup (h.fit.sweep now).keys (List.nodup_dedup _)).2 h.mem_sweep
  rw [tracked, ← hperm.length_eq, List.length_map]

end Tracks

/-! ### Runs of checks -/

/-- The limiter after some checks. -/
def after (l : Limiter) (calls : List (Int × Nat)) : Limiter :=
  calls.foldl (fun l call => (l.check call.1 call.2).2) l

/-- The checks of workspaces at times. -/
def asChecks (calls : List (Int × Nat)) : List Act := calls.map fun call => .check call.1 call.2

theorem tracked_check (l : Limiter) (workspace : Int) (now : Nat) :
    (l.check workspace now).2.tracked ≤ (l.swept now).tracked + 1 := by
  have hkeys := congrArg List.length
    (putHits_keys workspace (l.checkedTimes workspace now) (l.swept now).hits)
  have hhits : (l.check workspace now).2.hits =
      putHits workspace (l.checkedTimes workspace now) (l.swept now).hits := by rw [check_eq]
  rw [tracked, tracked, hhits]
  rw [List.length_map] at hkeys
  split at hkeys
  · rw [hkeys, List.length_map]
    exact Nat.le_succ _
  · rw [hkeys, List.length_append, List.length_map]
    exact Nat.le_refl _

theorem tracked_swept (l : Limiter) (now : Nat) : (l.swept now).tracked ≤ l.tracked := by
  unfold swept
  split
  · exact List.length_filter_le _ _
  · exact Nat.le_refl _

/-- A check adds one workspace at most. -/
theorem tracked_after (l : Limiter) (calls : List (Int × Nat)) :
    (l.after calls).tracked ≤ l.tracked + calls.length := by
  induction calls generalizing l with
  | nil => exact Nat.le_refl _
  | cons call calls ih =>
    have hrest : (l.after (call :: calls)).tracked ≤
        (l.check call.1 call.2).2.tracked + calls.length := ih _
    have hcheck := tracked_check l call.1 call.2
    have hswept := tracked_swept l call.2
    rw [List.length_cons]
    omega

theorem checks_after (l : Limiter) (calls : List (Int × Nat)) :
    (l.after calls).checks = l.checks + calls.length := by
  induction calls generalizing l with
  | nil => rfl
  | cons call calls ih =>
    have hrest : (l.after (call :: calls)).checks = (l.checks + 1) + calls.length := ih _
    rw [hrest, List.length_cons]
    omega

theorem window_after (l : Limiter) (calls : List (Int × Nat)) : (l.after calls).window = l.window := by
  induction calls generalizing l with
  | nil => rfl
  | cons call calls ih => exact (ih _).trans (check_window l call.1 call.2)

theorem Tracks.after (h : Tracks l log since) (hsince : ∀ call ∈ calls, since ≤ call.2)
    (htime : calls.Pairwise (·.2 ≤ ·.2)) (hnow : since ≤ now) (hpast : ∀ call ∈ calls, call.2 ≤ now) :
    Tracks (l.after calls) (log ++ l.verdicts (asChecks calls)) now := by
  induction calls generalizing l log since with
  | nil => simpa [Limiter.after, asChecks, verdicts] using h.mono hnow
  | cons call calls ih =>
    obtain ⟨hfirst, hrest⟩ := List.pairwise_cons.1 htime
    obtain ⟨hcall, hpast⟩ := List.forall_mem_cons.1 hpast
    have hnext := ih (h.check (hsince call List.mem_cons_self) call.1) hfirst hrest hcall hpast
    rw [List.append_assoc] at hnext
    exact hnext

/-- Decisions come in the order of the checks, and so do the times at which one is let through. -/
theorem accepted_sorted (l : Limiter) (htime : calls.Pairwise (·.2 ≤ ·.2)) (workspace : Int) :
    (accepted workspace (l.verdicts (asChecks calls))).Pairwise (· ≤ ·) := by
  have hrequests : (l.verdicts (asChecks calls)).map Verdict.request = calls := by
    rw [verdicts_request, asChecks, List.filterMap_map]
    exact List.filterMap_some
  have htimes : (l.verdicts (asChecks calls)).map (·.time) = calls.map (·.2) := by
    rw [← hrequests, List.map_map, hrequests]
    rfl
  have hsorted : ((l.verdicts (asChecks calls)).map (·.time)).Pairwise (· ≤ ·) := by
    rw [htimes]
    exact List.pairwise_map.2 htime
  exact hsorted.sublist (List.filter_sublist.map _)

/-! ### Rounds -/

/-- How many workspaces had a request let through in the window when the last round of checks ended,
and none before the first. -/
def liveAtSweep (limit window : Nat) (calls : List (Int × Nat)) : Nat :=
  let rounds := calls.take (calls.length / sweepEvery * sweepEvery)
  match rounds.getLast? with
  | none => 0
  | some call => (live window call.2 ((new limit window).verdicts (asChecks rounds.dropLast))).length

/-- The limiter that a check finds in a run in time. -/
theorem tracks_before (limit window : Nat) {before rest : List (Int × Nat)} {call : Int × Nat}
    (htime : (before ++ call :: rest).Pairwise (·.2 ≤ ·.2)) :
    Tracks ((new limit window).after before) ((new limit window).verdicts (asChecks before)) call.2 := by
  obtain ⟨hbefore, -, hle⟩ := List.pairwise_append.1 htime
  exact (tracks_fresh limit window 0).after (fun _ _ => Nat.zero_le _) hbefore (Nat.zero_le _)
    fun earlier hearlier => hle earlier hearlier call List.mem_cons_self

/-- A new limiter is swept at the checks that end a round. -/
theorem swept_after (limit window : Nat) (before : List (Int × Nat)) (now : Nat) :
    ((new limit window).after before).swept now =
      if before.length % sweepEvery = sweepEvery - 1 then ((new limit window).after before).sweep now
      else (new limit window).after before := by
  have hchecks : ((new limit window).after before).checks = before.length :=
    (checks_after _ before).trans (Nat.zero_add _)
  simp only [swept, hchecks, beq_iff_eq]

/-- Until the next sweep each check adds one workspace at most to those that a sweep leaves. -/
theorem tracked_after_sweep (limit window : Nat) {before rest : List (Int × Nat)} {call : Int × Nat}
    (htime : (before ++ call :: rest).Pairwise (·.2 ≤ ·.2))
    (hround : before.length % sweepEvery = sweepEvery - 1) :
    ((new limit window).after (before ++ call :: rest)).tracked ≤
      (live window call.2 ((new limit window).verdicts (asChecks before))).length +
        (rest.length + 1) := by
  have hcheck := tracked_check ((new limit window).after before) call.1 call.2
  have hleft := (tracks_before limit window htime).tracked_sweep
  have hrest := tracked_after (((new limit window).after before).check call.1 call.2).2 rest
  have hafter : (new limit window).after (before ++ call :: rest) =
      (((new limit window).after before).check call.1 call.2).2.after rest := List.foldl_append
  have hwindow : ((new limit window).after before).window = window := window_after _ before
  rw [swept_after, if_pos hround, hleft, hwindow] at hcheck
  rw [hafter]
  omega

/-- Checks that end no round, or those up to the last that does and the rest of a round. -/
theorem exists_rounds (calls : List (Int × Nat)) :
    let rounds := calls.take (calls.length / sweepEvery * sweepEvery)
    rounds = [] ∧ calls.length < sweepEvery ∨ ∃ before call rest, rounds = before ++ [call] ∧
      calls = before ++ call :: rest ∧ before.length % sweepEvery = sweepEvery - 1 ∧
      rest.length < sweepEvery := by
  unfold sweepEvery
  have hlength : (calls.take (calls.length / 256 * 256)).length = calls.length / 256 * 256 :=
    List.length_take_of_le (Nat.div_mul_le_self _ _)
  rcases List.eq_nil_or_concat (calls.take (calls.length / 256 * 256)) with
    hnil | ⟨before, call, hrounds⟩
  · rw [hnil, List.length_nil] at hlength
    exact .inl ⟨hnil, by omega⟩
  · rw [List.concat_eq_append] at hrounds
    have hsplit := List.take_append_drop (calls.length / 256 * 256) calls
    rw [hrounds, List.append_assoc, List.singleton_append] at hsplit
    rw [hrounds, List.length_append, List.length_singleton] at hlength
    refine .inr ⟨before, call, _, hrounds, hsplit.symm, by omega, ?_⟩
    rw [List.length_drop]
    omega

theorem tracked_le_liveAtSweep (limit window : Nat) (htime : calls.Pairwise (·.2 ≤ ·.2)) :
    ((new limit window).after calls).tracked ≤ liveAtSweep limit window calls + sweepEvery := by
  unfold liveAtSweep
  rcases exists_rounds calls with ⟨hnil, hshort⟩ | ⟨before, call, rest, hrounds, hcalls, hround, hshort⟩
  · simp only [hnil, List.getLast?_nil]
    have hall := tracked_after (new limit window) calls
    have hnone : (new limit window).tracked = 0 := rfl
    omega
  · simp only [hrounds, List.getLast?_concat, List.dropLast_concat]
    subst hcalls
    have hbound := tracked_after_sweep limit window htime hround
    omega

/-- Along checks in time at most 256 more workspaces are remembered than were let through within the
window when the limiter was swept last, and at most 256 before that. It is swept at each check that ends
a round of 256, before that check looks at its workspace, and at no other, and just those workspaces are
left of which the newest request let through is in the window. -/
theorem tracked_le (limit window : Nat) (htime : calls.Pairwise (·.2 ≤ ·.2)) :
    ((new limit window).after calls).tracked ≤ liveAtSweep limit window calls + sweepEvery ∧
    ∀ before workspace now rest, calls = before ++ (workspace, now) :: rest →
      let l := (new limit window).after before
      let log := (new limit window).verdicts (asChecks before)
      (∃ times, (l.check workspace now).2.hits = putHits workspace times (l.swept now).hits) ∧
      (before.length % sweepEvery ≠ sweepEvery - 1 → l.swept now = l) ∧
      (before.length % sweepEvery = sweepEvery - 1 →
        ∀ other, other ∈ (l.swept now).hits.map (·.workspace) ↔
          ∃ newest, (accepted other log).getLast? = some newest ∧ now - newest < window) := by
  refine ⟨tracked_le_liveAtSweep limit window htime, ?_⟩
  rintro before workspace now rest rfl l log
  have hswept : l.swept now = _ := swept_after limit window before now
  refine ⟨⟨l.checkedTimes workspace now, by rw [check_eq]⟩, fun hround => ?_, fun hround other => ?_⟩
  · rw [hswept, if_neg hround]
  · have htracks : Tracks l log now := tracks_before limit window htime
    have hwindow : l.window = window := window_after _ before
    rw [hswept, if_pos hround, htracks.mem_sweep, mem_live, hwindow,
      exists_mem_iff_newest (accepted_sorted _ (List.pairwise_append.1 htime).1 other)]

/-- A workspace asks again and again at once, and another one later. -/
def early : List (Int × Nat) := List.replicate 254 (7, 0) ++ [(9, 4)]

/-- The check that ends the round comes when the requests of the first have just left the window: it is
forgotten, and the other one is not. -/
theorem tracked_le_early :
    ((early ++ [(8, 5)]).Pairwise fun c d : Int × Nat => c.2 ≤ d.2) ∧
    ((new 2 5).after (early ++ [(8, 5)])).tracked ≤ 1 + 256 ∧
    7 ∈ ((new 2 5).after early).hits.map (·.workspace) ∧
    7 ∉ (((new 2 5).after early).swept 5).hits.map (·.workspace) ∧
    9 ∈ (((new 2 5).after early).swept 5).hits.map (·.workspace) := by
  have htime : (early ++ [(8, 5)]).Pairwise fun c d : Int × Nat => c.2 ≤ d.2 := by decide +kernel
  have hlive : liveAtSweep 2 5 (early ++ [(8, 5)]) = 1 := by decide +kernel
  obtain ⟨hbound, hsweeps⟩ := tracked_le 2 5 htime
  have hleft := (hsweeps early 8 5 [] rfl).2.2 (by decide +kernel)
  refine ⟨htime, ?_, by decide +kernel, ?_, (hleft 9).2 ⟨4, by decide +kernel, by decide⟩⟩
  · rw [hlive] at hbound
    exact hbound
  · intro hmem
    obtain ⟨newest, hlast, hin⟩ := (hleft 7).1 hmem
    have hzero : (accepted 7 ((new 2 5).verdicts (asChecks early))).getLast? = some 0 := by
      decide +kernel
    obtain rfl : 0 = newest := Option.some.inj (hzero.symm.trans hlast)
    omega

end Querent.Limiter
