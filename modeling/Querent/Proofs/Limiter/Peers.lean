import Querent.Proofs.Limiter.Times

/-! Two limiters side by side, of which one is asked less. For a workspace that both are asked about
alike they remember the same; where one is asked more of it, it remembers more. -/
namespace Querent.Limiter

variable {l l' : Limiter} {workspace other : Int} {now later since : Nat}

/-- Limiters of one limit and one window that are at some time. -/
structure Peers (l l' : Limiter) (now : Nat) : Prop where
  limit : l.limit = l'.limit
  window : l.window = l'.window
  fit : l.Fit now
  fit' : l'.Fit now

/-- From a time on, the same requests of a workspace are in the window. -/
def SameTimes (l l' : Limiter) (workspace : Int) (now : Nat) : Prop :=
  ∀ later, now ≤ later → l.inWindow workspace later = l'.inWindow workspace later

/-- From a time on, the requests in the second window are among those in the first. -/
def MoreTimes (l l' : Limiter) (workspace : Int) (now : Nat) : Prop :=
  ∀ later, now ≤ later → (l'.inWindow workspace later).Sublist (l.inWindow workspace later)

theorem peers_self (hfit : l.Fit now) : Peers l l now := ⟨rfl, rfl, hfit, hfit⟩

namespace Peers

theorem check (h : Peers l l' since) (hle : since ≤ now) (other : Int) :
    Peers (l.check other now).2 (l'.check other now).2 now where
  limit := by simp [h.limit]
  window := by simp [h.window]
  fit := h.fit.check hle other
  fit' := h.fit'.check hle other

theorem check_left (h : Peers l l' since) (hle : since ≤ now) (other : Int) :
    Peers (l.check other now).2 l' now where
  limit := by simp [h.limit]
  window := by simp [h.window]
  fit := h.fit.check hle other
  fit' := h.fit'.mono hle

end Peers

namespace SameTimes

theorem allowed (h : SameTimes l l' workspace since) (peers : Peers l l' since)
    (hle : since ≤ now) : (l.check workspace now).1 = (l'.check workspace now).1 := by
  rw [check_fst peers.fit, check_fst peers.fit', h now hle, peers.limit]

theorem check_left (h : SameTimes l l' workspace since) (peers : Peers l l' since)
    (hle : since ≤ now) (hne : workspace ≠ other) :
    SameTimes (l.check other now).2 l' workspace now := by
  intro later hlater
  rw [inWindow_check_other peers.fit hlater hne]
  exact h later (Nat.le_trans hle hlater)

theorem check (h : SameTimes l l' workspace since) (peers : Peers l l' since) (hle : since ≤ now)
    (other : Int) : SameTimes (l.check other now).2 (l'.check other now).2 workspace now := by
  intro later hlater
  have hold := h later (Nat.le_trans hle hlater)
  by_cases hother : workspace = other
  · subst hother
    rw [inWindow_check_self peers.fit hle hlater, inWindow_check_self peers.fit' hle hlater, hold,
      h.allowed peers hle, peers.window]
  · rw [inWindow_check_other peers.fit hlater hother,
      inWindow_check_other peers.fit' hlater hother, hold]

end SameTimes

namespace MoreTimes

theorem of_same (h : SameTimes l l' workspace now) : MoreTimes l l' workspace now := by
  intro later hlater
  rw [h later hlater]

/-- Less is in the way of a request there. -/
theorem allowed (h : MoreTimes l l' workspace since) (peers : Peers l l' since) (hle : since ≤ now)
    (hallowed : (l.check workspace now).1 = true) : (l'.check workspace now).1 = true := by
  rw [check_fst peers.fit, decide_eq_true_eq, peers.limit] at hallowed
  rw [check_fst peers.fit', decide_eq_true_eq]
  exact Nat.lt_of_le_of_lt (h now hle).length_le hallowed

theorem check_left (h : MoreTimes l l' workspace since) (peers : Peers l l' since)
    (hle : since ≤ now) (other : Int) : MoreTimes (l.check other now).2 l' workspace now := by
  intro later hlater
  have hold := h later (Nat.le_trans hle hlater)
  by_cases hother : workspace = other
  · subst hother
    rw [inWindow_check_self peers.fit hle hlater]
    exact hold.trans (List.sublist_append_left _ _)
  · rw [inWindow_check_other peers.fit hlater hother]
    exact hold

theorem check (h : MoreTimes l l' workspace since) (peers : Peers l l' since) (hle : since ≤ now)
    (hallowed : other = workspace → (l.check workspace now).1 = true) :
    MoreTimes (l.check other now).2 (l'.check other now).2 workspace now := by
  intro later hlater
  have hold := h later (Nat.le_trans hle hlater)
  by_cases hother : workspace = other
  · subst hother
    rw [inWindow_check_self peers.fit hle hlater, inWindow_check_self peers.fit' hle hlater,
      hallowed rfl, h.allowed peers hle (hallowed rfl), peers.window]
    exact hold.append_right _
  · rw [inWindow_check_other peers.fit hlater hother,
      inWindow_check_other peers.fit' hlater hother]
    exact hold

end MoreTimes

end Querent.Limiter
