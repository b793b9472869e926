import Mathlib.Data.List.Infix
import Mathlib.Tactic.Common
import Querent.Text.Parts

/-! What replacing one text by another makes of a text: it leaves a text in which the other does not
occur, and it goes on separately on both sides of a character that cannot be part of an occurrence. -/
namespace Querent.Text

variable {lead old new s t text rest : List Char} {c x : Char}

theorem dropLead?_eq_some_iff : dropLead? lead text = some rest ↔ text = lead ++ rest := by
  induction lead generalizing text with
  | nil => simp [dropLead?]
  | cons l lead ih =>
    cases text with
    | nil => simp [dropLead?]
    | cons c text =>
      by_cases h : l = c
      · simp [dropLead?, h, ih]
      · have h' : ¬ c = l := fun e => h e.symm
        simp [dropLead?, h, h']

theorem dropLead?_eq_none_iff : dropLead? lead text = none ↔ ¬ lead <+: text := by
  rw [Option.eq_none_iff_forall_ne_some]
  simp only [ne_eq, dropLead?_eq_some_iff, List.IsPrefix, not_exists]
  exact forall_congr' fun rest => not_congr eq_comm

theorem replaceAll_at_start (h : old ≠ []) :
    replaceAll old new (old ++ t) = new ++ replaceAll old new t := by
  have hlead : dropLead? old (old ++ t) = some t := dropLead?_eq_some_iff.2 rfl
  have hfull : old.isEmpty = false := by simpa using h
  obtain ⟨c, old', rfl⟩ := List.exists_cons_of_ne_nil h
  rw [List.cons_append] at hlead ⊢
  rw [replaceAll]
  split
  next rest hsome =>
    rw [hlead] at hsome
    cases hsome
    simp [hfull]
  next hnone => simp [hlead] at hnone

theorem replaceAll_cons (h : ¬ old <+: c :: t) :
    replaceAll old new (c :: t) = c :: replaceAll old new t := by
  have hlead : dropLead? old (c :: t) = none := dropLead?_eq_none_iff.2 h
  rw [replaceAll]
  split
  next hsome => simp [hlead] at hsome
  next => rfl

/-- A text stays as it is where the first character of what is replaced does not occur. -/
theorem replaceAll_append (h : c ∉ s) :
    replaceAll (c :: old) new (s ++ t) = s ++ replaceAll (c :: old) new t := by
  induction s with
  | nil => rfl
  | cons d s ih =>
    obtain ⟨hd, hs⟩ : c ≠ d ∧ c ∉ s := by simpa using h
    have hlead : ¬ c :: old <+: d :: (s ++ t) := fun hp => hd (List.cons_prefix_cons.1 hp).1
    rw [List.cons_append, replaceAll_cons hlead, ih hs, List.cons_append]

/-- Along a text, what is replaced is passed as a whole and everything else by the character. -/
theorem replaceAll_induction {motive : List Char → Prop} (hold : old ≠ []) (nil : motive [])
    (found : ∀ t, motive t → motive (old ++ t))
    (kept : ∀ c t, ¬ old <+: c :: t → motive t → motive (c :: t)) (t : List Char) : motive t := by
  induction hn : t.length using Nat.strongRecOn generalizing t with
  | ind n ih =>
    cases t with
    | nil => exact nil
    | cons c t =>
      rw [List.length_cons] at hn
      by_cases h : old <+: c :: t
      · obtain ⟨rest, hrest⟩ := h
        have hlength := congrArg List.length hrest
        have hpos := List.length_pos_of_ne_nil hold
        rw [List.length_append, List.length_cons] at hlength
        rw [← hrest]
        exact found rest (ih rest.length (by omega) rest rfl)
      · exact kept c t h (ih t.length (by omega) t rfl)

theorem replaceAll_of_absent (h : ¬ old <:+: t) : replaceAll old new t = t := by
  induction t with
  | nil => simp [replaceAll]
  | cons c t ih =>
    have hlead : ¬ old <+: c :: t := fun hp => h hp.isInfix
    have hrest : ¬ old <:+: t := fun hi => h (hi.trans (List.suffix_cons c t).isInfix)
    rw [replaceAll_cons hlead, ih hrest]

theorem prefix_of_prefix_append_cons (h : c ∉ old) (hp : old <+: s ++ c :: t) : old <+: s := by
  rcases List.prefix_or_prefix_of_prefix hp (List.prefix_append s (c :: t)) with hs | ⟨u, rfl⟩
  · exact hs
  · have hu : u <+: c :: t := (List.prefix_append_right_inj s).1 hp
    cases u with
    | nil => rw [List.append_nil]
    | cons d u =>
      obtain rfl := (List.cons_prefix_cons.1 hu).1
      exact absurd (List.mem_append_right s List.mem_cons_self) h

/-- A character that is no part of what is replaced parts a text in two. -/
theorem replaceAll_append_cons (hold : old ≠ []) (h : c ∉ old) (s t : List Char) :
    replaceAll old new (s ++ c :: t) = replaceAll old new s ++ c :: replaceAll old new t := by
  induction s using replaceAll_induction hold with
  | nil =>
    have hlead : ¬ old <+: c :: t := by
      intro hp
      obtain ⟨d, old', rfl⟩ := List.exists_cons_of_ne_nil hold
      exact h ((List.cons_prefix_cons.1 hp).1 ▸ List.mem_cons_self)
    rw [List.nil_append, replaceAll_cons hlead, replaceAll]
    rfl
  | found s ih =>
    rw [List.append_assoc, replaceAll_at_start hold, replaceAll_at_start hold, ih, List.append_assoc]
  | kept d s hlead ih =>
    have hlead' : ¬ old <+: d :: (s ++ c :: t) := fun hp =>
      hlead (prefix_of_prefix_append_cons (s := d :: s) h hp)
    rw [List.cons_append, replaceAll_cons hlead', ih, replaceAll_cons hlead, List.cons_append]

/-- A character that what is replaced does not hold never gets fewer. -/
theorem count_le_count_replaceAll (hold : old ≠ []) (hx : x ∉ old) (t : List Char) :
    t.count x ≤ (replaceAll old new t).count x := by
  induction t using replaceAll_induction hold with
  | nil => exact Nat.zero_le _
  | found t ih =>
    rw [replaceAll_at_start hold, List.count_append, List.count_append, List.count_eq_zero_of_not_mem hx]
    omega
  | kept c t hlead ih =>
    rw [replaceAll_cons hlead, List.count_cons, List.count_cons]
    omega

/-- Where what is put in holds it, every replacement adds to its number. -/
theorem count_lt_count_replaceAll (hold : old ≠ []) (hx : x ∉ old) (hnew : x ∈ new)
    (h : old <:+: t) : t.count x < (replaceAll old new t).count x := by
  induction t using replaceAll_induction hold with
  | nil => exact absurd (List.infix_nil.1 h) hold
  | found t _ =>
    have hpos := List.count_pos_iff.2 hnew
    have hrest : t.count x ≤ (replaceAll old new t).count x := count_le_count_replaceAll hold hx t
    rw [replaceAll_at_start hold, List.count_append, List.count_append, List.count_eq_zero_of_not_mem hx]
    omega
  | kept c t hlead ih =>
    have hrest := ih ((List.infix_cons_iff.1 h).resolve_left hlead)
    rw [replaceAll_cons hlead, List.count_cons, List.count_cons]
    omega

end Querent.Text
