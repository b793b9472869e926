import Querent.Proofs.Sql.Scan

/-! Where a FROM opens a clause, and the tables found in a text as those found in its parts. -/
namespace Querent.Sql

open Text

/-- The text before a parenthesis, nearest first, ends in no call that takes a FROM. -/
def NoCall (before : List Char) : Prop :=
  isOneOf fromFunctions (trailingWord (trimStart before)).reverse = false

/-- A place, given by the text before it (nearest first), that is outside quotes and not among the
arguments of a call that takes a FROM. -/
structure ClausePlace (before : List Char) : Prop where
  unquoted : quoteAfter none before.reverse = none
  uncalled : ∀ callee ∈ innermostOpen before.reverse, NoCall callee

/-- The text before a FROM, nearest first, ends in no blank and not in DISTINCT. -/
structure ClauseLead (before : List Char) : Prop where
  trimmed : trimStart before = before
  plain : sameLetters (trailingWord before).reverse "DISTINCT".toList = false

variable {banned : List String} {d : Dialect} {before s s' t w : List Char} {c : Char}
  {found found' : List TableRef}

theorem trailingWord_plain (hw : ∀ c ∈ w, isPlain c = true) (hb : Border before) :
    trailingWord (w.reverse ++ before) = w.reverse := by
  have hplain : ∀ c, isPlain c = true → (isLetterOrNumber c || c == '_') = true := fun c hc =>
    forall_isPlain (P := fun c => (isLetterOrNumber c || c == '_') = true) (by decide) hc
  have hborder : ∀ c, isBorder c = true → (isLetterOrNumber c || c == '_') = false := fun c hc =>
    forall_isBorder (P := fun c => (isLetterOrNumber c || c == '_') = false) (by decide) hc
  exact takeWhile_plain hplain hborder (by simpa using hw) hb

/-- Behind a plain word there is no blank to trim. -/
private theorem trimStart_reverse (hne : w ≠ []) (hw : ∀ c ∈ w, isPlain c = true) :
    trimStart (w.reverse ++ before) = w.reverse ++ before := by
  rcases List.eq_nil_or_concat w with hnil | ⟨cs, c, rfl⟩
  · exact absurd hnil hne
  · have hc : isBlank c = false := isBlank_of_isPlain (hw c (by simp))
    rw [List.concat_eq_append, List.reverse_append, List.reverse_singleton, List.singleton_append,
      List.cons_append, trimStart_cons hc]

theorem NoCall.of_word (hne : w ≠ []) (hw : ∀ c ∈ w, isPlain c = true)
    (hcall : isOneOf fromFunctions w = false) (hb : Border before) :
    NoCall (' ' :: (w.reverse ++ before)) := by
  rw [NoCall, trimStart_blank, trimStart_reverse hne hw, trailingWord_plain hw hb,
    List.reverse_reverse]
  exact hcall

theorem Name.clauseLead (n : Name banned) (hb : Border before) :
    ClauseLead (n.text.reverse ++ before) := by
  have hword : sameLetters "DISTINCT".toList n.text = false := n.sameLetters_eq_false (by decide)
  constructor
  · exact trimStart_reverse n.ne_nil n.forall_isPlain
  · rw [trailingWord_plain n.forall_isPlain hb, List.reverse_reverse]
    simpa only [sameLetters, Bool.beq_comm] using hword

theorem ClauseLead.of_border (hc : isBorder c = true) (hblank : isBlank c = false) :
    ClauseLead (c :: before) := by
  constructor
  · exact trimStart_cons hblank
  · have htrail : trailingWord (([] : List Char).reverse ++ c :: before) = [] :=
      trailingWord_plain (by simp) (border_cons.2 hc)
    rw [List.reverse_nil, List.nil_append] at htrail
    rw [htrail]
    rfl

namespace ClausePlace

theorem start : ClausePlace [] := ⟨rfl, by simp [innermostOpen, openFrom]⟩

/-- A balanced text leads from one place of this kind to another. -/
theorem append (h : ClausePlace before) (hs : Balanced s) : ClausePlace (s.reverse ++ before) := by
  have hrev : (s.reverse ++ before).reverse = before.reverse ++ s := by simp
  constructor
  · rw [hrev, quoteAfter_append, h.unquoted, hs.quoteAfter]
  · rw [hrev, innermostOpen, openFrom_append, h.unquoted, hs.openFrom]
    exact h.uncalled

/-- So does a parenthesis that opens no call of the kind. -/
theorem paren (h : ClausePlace before) (hcall : NoCall before) : ClausePlace ('(' :: before) := by
  have hopen : innermostOpen ('(' :: before).reverse = some before := by
    rw [List.reverse_cons, innermostOpen, openFrom_append, h.unquoted]
    simp [openFrom]
  constructor
  · rw [List.reverse_cons, quoteAfter_append, h.unquoted]
    rfl
  · rw [hopen]
    rintro callee ⟨⟩
    exact hcall

/-- At such a place a FROM opens a clause. -/
theorem opensClause (h : ClausePlace before) (hlead : ClauseLead before) :
    opensClause (' ' :: before) = true := by
  have hopen := h.uncalled
  rw [Sql.opensClause, trimStart_blank, hlead.trimmed, hlead.plain]
  cases hin : innermostOpen before.reverse with
  | none => rfl
  | some callee =>
    have hcall : NoCall callee := hopen callee (by simp [hin])
    simpa [NoCall] using hcall

end ClausePlace

/-- Behind DISTINCT a FROM opens no clause. -/
theorem not_opensClause_distinct :
    opensClause (' ' :: ("DISTINCT".toList.reverse ++ ' ' :: before)) = false := rfl

/-- Among the arguments of a call that takes a FROM it opens none either. -/
theorem not_opensClause_call (hq : quoteAfter none before.reverse = none) (hb : Border before)
    (hne : w ≠ []) (hw : ∀ c ∈ w, isPlain c = true) (hcall : isOneOf fromFunctions w = true)
    (hs : Balanced s) (hlead : ClauseLead (s.reverse ++ '(' :: (w.reverse ++ before))) :
    opensClause (' ' :: (s.reverse ++ '(' :: (w.reverse ++ before))) = false := by
  have hflat : Balanced w := (Flat.ofPlain hw).balanced
  have hrev : (s.reverse ++ '(' :: (w.reverse ++ before)).reverse =
      (before.reverse ++ w) ++ '(' :: s := by simp
  have hquote : quoteAfter none (before.reverse ++ w) = none := by
    rw [quoteAfter_append, hq, hflat.quoteAfter]
  have hopen : innermostOpen (s.reverse ++ '(' :: (w.reverse ++ before)).reverse =
      some (w.reverse ++ before) := by
    rw [hrev, innermostOpen, openFrom_append, hquote]
    have hstep : ∀ opens b, openFrom opens none b ('(' :: s) = openFrom (b :: opens) none ('(' :: b) s :=
      fun _ _ => rfl
    rw [hstep, hs.openFrom]
    simp
  have htrail : (trailingWord (trimStart (w.reverse ++ before))).reverse = w := by
    rw [trimStart_reverse hne hw, trailingWord_plain hw hb, List.reverse_reverse]
  rw [opensClause, trimStart_blank, hlead.trimmed, hlead.plain, hopen]
  simp [htrail, hcall]

/-- The tables that the scan finds in a text, up to their order, between the text before it
(nearest first) and the one behind it. -/
def Finds (d : Dialect) (before s t : List Char) (found : List TableRef) : Prop :=
  (tablesFrom d before (s ++ t)).Perm (found ++ tablesFrom d (s.reverse ++ before) t)

namespace Finds

theorem nil : Finds d before [] t [] := .refl _

theorem append (hs : Finds d before s (s' ++ t) found)
    (hs' : Finds d (s.reverse ++ before) s' t found') :
    Finds d before (s ++ s') t (found ++ found') := by
  unfold Finds at *
  rw [List.append_assoc, List.reverse_append, List.append_assoc, List.append_assoc]
  exact hs.trans (hs'.append_left found)

/-- A part in which nothing is found. -/
theorem skip (hs : Finds d before s (s' ++ t) [])
    (hs' : Finds d (s.reverse ++ before) s' t found) : Finds d before (s ++ s') t found :=
  hs.append hs'

theorem close (hs : Finds d before s (s' ++ t) found)
    (hs' : Finds d (s.reverse ++ before) s' t []) : Finds d before (s ++ s') t found := by
  simpa using hs.append hs'

theorem perm (hs : Finds d before s t found) (h : found.Perm found') :
    Finds d before s t found' := List.Perm.trans hs (h.append_right _)

/-- Nothing is found in a text without FROM and JOIN. -/
theorem flat (hs : Flat s) (hfree : Free ["FROM", "JOIN"] s) (ht : Border t) :
    Finds d before s t [] := .of_eq (tablesFrom_append hs hfree ht)

theorem char (hc : isWordChar c = false) : Finds d before [c] t [] := .of_eq (tablesFrom_cons hc)

theorem lead (hs : Flat s) (hfree : Free ["FROM", "JOIN"] s) :
    Finds d before (s ++ [' ']) t [] := by
  refine .of_eq ?_
  simpa using tablesFrom_append_blank hs hfree

/-- At a FROM that opens a clause the items of its list are found. -/
theorem opened (h : opensClause (' ' :: before) = true) :
    Finds d before " FROM ".toList t (readItems d true (trimStart t)) := by
  rw [Finds, tablesFrom_from, if_pos h]

theorem unopened (h : opensClause (' ' :: before) = false) :
    Finds d before " FROM ".toList t [] := by
  rw [Finds, tablesFrom_from, if_neg (by simp [h])]

/-- At a JOIN its one item is found. -/
theorem joined : Finds d before " JOIN ".toList t (readItems d false (trimStart t)) :=
  .of_eq tablesFrom_join

end Finds

end Querent.Sql
