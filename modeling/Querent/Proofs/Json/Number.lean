import Querent.Proofs.Decimal.Literal
import Querent.Proofs.Json.Scan

/-! Printed numbers read back: an integer as itself, and a finite float as some float. -/
namespace Querent.Json.Token

open Decimal

variable {cs rest ds : List Char} {l : Literal}

/-- A text that no number runs on into. -/
def Ends : List Char → Prop
  | [] => True
  | c :: _ => c.isDigit = false ∧ c ≠ '.' ∧ c ≠ 'e' ∧ c ≠ 'E'

/-- A text that no digits run on into. -/
def Stops (cs : List Char) : Prop := ∀ c ∈ cs.head?, c.isDigit = false

theorem Ends.stops (h : Ends rest) : Stops rest := by
  cases rest with
  | nil => exact nofun
  | cons c cs =>
    rintro d ⟨⟩
    exact h.1

theorem readDigits_append (hds : IsDigits ds) (h : Stops rest) :
    readDigits (ds ++ rest) = some (ds, rest) := by
  have hstop : rest.takeWhile Char.isDigit = [] ∧ rest.dropWhile Char.isDigit = rest := by
    cases rest with
    | nil => exact ⟨rfl, rfl⟩
    | cons c cs => simp [h c rfl]
  rw [readDigits, List.takeWhile_append_of_pos hds.2, List.dropWhile_append_of_pos hds.2, hstop.1,
    hstop.2, List.append_nil]
  obtain ⟨d, ds, rfl⟩ := List.exists_cons_of_ne_nil hds.1
  rfl

theorem readWhole_append (hds : IsWhole ds) (h : Stops rest) :
    readWhole (ds ++ rest) = some (ds, rest) := by
  rw [readWhole, readDigits_append hds.digits h]
  split
  · rename_i hzero
    cases hds.lead _ (Prod.mk.inj (Option.some.inj hzero)).1
  · rfl

theorem readFraction_pointed {fraction : Option (List Char)}
    (hfraction : ∀ ds ∈ fraction, IsDigits ds) (h : Stops rest) (hpoint : ∀ c ∈ rest.head?, c ≠ '.') :
    readFraction (Literal.pointed fraction ++ rest) = some (fraction, rest) := by
  cases fraction with
  | none =>
    cases rest with
    | nil => rfl
    | cons c cs => simp [readFraction, Literal.pointed, hpoint c rfl]
  | some ds => simp [readFraction, Literal.pointed, readDigits_append (hfraction ds rfl) h]

theorem readExponent_powered {exponent : Option (Bool × List Char)}
    (hexponent : ∀ p ∈ exponent, IsDigits p.2) (h : Ends rest) :
    readExponent (Literal.powered exponent ++ rest) = some (exponent, rest) := by
  cases exponent with
  | none =>
    cases rest with
    | nil => rfl
    | cons c cs => simp [readExponent, Literal.powered, h.2.2.1, h.2.2.2]
  | some p =>
    obtain ⟨negative, ds⟩ := p
    have hdigits := readDigits_append (hexponent _ rfl) h.stops
    cases negative <;> simp [readExponent, Literal.powered, hdigits]

theorem head?_powered (exponent : Option (Bool × List Char)) (h : Ends rest) :
    ∀ c ∈ (Literal.powered exponent ++ rest).head?, c.isDigit = false ∧ c ≠ '.' := by
  cases exponent with
  | none =>
    cases rest with
    | nil => exact nofun
    | cons c cs =>
      rintro d ⟨⟩
      exact ⟨h.1, h.2.1⟩
  | some p =>
    rintro d ⟨⟩
    exact ⟨rfl, by decide⟩

theorem stops_pointed (fraction : Option (List Char)) (h : Stops rest) :
    Stops (Literal.pointed fraction ++ rest) := by
  cases fraction with
  | none => exact h
  | some ds =>
    rintro d ⟨⟩
    rfl

/-- Whether a number can open with a character. -/
def OpensNumber (c : Char) : Prop := c = '-' ∨ c.isDigit = true

theorem readSign_written (hl : l.WellFormed) :
    readSign (l.written ++ rest) = (l.negative, l.body ++ rest) := by
  obtain ⟨d, ds, hwhole⟩ := List.exists_cons_of_ne_nil hl.whole.digits.1
  have hd : d.isDigit = true := hl.whole.digits.2 d (hwhole ▸ List.mem_cons_self)
  have hminus : d ≠ '-' := by
    rintro rfl
    cases hd
  cases hnegative : l.negative
  · simp [Literal.written, Literal.body, readSign, hnegative, hwhole, hminus]
  · simp [Literal.written, readSign, hnegative]

/-- A literal as written is read as itself, up to where it ends. -/
theorem readNumber_written (hl : l.WellFormed) (h : Ends rest) :
    readNumber (l.written ++ rest) = some (l, rest) := by
  have hexponent := readExponent_powered hl.exponent h
  have hpower := head?_powered l.exponent h
  have hstops : Stops (Literal.powered l.exponent ++ rest) := fun c hc => (hpower c hc).1
  have hfraction := readFraction_pointed hl.fraction hstops fun c hc => (hpower c hc).2
  have hwhole := readWhole_append hl.whole (stops_pointed l.fraction hstops)
  rw [readNumber, readSign_written hl, Literal.body, List.append_assoc, List.append_assoc]
  simp only [hwhole, hfraction, hexponent, Option.bind_eq_bind, Option.bind_some]

theorem exists_opensNumber (hl : l.WellFormed) : ∃ c cs, l.written = c :: cs ∧ OpensNumber c := by
  obtain ⟨d, ds, hwhole⟩ := List.exists_cons_of_ne_nil hl.whole.digits.1
  have hd : d.isDigit = true := hl.whole.digits.2 d (hwhole ▸ List.mem_cons_self)
  rw [Literal.written, Literal.body, hwhole]
  cases l.negative
  · exact ⟨d, _, rfl, .inr hd⟩
  · exact ⟨'-', _, rfl, .inl rfl⟩

theorem OpensNumber.isSpace {c : Char} (h : OpensNumber c) : isSpace c = false := by
  rcases h with rfl | h
  · rfl
  · rw [Bool.eq_false_iff]
    intro hspace
    simp only [Token.isSpace, Bool.or_eq_true, beq_iff_eq] at hspace
    rcases hspace with ((rfl | rfl) | rfl) | rfl <;> simp at h

theorem OpensNumber.read {c : Char} (h : OpensNumber c) :
    read (c :: cs) = (readNumber (c :: cs)).map fun (l, rest) => (number l, rest) := by
  unfold Token.read
  split
  case h_11 => rfl
  all_goals
    rename_i heq
    rw [(List.cons.inj heq).1] at h
    rcases h with h | h <;> simp at h

theorem scan_written (hl : l.WellFormed) (h : Ends rest) :
    scan (l.written ++ rest) = (scan rest).map (number l :: ·) := by
  have hread := readNumber_written hl h
  obtain ⟨c, cs, htext, hc⟩ := exists_opensNumber hl
  rw [htext, List.cons_append] at hread ⊢
  refine scan_of_read hc.isSpace ?_
  rw [hc.read, hread]
  rfl

end Querent.Json.Token

namespace Querent

open Decimal

/-! ### Numbers of values -/

namespace Number

variable {n : Number}

/-- An integer that fits into 64 bits, with its sign or without, or a finite float. -/
def Proper : Number → Prop
  | int n => -(wordBound 63 : Int) ≤ n ∧ n < wordBound 64
  | float x => x.isFinite = true

/-- The literal that the text of a number is read as. -/
def literal (n : Number) : Literal :=
  ((Json.Token.readNumber n.text.toList).map (·.1)).getD
    { negative := false, whole := [], fraction := none, exponent := none }

theorem literal_of_text {l : Literal} (hl : l.WellFormed) (h : n.text.toList = l.written) :
    n.literal = l := by
  have hread : Json.Token.readNumber (l.written ++ []) = some (l, []) :=
    Json.Token.readNumber_written hl trivial
  rw [List.append_nil] at hread
  rw [literal, h, hread]
  rfl

/-- An integer as written. -/
def integerLiteral (n : Int) : Literal :=
  { negative := n < 0, whole := digits n.natAbs, fraction := none, exponent := none }

theorem wellFormed_integerLiteral (n : Int) : (integerLiteral n).WellFormed :=
  ⟨isWhole_digits _, nofun, nofun⟩

theorem text_int (n : Int) : (int n).text.toList = (integerLiteral n).written := by
  rw [text, Int.toString_eq_repr, Int.repr_eq_if]
  split
  · rename_i h
    have hsign : decide (n < 0) = false := decide_eq_false (by omega)
    rw [Nat.toList_repr, show n.toNat = n.natAbs by omega]
    simp [integerLiteral, Literal.written, Literal.body, Literal.pointed, Literal.powered, hsign, digits]
  · rename_i h
    have hsign : decide (n < 0) = true := decide_eq_true (by omega)
    rw [String.toList_append, Nat.toList_repr, show (-n).toNat = n.natAbs by omega]
    simp [integerLiteral, Literal.written, Literal.body, Literal.pointed, Literal.powered, hsign, digits]

theorem literal_int (n : Int) : (int n).literal = integerLiteral n :=
  literal_of_text (wellFormed_integerLiteral n) (text_int n)

/-- A finite float is written as a literal that is read as a float. -/
theorem literal_float {x : Float} (h : x.isFinite = true) : (float x).literal.WellFormed ∧
    (float x).literal.isWhole = false ∧ (float x).literal.toFloat?.isSome = true ∧
    (float x).text.toList = (float x).literal.written := by
  obtain ⟨l, hformed, hwhole, hread, htext⟩ := exists_literal_of_isFinite layout (by decide) h
  have htext : (float x).text.toList = l.written := htext
  rw [literal_of_text hformed htext]
  exact ⟨hformed, hwhole, hread, htext⟩

theorem literal_spec (h : n.Proper) :
    n.literal.WellFormed ∧ n.text.toList = n.literal.written := by
  cases n with
  | int n =>
    rw [literal_int]
    exact ⟨wellFormed_integerLiteral n, text_int n⟩
  | float x =>
    obtain ⟨hformed, -, -, htext⟩ := literal_float h
    exact ⟨hformed, htext⟩

/-- An integer is read as itself. -/
theorem numberOf_int {n : Int} (h : (int n).Proper) :
    Json.numberOf (int n).literal = some (int n) := by
  obtain ⟨hlow, hhigh⟩ := h
  have hvalue : value (integerLiteral n).whole = n.natAbs := value_digits n.natAbs
  have hwhole : (integerLiteral n).isWhole = true := rfl
  rw [literal_int, Json.numberOf, hvalue, hwhole]
  by_cases hn : n < 0
  · have hnegative : (integerLiteral n).negative = true := decide_eq_true hn
    have hbound : n.natAbs ≤ wordBound 63 := by omega
    have hzero : (n.natAbs != 0) = true := bne_iff_ne.2 (by omega)
    have hminus : -(n.natAbs : Int) = n := by omega
    simp only [hnegative, hbound, hzero, hminus, Bool.not_true, Bool.and_false, Bool.false_and,
      Bool.false_eq_true, if_false, decide_true, Bool.and_self, if_true]
  · have hnegative : (integerLiteral n).negative = false := decide_eq_false hn
    have hbound : n.natAbs < wordBound 64 := by omega
    have hplus : (n.natAbs : Int) = n := by omega
    simp only [hnegative, hbound, hplus, Bool.not_false, decide_true, Bool.and_self, if_true]

/-- No number is beyond the range when its text is read. -/
theorem numberOf_isSome (h : n.Proper) : (Json.numberOf n.literal).isSome = true := by
  cases n with
  | int n =>
    rw [numberOf_int h]
    rfl
  | float x =>
    obtain ⟨-, hwhole, hread, -⟩ := literal_float h
    simpa [Json.numberOf, hwhole] using hread

end Number

theorem Json.Token.scan_number {n : Number} {rest : List Char} (hn : n.Proper) (h : Ends rest) :
    scan (n.text.toList ++ rest) = (scan rest).map (number n.literal :: ·) := by
  obtain ⟨hformed, htext⟩ := Number.literal_spec hn
  rw [htext]
  exact scan_written hformed h

end Querent
