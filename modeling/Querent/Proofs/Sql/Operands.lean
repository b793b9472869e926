import Querent.Proofs.Sql.Leads
import Querent.Proofs.Sql.Nested
import Querent.Proofs.Sql.Spelling

/-! The two sides of an equality that is a text by itself, and the parts they are taken for. A side is
read with its quotes and then cut at every dot, those within quotes among them. -/
namespace Querent.Sql

open Text

variable {w l r s₁ s₂ : List Char} {is left right : List Ident}

/-! ### The parts of a name -/

namespace Ident

/-- The parts that a name falls into. -/
def parts (i : Ident) : List (List Char) := nameParts i.text

/-- Whether a name holds no mark that could quote one. -/
def IsClean (i : Ident) : Prop := ∀ c ∈ i.name, isNameQuote c = false

instance (i : Ident) : Decidable i.IsClean := List.decidableBAll _ i.name

theorem unquote_clean {i : Ident} (h : i.IsClean) : unquote i.text = i.name := by
  cases i with
  | bare c cs opens chars =>
    refine unquote_eq_self (fun d hd => ?_) h
    by_contra hblank
    rw [Bool.not_eq_false] at hblank
    exact absurd (forall_inName opens chars d hd) (by simp [inName_of_isBlank hblank])
  | quoted mark name isMark ne_nil free => exact unquote_quoted isMark ne_nil h

/-- Quotes put no dot into a name. -/
theorem count_text (i : Ident) : i.text.count '.' = i.name.count '.' := by
  cases i with
  | bare c cs opens chars => rfl
  | quoted mark name isMark ne_nil free =>
    have hmark : mark ≠ '.' := by
      rintro rfl
      exact absurd isMark (by decide)
    simp [text, Ident.name, List.count_append, hmark]

/-- A name falls into one part more than it holds dots. -/
theorem length_parts (i : Ident) : i.parts.length = i.name.count '.' + 1 := by
  rw [parts, nameParts, List.length_map, length_splitAt, count_text]

theorem parts_of_not_mem {i : Ident} (h : i.IsClean) (hdot : '.' ∉ i.name) : i.parts = [i.name] := by
  have htext : '.' ∉ i.text := by rwa [← List.count_eq_zero, count_text, List.count_eq_zero]
  rw [parts, nameParts, splitAt_of_not_mem htext, List.map_singleton, unquote_clean h]

end Ident

/-! ### The parts of a side -/

/-- How many dots there are in some names. -/
def dotsIn (is : List Ident) : Nat := (is.flatMap Ident.name).count '.'

theorem nameParts_written_eq (hne : is ≠ []) : nameParts (written is) = is.flatMap Ident.parts := by
  induction is with
  | nil => contradiction
  | cons i is ih =>
    cases is with
    | nil => simp [written, Ident.parts]
    | cons j is =>
      rw [written, nameParts, splitAt_append, List.map_append, List.flatMap_cons, ← ih (by simp)]
      rfl

theorem length_flatMap_parts (is : List Ident) :
    (is.flatMap Ident.parts).length = is.length + dotsIn is := by
  induction is with
  | nil => rfl
  | cons i is ih =>
    rw [List.flatMap_cons, List.length_append, ih, i.length_parts, dotsIn, dotsIn, List.flatMap_cons,
      List.count_append, List.length_cons]
    omega

theorem dotsIn_eq_zero : dotsIn is = 0 ↔ ∀ i ∈ is, '.' ∉ i.name := by
  simp [dotsIn, List.count_eq_zero]

/-- The parts are the names exactly if no name holds a dot. -/
theorem flatMap_parts_eq_iff (hclean : ∀ i ∈ is, i.IsClean) :
    is.flatMap Ident.parts = is.map Ident.name ↔ ∀ i ∈ is, '.' ∉ i.name := by
  constructor
  · intro h
    have hlength := length_flatMap_parts is
    rw [h, List.length_map] at hlength
    exact dotsIn_eq_zero.1 (by omega)
  · intro h
    induction is with
    | nil => rfl
    | cons i is ih =>
      obtain ⟨hi, hclean⟩ := List.forall_mem_cons.1 hclean
      obtain ⟨hdot, h⟩ := List.forall_mem_cons.1 h
      rw [List.flatMap_cons, Ident.parts_of_not_mem hi hdot, ih hclean h]
      rfl

/-- A literal word is made of letters. -/
theorem not_mem_of_isLiteral {name : List Char} (h : isLiteral [name] = true) : '.' ∉ name := by
  have hupper : ∀ k ∈ ["TRUE", "FALSE", "NULL"], k.toList.all Char.isUpper = true := by decide
  obtain ⟨k, hk, hword⟩ := List.any_eq_true.1 h
  have hsame : sameLetters name k.toList = true := beq_iff_eq.2 (beq_iff_eq.1 hword).symm
  intro hdot
  exact absurd (isAlpha_of_sameLetters (hupper k hk) hsame '.' hdot) (by decide)

theorem isLiteral_of_two_le {names : List (List Char)} (h : 2 ≤ names.length) :
    isLiteral names = false := by
  match names with
  | [] | [_] => simp at h
  | _ :: _ :: _ => rfl

/-- Cut or not, a side is a literal if it is one name that spells such a word. -/
theorem isLiteral_flatMap_parts (hclean : ∀ i ∈ is, i.IsClean) :
    isLiteral (is.flatMap Ident.parts) = isLiteral (is.map Ident.name) := by
  by_cases hdot : ∀ i ∈ is, '.' ∉ i.name
  · rw [(flatMap_parts_eq_iff hclean).2 hdot]
  · have hcut : 2 ≤ (is.flatMap Ident.parts).length := by
      have hsome : dotsIn is ≠ 0 := fun h => hdot (dotsIn_eq_zero.1 h)
      have hne : is ≠ [] := by
        rintro rfl
        simp at hdot
      have hpos := List.length_pos_iff.2 hne
      rw [length_flatMap_parts]
      omega
    rw [isLiteral_of_two_le hcut]
    match is with
    | [] => rfl
    | [i] =>
      rw [eq_comm, ← Bool.not_eq_true]
      intro h
      exact hdot fun j hj => List.mem_singleton.1 hj ▸ not_mem_of_isLiteral h
    | _ :: _ :: _ => rfl

/-! ### Equalities -/

/-- A side of an equality as it is written: up to three names, quoted ones without marks of quotes. -/
structure Side (w : List Char) (is : List Ident) : Prop where
  path : Path w is
  short : is.length ≤ 3
  latin : ∀ i ∈ is, i.isLatin = true
  clean : ∀ i ∈ is, i.IsClean

/-- What stands for some names. -/
def spelled (names : List (List Char)) : List String := names.map String.ofList

theorem spelled_inj {names names' : List (List Char)} : spelled names = spelled names' ↔ names = names' :=
  List.map_inj_right fun _ _ => String.ofList_inj.1

/-- The equality that is found has the parts of the names, unless a side is a literal. -/
theorem equalities_parts (hl : Side l left) (hr : Side r right)
    (before : ∀ c ∈ s₁, isBlank c = true) (behind : ∀ c ∈ s₂, isBlank c = true) :
    equalities (.ofList (l ++ (s₁ ++ '=' :: (s₂ ++ r)))) =
      if isLiteral (left.map Ident.name) || isLiteral (right.map Ident.name) then []
      else [⟨spelled (left.flatMap Ident.parts), spelled (right.flatMap Ident.parts)⟩] := by
  have hread := hl.path.readEquality (t := []) hr.path hl.latin hr.latin hl.short hr.short before behind
    (by simp [Apart]) rfl
  rw [List.append_nil] at hread
  rw [equalities, String.toList_ofList, equalitiesIn_of_some hread, equalitiesIn, List.append_nil,
    keepEquality, nameParts_written_eq hl.path.ne_nil, nameParts_written_eq hr.path.ne_nil,
    isLiteral_flatMap_parts hl.clean, isLiteral_flatMap_parts hr.clean]
  show (if isLiteral (left.map Ident.name) || isLiteral (right.map Ident.name) then none
    else some _).toList = _
  split <;> rfl

/-- An equality of two sides is found, unless one of them is a single name, quoted or not, that spells a
literal. Its parts are those of the names, and a name falls into one more than it holds dots. So they
are the names exactly if there is no dot in any. -/
theorem equalities_operands (hl : Side l left) (hr : Side r right)
    (before : ∀ c ∈ s₁, isBlank c = true) (behind : ∀ c ∈ s₂, isBlank c = true) :
    let found := equalities (.ofList (l ++ (s₁ ++ '=' :: (s₂ ++ r))))
    let literal := isLiteral (left.map Ident.name) || isLiteral (right.map Ident.name)
    found = (if literal then [] else
      [⟨spelled (left.flatMap Ident.parts), spelled (right.flatMap Ident.parts)⟩]) ∧
    (∀ i ∈ left ++ right, i.parts.length = i.name.count '.' + 1) ∧
    (found = [⟨spelled (left.map Ident.name), spelled (right.map Ident.name)⟩] ↔
      literal = false ∧ ∀ i ∈ left ++ right, '.' ∉ i.name) := by
  intro found literal
  have hfound : found = if literal then [] else
      [⟨spelled (left.flatMap Ident.parts), spelled (right.flatMap Ident.parts)⟩] :=
    equalities_parts hl hr before behind
  refine ⟨hfound, fun i _ => i.length_parts, ?_⟩
  rw [hfound]
  cases literal with
  | true => simp
  | false =>
    simp only [Bool.false_eq_true, if_false, List.cons.injEq, Equality.mk.injEq, and_true, true_and,
      spelled_inj, flatMap_parts_eq_iff hl.clean, flatMap_parts_eq_iff hr.clean, List.forall_mem_append]

theorem side_one (i : Ident) (hlatin : i.isLatin = true) (hclean : i.IsClean) :
    Side i.text [i] where
  path := .one i
  short := by simp
  latin := by simpa using hlatin
  clean := by simpa using hclean

/-- A column behind a table, with blanks around the dot. -/
theorem side_two (i j : Ident) (hlatin : i.isLatin && j.isLatin = true) (hi : i.IsClean)
    (hj : j.IsClean) : Side (i.text ++ ([' '] ++ '.' :: ([' '] ++ j.text))) [i, j] where
  path := .cons i isBlank_of_mem_space isBlank_of_mem_space (.one j)
  short := by simp
  latin := by simpa using hlatin
  clean := by simpa using ⟨hi, hj⟩

theorem isNameQuote_double : isNameQuote '"' = true := rfl

theorem isNameQuote_backtick : isNameQuote '`' = true := rfl

def orderLines : Ident := .quoted '"' "Order lines".toList isNameQuote_double (by decide) (by decide)

def customerId : Ident :=
  .quoted '`' "customer=id".toList isNameQuote_backtick (by decide) (by decide)

/-- A quoted name with a dot in it. -/
def dottedName : Ident :=
  .quoted '"' "o.customer_id".toList isNameQuote_double (by decide) (by decide)

def bareName : Ident := .bare 'i' ['d'] rfl rfl

/-- Blanks and signs in quotes are kept. -/
theorem equalities_operands_quoted :
    equalities "\"Order lines\" . `customer=id` =id" = [⟨["Order lines", "customer=id"], ["id"]⟩] := by
  have hl := side_two orderLines customerId rfl (by decide) (by decide)
  have hr := side_one bareName rfl (by decide)
  obtain ⟨-, -, hnames⟩ := equalities_operands hl hr isBlank_of_mem_space (List.forall_mem_nil _)
  exact hnames.2 ⟨by decide, by decide⟩

/-- A column by itself passes for a column of a table. -/
theorem name_cut : ¬ ∀ (l r s₁ s₂ : List Char) (left right : List Ident), Side l left →
    Side r right → (∀ c ∈ s₁, isBlank c = true) → (∀ c ∈ s₂, isBlank c = true) →
    isLiteral (left.map Ident.name) = false → isLiteral (right.map Ident.name) = false →
    equalities (.ofList (l ++ (s₁ ++ '=' :: (s₂ ++ r)))) =
      [⟨spelled (left.map Ident.name), spelled (right.map Ident.name)⟩] := by
  intro h
  have hl := side_one dottedName rfl (by decide)
  have hr := side_one bareName rfl (by decide)
  have hnames := h _ _ [] [] _ _ hl hr (by simp) (by simp) (by decide) (by decide)
  rw [equalities_parts hl hr (by simp) (by simp)] at hnames
  exact absurd hnames (by decide)

end Querent.Sql
