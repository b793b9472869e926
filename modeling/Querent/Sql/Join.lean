import Querent.Sql.Identifier

/-! Joins of a statement with single blanks, and the column equalities in their conditions. -/
namespace Querent.Sql

open Text

/-- What a JOIN names and, if it has an ON, the condition behind it. -/
structure Join where
  target : String
  condition : Option String
deriving DecidableEq, Repr

/-- Both sides of an equality between names, each split into its parts. -/
structure Equality where
  left : List String
  right : List String
deriving DecidableEq, Repr

/-- The parts of a name with dots between them. -/
def dotted (parts : List String) : String := ".".intercalate parts

/-- Keywords that end the condition of a join. -/
def conditionEnds : List String :=
  ["WHERE", "GROUP", "ORDER", "HAVING", "LIMIT", "OFFSET", "UNION", "INTERSECT", "EXCEPT",
    "WINDOW", "FETCH", "LEFT", "RIGHT", "INNER", "FULL", "CROSS", "NATURAL", "OUTER",
    "STRAIGHT_JOIN"]

/-- The text before the first whole word that `p` accepts, or all of it. -/
def upTo (p : List Char → Bool) (text : List Char) : List Char :=
  match findWord p text with
  | some found => found.before.reverse
  | none => text

/-- The text before the first clause keyword. -/
def clauseText (text : List Char) : List Char :=
  upTo (fun w => conditionEnds.any fun k => spells k w) text

/-- The join that the text between two JOIN words holds. -/
def readJoin (segment : List Char) : Join :=
  match findWord (spells "ON") segment with
  | some on =>
    { target := .ofList (trim on.before.reverse)
      condition := some (.ofList (trim (clauseText on.after))) }
  | none => { target := .ofList (trim (clauseText segment)), condition := none }

/-- Every join of a statement, in order. -/
def joins (sql : List Char) : List Join :=
  match _h : findWord (spells "JOIN") sql with
  | none => []
  | some found => readJoin (upTo (spells "JOIN") found.after) :: joins found.after
termination_by sql.length
decreasing_by exact after_length_lt ‹_›

/-- A name followed by at most `more` further ones, each after a dot, and the rest of the text.
Blanks around the dots are left out. -/
def readDotted (more : Nat) (text : List Char) : Option (List Char × List Char) :=
  match readName opensName text with
  | none => none
  | some (name, rest) =>
    match more with
    | 0 => some (name, rest)
    | more + 1 =>
      match (afterDot rest).bind (readDotted more) with
      | some (tail, rest) => some (name ++ '.' :: tail, rest)
      | none => some (name, rest)

/-- The equality a text opens with: two names of up to three parts with `=` between them, as
written, and the rest. -/
def readEquality (text : List Char) : Option (List Char × List Char × List Char) := do
  let (left, rest) ← readDotted 2 text
  match trimStart rest with
  | '=' :: rest =>
    let (right, rest) ← readDotted 2 (trimStart rest)
    some (left, right, rest)
  | _ => none

/-- The parts of a name as written: it is cut at every dot, and each part loses its quotes. -/
def nameParts (name : List Char) : List (List Char) := (splitAt '.' name).map unquote

/-- A name of one part that is one of the words TRUE, FALSE and NULL. -/
def isLiteral (parts : List (List Char)) : Bool :=
  match parts with
  | [word] => isOneOf ["TRUE", "FALSE", "NULL"] word
  | _ => false

/-- The equality of two names as written, unless one side is a literal word or the right side is
a call: the text behind it opens a parenthesis. -/
def keepEquality (left right rest : List Char) : Option Equality :=
  let l := nameParts left
  let r := nameParts right
  if (trimStart rest).head? == some '(' || isLiteral l || isLiteral r then none
  else some { left := l.map String.ofList, right := r.map String.ofList }

theorem readDotted_length {more : Nat} {text name rest : List Char}
    (h : readDotted more text = some (name, rest)) : rest.length < text.length := by
  induction more generalizing text name rest with
  | zero =>
    unfold readDotted at h
    split at h
    · simp at h
    · rename_i hr
      simp only [Option.some.injEq, Prod.mk.injEq] at h
      exact h.2 ▸ readName_length hr
  | succ more ih =>
    unfold readDotted at h
    split at h
    · simp at h
    · rename_i hr
      have hn := readName_length hr
      simp only at h
      split at h
      · rename_i hb
        obtain ⟨dot, hd, hb⟩ := Option.bind_eq_some_iff.1 hb
        have := afterDot_length hd
        have := ih hb
        simp only [Option.some.injEq, Prod.mk.injEq] at h
        rw [← h.2]
        omega
      · simp only [Option.some.injEq, Prod.mk.injEq] at h
        exact h.2 ▸ hn

theorem readEquality_length {text left right rest : List Char}
    (h : readEquality text = some (left, right, rest)) : rest.length < text.length := by
  unfold readEquality at h
  obtain ⟨⟨l, r⟩, hl, h⟩ := Option.bind_eq_some_iff.1 h
  have := readDotted_length hl
  simp only at h
  split at h
  · rename_i r' hr
    obtain ⟨⟨x, y⟩, hx, h⟩ := Option.bind_eq_some_iff.1 h
    have := readDotted_length hx
    have h1 := trimStart_length_le r
    have h2 := trimStart_length_le r'
    rw [hr] at h1
    simp only [Option.some.injEq, Prod.mk.injEq] at h
    rw [← h.2.2]
    simp only [List.length_cons] at h1
    omega
  · simp at h

/-- Every equality of two names in a text, found from the left and without overlap. -/
def equalitiesIn (text : List Char) : List Equality :=
  match text with
  | [] => []
  | c :: cs =>
    match _h : readEquality (c :: cs) with
    | some (left, right, rest) => (keepEquality left right rest).toList ++ equalitiesIn rest
    | none => equalitiesIn cs
termination_by text.length
decreasing_by
  · exact readEquality_length ‹_›
  · simp

/-- The equalities between names in the condition of a join. -/
def equalities (condition : String) : List Equality := equalitiesIn condition.toList

end Querent.Sql
