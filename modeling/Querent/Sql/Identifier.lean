import Querent.Text.Blank
import Querent.Text.Parts
import Querent.Text.Word

/-! Names in SQL: bare ones, and any text between double quotes or backticks. -/
namespace Querent.Sql

open Text

/-- The characters a bare name opens with. -/
def opensName (c : Char) : Bool := c.isAlpha || c == '_'

/-- The characters a bare alias opens with; the long s and the kelvin sign pass for letters. -/
def opensAlias (c : Char) : Bool := opensName c || c == '\u017f' || c == '\u212a'

/-- The characters a bare name goes on with. -/
def inName (c : Char) : Bool := isWordChar c || c == '$'

/-- The marks that quote a name. -/
def isNameQuote (c : Char) : Bool := c == '"' || c == '`'

/-- The name a text opens with, as written, and the rest. `opens` tells which characters a bare
name may open with; a quoted name holds at least one character. -/
def readName (opens : Char → Bool) : List Char → Option (List Char × List Char)
  | [] => none
  | c :: cs =>
    if opens c then some (c :: cs.takeWhile inName, cs.dropWhile inName)
    else if isNameQuote c then
      let inner := cs.takeWhile (· != c)
      match cs.dropWhile (· != c) with
      | q :: rest => if inner.isEmpty then none else some (c :: (inner ++ [q]), rest)
      | [] => none
    else none

theorem readName_length {opens : Char → Bool} {text name rest : List Char}
    (h : readName opens text = some (name, rest)) : rest.length < text.length := by
  cases text with
  | nil => simp [readName] at h
  | cons c cs =>
    simp only [readName] at h
    split at h
    · have := (List.dropWhile_suffix (l := cs) inName).length_le
      simp at h
      obtain ⟨-, rfl⟩ := h
      simp only [List.length_cons]
      omega
    · split at h
      · have hs := (List.dropWhile_suffix (l := cs) (· != c)).length_le
        split at h
        · rename_i hd
          split at h
          · simp at h
          · simp at h
            obtain ⟨-, rfl⟩ := h
            rw [hd] at hs
            simp only [List.length_cons] at *
            omega
        · simp at h
      · simp at h

/-- The text after a dot, blanks around the dot apart. -/
def afterDot (text : List Char) : Option (List Char) :=
  match trimStart text with
  | '.' :: rest => some (trimStart rest)
  | _ => none

theorem afterDot_length {text rest : List Char} (h : afterDot text = some rest) :
    rest.length < text.length := by
  have ht := trimStart_length_le text
  unfold afterDot at h
  split at h
  · rename_i r hr
    have := trimStart_length_le r
    obtain rfl := Option.some.inj h
    rw [hr] at ht
    simp only [List.length_cons] at ht
    omega
  · simp at h

/-- Blanks around a name go, then all quote marks at its ends. -/
def unquote (name : List Char) : List Char :=
  ((((trim name).dropWhile isNameQuote).reverse).dropWhile isNameQuote).reverse

/-- Words that can follow a table's name without being its alias. -/
def reserved : List String :=
  ["WHERE", "JOIN", "INNER", "LEFT", "RIGHT", "FULL", "OUTER", "CROSS", "NATURAL", "ON", "USING",
    "GROUP", "ORDER", "BY", "HAVING", "LIMIT", "OFFSET", "UNION", "INTERSECT", "EXCEPT", "WINDOW",
    "FETCH", "FOR", "AS", "SELECT", "FROM", "AND", "OR", "NOT", "STRAIGHT_JOIN", "LATERAL",
    "TABLESAMPLE", "USE", "FORCE", "IGNORE", "PARTITION", "WITH", "LOCK"]

/-- Whether a word is one of some words, in either case of the letters A to Z. -/
def isOneOf (words : List String) (word : List Char) : Bool :=
  words.any fun w => sameLetters w.toList word

def isReserved (word : List Char) : Bool := isOneOf reserved word

end Querent.Sql
