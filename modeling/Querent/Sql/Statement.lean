import Querent.Text.Blank
import Querent.Text.Word

/-! Comments of a statement: `--` to the end of the line, and `/* */` to the first close. -/
namespace Querent.Sql

/-- Removes line comments; the line break that ends one stays. -/
def dropLineComments : List Char → List Char
  | [] => []
  | [c] => [c]
  | c :: d :: cs =>
    if c == '-' && d == '-' then dropLineComments (cs.dropWhile (· != '\n'))
    else c :: dropLineComments (d :: cs)
termination_by cs => cs.length
decreasing_by
  · have := (List.dropWhile_suffix (l := cs) (· != '\n')).length_le
    simp only [List.length_cons]
    omega
  · simp

/-- What follows the first close of a block comment. -/
def afterClose : List Char → Option (List Char)
  | [] => none
  | [_] => none
  | c :: d :: cs => if c == '*' && d == '/' then some cs else afterClose (d :: cs)

theorem afterClose_length {cs rest : List Char} (h : afterClose cs = some rest) :
    rest.length < cs.length := by
  fun_induction afterClose cs with
  | case1 => simp at h
  | case2 => simp at h
  | case3 c d cs =>
    obtain rfl := Option.some.inj h
    simp only [List.length_cons]
    omega
  | case4 c d cs _ ih =>
    have := ih h
    simp only [List.length_cons] at *
    omega

/-- Removes block comments. One that is never closed stays with all that follows it. -/
def dropBlockComments : List Char → List Char
  | [] => []
  | [c] => [c]
  | c :: d :: cs =>
    if c == '/' && d == '*' then
      match _h : afterClose cs with
      | some rest => dropBlockComments rest
      | none => c :: d :: cs
    else c :: dropBlockComments (d :: cs)
termination_by cs => cs.length
decreasing_by
  · have := afterClose_length ‹_›
    simp only [List.length_cons]
    omega
  · simp

/-- The statement without comments: first the line comments go, then the blocks. -/
def stripComments (sql : List Char) : List Char := dropBlockComments (dropLineComments sql)

/-! The shape of a statement: its first word, its keywords, its end and its row limit. -/

open Text

/-- Keywords of statements that write, define or maintain. -/
def forbiddenKeywords : List String :=
  ["INSERT", "UPDATE", "DELETE", "DROP", "ALTER", "CREATE", "TRUNCATE", "REINDEX", "ANALYZE",
    "VACUUM"]

/-- Keywords of procedure calls, bulk transfer and changes of privilege. -/
def dangerousKeywords : List String := ["EXEC", "CALL", "COPY", "GRANT", "REVOKE"]

/-- The run of letters A to Z and underscores that a statement opens with after white space, in
capitals. -/
def leadingWord (sql : List Char) : List Char :=
  ((trimStart sql).takeWhile fun c => c.isAlpha || c == '_').map Char.toUpper

/-- The statement opens with SELECT, or with WITH, which the keyword scan refuses. -/
def opensAsQuery (sql : List Char) : Bool :=
  leadingWord sql == "SELECT".toList || leadingWord sql == "WITH".toList

/-- The first of some keywords that occurs as a whole word, in the order of the list. -/
def firstKeyword? (keywords : List String) (sql : List Char) : Option String :=
  keywords.find? fun k => hasWord k sql

/-- The statement without white space around it and without semicolons at its end. -/
def body (sql : List Char) : List Char :=
  ((trimStart sql).reverse.dropWhile fun c => isBlank c || c == ';').reverse

/-- No semicolon is left before the end. -/
def isSingle (sql : List Char) : Bool := !(body sql).contains ';'

/-- LIMIT occurs as a whole word, a subquery's included. -/
def hasLimit (sql : List Char) : Bool := hasWord "LIMIT" sql

/-- White space at the ends goes and each run of it inside becomes one space. -/
def normalize (sql : List Char) : List Char := squeeze (trim sql)

end Querent.Sql
