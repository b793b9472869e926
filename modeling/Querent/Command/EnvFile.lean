import Querent.Text.Blank
import Querent.Text.Word

/-! Files of variables, a name and a value on each line.

A value may be quoted, in whole or in part, and may take in the values of other variables:
`$NAME`, or the name in braces behind the dollar sign. Between single quotes nothing has a meaning
of its own. A backslash stands before a character that would have one. -/
namespace Querent.Command.EnvFile

/-- A part of a value. -/
inductive Piece where
  | char (c : Char)
  | reference (name : String)
deriving DecidableEq, Repr

/-- What the next character of a value is read as. -/
inductive Mode where
  | plain
  /-- Between single quotes. -/
  | verbatim
  /-- Behind a backslash. -/
  | escaped
  /-- In a variable's name. -/
  | name (read : List Char)
  /-- In a variable's name between braces. -/
  | braced (read : List Char)
  /-- Behind the value: only blanks and a remark may follow. -/
  | ending
deriving DecidableEq, Repr

def escapable : List Char := ['\\', '\'', '"', '$', ' ']

def closeBrace : Char := '\x7d'

def openBrace : Char := '\x7b'

/-- The variable of a name read backwards; an empty name stands for nothing. -/
def variableOf (name : List Char) : List Piece :=
  if name.isEmpty then [] else [.reference (.ofList name.reverse)]

/-- Reads a value. In double quotes blanks and single quotes are characters like any other. -/
def readValue (quoted : Bool) (mode : Mode) : List Char → Option (List Piece)
  | [] =>
    match mode with
    | .verbatim => none
    | .braced _ => none
    | .name n => if quoted then none else some (variableOf n)
    | _ => if quoted then none else some []
  | c :: cs =>
    let keep (rest : Option (List Piece)) := rest.map (.char c :: ·)
    match mode with
    | .ending =>
      if c == ' ' || c == '\t' then readValue quoted .ending cs
      else if c == '#' then some []
      else none
    | .escaped =>
      if escapable.contains c then keep (readValue quoted .plain cs)
      else if c == 'n' then (readValue quoted .plain cs).map (.char '\n' :: ·)
      else none
    | .verbatim =>
      if c == '\'' then readValue quoted .plain cs else keep (readValue quoted .verbatim cs)
    | .name n =>
      if Text.isLetterOrNumber c then readValue quoted (.name (c :: n)) cs
      else if c == openBrace && n.isEmpty then readValue quoted (.braced []) cs
      else if c == '$' then (readValue quoted (.name []) cs).map (variableOf n ++ ·)
      else (keep (readValue quoted .plain cs)).map (variableOf n ++ ·)
    | .braced n =>
      if c == closeBrace then (readValue quoted .plain cs).map (variableOf n ++ ·)
      else readValue quoted (.braced (c :: n)) cs
    | .plain =>
      if c == '$' then readValue quoted (.name []) cs
      else if c == '"' then readValue (!quoted) .plain cs
      else if c == '\\' then readValue quoted .escaped cs
      else if quoted then keep (readValue quoted .plain cs)
      else if c == '\'' then readValue quoted .verbatim cs
      else if c == ' ' || c == '\t' then readValue quoted .ending cs
      else keep (readValue quoted .plain cs)

/-- A name and the rest behind it. -/
def readName : List Char → Option (String × List Char)
  | [] => none
  | c :: cs =>
    let inName (c : Char) := c.isAlphanum || c == '_' || c == '.'
    if c.isAlpha || c == '_' then
      some (.ofList (c :: cs.takeWhile inName), cs.dropWhile inName)
    else none

/-- What follows an equals sign. -/
def afterEquals : List Char → Option (List Char)
  | '=' :: cs => some cs
  | _ => none

/-- A name and what follows its equals sign. The word `export` may stand before the name. -/
def readEntry (cs : List Char) : Option (String × List Char) := do
  let (name, cs) ← readName cs
  let cs := Text.trimStart cs
  match afterEquals cs with
  | some cs => some (name, cs)
  | none =>
    if name == "export" then
      let (name, cs) ← readName cs
      some (name, ← afterEquals (Text.trimStart cs))
    else none

/-- A line's variable; a blank line and a remark have none, and blanks around the line do not count.
No answer at all is a mistake. -/
def readLine (line : List Char) : Option (Option (String × List Piece)) :=
  match Text.trim line with
  | [] => some none
  | '#' :: _ => some none
  | cs => do
    let (name, cs) ← readEntry cs
    match Text.trimStart cs with
    | [] => some (some (name, []))
    | '#' :: _ => some (some (name, []))
    | cs => some (some (name, ← readValue false .plain cs))

/-- The lines of a text, without what ends them. -/
def lines (text : String) : List (List Char) :=
  (go [] text.toList).map fun line =>
    match line with
    | '\r' :: line => line.reverse
    | line => line.reverse
where
  /-- The lines, each read backwards. -/
  go (line : List Char) : List Char → List (List Char)
    | [] => if line.isEmpty then [] else [line]
    | '\n' :: cs => line :: go [] cs
    | c :: cs => go (c :: line) cs

/-- The variables of a file up to the first mistake. -/
def read (text : String) : List (String × List Piece) := go (lines text)
where
  /-- Those of some lines. -/
  go : List (List Char) → List (String × List Piece)
    | [] => []
    | line :: rest =>
      match readLine line with
      | none => []
      | some none => go rest
      | some (some v) => v :: go rest

end Querent.Command.EnvFile
