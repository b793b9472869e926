import Querent.Json.Basic
import Querent.Json.Token

/-! JSON text as a tree of what is written: members in their order, repeated ones included, and
strings and numbers whose own faults show only when they are read. -/
namespace Querent.Json

/-- The number of a literal: an integer where it fits into 64 bits, with its sign or without one,
and a float otherwise. A zero with a minus sign is a float. -/
def numberOf (l : Decimal.Literal) : Option Number :=
  let n := Decimal.value l.whole
  if l.isWhole && !l.negative && n < Decimal.wordBound 64 then some (.int n)
  else if l.isWhole && l.negative && n != 0 && n ≤ Decimal.wordBound 63 then some (.int (-n))
  else l.toFloat?.map .float

/-- A value as written. A number beyond its range and a string with a broken escape are there
without their content. -/
inductive Tree where
  | null
  | bool (b : Bool)
  | number (n : Option Number)
  | string (s : Option String)
  | array (items : List Tree)
  | object (members : List (Option String × Tree))

namespace Tree

mutual

/-- A value and the tokens behind it. The fuel bounds the number of steps; the number of tokens is
enough. -/
def readValue : Nat → List Token → Option (Tree × List Token)
  | 0, _ => none
  | fuel + 1, tokens =>
    match tokens with
    | .null :: rest => some (null, rest)
    | .bool b :: rest => some (bool b, rest)
    | .number l :: rest => some (number (numberOf l), rest)
    | .string s :: rest => some (string s, rest)
    | .openArray :: .closeArray :: rest => some (array [], rest)
    | .openArray :: rest => (readItems fuel rest).map fun (items, rest) => (array items, rest)
    | .openObject :: .closeObject :: rest => some (object [], rest)
    | .openObject :: rest =>
      (readMembers fuel rest).map fun (members, rest) => (object members, rest)
    | _ => none

/-- The items of an array, at least one, up to its end. -/
def readItems : Nat → List Token → Option (List Tree × List Token)
  | 0, _ => none
  | fuel + 1, tokens =>
    match readValue fuel tokens with
    | some (v, .closeArray :: rest) => some ([v], rest)
    | some (v, .comma :: rest) => (readItems fuel rest).map fun (vs, rest) => (v :: vs, rest)
    | _ => none

/-- The members of an object, at least one, up to its end. -/
def readMembers : Nat → List Token → Option (List (Option String × Tree) × List Token)
  | 0, _ => none
  | fuel + 1, tokens =>
    match tokens with
    | .string k :: .colon :: tokens =>
      match readValue fuel tokens with
      | some (v, .closeObject :: rest) => some ([(k, v)], rest)
      | some (v, .comma :: rest) =>
        (readMembers fuel rest).map fun (ms, rest) => ((k, v) :: ms, rest)
      | _ => none
    | _ => none

end

/-- The tree of a text that holds one value and nothing else. -/
def parse (text : String) : Option Tree := do
  let tokens ← Token.scan text.toList
  match readValue (tokens.length + 1) tokens with
  | some (tree, []) => some tree
  | _ => none

end Tree

/-- The deepest nesting of arrays and objects that is read. -/
def maxDepth : Nat := 127

mutual

/-- The value of a tree with at most `depth` levels; objects are sorted. -/
def ofTree (depth : Nat) : Tree → Option Json
  | .null => some null
  | .bool b => some (bool b)
  | .number n => n.map number
  | .string s => s.map string
  | .array items => if depth == 0 then none else (ofItems (depth - 1) items).map array
  | .object members =>
    if depth == 0 then none
    else (ofMembers (depth - 1) members).map fun ms => object (sortMembers ms)

def ofItems (depth : Nat) : List Tree → Option (List Json)
  | [] => some []
  | t :: rest =>
    match ofTree depth t, ofItems depth rest with
    | some v, some vs => some (v :: vs)
    | _, _ => none

def ofMembers (depth : Nat) : List (Option String × Tree) → Option (List (String × Json))
  | [] => some []
  | (k, t) :: rest =>
    match k, ofTree depth t, ofMembers depth rest with
    | some k, some v, some ms => some ((k, v) :: ms)
    | _, _, _ => none

end

/-- The value a text holds. -/
def parse (text : String) : Option Json := (Tree.parse text).bind (ofTree maxDepth)

end Querent.Json
