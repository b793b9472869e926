import Querent.Json.Tree

/-! Records read from JSON: their fields by name from an object, or in order from an array.

An object may hold names that are no fields; what is under them is not read. A field twice is a
fault. An array gives the fields in order and may stop before a field only where that field and
all behind it have a value of their own to fall back on. -/
namespace Querent.Json

/-- The fields of a record that were given. -/
structure Fields where
  given : List (String × Tree)
  /-- They came in an array. -/
  inOrder : Bool

namespace Fields

/-- The members that are fields, if none is given twice and every name is a text. -/
def collect (names : List String) (given : List (String × Tree)) :
    List (Option String × Tree) → Option (List (String × Tree))
  | [] => some given
  | (none, _) :: _ => none
  | (some k, v) :: rest =>
    if names.contains k then
      if given.any (·.1 == k) then none else collect names (given ++ [(k, v)]) rest
    else collect names given rest

/-- The given ones of the named fields. -/
def read (names : List String) : Tree → Option Fields
  | .object members => (collect names [] members).map ({ given := ·, inOrder := false })
  | .array items =>
    if items.length ≤ names.length then some { given := names.zip items, inOrder := true }
    else none
  | _ => none

def get? (f : Fields) (name : String) : Option Tree :=
  (f.given.find? (·.1 == name)).map (·.2)

/-- A field that must be there. -/
def required {α : Type} (f : Fields) (name : String) (decode : Tree → Option α) : Option α :=
  (f.get? name).bind decode

/-- A field with a value to fall back on. -/
def orElse {α : Type} (f : Fields) (name : String) (decode : Tree → Option α) (fallback : α) :
    Option α :=
  match f.get? name with
  | some t => decode t
  | none => some fallback

/-- Null for nothing. -/
def nullable {α : Type} (decode : Tree → Option α) : Tree → Option (Option α)
  | .null => some none
  | t => (decode t).map some

/-- A field that may be null or missing. -/
def optional {α : Type} (f : Fields) (name : String) (decode : Tree → Option α) :
    Option (Option α) :=
  f.orElse name (nullable decode) none

/-- A field that may be null, or missing from an object. -/
def optionalByName {α : Type} (f : Fields) (name : String) (decode : Tree → Option α) :
    Option (Option α) :=
  if f.inOrder then f.required name (nullable decode) else f.optional name decode

end Fields

namespace Tree

def string? : Tree → Option String
  | string s => s
  | _ => none

def bool? : Tree → Option Bool
  | bool b => some b
  | _ => none

/-- An integer within bounds. -/
def intIn? (low high : Int) : Tree → Option Int
  | number (some (.int n)) => if low ≤ n && n ≤ high then some n else none
  | _ => none

def int64? : Tree → Option Int := intIn? (-(Decimal.wordBound 63)) (Decimal.wordBound 63 - 1)

def port? (t : Tree) : Option Nat := (intIn? 0 65535 t).map Int.toNat

/-- Each item of an array. -/
def list? {α : Type} (decode : Tree → Option α) : Tree → Option (List α)
  | array items => items.mapM decode
  | _ => none

def value? : Tree → Option Json := ofTree maxDepth

/-- The name of a case: a text, or an object with that name over null. -/
def tag? : Tree → Option String
  | string s => s
  | object [(k, null)] => k
  | _ => none

end Tree

mutual

/-- The tree that a value is written as. -/
def toTree : Json → Tree
  | null => .null
  | bool b => .bool b
  | number n => .number (some n)
  | string s => .string (some s)
  | array items => .array (treesOf items)
  | object members => .object (memberTrees members)

def treesOf : List Json → List Tree
  | [] => []
  | v :: rest => toTree v :: treesOf rest

def memberTrees : List (String × Json) → List (Option String × Tree)
  | [] => []
  | (k, v) :: rest => (some k, toTree v) :: memberTrees rest

end

end Querent.Json
