import Querent.Row.Cell

/-! Results by column: a name and its values, one for each row. -/
namespace Querent

/-- What a stored column may hold. -/
inductive Primitive where
  | null
  | bool (b : Bool)
  | number (n : Number)
  | text (s : String)
deriving DecidableEq

/-- Columns to their values, in the order of the names' first appearance. -/
abbrev Columnar := Ordered (List Primitive)

namespace Primitive

def toJson : Primitive → Json
  | null => .null
  | bool b => .bool b
  | number n => .number n
  | text s => .string s

/-- A plain JSON value. -/
def ofPlain? : Json → Option Primitive
  | .null => some null
  | .bool b => some (bool b)
  | .number n => some (number n)
  | .string s => some (text s)
  | _ => none

/-- A JSON value; one with structure becomes its text. -/
def ofJson (j : Json) : Primitive := (ofPlain? j).getD (text j.compact)

/-- A cell; dates and times become texts, and values with structure their JSON text. -/
def ofCell (c : Cell) : Primitive := ofJson c.toJson

end Primitive

namespace Columnar

/-- The names of all columns, in the order of their first appearance. -/
def columnNames (rows : List Record) : List String :=
  (Ordered.ofList (rows.flatMap fun r => r.keys.map fun k => (k, ()))).keys

/-- The values of one column, null where a row lacks it. -/
def column (name : String) (rows : List Record) : List Primitive :=
  rows.map fun r => ((r.get? name).map Primitive.ofCell).getD .null

def ofRows (rows : List Record) : Columnar :=
  .ofList ((columnNames rows).map fun n => (n, column n rows))

def toJson (t : Columnar) : Json :=
  .object (t.entries.map fun (k, vs) => (k, .array (vs.map Primitive.toJson)))

/-- The columns as a value of its own, in which objects are sorted. -/
def toValue (t : Columnar) : Json :=
  .object (Json.sortMembers (t.entries.map fun (k, vs) => (k, .array (vs.map Primitive.toJson))))

/-- The values of an array. -/
def values? (v : Json) : Option (List Primitive) := v.array?.map (·.map Primitive.ofJson)

/-- The columns of an object of arrays; nothing for any other value. -/
def ofJson? (j : Json) : Option Columnar := do
  let members ← j.members?
  let columns ← members.mapM fun (k, v) => (values? v).map fun vs => (k, vs)
  some (.ofList columns)

/-- The length of the longest column. -/
def rowCount (t : Columnar) : Nat := t.values.foldl (fun n vs => max n vs.length) 0

/-- The rows; a short column is padded with null. -/
def toRows (t : Columnar) : List (Ordered Primitive) :=
  (List.range t.rowCount).map fun i => t.mapWithKey fun _ vs => (vs[i]?).getD .null

end Columnar

end Querent
