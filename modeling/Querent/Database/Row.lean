import Querent.Database.Session

/-! Rows of a known shape, read field by field. A field is found by its name or by its place, and
its type must be the expected one unless its value is null. -/
namespace Querent.Database

structure Row where
  columns : List Column
  values : List Sent

/-- The rows that a statement brought. -/
def Brought.toRows (b : Brought) : List Row :=
  b.rows.map fun values => { columns := b.columns, values }

namespace Row

/-- The last column of a name and its value. -/
def find (r : Row) (name : String) : Except Fault (Column × Sent) :=
  match (r.columns.zip r.values).reverse.find? (·.1.name == name) with
  | some field => .ok field
  | none => .error (.noColumn name)

/-- The column at a place and its value. -/
def get (r : Row) (index : Nat) : Except Fault (Column × Sent) :=
  match (r.columns.zip r.values)[index]? with
  | some field => .ok field
  | none => .error (.noColumnAt index r.columns.length)

/-- A field that may be null, of one of some types. -/
def optional {α : Type} (types : List String) (decode : Sent → Option α) :
    Column × Sent → Except Fault (Option α)
  | (_, .null) => .ok none
  | (c, v) =>
    if types.contains c.type then
      match decode v with
      | some a => .ok (some a)
      | none => .error .undecodable
    else .error .undecodable

/-- A field that is not null. -/
def required {α : Type} (types : List String) (decode : Sent → Option α)
    (field : Column × Sent) : Except Fault α := do
  match ← optional types decode field with
  | some a => return a
  | none => throw .undecodable

def int? : Sent → Option Int
  | .int n => some n
  | _ => none

def bool? : Sent → Option Bool
  | .bool b => some b
  | _ => none

def text? : Sent → Option String
  | .bytes bs => textOf? bs
  | _ => none

def json? (v : Sent) : Option Json := (text? v).bind Json.parse

def instant? : Sent → Option Moment
  | .moment y mo d h m s micros => momentOf? y mo d h m s micros
  | _ => none

def texts : List String := ["TEXT", "VARCHAR", "CHAR", "NAME", "UNKNOWN"]

def intOf : Column × Sent → Except Fault Int := required ["INT8"] int?

def int (r : Row) (name : String) : Except Fault Int := do intOf (← r.find name)

def bool (r : Row) (name : String) : Except Fault Bool := do
  required ["BOOL"] bool? (← r.find name)

def text (r : Row) (name : String) : Except Fault String := do
  required texts text? (← r.find name)

def textOrNull (r : Row) (name : String) : Except Fault (Option String) := do
  optional texts text? (← r.find name)

def jsonOrNull (r : Row) (name : String) : Except Fault (Option Json) := do
  optional ["JSON", "JSONB"] json? (← r.find name)

def instant (r : Row) (name : String) : Except Fault Moment := do
  required ["TIMESTAMPTZ"] instant? (← r.find name)

end Row

/-- The rows as read, in order; the first that cannot be read counts, then the statement's own
fault. -/
def Brought.readAll {α : Type} (b : Brought) (read : Row → Except Fault α) :
    Except Fault (List α) := do
  let read ← b.toRows.mapM read
  let _ ← b.ended
  return read

/-- The first row as read, if there is one. -/
def Brought.readFirst {α : Type} (b : Brought) (read : Row → Except Fault α) :
    Except Fault (Option α) := do
  let _ ← b.ended
  b.toRows.head?.mapM read

end Querent.Database
