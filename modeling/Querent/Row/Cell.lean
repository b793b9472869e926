import Querent.Calendar.Basic
import Querent.Json.Printer
import Querent.Ordered

/-! Cells and records of a result: one value under each column, in the order of the query. -/
namespace Querent

inductive Cell where
  | null
  | bool (b : Bool)
  | number (n : Number)
  | text (s : String)
  | date (d : Date)
  /-- A moment in universal time. -/
  | instant (m : Moment)
  /-- A moment on a clock of no known zone. -/
  | civil (m : Moment)
  | time (t : Time)
  | json (j : Json)
  | bytes (bs : List UInt8)
  /-- What an engine returned and nobody could decode. -/
  | undecoded

/-- Columns to cells, in the order of the query. -/
abbrev Record := Ordered Cell

namespace Cell

/-- What is shown for a value that has no other form. -/
def undecodedText : String := "[unserializable]"

/-- A float that is not finite has no form in JSON and becomes null. -/
def ofFloat (x : Float) : Cell := if x.isFinite then number (.float x) else null

/-- A JSON value as a cell: arrays and objects stay JSON. -/
def ofJson : Json → Cell
  | .null => null
  | .bool b => bool b
  | .number n => number n
  | .string s => text s
  | j => json j

def isNull : Cell → Bool
  | null => true
  | _ => false

/-- The text of a date or time; moments are cut to the millisecond. -/
def temporalText : Cell → Option String
  | date d => some d.text
  | instant m => some (m.milliText ++ "Z")
  | civil m => some m.milliText
  | time t => some t.text
  | _ => none

/-- A cell as JSON: dates and times are texts and bytes are numbers. -/
def toJson : Cell → Json
  | null => .null
  | bool b => .bool b
  | number n => .number n
  | text s => .string s
  | date d => .string d.text
  | instant m => .string (m.milliText ++ "Z")
  | civil m => .string m.milliText
  | time t => .string t.text
  | json j => j
  | bytes bs => .array (bs.map fun b => .ofNat b.toNat)
  | undecoded => .string undecodedText

end Cell

namespace Record

def toJson (r : Record) : Json := .object (r.entries.map fun (k, c) => (k, c.toJson))

end Record

/-- Records as a JSON array of objects. -/
def rowsJson (rows : List Record) : Json := .array (rows.map Record.toJson)

end Querent
