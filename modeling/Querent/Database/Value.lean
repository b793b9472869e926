import Querent.Connection.Dialect
import Querent.Decimal.Fixed
import Querent.Json.Tree
import Querent.Row.Cell

/-! Values as an engine sends them, and the cells they are decoded to. -/
namespace Querent.Database

/-- A value as sent. Texts and JSON are sent as their bytes; days and clocks come unchecked. -/
inductive Sent where
  | null
  | bool (b : Bool)
  | int (n : Int)
  | single (x : Float32)
  | double (x : Float)
  | decimal (digits : String)
  | bytes (bs : List UInt8)
  | day (year : Int) (month day : Nat)
  | clock (hour minute second micros : Nat)
  | moment (year : Int) (month day hour minute second micros : Nat)

/-- What a column's type makes of what is sent. -/
inductive Kind where
  | bool
  | int
  | single
  | double
  | decimal
  | text
  | uuid
  | day
  | clock
  | civil
  | instant
  | json
  | bytes
  /-- A type that no cell is made of. -/
  | other
deriving DecidableEq, Repr

namespace Kind

/-- The texts of PostgreSQL. The one that an extension adds bears the name it was declared with, in
small letters. -/
def postgresTexts : List String :=
  ["TEXT", "VARCHAR", "BPCHAR", "CHAR", "NAME", "CITEXT", "citext", "UNKNOWN"]

/-- The kind of a PostgreSQL type. -/
def ofPostgres (name : String) : Kind :=
  if name == "BOOL" then bool
  else if ["INT2", "INT4", "INT8"].contains name then int
  else if name == "FLOAT4" then single
  else if name == "FLOAT8" then double
  else if name == "NUMERIC" then decimal
  else if postgresTexts.contains name then text
  else if name == "UUID" then uuid
  else if name == "DATE" then day
  else if name == "TIME" then clock
  else if name == "TIMESTAMP" then civil
  else if name == "TIMESTAMPTZ" then instant
  else if ["JSON", "JSONB"].contains name then json
  else if name == "BYTEA" then bytes
  else other

/-- The integers of MySQL. -/
def mysqlIntegers : List String :=
  ["TINYINT", "SMALLINT", "MEDIUMINT", "INT", "BIGINT", "TINYINT UNSIGNED", "SMALLINT UNSIGNED",
    "MEDIUMINT UNSIGNED", "INT UNSIGNED", "BIGINT UNSIGNED", "YEAR"]

def mysqlTexts : List String :=
  ["CHAR", "VARCHAR", "TEXT", "TINYTEXT", "MEDIUMTEXT", "LONGTEXT", "ENUM"]

def mysqlBytes : List String :=
  ["BLOB", "TINYBLOB", "MEDIUMBLOB", "LONGBLOB", "BINARY", "VARBINARY"]

/-- The kind of a MySQL type. -/
def ofMysql (name : String) : Kind :=
  if name == "BOOLEAN" then bool
  else if mysqlIntegers.contains name then int
  else if name == "FLOAT" then single
  else if name == "DOUBLE" then double
  else if name == "DECIMAL" then decimal
  else if mysqlTexts.contains name then text
  else if name == "DATE" then day
  else if name == "TIME" then clock
  else if name == "DATETIME" then civil
  else if name == "TIMESTAMP" then instant
  else if name == "JSON" then json
  else if mysqlBytes.contains name then bytes
  else other

def ofName : Dialect → String → Kind
  | .postgres => ofPostgres
  | .mysql => ofMysql

end Kind

/-- The text of some bytes, if they are UTF-8. -/
def textOf? (bs : List UInt8) : Option String := String.fromUTF8? ⟨bs.toArray⟩

/-- The text of a decimal. PostgreSQL sends a zero without its scale; MySQL sends more digits behind
the point than a decimal holds, and they are rounded off. -/
def decimalText? (d : Dialect) (digits : String) : Option String :=
  match d with
  | .postgres =>
    (Decimal.Fixed.unrounded? digits.toList).map fun x => if x.coefficient = 0 then "0" else x.text
  | .mysql => (Decimal.Fixed.rounded? digits.toList).map (·.text)

def hexDigit (n : Nat) : Char := (Nat.toDigits 16 (n % 16)).headD '0'

/-- The groups of a UUID, in bytes. -/
def uuidGroups : List Nat := [4, 2, 2, 2, 6]

/-- The text of sixteen bytes in groups with hyphens between them. -/
def uuidText (bs : List UInt8) : String :=
  let hex (bs : List UInt8) :=
    String.ofList (bs.flatMap fun b => [hexDigit (b.toNat / 16), hexDigit b.toNat])
  let (groups, _) := uuidGroups.foldl
    (fun (groups, bs) n => (groups ++ [hex (bs.take n)], bs.drop n)) ([], bs)
  "-".intercalate groups

def clockOf? (hour minute second micros : Nat) : Option Time :=
  Time.of? hour minute second (micros * 1000)

def momentOf? (year : Int) (month day hour minute second micros : Nat) : Option Moment := do
  let date ← Date.of? year month day
  let time ← clockOf? hour minute second micros
  some { date, time }

/-- The cell of a value, if it can be decoded. Null is null in every type, and so is a day of
zeros. -/
def decode? (d : Dialect) : Kind → Sent → Option Cell
  | _, .null => some .null
  | .bool, .bool b => some (.bool b)
  | .bool, .int n => some (.bool (n != 0))
  | .int, .int n => some (.number (.int n))
  | .single, .single x => some (.ofFloat x.toFloat)
  | .double, .double x => some (.ofFloat x)
  | .decimal, .decimal digits => (decimalText? d digits).map .text
  | .text, .bytes bs => (textOf? bs).map .text
  | .uuid, .bytes bs => some (.text (uuidText bs))
  | .day, .day 0 0 0 => some .null
  | .day, .day y m d => (Date.of? y m d).map .date
  | .clock, .clock h m s micros => (clockOf? h m s micros).map .time
  | .civil, .moment 0 0 0 0 0 0 0 => some .null
  | .civil, .moment y mo d h m s micros => (momentOf? y mo d h m s micros).map .civil
  | .instant, .moment 0 0 0 0 0 0 0 => some .null
  | .instant, .moment y mo d h m s micros => (momentOf? y mo d h m s micros).map .instant
  | .json, .bytes bs => ((textOf? bs).bind Json.parse).map .json
  | .bytes, .bytes bs =>
    match textOf? bs with
    | some s => some (.text s)
    | none => some (.bytes bs)
  | _, _ => none

/-- A column of a result: its name, and the name of its type. -/
structure Column where
  name : String
  type : String
deriving DecidableEq, Repr

/-- The cell of a value in a column. -/
def decode (d : Dialect) (c : Column) (v : Sent) : Cell :=
  (decode? d (.ofName d c.type) v).getD .undecoded

/-- The record of a row. -/
def decodeRow (d : Dialect) (columns : List Column) (row : List Sent) : Record :=
  .ofList ((columns.zip row).map fun (c, v) => (c.name, decode d c v))

end Querent.Database
