import Querent.Text.Word

/-! Columns by name: as declared in a catalogue, and as recovered from a statement. -/
namespace Querent

/-- A column with its table and schema, as a catalogue declares it. -/
structure ColumnName where
  schema : String
  table : String
  column : String
deriving DecidableEq, Repr

/-- A column that a statement names. The schema is absent when the statement gives none and the
engine assumes none. -/
structure ResolvedColumn where
  schema : Option String
  table : String
  column : String
deriving DecidableEq, Repr

/-- Equal up to the case of the letters A to Z. -/
def sameText (a b : String) : Bool := Text.sameLetters a.toList b.toList

namespace ResolvedColumn

/-- Names agree in any letter case; an absent schema agrees with every schema. -/
def agrees (c : ResolvedColumn) (declared : ColumnName) : Bool :=
  (match c.schema with
    | some s => sameText s declared.schema
    | none => true) &&
  sameText c.table declared.table && sameText c.column declared.column

def text (c : ResolvedColumn) : String :=
  match c.schema with
  | some s => s ++ "." ++ c.table ++ "." ++ c.column
  | none => c.table ++ "." ++ c.column

end ResolvedColumn

end Querent
