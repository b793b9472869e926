import Querent.Catalog.Column
import Querent.Ordered
import Querent.Text.Blank

/-! The catalogue of one workspace: its tables, their columns, and its foreign keys. -/
namespace Querent

structure Column where
  name : String
  dataType : String
  isNullable : Bool
  isPrimaryKey : Bool
  businessName : Option String
  description : Option String
deriving DecidableEq, Repr

structure Table where
  schema : String
  name : String
  businessName : Option String
  description : Option String
  columns : List Column
deriving DecidableEq, Repr

/-- The schema and the table with a dot between them. -/
def Table.qualifiedName (t : Table) : String := t.schema ++ "." ++ t.name

structure ForeignKey where
  constraint : Option String
  source : ColumnName
  target : ColumnName
deriving DecidableEq, Repr

structure Snapshot where
  workspace : Int
  tables : List Table
  foreignKeys : List ForeignKey
deriving DecidableEq, Repr

/-- Whether two columns are the two ends of a declared foreign key, in either order. -/
def isDeclaredJoin (keys : List ForeignKey) (a b : ResolvedColumn) : Bool :=
  keys.any fun k =>
    (a.agrees k.source && b.agrees k.target) || (a.agrees k.target && b.agrees k.source)

/-- Puts a text among sorted distinct ones. -/
def insertText (s : String) : List String → List String
  | [] => [s]
  | t :: rest =>
    if s == t then t :: rest else if s < t then s :: t :: rest else t :: insertText s rest

namespace Snapshot

/-- A workspace of which nothing is known. -/
def empty (workspace : Int) : Snapshot := { workspace, tables := [], foreignKeys := [] }

/-- The schemas of the tables, sorted and each once. -/
def schemas (s : Snapshot) : List String :=
  s.tables.foldl (fun sorted t => insertText t.schema sorted) []

/-- Every column of every table. -/
def columns (s : Snapshot) : List Column := s.tables.flatMap (·.columns)

end Snapshot

/-- The business name of a column, a blank one apart. -/
def Column.givenName (c : Column) : Option String :=
  c.businessName.filter fun n => !isBlankText n

/-- The business names that exactly one column of the catalogue bears, under the technical names
of their columns. Of several such columns with one technical name the last counts. -/
def Snapshot.uniqueNames (s : Snapshot) : Ordered String :=
  let given := s.columns.filterMap fun c => c.givenName.map fun n => (c.name, n)
  .ofList (given.filter fun (_, n) => (given.filter (·.2 == n)).length == 1)

end Querent
