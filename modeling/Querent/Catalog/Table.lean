import Querent.Catalog.Basic
import Querent.Database.Row
import Querent.Error

/-! Catalogues kept in tables of the application's database. -/
namespace Querent.Catalog

open Database

/-- What is done with the tables. -/
inductive Statement where
  | tables (workspace : Int)
  | columns (workspace : Int)
  | foreignKeys (workspace : Int)
  | owner (user workspace : Int)
  | nameTable (workspace : Int) (t : Table)
  | nameColumn (workspace : Int) (t : Table) (c : Querent.Column)

namespace Statement

def sql : Statement → String
  | tables _ =>
    "SELECT id, schema_name, table_name, business_name, description " ++
    "FROM data_tables WHERE workspace_id = $1 ORDER BY id"
  | columns _ =>
    "SELECT c.table_id, c.column_name, c.data_type, c.is_nullable, c.is_primary_key, " ++
    "c.business_name, c.description " ++
    "FROM data_columns c JOIN data_tables t ON t.id = c.table_id " ++
    "WHERE t.workspace_id = $1 ORDER BY c.table_id, c.id"
  | foreignKeys _ =>
    "SELECT fk.constraint_name, " ++
    "ft.schema_name AS from_schema, ft.table_name AS from_table, fk.from_column, " ++
    "tt.schema_name AS to_schema, tt.table_name AS to_table, fk.to_column " ++
    "FROM foreign_keys fk JOIN data_tables ft ON ft.id = fk.from_table_id " ++
    "JOIN data_tables tt ON tt.id = fk.to_table_id " ++
    "WHERE ft.workspace_id = $1 ORDER BY fk.id"
  | owner _ _ => "SELECT id FROM workspaces WHERE id = $1 AND owner_id = $2"
  | nameTable _ _ =>
    "UPDATE data_tables SET business_name = $1, description = $2 " ++
    "WHERE workspace_id = $3 AND schema_name = $4 AND table_name = $5"
  | nameColumn _ _ _ =>
    "UPDATE data_columns c SET business_name = $1, description = $2 " ++
    "FROM data_tables t WHERE c.table_id = t.id AND t.workspace_id = $3 " ++
    "AND t.schema_name = $4 AND t.table_name = $5 AND c.column_name = $6"

def params : Statement → List Param
  | tables workspace => [.int workspace]
  | columns workspace => [.int workspace]
  | foreignKeys workspace => [.int workspace]
  | owner user workspace => [.int workspace, .int user]
  | nameTable workspace t =>
    [.ofText? t.businessName, .ofText? t.description, .int workspace, .text t.schema, .text t.name]
  | nameColumn workspace t c =>
    [.ofText? c.businessName, .ofText? c.description, .int workspace, .text t.schema,
      .text t.name, .text c.name]

def run (session : Nat) (s : Statement) : Attempt Brought :=
  Attempt.query session s.sql s.params

end Statement

/-- A table without its columns, under its number. -/
def tableOf (r : Row) : Except Fault (Int × Table) := do
  let id ← r.int "id"
  let schema ← r.text "schema_name"
  let name ← r.text "table_name"
  let businessName ← r.textOrNull "business_name"
  let description ← r.textOrNull "description"
  return (id, { schema, name, businessName, description, columns := [] })

/-- A column, with the number of its table. -/
def columnOf (r : Row) : Except Fault (Int × Querent.Column) := do
  let id ← r.int "table_id"
  let name ← r.text "column_name"
  let dataType ← r.text "data_type"
  let isNullable ← r.bool "is_nullable"
  let isPrimaryKey ← r.bool "is_primary_key"
  let businessName ← r.textOrNull "business_name"
  let description ← r.textOrNull "description"
  return (id, { name, dataType, isNullable, isPrimaryKey, businessName, description })

def foreignKeyOf (r : Row) : Except Fault ForeignKey := do
  let constraint ← r.textOrNull "constraint_name"
  let schema ← r.text "from_schema"
  let table ← r.text "from_table"
  let column ← r.text "from_column"
  let source : ColumnName := { schema, table, column }
  let schema ← r.text "to_schema"
  let table ← r.text "to_table"
  let column ← r.text "to_column"
  return { constraint, source, target := { schema, table, column } }

/-- Gives each table the columns under its number; of several tables of one number the first gets
them. -/
def attach (columns : List (Int × Querent.Column)) : List (Int × Table) → List Table
  | [] => []
  | (id, t) :: rest =>
    { t with columns := (columns.filter (·.1 == id)).map (·.2) } ::
      attach (columns.filter (·.1 != id)) rest

/-- The rows of a statement as read, with some words before what went wrong. -/
def readRows {α : Type} (what : String) (read : Row → Except Fault α) (session : Nat)
    (s : Statement) : ExceptT Error Talk (List α) :=
  ExceptT.adapt (fun f => Error.database (what ++ ": " ++ f.message)) do
    ExceptT.mk (pure ((← s.run session).readAll read))

/-- The catalogue of a workspace. -/
def load (session : Nat) (workspace : Int) : ExceptT Error Talk Snapshot := do
  let tables ← readRows "Failed to load tables" tableOf session (.tables workspace)
  let columns ← readRows "Failed to load columns" columnOf session (.columns workspace)
  let foreignKeys ←
    readRows "Failed to load foreign keys" foreignKeyOf session (.foreignKeys workspace)
  return { workspace, tables := attach columns tables, foreignKeys }

/-- Whether a workspace belongs to a user. -/
def isOwner (session : Nat) (user workspace : Int) : ExceptT Error Talk Bool :=
  ExceptT.adapt (fun f => Error.database f.message) do
    let b ← Statement.run session (.owner user workspace)
    return (← ExceptT.mk (pure (b.readFirst fun r => do Row.intOf (← r.get 0)))).isSome

/-- Runs a statement that only changes rows. -/
def change (session : Nat) (s : Statement) : Attempt Unit := do
  let _ ← ExceptT.mk (pure (← s.run session).ended)

/-- The statements that keep the names of a catalogue. -/
def naming (s : Snapshot) : List Statement :=
  s.tables.flatMap fun t =>
    .nameTable s.workspace t :: t.columns.map (.nameColumn s.workspace t ·)

/-- Keeps the names of a catalogue, all of them or none. -/
def saveNames (session : Nat) (s : Snapshot) : ExceptT Error Talk Unit :=
  ExceptT.adapt (fun f => Error.database f.message) do
    Attempt.command session "BEGIN"
    (naming s).forM (change session)
    Attempt.command session "COMMIT"

end Querent.Catalog
