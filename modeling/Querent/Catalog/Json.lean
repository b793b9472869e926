import Querent.Catalog.Basic
import Querent.Json.Fields
import Querent.Json.Printer

/-! Catalogues as JSON. -/
namespace Querent

open Json (Tree Fields)

namespace Column

def toJson (c : Column) : Json :=
  .object [("columnName", .string c.name), ("dataType", .string c.dataType),
    ("isNullable", .bool c.isNullable), ("isPrimaryKey", .bool c.isPrimaryKey),
    ("businessName", .ofText? c.businessName), ("description", .ofText? c.description)]

def ofTree (t : Tree) : Option Column := do
  let f ← Fields.read ["columnName", "dataType", "isNullable", "isPrimaryKey", "businessName",
    "description"] t
  some
    { name := ← f.required "columnName" Tree.string?
      dataType := ← f.required "dataType" Tree.string?
      isNullable := ← f.orElse "isNullable" Tree.bool? false
      isPrimaryKey := ← f.orElse "isPrimaryKey" Tree.bool? false
      businessName := ← f.optional "businessName" Tree.string?
      description := ← f.optional "description" Tree.string? }

end Column

namespace Table

def toJson (t : Table) : Json :=
  .object [("schemaName", .string t.schema), ("tableName", .string t.name),
    ("businessName", .ofText? t.businessName), ("description", .ofText? t.description),
    ("columns", .array (t.columns.map Column.toJson))]

def ofTree (t : Tree) : Option Table := do
  let f ← Fields.read ["schemaName", "tableName", "businessName", "description", "columns"] t
  some
    { schema := ← f.required "schemaName" Tree.string?
      name := ← f.required "tableName" Tree.string?
      businessName := ← f.optional "businessName" Tree.string?
      description := ← f.optional "description" Tree.string?
      columns := ← f.orElse "columns" (Tree.list? Column.ofTree) [] }

end Table

namespace ColumnName

def toJson (c : ColumnName) : Json :=
  .object [("schema", .string c.schema), ("table", .string c.table), ("column", .string c.column)]

def ofTree (t : Tree) : Option ColumnName := do
  let f ← Fields.read ["schema", "table", "column"] t
  some
    { schema := ← f.required "schema" Tree.string?
      table := ← f.required "table" Tree.string?
      column := ← f.required "column" Tree.string? }

end ColumnName

namespace ForeignKey

def toJson (k : ForeignKey) : Json :=
  .object [("constraintName", .ofText? k.constraint), ("from", k.source.toJson),
    ("to", k.target.toJson)]

def ofTree (t : Tree) : Option ForeignKey := do
  let f ← Fields.read ["constraintName", "from", "to"] t
  some
    { constraint := ← f.optional "constraintName" Tree.string?
      source := ← f.required "from" ColumnName.ofTree
      target := ← f.required "to" ColumnName.ofTree }

end ForeignKey

namespace Snapshot

def toJson (s : Snapshot) : Json :=
  .object [("workspaceId", .ofInt s.workspace), ("tables", .array (s.tables.map Table.toJson)),
    ("foreignKeys", .array (s.foreignKeys.map ForeignKey.toJson))]

def ofTree (t : Tree) : Option Snapshot := do
  let f ← Fields.read ["workspaceId", "tables", "foreignKeys"] t
  some
    { workspace := ← f.required "workspaceId" Tree.int64?
      tables := ← f.orElse "tables" (Tree.list? Table.ofTree) []
      foreignKeys := ← f.orElse "foreignKeys" (Tree.list? ForeignKey.ofTree) [] }

/-- Reads a snapshot from JSON text. -/
def parse (text : String) : Option Snapshot := (Tree.parse text).bind ofTree

end Snapshot

end Querent
