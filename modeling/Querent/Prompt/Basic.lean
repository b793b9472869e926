import Querent.Catalog.Json
import Querent.Llm.Message
import Querent.Prompt.Template
import Querent.Row.Cell

/-! What a model is asked at each stage of a request. -/
namespace Querent.Prompt

open Llm

/-- A template with its places filled, without white space at the ends. -/
def ask (t : Template) (values : List (String × String)) : Ask where
  messages :=
    [.system (trimmed (fill t.system [("rules", rules)])), .user (trimmed (fill t.user values))]
  maxTokens := t.maxTokens
  format := t.format

def tablesText (tables : List Table) : String := (Json.array (tables.map Table.toJson)).pretty

def keysText (keys : List ForeignKey) : String := (Json.array (keys.map ForeignKey.toJson)).pretty

/-- Asks for the statement that answers a question. -/
def askStatement (question : String) (tables : List Table) (keys : List ForeignKey) : Ask :=
  ask generate
    [("prompt", question), ("metadata", tablesText tables), ("foreignKeys", keysText keys)]

/-- Asks for a better statement than one that was refused or failed. -/
def askRepair (question previous fault : String) (tables : List Table)
    (keys : List ForeignKey) : Ask :=
  ask repair
    [("prompt", question), ("previousSql", previous), ("dbError", fault),
      ("metadata", tablesText tables), ("foreignKeys", keysText keys)]

/-- Asks for a summary of rows. -/
def askSummary (rows : List Record) : Ask := ask summary [("rows", (rowsJson rows).pretty)]

/-- Asks for a graph of rows. -/
def askGraph (rows : List Record) : Ask := ask graph [("rows", (rowsJson rows).pretty)]

/-- Whether a column of a table is the source of a foreign key. -/
def isForeignKey (t : Table) (keys : List ForeignKey) (c : Column) : Bool :=
  keys.any fun k =>
    k.source.schema == t.schema && k.source.table == t.name && k.source.column == c.name

/-- What is told about a column when names are asked for. -/
def columnFacts (t : Table) (keys : List ForeignKey) (c : Column) : Json :=
  .object [("columnName", .string c.name), ("dataType", .string c.dataType),
    ("isPrimaryKey", .bool c.isPrimaryKey), ("isForeignKey", .bool (isForeignKey t keys c)),
    ("isNullable", .bool c.isNullable)]

/-- Asks for business names of a table and its columns. -/
def askNames (t : Table) (keys : List ForeignKey) : Ask :=
  ask names
    [("schema", t.schema), ("table", t.name),
      ("columns", (Json.array (t.columns.map (columnFacts t keys))).pretty)]

end Querent.Prompt
