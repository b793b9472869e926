import Querent.Command.Arguments
import Querent.Connection.Config
import Querent.Decimal.Digits

/-! The commands of the program and their options. -/
namespace Querent

inductive Command where
  /-- Guards one statement, taken from standard input where none is given. -/
  | guard (metadata : String) (dialect : Dialect) (sql : Option String) (allowFreeJoins : Bool)
  /-- Asks a question of a workspace. -/
  | ask (metadata connection : String) (user : Int) (prompt : String)
  /-- Has the tables of a workspace named. -/
  | nameTables (metadata : Option String) (workspace : Option Int)
deriving DecidableEq, Repr

namespace Command

/-- A command's name, what it does and its options. -/
structure Description where
  name : String
  about : String
  switches : List Switch
deriving DecidableEq, Repr

def describeGuard : Description where
  name := "guard"
  about := "Validate and rewrite one SQL statement (read from stdin when --sql is omitted)"
  switches :=
    [⟨"metadata", some 'm', some "METADATA", true, "Metadata snapshot JSON"⟩,
      ⟨"dialect", some 'd', some "DIALECT", false, "[default: postgres]"⟩,
      ⟨"sql", none, some "SQL", false, ""⟩,
      ⟨"allow-free-joins", none, none, false,
        "Allow joins that do not follow declared foreign keys"⟩]

def describeAsk : Description where
  name := "ask"
  about := "Ask a question against one workspace and print the stored result"
  switches :=
    [⟨"metadata", some 'm', some "METADATA", true, ""⟩,
      ⟨"connection", some 'c', some "CONNECTION", true,
        "Connection config JSON with a `dialect` key"⟩,
      ⟨"user", some 'u', some "USER", false, "Owner of the workspace [default: 1]"⟩,
      ⟨"prompt", some 'p', some "PROMPT", true, ""⟩]

def describeNameTables : Description where
  name := "name-tables"
  about := "Suggest business names for every table of a workspace"
  switches :=
    [⟨"metadata", some 'm', some "METADATA", false,
        "Snapshot file to rename in place; without it the workspace is read from and written " ++
        "back to DATABASE_URL"⟩,
      ⟨"workspace", some 'w', some "WORKSPACE", false, ""⟩]

def descriptions : List Description := [describeGuard, describeAsk, describeNameTables]

/-- A value as understood: nothing where it is not given, a mistake where it makes no sense. -/
def understood {α : Type} (a : Arguments) (long : String) (read : String → Option α) :
    Option (Option α) :=
  match a.value? long with
  | none => some none
  | some s => (read s).map some

/-- A path is not empty. -/
def path? (s : String) : Option String := if s.isEmpty then none else some s

def int? (s : String) : Option Int := Decimal.readInt64 s.toList

def dialect? (s : String) : Option Dialect := (Dialect.parse s).toOption

/-- The command of a name and its options. A required option that is missing is left to
`Arguments.isComplete`. -/
def ofArguments (name : String) (a : Arguments) : Option Command := do
  let metadata ← understood a "metadata" path?
  let connection ← understood a "connection" path?
  let dialect ← understood a "dialect" dialect?
  let user ← understood a "user" int?
  let workspace ← understood a "workspace" int?
  if name == "guard" then
    some (guard (metadata.getD "") (dialect.getD .postgres) (a.value? "sql")
      (a.has "allow-free-joins"))
  else if name == "ask" then
    some (ask (metadata.getD "") (connection.getD "") (user.getD 1)
      ((a.value? "prompt").getD ""))
  else some (nameTables metadata workspace)

end Command

end Querent
