import Querent.Calendar.Reader
import Querent.Calendar.Basic
import Querent.Error
import Querent.Json.Fields
import Querent.Json.Printer

/-! Requests: a question in plain language and what came of it. -/
namespace Querent

open Json (Tree Fields)

inductive Status where
  | pending
  | succeeded
  | failed
deriving DecidableEq, Repr

namespace Status

def name : Status → String
  | pending => "PENDING"
  | succeeded => "SUCCEEDED"
  | failed => "FAILED"

def ofName? (s : String) : Option Status :=
  if s == "PENDING" then some pending
  else if s == "SUCCEEDED" then some succeeded
  else if s == "FAILED" then some failed
  else none

def parse (s : String) : Except Error Status :=
  match ofName? s with
  | some status => .ok status
  | none => .error (.database ("Unknown request status: " ++ s))

end Status

/-- What came of a request. -/
structure Results where
  sql : Option String
  text : Option String
  /-- The columns of the result as JSON. -/
  table : Option Json
  graph : Option Json

def Results.none : Results := { sql := .none, text := .none, table := .none, graph := .none }

structure Request where
  id : Int
  user : Int
  workspace : Int
  prompt : String
  status : Status
  results : Results
  createdAt : Moment
  updatedAt : Moment

/-- The one change that takes a request out of the pending ones. -/
structure Update where
  status : Status
  results : Results

namespace Update

def succeeded (sql : String) (text : Option String) (table : Json) (graph : Option Json) :
    Update :=
  { status := .succeeded, results := { sql := some sql, text, table := some table, graph } }

/-- A failed request keeps at most the statement that passed the guard. -/
def failed (sql : Option String) : Update :=
  { status := .failed, results := { Results.none with sql } }

end Update

namespace Request

def toJson (r : Request) : Json :=
  .object [("id", .ofInt r.id), ("userId", .ofInt r.user), ("workspaceId", .ofInt r.workspace),
    ("prompt", .string r.prompt), ("status", .string r.status.name),
    ("sqlScript", .ofText? r.results.sql), ("resultText", .ofText? r.results.text),
    ("resultTable", r.results.table.getD .null), ("graphConfig", r.results.graph.getD .null),
    ("createdAt", .string r.createdAt.zonedText), ("updatedAt", .string r.updatedAt.zonedText)]

def ofTree (t : Tree) : Option Request := do
  let f ← Fields.read ["id", "userId", "workspaceId", "prompt", "status", "sqlScript",
    "resultText", "resultTable", "graphConfig", "createdAt", "updatedAt"] t
  let moment (name : String) := (f.required name Tree.string?).bind Moment.parse
  some
    { id := ← f.required "id" Tree.int64?
      user := ← f.required "userId" Tree.int64?
      workspace := ← f.required "workspaceId" Tree.int64?
      prompt := ← f.required "prompt" Tree.string?
      status := ← (f.required "status" Tree.tag?).bind Status.ofName?
      results :=
        { sql := ← f.optionalByName "sqlScript" Tree.string?
          text := ← f.optionalByName "resultText" Tree.string?
          table := ← f.optionalByName "resultTable" Tree.value?
          graph := ← f.optionalByName "graphConfig" Tree.value? }
      createdAt := ← moment "createdAt"
      updatedAt := ← moment "updatedAt" }

end Request

end Querent
