import Querent.Request.Basic
import Querent.Row.Columnar

/-! What a caller is told about a request. -/
namespace Querent

structure Answer where
  request : Int
  status : Status
  /-- Only in the answer to the call that ran the request. -/
  response : Option String
  /-- Only in lists of requests. -/
  prompt : Option String
  sql : Option String
  text : Option String
  table : Option Columnar
  graph : Option Json

namespace Answer

/-- What is told about a stored request. A stored table that is not one of columns is left out. -/
def ofRequest (r : Request) (withPrompt : Bool) : Answer where
  request := r.id
  status := r.status
  response := none
  prompt := if withPrompt then some r.prompt else none
  sql := r.results.sql
  text := r.results.text
  table := r.results.table.bind Columnar.ofJson?
  graph := r.results.graph

/-- The answer as JSON, without what it lacks. -/
def toJson (a : Answer) : Json :=
  let part (name : String) (v : Option Json) := (v.map fun v => (name, v)).toList
  .object ([("requestId", .ofInt a.request), ("status", .string a.status.name)] ++
    part "responseId" (a.response.map .string) ++ part "prompt" (a.prompt.map .string) ++
    part "sqlScript" (a.sql.map .string) ++ part "resultText" (a.text.map .string) ++
    part "resultTable" (a.table.map Columnar.toJson) ++ part "graphConfig" a.graph)

end Answer

end Querent
