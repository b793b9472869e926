import Querent.Connection.Dialect
import Querent.Guard.Violation

/-! What can go wrong with a request, and what of it may be told to whom. -/
namespace Querent

/-- An engine refused a statement or failed to run it. -/
structure ExecutionFault where
  dialect : Dialect
  /-- The engine's own words, meant for a repair and not for the user. -/
  engineMessage : String
deriving DecidableEq, Repr

def ExecutionFault.message (f : ExecutionFault) : String :=
  f.dialect.name ++ " query failed: " ++ f.engineMessage

inductive Error where
  | notFound (what : String)
  | guard (v : Violation)
  | execution (f : ExecutionFault)
  | model (what : String)
  | rateLimited (workspace : Int)
  | invalidInput (what : String)
  | database (what : String)
  | config (what : String)
  | io (what : String)
  /-- A text that should have been JSON of some shape. -/
  | json

/-- How an error is answered. -/
inductive Kind where
  | notFound
  | badRequest
  | internal
deriving DecidableEq, Repr

namespace Error

def message : Error → String
  | notFound what => what
  | guard v => v.message
  | execution f => "Execution error: " ++ f.message
  | model what => "LLM error: " ++ what
  | rateLimited _ => "Rate limit exceeded for this workspace"
  | invalidInput what => "Invalid input: " ++ what
  | database what => "Database error: " ++ what
  | config what => "Configuration error: " ++ what
  | io what => "IO error: " ++ what
  | json => "JSON error"

def kind : Error → Kind
  | notFound _ => .notFound
  | guard _ | rateLimited _ | invalidInput _ => .badRequest
  | execution _ | model _ | database _ | config _ | io _ | json => .internal

/-- What the user is told: the message of an error of theirs, and no detail of any other. -/
def userMessage (e : Error) : String :=
  match e with
  | execution _ => "Query execution failed"
  | _ =>
    match e.kind with
    | .internal => "Internal error"
    | _ => e.message

end Error

end Querent
