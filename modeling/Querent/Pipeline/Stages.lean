import Querent.Guard.Basic
import Querent.Pipeline.Call
import Querent.Pipeline.Candidate
import Querent.Pipeline.Options
import Querent.Prompt.Basic
import Querent.Row.Process

/-! The stages of a request: a statement is made, guarded and run, its rows are processed, and the
model describes them. Only the statement's failure is the request's failure; where a description
fails there is none. -/
namespace Querent.Pipeline

/-- Why a candidate brought no rows. -/
inductive Fault where
  | refused (v : Violation)
  /-- The statement passed the guard and failed in the engine. -/
  | failed (f : ExecutionFault) (sql : String)
deriving DecidableEq, Repr

/-- A request's end without rows: its error, and the statement that passed the guard, if any. -/
structure Failure where
  error : Error
  sql : Option String

/-- What a request's stages bring about. -/
structure Outcome where
  sql : String
  table : Columnar
  text : Option String
  graph : Option Json

namespace Fault

/-- What the model is told in order to repair the candidate. -/
def feedback : Fault → String
  | refused v => v.message
  | failed f _ => f.engineMessage

def failure : Fault → Failure
  | refused v => { error := .guard v, sql := none }
  | failed f sql => { error := .execution f, sql := some sql }

end Fault

/-- What the guard is told: the schemas are those of the catalogue. -/
def policy (o : Options) (s : Snapshot) (dialect : Dialect) : Policy where
  dialect := dialect
  allowedSchemas := some s.schemas
  forceLimit := o.forceLimit
  forbidFreeJoins := o.forbidFreeJoins

/-- The model's candidate for a question, and the fallback where it has none. -/
def candidate (s : Snapshot) (prompt : String) : Course String :=
  .ask (.model (Prompt.askStatement prompt s.tables s.foreignKeys)) fun
    | .ok answer => .done ((Candidate.ofAnswer answer).getD (Candidate.fallback s))
    | .error _ => .done (Candidate.fallback s)

/-- The model's repair of a candidate, if it has one. -/
def repaired (s : Snapshot) (prompt previous feedback : String) : Course (Option String) :=
  .ask (.model (Prompt.askRepair prompt previous feedback s.tables s.foreignKeys)) fun
    | .ok answer => .done (Candidate.ofAnswer answer)
    | .error _ => .done none

/-- Guards a candidate and runs what the guard lets through. -/
def attempt (o : Options) (s : Snapshot) (c : Connection) (candidate : String) :
    Course (Except Fault (String × List Record)) :=
  match Guard.validate s.foreignKeys (policy o s c.dialect) candidate with
  | .error v => .done (.error (.refused v))
  | .ok sql => .ask (.execute c sql o.queryTimeoutMs) fun
    | .ok rows => .done (.ok (sql, rows))
    | .error f => .done (.error (.failed f sql))

/-- Tries a candidate and, where repairs are made, once more what the model makes of it. -/
def tried (o : Options) (s : Snapshot) (c : Connection) (prompt candidate : String) :
    Course (Except Failure (String × List Record)) :=
  (attempt o s c candidate).bind fun
    | .ok ran => .done (.ok ran)
    | .error fault =>
      if o.repairs then
        (repaired s prompt candidate fault.feedback).bind fun
          | some better => (attempt o s c better).bind fun r => .done (r.mapError Fault.failure)
          | none => .done (.error fault.failure)
      else .done (.error fault.failure)

/-- The text of a model's summary, trimmed; a blank one is none. -/
def summaryOf (answer : Except Error String) : Option String :=
  answer.toOption.bind Candidate.present

/-- The object in a model's answer, if it is one. -/
def graphOf (answer : Except Error String) : Option Json :=
  (answer.toOption.bind fun text => Json.parse (Llm.stripFence text)).bind fun
    | .object members => some (.object members)
    | _ => none

/-- Processes rows and has the model describe them. -/
def described (o : Options) (s : Snapshot) (sql : String) (rows : List Record) : Course Outcome :=
  let p := process o.budget s.uniqueNames rows
  .ask (.model (Prompt.askSummary p.rows)) fun summary =>
    .ask (.model (Prompt.askGraph p.rows)) fun graph =>
      .done { sql, table := p.table, text := summaryOf summary, graph := graphOf graph }

/-- All stages of a request whose workspace has a catalogue. -/
def stagesOf (o : Options) (s : Snapshot) (c : Connection) (prompt : String) :
    Course (Except Failure Outcome) :=
  (candidate s prompt).bind fun first =>
    (tried o s c prompt first).bind fun
      | .ok (sql, rows) => (described o s sql rows).bind fun out => .done (.ok out)
      | .error f => .done (.error f)

/-- All stages of a request. -/
def stages (o : Options) (workspace : Int) (c : Connection) (prompt : String) :
    Course (Except Failure Outcome) :=
  .ask (.snapshot workspace) fun
    | .ok s => stagesOf o s c prompt
    | .error error => .done (.error { error, sql := none })

end Querent.Pipeline
