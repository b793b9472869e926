import Querent.Database.Session

/-! A statement run for a workspace: in a session of its own, under a time limit that the engine
keeps. The session is closed whatever comes of the statement. -/
namespace Querent.Database

/-- The statement that limits the time of those behind it. -/
def timeLimit (d : Dialect) (timeoutMs : Nat) : String :=
  match d with
  | .postgres => "SET statement_timeout TO " ++ toString timeoutMs
  | .mysql => "SET SESSION MAX_EXECUTION_TIME=" ++ toString timeoutMs

/-- The records of a statement. -/
def runIn (session : Nat) (d : Dialect) (sql : String) (timeoutMs : Nat) :
    Attempt (List Record) := do
  Attempt.command session (timeLimit d timeoutMs)
  let r ← Attempt.query session sql []
  let _ ← ExceptT.mk (pure r.ended)
  return r.rows.map (decodeRow d r.columns)

/-- The connection as it is opened: encryption is asked of PostgreSQL alone. -/
def asked (c : Connection) : Connection := { c with ssl := c.ssl && c.dialect == .postgres }

/-- Opens a session, runs a statement in it and closes it. -/
def execute (c : Connection) (sql : String) (timeoutMs : Nat) :
    Talk (Except ExecutionFault (List Record)) :=
  let fault (f : Fault) : ExecutionFault := { dialect := c.dialect, engineMessage := f.message }
  .ask (.connect (asked c) timeoutMs) fun
    | .error f => .done (.error (fault f))
    | .ok session => (runIn session c.dialect sql timeoutMs).run.bind fun r =>
      .ask (.close session) fun () => .done (r.mapError fault)

end Querent.Database
