import Querent.Error
import Querent.Pipeline.Memory
import Querent.Prompt.Basic
import Querent.Workspace

/-! A model that follows a script: for each stage a queue of answers. -/
namespace Querent.Scripted

/-- A stage's name, and the template that its system message comes with. -/
def stages : List (String × Prompt.Template) :=
  [("sql", Prompt.generate), ("repair", Prompt.repair), ("text", Prompt.summary),
    ("graph", Prompt.graph), ("names", Prompt.names)]

/-- What the model is told about its part. -/
def toldBy (a : Llm.Ask) : Option String := a.messages.head?.map (·.content)

/-- The name of the stage that asks. -/
def stageOf (a : Llm.Ask) : String :=
  ((stages.find? fun (_, t) => toldBy (Prompt.ask t []) == toldBy a).map (·.1)).getD ""

/-- The next of a queue; a queue that is used up has none. -/
def nextOf (key : String) :
    List (String × List (Option String)) → Option String × List (String × List (Option String))
  | [] => (none, [])
  | (k, queue) :: rest =>
    if k == key then (queue.head?.join, (k, queue.drop 1) :: rest)
    else
      let (v, rest) := nextOf key rest
      (v, (k, queue) :: rest)

structure Model where
  queues : List (String × List (Option String))
  /-- What it was asked, the newest first. -/
  asked : List Llm.Ask

namespace Model

/-- The next answer of the stage; where there is none, the stage is unavailable. -/
def answer (a : Llm.Ask) (m : Model) : Except Error String × Model :=
  let stage := stageOf a
  let (v, queues) := nextOf stage m.queues
  let r := match v with
    | some s => .ok s
    | none => .error (.model (stage ++ " unavailable"))
  (r, { queues, asked := a :: m.asked })

end Model

/-! Surroundings of a pipeline that follow a script. The limiter and the store are real ones, but
the store may refuse changes to some statuses. -/

/-- A statement that was run. -/
structure Executed where
  connection : Connection
  sql : String
  timeoutMs : Nat

structure Surroundings where
  workspaces : List Workspace
  /-- What every reading of a catalogue fails with. -/
  catalogueError : Option String
  /-- The statuses that the store does not take. -/
  rejected : List Status
  model : Model
  /-- What the engines bring in turn; the last stays. -/
  results : List (Except String (List Record))
  /-- What was run, the newest first. -/
  executed : List Executed
  memory : Pipeline.Memory

namespace Surroundings

/-- The workspace of a number, and the first where there is none. -/
def workspace (s : Surroundings) (id : Int) : Workspace :=
  ((s.workspaces.find? (·.id == id)) <|> s.workspaces.head?).getD
    { owner := 0, snapshot := .empty 0, dataSource := none }

/-- What a change to a status is refused with. -/
def rejection (s : Surroundings) (status : Status) : Option Error :=
  if s.rejected.contains status then some (.database ("rejected " ++ status.name)) else none

def collaborators (s : Surroundings) : Pipeline.Collaborators where
  isOwner user ws := .ok ((s.workspace ws).isOwner user ws)
  dataSource ws := .ok ((s.workspace ws).dataSourceOf ws)
  snapshot ws := match s.catalogueError with
    | some text => .error (.database text)
    | none => .ok ((s.workspace ws).snapshotOf ws)
  model a := (s.model.answer a).1
  execute c _ _ := match s.results.head? with
    | some (.ok rows) => .ok rows
    | some (.error message) => .error { dialect := c.dialect, engineMessage := message }
    | none => .ok []

/-- What a call uses up. -/
def after (s : Surroundings) : Pipeline.Call → Surroundings
  | .model a => { s with model := (s.model.answer a).2 }
  | .execute connection sql timeoutMs =>
    { s with
      results := if s.results.length ≤ 1 then s.results else s.results.drop 1
      executed := { connection, sql, timeoutMs } :: s.executed }
  | _ => s

/-- What the store refuses. -/
def refusal (s : Surroundings) : (c : Pipeline.Call) → Option c.Reply
  | .create _ _ _ => (s.rejection .pending).map .error
  | .complete _ u => (s.rejection u.status).map .error
  | _ => none

def answer (now : Pipeline.Now) (response : String) (c : Pipeline.Call) (s : Surroundings) :
    c.Reply × Surroundings :=
  match s.refusal c with
  | some r => (r, s)
  | none =>
    let (r, memory) := s.collaborators.answer now response c s.memory
    (r, { s.after c with memory })

end Surroundings

end Querent.Scripted
