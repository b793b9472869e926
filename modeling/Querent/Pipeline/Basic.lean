import Querent.Pipeline.Stages
import Querent.Request.Answer

/-! The operations on requests.

A new request is let through by the limiter, checked, owned and given a database before anything is
stored. From then on it gets exactly one accepted update: what came of it, or that it failed. Where
the store does not take the success, the request is marked as failed. -/
namespace Querent.Pipeline

/-- The longest question, in characters. -/
def maxPromptLength : Nat := 1000

/-- The length of a list of requests. -/
def historyLimit : Nat := 50

def checkPrompt (prompt : String) : Except Error Unit :=
  if isBlankText prompt then .error (.invalidInput "prompt must not be empty")
  else if maxPromptLength < prompt.length then
    .error (.invalidInput
      ("prompt must be at most " ++ toString maxPromptLength ++ " characters"))
  else .ok ()

/-- Others are told that there is no such workspace. -/
def checkOwner (user workspace : Int) : Step Unit := do
  if ← Step.isOwner user workspace then return ()
  else throw (.notFound "Workspace not found")

/-- What stands before every reading operation. -/
def enter (user workspace : Int) : Step Unit := do
  Step.allow workspace
  checkOwner user workspace

/-- The connection to a workspace's database. -/
def connectionOf (workspace : Int) : Step Connection := do
  match ← Step.dataSource workspace with
  | some source => ExceptT.mk (pure (Connection.ofJson source.dialect source.config))
  | none => throw (.notFound "Data source not configured")

/-- What stands before a new request's stages: its checks, its database and its record. -/
def opened (user workspace : Int) (prompt : String) : Step (Connection × Request) := do
  Step.allow workspace
  ExceptT.mk (pure (checkPrompt prompt))
  checkOwner user workspace
  let connection ← connectionOf workspace
  return (connection, ← Step.create user workspace prompt)

/-- The update of a request that succeeded. -/
def Outcome.update (out : Outcome) : Update :=
  .succeeded out.sql out.text out.table.toValue out.graph

/-- What the caller is told of a request that succeeded. -/
def Outcome.answer (out : Outcome) (id : Int) (response : String) : Answer where
  request := id
  status := .succeeded
  response := some response
  prompt := none
  sql := some out.sql
  text := out.text
  table := some out.table
  graph := out.graph

/-- Marks a request as failed, if the store takes it, and ends with the error. -/
def failWith (id : Int) (f : Failure) : Course (Except Error Answer) :=
  .ask (.complete id (.failed f.sql)) fun _ => .done (.error f.error)

/-- Stores the end of a request and answers its caller. -/
def settle (id : Int) : Except Failure Outcome → Course (Except Error Answer)
  | .error f => failWith id f
  | .ok out => .ask (.complete id out.update) fun
    | .error error => failWith id { error, sql := some out.sql }
    | .ok () => .ask .freshResponse fun response => .done (.ok (out.answer id response))

/-- Makes a request of a question and sees it through. -/
def create (o : Options) (user workspace : Int) (prompt : String) : Course (Except Error Answer) :=
  (opened user workspace prompt).run.bind fun
    | .error e => .done (.error e)
    | .ok (connection, request) =>
      (stages o workspace connection prompt).bind fun ended => settle request.id ended

/-- One request of a workspace. -/
def getOne (user workspace id : Int) : Course (Except Error Answer) := ExceptT.run do
  enter user workspace
  match ← Step.find workspace id with
  | some r => return .ofRequest r false
  | none => throw (.notFound "Request not found")

/-- The newest request of a workspace. -/
def getLatest (user workspace : Int) : Course (Except Error Answer) := ExceptT.run do
  enter user workspace
  match ← Step.latest workspace with
  | some r => return .ofRequest r false
  | none => throw (.notFound "No requests yet")

/-- The newest requests of a workspace with their questions. -/
def getAll (user workspace : Int) : Course (Except Error (List Answer)) := ExceptT.run do
  enter user workspace
  return (← Step.list workspace historyLimit).map (.ofRequest · true)

end Querent.Pipeline
