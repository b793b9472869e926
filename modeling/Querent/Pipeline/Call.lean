import Querent.Catalog.Basic
import Querent.Connection.Config
import Querent.Dialogue
import Querent.Llm.Message
import Querent.Request.Basic
import Querent.Row.Cell

/-! What a pipeline asks of those it works with: the limiter, the directory of workspaces, their
catalogues and databases, the store of requests, the model and the engines. -/
namespace Querent.Pipeline

inductive Call where
  /-- Whether the limiter lets a request of a workspace through. -/
  | allow (workspace : Int)
  | isOwner (user workspace : Int)
  | dataSource (workspace : Int)
  | snapshot (workspace : Int)
  | create (user workspace : Int) (prompt : String)
  | complete (id : Int) (update : Update)
  | find (workspace id : Int)
  | latest (workspace : Int)
  | list (workspace : Int) (limit : Nat)
  | model (ask : Llm.Ask)
  | execute (connection : Connection) (sql : String) (timeoutMs : Nat)
  /-- A new name for a response. -/
  | freshResponse

abbrev Call.Reply : Call → Type
  | allow _ => Bool
  | isOwner _ _ => Except Error Bool
  | dataSource _ => Except Error (Option DataSource)
  | snapshot _ => Except Error Snapshot
  | create _ _ _ => Except Error Request
  | complete _ _ => Except Error Unit
  | find _ _ => Except Error (Option Request)
  | latest _ => Except Error (Option Request)
  | list _ _ => Except Error (List Request)
  | model _ => Except Error String
  | execute _ _ _ => Except ExecutionFault (List Record)
  | freshResponse => String

/-- A computation that makes such calls. -/
abbrev Course := Dialogue Call Call.Reply

/-- One that may end early with an error. -/
abbrev Step := ExceptT Error Course

namespace Step

/-- Makes a call that never fails. -/
def ask (c : Call) : Step c.Reply := ExceptT.lift (.question c)

def allow (workspace : Int) : Step Unit := do
  if ← ask (.allow workspace) then return ()
  else throw (.rateLimited workspace)

def isOwner (user workspace : Int) : Step Bool :=
  ExceptT.mk (Dialogue.question (Call.isOwner user workspace))

def dataSource (workspace : Int) : Step (Option DataSource) :=
  ExceptT.mk (Dialogue.question (Call.dataSource workspace))

def create (user workspace : Int) (prompt : String) : Step Request :=
  ExceptT.mk (Dialogue.question (Call.create user workspace prompt))

def find (workspace id : Int) : Step (Option Request) :=
  ExceptT.mk (Dialogue.question (Call.find workspace id))

def latest (workspace : Int) : Step (Option Request) :=
  ExceptT.mk (Dialogue.question (Call.latest workspace))

def list (workspace : Int) (limit : Nat) : Step (List Request) :=
  ExceptT.mk (Dialogue.question (Call.list workspace limit))

end Step

end Querent.Pipeline
