import Querent.Database.Row
import Querent.Request.Basic

/-! Requests kept in a table of the application's database. -/
namespace Querent.Request

open Database

/-- The columns of the table, in the order in which they are asked for. -/
def tableColumns : String :=
  "id, user_id, workspace_id, prompt, status, sql_script, result_text, " ++
  "result_table, graph_config, created_at, updated_at"

/-- What is done with the table. -/
inductive Statement where
  | insert (user workspace : Int) (prompt : String)
  /-- Changes a pending request and no other. -/
  | complete (id : Int) (update : Update)
  | find (workspace id : Int)
  | list (workspace : Int) (limit : Nat)

namespace Statement

def sql : Statement → String
  | insert _ _ _ =>
    "INSERT INTO user_requests (user_id, workspace_id, prompt, status) " ++
    "VALUES ($1, $2, $3, $4) RETURNING " ++ tableColumns
  | complete _ _ =>
    "UPDATE user_requests " ++
    "SET status = $1, sql_script = $2, result_text = $3, result_table = $4, " ++
    "graph_config = $5, updated_at = NOW() " ++
    "WHERE id = $6 AND status = 'PENDING'"
  | find _ _ =>
    "SELECT " ++ tableColumns ++ " FROM user_requests WHERE id = $1 AND workspace_id = $2"
  | list _ _ =>
    "SELECT " ++ tableColumns ++
    " FROM user_requests WHERE workspace_id = $1 ORDER BY id DESC LIMIT $2"

/-- The largest limit that the database takes. -/
def maxLimit : Nat := Decimal.wordBound 63 - 1

def params : Statement → List Param
  | insert user workspace prompt =>
    [.int user, .int workspace, .text prompt, .text Status.pending.name]
  | complete id u =>
    [.text u.status.name, .ofText? u.results.sql, .ofText? u.results.text,
      .ofJson? u.results.table, .ofJson? u.results.graph, .int id]
  | find workspace id => [.int id, .int workspace]
  | list workspace limit => [.int workspace, .int (min limit maxLimit)]

def run (session : Nat) (s : Statement) : Talk Brought :=
  Dialogue.question (Call.query session s.sql s.params)

end Statement

/-- A row of the table, its status unread. -/
def ofRow (r : Row) : Except Fault ((Status → Request) × String) := do
  let id ← r.int "id"
  let user ← r.int "user_id"
  let workspace ← r.int "workspace_id"
  let prompt ← r.text "prompt"
  let status ← r.text "status"
  let sql ← r.textOrNull "sql_script"
  let text ← r.textOrNull "result_text"
  let table ← r.jsonOrNull "result_table"
  let graph ← r.jsonOrNull "graph_config"
  let createdAt ← r.instant "created_at"
  let updatedAt ← r.instant "updated_at"
  return (fun status =>
    { id, user, workspace, prompt, status, results := { sql, text, table, graph }
      createdAt, updatedAt }, status)

/-- The request of a row as read. -/
def withStatus (r : (Status → Request) × String) : Except Error Request :=
  (Status.parse r.2).map r.1

def databaseError (f : Fault) : Error := .database f.message

/-- The same with some words before the fault's. -/
def errorOf (what : String) (f : Fault) : Error := .database (what ++ ": " ++ f.message)

namespace Table

def create (session : Nat) (user workspace : Int) (prompt : String) :
    Talk (Except Error Request) := do
  let b ← (Statement.insert user workspace prompt).run session
  return match b.readFirst ofRow with
    | .ok (some r) => withStatus r
    | .ok none => .error (errorOf "Failed to create request" .noRow)
    | .error f => .error (errorOf "Failed to create request" f)

def complete (session : Nat) (id : Int) (u : Update) : Talk (Except Error Unit) := do
  let b ← (Statement.complete id u).run session
  return match b.ended with
    | .error f => .error (errorOf ("Failed to update request " ++ toString id) f)
    | .ok 0 =>
      .error (.database ("Request " ++ toString id ++ " is missing or already completed"))
    | .ok _ => .ok ()

def find (session : Nat) (workspace id : Int) : Talk (Except Error (Option Request)) := do
  let b ← (Statement.find workspace id).run session
  return match b.readFirst ofRow with
    | .ok r => r.mapM withStatus
    | .error f => .error (databaseError f)

def list (session : Nat) (workspace : Int) (limit : Nat) :
    Talk (Except Error (List Request)) := do
  let b ← (Statement.list workspace limit).run session
  return match b.readAll ofRow with
    | .ok rs => rs.mapM withStatus
    | .error f => .error (databaseError f)

/-- The newest request of a workspace is the list of one. -/
def latest (session : Nat) (workspace : Int) : Talk (Except Error (Option Request)) := do
  return (← list session workspace 1).map List.head?

end Table

end Querent.Request
