import Querent.Request.Basic

/-! Requests kept in memory, in the order of their creation. -/
namespace Querent

structure Store where
  requests : List Request

namespace Store

def empty : Store := { requests := [] }

/-- A new pending request; the n-th gets the number n. -/
def create (s : Store) (user workspace : Int) (prompt : String) (now : Moment) :
    Request × Store :=
  let r : Request :=
    { id := s.requests.length + 1, user, workspace, prompt, status := .pending
      results := .none, createdAt := now, updatedAt := now }
  (r, { requests := s.requests ++ [r] })

/-- The request after its update. -/
def applied (u : Update) (now : Moment) (r : Request) : Request :=
  { r with status := u.status, results := u.results, updatedAt := now }

/-- Updates the first request of a number, if it is pending. -/
def completeIn (id : Int) (u : Update) (now : Moment) : List Request → Except Error (List Request)
  | [] => .error (.notFound "Request not found")
  | r :: rest =>
    if r.id == id then
      if r.status == .pending then .ok (applied u now r :: rest)
      else
        .error (.database ("Request " ++ toString id ++ " is already " ++ r.status.name))
    else (completeIn id u now rest).map (r :: ·)

/-- Updates a pending request; a request that is unknown or finished stays as it is. -/
def complete (s : Store) (id : Int) (u : Update) (now : Moment) : Except Error Unit × Store :=
  match completeIn id u now s.requests with
  | .ok requests => (.ok (), { requests })
  | .error e => (.error e, s)

def find (s : Store) (workspace id : Int) : Option Request :=
  s.requests.find? fun r => r.id == id && r.workspace == workspace

/-- The requests of a workspace, newest first. -/
def newest (s : Store) (workspace : Int) : List Request :=
  s.requests.reverse.filter (·.workspace == workspace)

def latest (s : Store) (workspace : Int) : Option Request := (s.newest workspace).head?

def list (s : Store) (workspace : Int) (limit : Nat) : List Request :=
  (s.newest workspace).take limit

end Store

end Querent
