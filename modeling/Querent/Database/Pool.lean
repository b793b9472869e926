import Querent.Connection.Url
import Querent.Database.Session

/-! The application's own database, opened by its address and tried with a trivial query. -/
namespace Querent.Database

/-- How long is waited for a connection. -/
def openTimeoutMs : Nat := 30000

/-- A server that cannot be reached may be starting; it is tried again until the time is up. -/
def whileOpening : Fault → Fault
  | .unreachable _ => .noneReady
  | .timedOut => .noneReady
  | f => f

/-- Opens a session at an address and tries it. -/
def openAt (url : String) : Attempt Nat := do
  match Connection.ofUrl url with
  | .error why => throw (.address why)
  | .ok c =>
    let session ← ExceptT.adapt whileOpening (Attempt.connect c openTimeoutMs)
    Attempt.command session "SELECT 1"
    return session

end Querent.Database
