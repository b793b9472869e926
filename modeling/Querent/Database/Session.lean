import Querent.Connection.Config
import Querent.Database.Value
import Querent.Dialogue

/-! What can go wrong between a database server and its client, and the words for it. -/
namespace Querent.Database

inductive Fault where
  /-- The address of the server could not be understood. -/
  | address (why : String)
  | unreachable (why : String)
  /-- Nobody answered in time. -/
  | timedOut
  /-- No connection became ready in time. -/
  | noneReady
  /-- Encryption was asked for, and the server has none. -/
  | unencrypted
  /-- The server refused a statement or a log-in, with a number and a state where it gives them. -/
  | refused (number : Option (Nat × String)) (text : String)
  | noRow
  | noColumn (name : String)
  | noColumnAt (index count : Nat)
  /-- A value is not of the type that was expected. -/
  | undecodable
deriving DecidableEq, Repr

def Fault.message : Fault → String
  | address why => "error with configuration: " ++ why
  | unreachable why => "error communicating with database: " ++ why
  | timedOut => "connection timed out"
  | noneReady => "pool timed out while waiting for an open connection"
  | unencrypted =>
    "error occurred while attempting to establish a TLS connection: server does not support TLS"
  | refused none text => "error returned from database: " ++ text
  | refused (some (number, state)) text =>
    "error returned from database: " ++ toString number ++ " (" ++ state ++ "): " ++ text
  | noRow => "no rows returned by a query that expected to return at least one row"
  | noColumn name => "no column found for name: " ++ name
  | noColumnAt index count =>
    "column index out of bounds: the len is " ++ toString count ++ ", but the index is " ++
      toString index
  | undecodable => "error occurred while decoding"

/-! What is said to database servers: sessions are opened, statements are run in them, and they are
closed. -/

/-- What stands for a placeholder of a statement. -/
inductive Param where
  | null
  | int (n : Int)
  | text (s : String)
  | json (j : Json)

def Param.ofText? : Option String → Param
  | some s => text s
  | none => null

def Param.ofJson? : Option Json → Param
  | some j => json j
  | none => null

/-- What a statement brings: rows, and how many rows it touched or what it failed with at last. -/
structure Brought where
  columns : List Column
  rows : List (List Sent)
  ended : Except Fault Nat

inductive Call where
  /-- Logs in within some milliseconds; the answer names the session. -/
  | connect (c : Connection) (timeoutMs : Nat)
  /-- Runs a statement whose rows do not matter. -/
  | command (session : Nat) (sql : String)
  | query (session : Nat) (sql : String) (params : List Param)
  | close (session : Nat)

abbrev Call.Reply : Call → Type
  | connect _ _ => Except Fault Nat
  | command _ _ => Except Fault Unit
  | query _ _ _ => Brought
  | close _ => Unit

abbrev Talk := Dialogue Call Call.Reply

/-- One that may end early with a fault. -/
abbrev Attempt := ExceptT Fault Talk

namespace Attempt

def connect (c : Connection) (timeoutMs : Nat) : Attempt Nat :=
  ExceptT.mk (Dialogue.question (Call.connect c timeoutMs))

def command (session : Nat) (sql : String) : Attempt Unit :=
  ExceptT.mk (Dialogue.question (Call.command session sql))

/-- All that a statement brings, its last fault included. -/
def query (session : Nat) (sql : String) (params : List Param) : Attempt Brought :=
  ExceptT.lift (Dialogue.question (Call.query session sql params))

def close (session : Nat) : Attempt Unit := ExceptT.lift (Dialogue.question (Call.close session))

end Attempt

end Querent.Database
