import Querent.Database.Session
import Querent.Llm.Client
import Querent.Pipeline.Memory

/-! What a command does to the world around it. -/
namespace Querent.Command

inductive Effect where
  /-- The value of an environment variable. -/
  | lookup (name : String)
  | readFile (path : String)
  | writeFile (path text : String)
  /-- All of standard input. -/
  | readInput
  | model (s : Llm.Step)
  | database (c : Database.Call)
  | freshResponse
  | clock

/-- A file that cannot be read or written gives the reason. -/
abbrev Effect.Result : Effect → Type
  | lookup _ => Option String
  | readFile _ => Except String String
  | writeFile _ _ => Except String Unit
  | readInput => String
  | model s => s.Result
  | database c => c.Reply
  | freshResponse => String
  | clock => Pipeline.Now

abbrev Work := Dialogue Effect Effect.Result

/-- How a command ends: its status, and what it has to say. -/
structure Ended where
  code : Nat
  output : String
  complaint : String
deriving DecidableEq, Repr

namespace Ended

def success (output : String) : Ended := { code := 0, output, complaint := "" }

def failure (why : String) : Ended := { code := 1, output := "", complaint := "Error: " ++ why }

/-- The end of a mistaken command line. -/
def mistake : Ended := { code := 2, output := "", complaint := "error: invalid arguments" }

end Ended

namespace Work

def lookup (name : String) : Work (Option String) := Dialogue.question (Effect.lookup name)

def readFile (path : String) : Work (Except String String) :=
  Dialogue.question (Effect.readFile path)

def writeFile (path text : String) : Work (Except String Unit) :=
  Dialogue.question (Effect.writeFile path text)

def readInput : Work String := Dialogue.question Effect.readInput

def clock : Work Pipeline.Now := Dialogue.question Effect.clock

def ofExchange {α : Type} (d : Llm.Exchange α) : Work α :=
  d.relay fun s => Dialogue.question (Effect.model s)

def ofTalk {α : Type} (d : Database.Talk α) : Work α :=
  d.relay fun c => Dialogue.question (Effect.database c)

end Work

end Querent.Command
