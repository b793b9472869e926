import Querent.Json.Basic

/-! What is said to a model and the form its answer should have. -/
namespace Querent.Llm

structure Message where
  role : String
  content : String
deriving DecidableEq, Repr

namespace Message

def system (content : String) : Message := { role := "system", content }

def user (content : String) : Message := { role := "user", content }

/-- The members in the order of their names. -/
def toJson (m : Message) : Json :=
  .object [("content", .string m.content), ("role", .string m.role)]

end Message

/-- The form of an answer. -/
inductive Format where
  | text
  | jsonObject
deriving DecidableEq, Repr

/-- What a model is asked at once. -/
structure Ask where
  messages : List Message
  maxTokens : Nat
  format : Format
deriving DecidableEq, Repr

end Querent.Llm
