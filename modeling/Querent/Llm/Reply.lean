import Querent.Json.Fields
import Querent.Text.Blank

/-! The text in a model's reply. -/
namespace Querent.Llm

open Json (Tree Fields)

structure Choice where
  /-- The content of the message of a chat. -/
  content : Option String
  /-- The text of a completion. -/
  text : Option String
deriving DecidableEq, Repr

structure Reply where
  outputText : Option String
  choices : List Choice
deriving DecidableEq, Repr

def readMessage (t : Tree) : Option (Option String) := do
  (← Fields.read ["content"] t).optional "content" Tree.string?

def Choice.ofTree (t : Tree) : Option Choice := do
  let f ← Fields.read ["message", "text"] t
  let message ← f.optional "message" readMessage
  let text ← f.optional "text" Tree.string?
  some { content := message.join, text }

namespace Reply

def ofTree (t : Tree) : Option Reply := do
  let f ← Fields.read ["output_text", "choices"] t
  some
    { outputText := ← f.optional "output_text" Tree.string?
      choices := ← f.orElse "choices" (Tree.list? Choice.ofTree) [] }

/-- The reply's own text, else the content and else the text of the first choice. No text counts
that is empty. -/
def firstText (r : Reply) : Option String :=
  let present (s : Option String) := s.filter fun s => !s.isEmpty
  match present r.outputText, r.choices with
  | some s, _ => some s
  | none, [] => none
  | none, c :: _ =>
    match present c.content with
    | some s => some s
    | none => present c.text

end Reply

/-! Answers of a model that are one fenced block of Markdown and nothing else. -/

open Text

/-- The three backticks that open and close a block. -/
def fence : List Char := ['`', '`', '`']

/-- What a text holds before the closing fence on a line of its own at its very end. -/
def beforeFence (cs : List Char) : Option (List Char) :=
  if "\n```".toList.isSuffixOf cs then some (cs.take (cs.length - 4)) else none

/-- The inside of a block: behind the opening fence, a tag of letters A to Z and digits and a line
break, up to the closing fence on a line of its own, with nothing behind that. -/
def insideFence (cs : List Char) : Option (List Char) :=
  if fence.isPrefixOf cs then
    match (cs.drop 3).dropWhile Char.isAlphanum with
    | '\n' :: block => beforeFence block
    | _ => none
  else none

/-- The inside of a text that is one fenced block, and otherwise the text; trimmed. -/
def stripFence (text : String) : String :=
  let cs := trim text.toList
  .ofList (trim ((insideFence cs).getD cs))

end Querent.Llm
