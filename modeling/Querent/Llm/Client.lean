import Querent.Dialogue
import Querent.Json.Printer
import Querent.Llm.Message
import Querent.Llm.Reply
import Querent.Settings

/-! A model behind a server: what is posted to it, and what is tried until a text comes back.

Each attempt goes through the endpoint styles in order, and attempts are made until a style gives a
text or no retry is left. A server that refuses the hint at the form of the answer is asked once
more without it. -/
namespace Querent.Llm

/-- What is posted to a server. -/
structure Post where
  url : String
  apiKey : Option String
  body : Json

/-- Whether a post can be written down: a key with control characters cannot. -/
def Post.isSendable (p : Post) : Bool :=
  p.apiKey.all fun key => key.all fun c => c == '\t' || (' ' ≤ c && c != '\x7f')

/-- What a server answers. -/
structure Response where
  status : Nat
  body : String
deriving DecidableEq, Repr

/-- What a client does between its question and its answer. -/
inductive Step where
  | post (p : Post)
  | pause (milliseconds : Nat)

/-- A post brings a response, or none where the server was not reached. -/
abbrev Step.Result : Step → Type
  | post _ => Option Response
  | pause _ => Unit

abbrev Exchange := Dialogue Step Step.Result

namespace Client

/-- What every path starts with, once. -/
def version : List Char := "/v1".toList

/-- The address of a style: a base may end in slashes and in the start of the path. -/
def endpoint (base : String) (style : EndpointStyle) : String :=
  let cs := (base.toList.reverse.dropWhile (· == '/')).reverse
  let cs := if version.isSuffixOf cs then cs.take (cs.length - version.length) else cs
  let path := match style with
    | .chat => "/chat/completions"
    | .completion => "/completions"
  .ofList (cs ++ version ++ path.toList)

/-- The body of a post, its members in the order of their names. -/
def body (model : String) (style : EndpointStyle) (a : Ask) (hinted : Bool) : Json :=
  let limit := match style with
    | .chat => "max_tokens"
    | .completion => "max_completion_tokens"
  let hint := [("response_format", Json.object [("type", .string "json_object")])]
  let stream := [("stream", Json.bool false)]
  .object ([(limit, .ofNat a.maxTokens), ("messages", .array (a.messages.map Message.toJson)),
    ("model", .string model)] ++ (if hinted then hint else []) ++
    (if style == .completion then stream else []) ++ [("temperature", .ofNat 0)])

def post (s : ModelSettings) (style : EndpointStyle) (a : Ask) (hinted : Bool) : Post where
  url := endpoint s.baseUrl style
  apiKey := s.apiKey
  body := body s.model style a hinted

/-- Whether a server may have refused the hint. -/
def refusesHint : Option Response → Bool
  | some r => r.status == 400 || r.status == 422
  | none => false

/-- A body less the mark of its byte order. -/
def unmarked (body : String) : String :=
  match body.toList with
  | '\ufeff' :: rest => .ofList rest
  | _ => body

/-- The text in a server's answer, or why there is none. -/
def textOf : Option Response → Except Error String
  | none => .error (.model "LLM API call failed")
  | some r =>
    if 200 ≤ r.status && r.status < 300 then
      match (Json.Tree.parse (unmarked r.body)).bind Reply.ofTree with
      | none => .error (.model "Failed to parse LLM response")
      | some reply =>
        match reply.firstText with
        | some text => .ok text
        | none => .error (.model "No content in LLM response")
    else .error (.model ("LLM HTTP " ++ toString r.status))

/-- Asks in one style. -/
def askStyle (s : ModelSettings) (a : Ask) (style : EndpointStyle) :
    Exchange (Except Error String) :=
  let hinted := a.format == .jsonObject
  .ask (.post (post s style a hinted)) fun r =>
    if hinted && refusesHint r then
      .ask (.post (post s style a false)) fun r => .done (textOf r)
    else .done (textOf r)

/-- Asks in each style up to the first that gives a text; otherwise the last error stays. -/
def askStyles (s : ModelSettings) (a : Ask) (last : Error) :
    List EndpointStyle → Exchange (Except Error String)
  | [] => .done (.error last)
  | style :: rest => (askStyle s a style).bind fun
    | .ok text => .done (.ok text)
    | .error e => askStyles s a e rest

/-- The pause after an attempt, the first being number 0. -/
def pauseAfter (attempt : Nat) : Nat := 500 * (attempt + 1)

/-- An attempt and, if it fails, as many more as there are retries. -/
def attempts (s : ModelSettings) (a : Ask) (last : Error) (attempt : Nat) :
    (retries : Nat) → Exchange (Except Error String)
  | 0 => askStyles s a last s.styles
  | retries + 1 => (askStyles s a last s.styles).bind fun
    | .ok text => .done (.ok text)
    | .error e => .ask (.pause (pauseAfter attempt)) fun () =>
      attempts s a e (attempt + 1) retries

/-- Asks a model until there is a text or all has been tried; then the last error counts. -/
def complete (s : ModelSettings) (a : Ask) : Exchange (Except Error String) :=
  attempts s a (.model "No LLM endpoint styles configured") 0 s.retries

end Client

end Querent.Llm
