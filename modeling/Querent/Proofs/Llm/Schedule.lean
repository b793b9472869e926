import Querent.Llm.Client
import Querent.Proofs.Dialogue

/-! What is posted until a text comes back. The calls follow a schedule that the settings alone
decide, and what comes of them decides how far along it they go: up to the first post that delivers a
text, or to its end. -/
namespace Querent.Llm

open Dialogue

/-- A post and what came of it. -/
abbrev Posted := Post × Option Response

/-- A status of success and a body that is read and holds a text which is not empty. -/
def Delivers (r : Option Response) (text : String) : Prop :=
  ∃ answer reply, r = some answer ∧ 200 ≤ answer.status ∧ answer.status < 300 ∧
    (Json.Tree.parse (Client.unmarked answer.body)).bind Reply.ofTree = some reply ∧
    reply.firstText = some text ∧ text ≠ ""

/-- A server that may not know the hint. -/
def Refuses (r : Option Response) : Prop :=
  ∃ answer, r = some answer ∧ (answer.status = 400 ∨ answer.status = 422)

/-- The same post without the hint at the form of the answer. -/
def Post.unhinted (p : Post) : Post :=
  { p with
    body := match p.body with
      | .object members => .object (members.filter (·.1 != "response_format"))
      | body => body }

variable {s : ModelSettings} {a : Ask} {style : EndpointStyle} {r : Option Response} {text : String}
  {call : List Posted} {last : Error} {styles : List EndpointStyle} {calls : List (List Posted)}
  {x : Except Error String} {es : List (Dialogue.Exchange Step.Result)}

/-- The first post of a call goes to the address of its style, and has the hint exactly if an object
is asked for. -/
structure Opens (s : ModelSettings) (a : Ask) (style : EndpointStyle) (p : Post) : Prop where
  url : p.url = Client.endpoint s.baseUrl style
  apiKey : p.apiKey = s.apiKey
  hint : p.body.get? "response_format" =
    if a.format = .jsonObject then some (.object [("type", .string "json_object")]) else none
  body : p.unhinted.body = Client.body s.model style a false

/-- The posts of a call in a style: one, and one more without the hint if that was refused. -/
inductive IsCall (s : ModelSettings) (a : Ask) (style : EndpointStyle) : List Posted → Prop
  | once {p : Post} {r : Option Response} (opens : Opens s a style p)
      (settled : ¬ (a.format = .jsonObject ∧ Refuses r)) : IsCall s a style [(p, r)]
  | twice {p : Post} {r r' : Option Response} (opens : Opens s a style p)
      (hinted : a.format = .jsonObject) (refused : Refuses r) :
      IsCall s a style [(p, r), (p.unhinted, r')]

theorem IsCall.length_bounds (h : IsCall s a style call) : 1 ≤ call.length ∧ call.length ≤ 2 := by
  cases h <;> simp

/-- Calls have a post each and two at most. -/
theorem length_flatten_bounds (h : List.Forall₂ (IsCall s a) styles calls) :
    styles.length ≤ calls.flatten.length ∧ calls.flatten.length ≤ 2 * styles.length := by
  induction h with
  | nil => simp
  | cons hcall _ ih =>
    have hbounds := hcall.length_bounds
    rw [List.flatten_cons, List.length_append, List.length_cons]
    omega

/-! ### The schedule -/

/-- Calls in the order of some styles, each one failing up to the last, and how they end. Where there
is no call the error from before stays. -/
structure Tried (s : ModelSettings) (a : Ask) (last : Error) (styles : List EndpointStyle)
    (calls : List (List Posted)) (x : Except Error String) : Prop where
  inOrder : List.Forall₂ (IsCall s a) (styles.take calls.length) calls
  before : ∀ p ∈ calls.flatten.dropLast, ∀ t, ¬ Delivers p.2 t
  ending : x = ((calls.flatten.getLast?).map fun p => Client.textOf p.2).getD (.error last)
  whole : (∀ t, x ≠ .ok t) → calls.length = styles.length

namespace Tried

theorem length_bounds (h : Tried s a last styles calls x) :
    calls.length ≤ calls.flatten.length ∧ calls.flatten.length ≤ 2 * styles.length := by
  have hlength := h.inOrder.length_eq
  have hbounds := length_flatten_bounds h.inOrder
  rw [List.length_take] at hlength hbounds
  omega

end Tried

end Querent.Llm
