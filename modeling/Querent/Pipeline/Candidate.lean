import Querent.Catalog.Basic
import Querent.Json.Tree
import Querent.Llm.Reply

/-! Statements to be checked: read out of a model's answer, or made up from the catalogue. -/
namespace Querent.Candidate

/-- A text, trimmed, unless it is blank. -/
def present (s : String) : Option String :=
  let t := trimmed s
  if t.isEmpty then none else some t

/-- The statement in an answer. An answer in JSON must be an object with a text under `sql`; one
that is no JSON is the statement itself. -/
def ofAnswer (answer : String) : Option String :=
  let text := Llm.stripFence answer
  if text.isEmpty then none
  else match Json.parse text with
    | some (.object members) => (((Json.object members).get? "sql").bind Json.string?).bind present
    | some _ => none
    | none => some text

/-- How many columns a made-up statement asks for. -/
def columnLimit : Nat := 5

/-- A query of the first columns of the first table. -/
def fallback (s : Snapshot) : String :=
  match s.tables with
  | [] => "SELECT 1"
  | t :: _ =>
    let columns := (t.columns.take columnLimit).map fun c => t.qualifiedName ++ "." ++ c.name
    let selected := if columns.isEmpty then "*" else ", ".intercalate columns
    "SELECT " ++ selected ++ " FROM " ++ t.qualifiedName

end Querent.Candidate
