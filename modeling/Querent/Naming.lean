import Querent.Dialogue
import Querent.Error
import Querent.Llm.Reply
import Querent.Prompt.Basic

/-! Business names: what a model suggests for a table, and how a catalogue takes it over. -/
namespace Querent.Naming

open Json (Tree Fields)

structure Suggestion where
  businessName : Option String
  description : Option String
deriving DecidableEq, Repr

structure ColumnSuggestion where
  column : String
  suggestion : Suggestion
deriving DecidableEq, Repr

structure TableSuggestion where
  table : Suggestion
  columns : List ColumnSuggestion
deriving DecidableEq, Repr

def Suggestion.none : Suggestion := { businessName := .none, description := .none }

def Suggestion.ofTree (t : Tree) : Option Suggestion := do
  let f ← Fields.read ["businessName", "description"] t
  some
    { businessName := ← f.optional "businessName" Tree.string?
      description := ← f.optional "description" Tree.string? }

def ColumnSuggestion.ofTree (t : Tree) : Option ColumnSuggestion := do
  let f ← Fields.read ["columnName", "businessName", "description"] t
  some
    { column := ← f.required "columnName" Tree.string?
      suggestion :=
        { businessName := ← f.optional "businessName" Tree.string?
          description := ← f.optional "description" Tree.string? } }

def TableSuggestion.ofTree (t : Tree) : Option TableSuggestion := do
  let f ← Fields.read ["table", "columns"] t
  some
    { table := ← f.orElse "table" Suggestion.ofTree .none
      columns := ← f.orElse "columns" (Tree.list? ColumnSuggestion.ofTree) [] }

/-- The suggestion in a model's answer. -/
def parse (answer : String) : Except Error TableSuggestion :=
  match (Tree.parse (Llm.stripFence answer)).bind TableSuggestion.ofTree with
  | some s => .ok s
  | none => .error (.model "Failed to parse business names")

/-- A suggested text, trimmed, where it is not blank, and otherwise the old one. -/
def better (old suggested : Option String) : Option String :=
  match suggested.map trimmed with
  | some s => if s.isEmpty then old else some s
  | none => old

def improveColumn (c : Column) (s : Suggestion) : Column :=
  { c with
    businessName := better c.businessName s.businessName
    description := better c.description s.description }

/-- Gives the first column of a name what is suggested for it. -/
def improveColumns (s : ColumnSuggestion) : List Column → List Column
  | [] => []
  | c :: rest =>
    if c.name == s.column then improveColumn c s.suggestion :: rest
    else c :: improveColumns s rest

/-- The table with what is suggested for it and its columns, one suggestion after the other. -/
def improve (t : Table) (s : TableSuggestion) : Table :=
  { t with
    businessName := better t.businessName s.table.businessName
    description := better t.description s.table.description
    columns := s.columns.foldl (fun cs c => improveColumns c cs) t.columns }

/-- A model's answer to what it is asked, or why there is none. -/
abbrev ModelDialogue := Dialogue Llm.Ask (fun _ => Except Error String)

/-- Asks for the names of a table: the suggestion, or why there is none. -/
def suggest (t : Table) (keys : List ForeignKey) : ModelDialogue (Except Error TableSuggestion) :=
  .ask (Prompt.askNames t keys) fun
    | .ok answer => .done (parse answer)
    | .error e => .done (.error e)

/-- Asks for the names of some tables in turn. A table whose answer fails stays as it was. Gives
the tables and how many of them were named. -/
def nameTables (keys : List ForeignKey) : List Table → ModelDialogue (List Table × Nat)
  | [] => .done ([], 0)
  | t :: rest =>
    (suggest t keys).bind fun s =>
      (nameTables keys rest).bind fun (tables, named) =>
        .done (match s with
          | .ok s => (improve t s :: tables, named + 1)
          | .error _ => (t :: tables, named))

/-- The snapshot with names for its tables, and how many tables were named. -/
def nameSnapshot (s : Snapshot) : ModelDialogue (Snapshot × Nat) :=
  (nameTables s.foreignKeys s.tables).bind fun (tables, named) =>
    .done ({ s with tables }, named)

end Querent.Naming
