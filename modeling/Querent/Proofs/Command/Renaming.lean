import Mathlib.Data.List.Forall2
import Querent.Command.Run
import Querent.Proofs.Catalog.RoundTrip
import Querent.Proofs.Text.Blank
import Querent.Proofs.Dialogue

/-! The file of a catalogue, named by a model and written back: what is written is the catalogue
that was read, but for the names. -/
namespace Querent

/-! ### What naming leaves -/

/-- A text is the old one, or one that is not blank. -/
def Kept (old new : Option String) : Prop :=
  new = old ∨ ∃ text, new = some text ∧ isBlankText text = false

structure Column.Renamed (c c' : Column) : Prop where
  name : c'.name = c.name
  dataType : c'.dataType = c.dataType
  isNullable : c'.isNullable = c.isNullable
  isPrimaryKey : c'.isPrimaryKey = c.isPrimaryKey
  businessName : Kept c.businessName c'.businessName
  description : Kept c.description c'.description

structure Table.Renamed (t t' : Table) : Prop where
  schema : t'.schema = t.schema
  name : t'.name = t.name
  businessName : Kept t.businessName t'.businessName
  description : Kept t.description t'.description
  columns : List.Forall₂ Column.Renamed t.columns t'.columns

/-- Two snapshots differ in nothing but business names and descriptions, and none of these was lost:
table by table and column by column. -/
structure Snapshot.Renamed (s s' : Snapshot) : Prop where
  workspace : s'.workspace = s.workspace
  tables : List.Forall₂ Table.Renamed s.tables s'.tables
  foreignKeys : s'.foreignKeys = s.foreignKeys

theorem Kept.refl (old : Option String) : Kept old old := .inl rfl

theorem Kept.trans {a b c : Option String} (h : Kept a b) (h' : Kept b c) : Kept a c := by
  rcases h' with hsame | hnew
  · rw [hsame]
    exact h
  · exact .inr hnew

theorem Column.Renamed.refl (c : Column) : c.Renamed c :=
  ⟨rfl, rfl, rfl, rfl, .refl _, .refl _⟩

theorem Table.Renamed.refl (t : Table) : t.Renamed t :=
  ⟨rfl, rfl, .refl _, .refl _, List.forall₂_same.2 fun c _ => .refl c⟩

theorem Column.Renamed.trans {a b c : Column} (h : a.Renamed b) (h' : b.Renamed c) :
    a.Renamed c where
  name := h'.name.trans h.name
  dataType := h'.dataType.trans h.dataType
  isNullable := h'.isNullable.trans h.isNullable
  isPrimaryKey := h'.isPrimaryKey.trans h.isPrimaryKey
  businessName := h.businessName.trans h'.businessName
  description := h.description.trans h'.description

namespace Naming

theorem trim_eq_nil_of_isAllBlank {cs : List Char} (h : Text.isAllBlank (Text.trim cs) = true) :
    Text.trim cs = [] := by
  rw [← Text.trim_trim]
  exact Text.trim_eq_nil_iff.2 (List.all_eq_true.1 h)

theorem kept_better (old suggested : Option String) : Kept old (better old suggested) := by
  cases suggested with
  | none => exact .refl old
  | some s =>
    change Kept old (if (trimmed s).isEmpty then old else some (trimmed s))
    split
    · exact .refl old
    · rename_i hempty
      refine .inr ⟨_, rfl, ?_⟩
      rw [Bool.eq_false_iff]
      intro hblank
      apply hempty
      have hnil : Text.trim s.toList = [] := by
        apply trim_eq_nil_of_isAllBlank
        simpa [isBlankText, trimmed] using hblank
      simp [trimmed, hnil]

theorem renamed_improveColumn (c : Column) (s : Suggestion) : c.Renamed (improveColumn c s) :=
  ⟨rfl, rfl, rfl, rfl, kept_better _ _, kept_better _ _⟩

theorem renamed_improveColumns (s : ColumnSuggestion) {cs cs' : List Column}
    (h : List.Forall₂ Column.Renamed cs cs') :
    List.Forall₂ Column.Renamed cs (improveColumns s cs') := by
  induction h with
  | nil => exact .nil
  | cons hfirst hrest ih =>
    rw [improveColumns]
    split
    · exact .cons (hfirst.trans (renamed_improveColumn _ s.suggestion)) hrest
    · exact .cons hfirst ih

/-- One suggestion after the other. -/
theorem renamed_foldl (ss : List ColumnSuggestion) {cs cs' : List Column}
    (h : List.Forall₂ Column.Renamed cs cs') :
    List.Forall₂ Column.Renamed cs (ss.foldl (fun cs s => improveColumns s cs) cs') := by
  induction ss generalizing cs' with
  | nil => exact h
  | cons s ss ih => exact ih (renamed_improveColumns s h)

theorem renamed_improve (t : Table) (s : TableSuggestion) : t.Renamed (improve t s) :=
  ⟨rfl, rfl, kept_better _ _, kept_better _ _,
    renamed_foldl _ (List.forall₂_same.2 fun c _ => .refl c)⟩

/-! ### What is asked and answered -/

/-- A table after the model's answer to what it was asked for it. -/
def afterAnswer (t : Table) (answer : Except Error String) : Table :=
  match answer.bind parse with
  | .ok s => improve t s
  | .error _ => t

theorem renamed_afterAnswer (t : Table) (answer : Except Error String) :
    t.Renamed (afterAnswer t answer) := by
  rw [afterAnswer]
  split
  · exact renamed_improve t _
  · exact .refl t

/-- What a model is asked, and its answer. -/
abbrev Asked := Dialogue.Exchange fun _ : Llm.Ask => Except Error String

/-- What is asked for some tables, with the answers. -/
def asksOf (keys : List ForeignKey) (ts : List Table) (answers : List (Except Error String)) :
    List Asked := List.zipWith (fun t answer => ⟨Prompt.askNames t keys, answer⟩) ts answers

/-- How many answers hold a suggestion. -/
def countSuggestions (answers : List (Except Error String)) : Nat :=
  answers.countP fun answer => (answer.bind parse).isOk

/-- One question and one answer for each table. -/
theorem path_nameTables {keys : List ForeignKey} {ts : List Table} {es : List Asked}
    {tables : List Table} {n : Nat} (h : Dialogue.Path (nameTables keys ts) es (.done (tables, n))) :
    es.length = ts.length ∧ tables = List.zipWith afterAnswer ts (es.map (·.2)) ∧
      es = asksOf keys ts (es.map (·.2)) ∧ n = countSuggestions (es.map (·.2)) := by
  induction ts generalizing es tables n with
  | nil =>
    obtain ⟨rfl, hend⟩ := Dialogue.path_done.1 h
    cases hend
    exact ⟨rfl, rfl, rfl, rfl⟩
  | cons t ts ih =>
    obtain ⟨suggestion, first, after, rfl, hfirst, hafter⟩ := h.of_bind_done
    obtain ⟨⟨others, m⟩, es, last, rfl, hothers, hlast⟩ := hafter.of_bind_done
    obtain ⟨rfl, hend⟩ := Dialogue.path_done.1 hlast
    obtain ⟨hlength, rfl, hasks, rfl⟩ := ih hothers
    obtain ⟨answer, behind, rfl, hanswer⟩ := Dialogue.path_ask_done.1 hfirst
    have hsuggestion : behind = [] ∧ suggestion = answer.bind parse := by
      cases answer <;>
      · obtain ⟨hnone, hend⟩ := Dialogue.path_done.1 hanswer
        cases hend
        exact ⟨hnone, rfl⟩
    obtain ⟨rfl, rfl⟩ := hsuggestion
    have hfirstTable : tables = afterAnswer t answer :: List.zipWith afterAnswer ts (es.map (·.2)) ∧
        n = countSuggestions (answer :: es.map (·.2)) := by
      rw [afterAnswer, countSuggestions, List.countP_cons]
      cases hparse : answer.bind parse with
      | ok s =>
        rw [hparse] at hend
        cases hend
        exact ⟨rfl, rfl⟩
      | error e =>
        rw [hparse] at hend
        cases hend
        exact ⟨rfl, rfl⟩
    refine ⟨by simp [hlength], by simpa using hfirstTable.1, ?_, by simpa using hfirstTable.2⟩
    rw [List.append_nil, List.singleton_append, List.map_cons, asksOf, List.zipWith_cons_cons,
      ← asksOf, ← hasks]

end Naming

/-- A snapshot after the model's answers for its tables. -/
def Snapshot.afterAnswers (s : Snapshot) (answers : List (Except Error String)) : Snapshot :=
  { s with tables := List.zipWith Naming.afterAnswer s.tables answers }

theorem Snapshot.renamed_afterAnswers {s : Snapshot} {answers : List (Except Error String)}
    (h : answers.length = s.tables.length) : s.Renamed (s.afterAnswers answers) := by
  refine ⟨rfl, ?_, rfl⟩
  change List.Forall₂ Table.Renamed s.tables (List.zipWith Naming.afterAnswer s.tables answers)
  generalize s.tables = ts at h
  induction ts generalizing answers with
  | nil => exact .nil
  | cons t ts ih =>
    cases answers with
    | nil => simp at h
    | cons answer answers =>
      exact .cons (Naming.renamed_afterAnswer t answer) (ih (by simpa using h))

theorem Naming.path_nameSnapshot {s s' : Snapshot} {n : Nat} {es : List Asked}
    (h : Dialogue.Path (nameSnapshot s) es (.done (s', n))) :
    es.length = s.tables.length ∧ s' = s.afterAnswers (es.map (·.2)) ∧
      es = asksOf s.foreignKeys s.tables (es.map (·.2)) ∧ n = countSuggestions (es.map (·.2)) := by
  obtain ⟨⟨tables, m⟩, es, last, rfl, htables, hlast⟩ := h.of_bind_done
  obtain ⟨rfl, hend⟩ := Dialogue.path_done.1 hlast
  cases hend
  obtain ⟨hlength, rfl, hasks, rfl⟩ := path_nameTables htables
  rw [List.append_nil]
  exact ⟨hlength, rfl, hasks, rfl⟩

/-! ### The file -/

namespace Command

open Dialogue (Path Exchange)

variable {settings : Settings} {path text : String} {s s' : Snapshot}
  {es : List (Exchange Effect.Result)} {ended : Ended}

/-- A question to the model. -/
def Effect.IsModel (e : Effect) : Prop := ∃ step, e = .model step

theorem asks_ofExchange {α : Type} (d : Llm.Exchange α) :
    (Work.ofExchange d).Asks Effect.IsModel := by
  apply Dialogue.Asks.relay
  intro step
  have hstep : (Effect.model step).IsModel := ⟨step, rfl⟩
  exact And.intro hstep fun _ => trivial

theorem asks_named : (named settings s).Asks Effect.IsModel := by
  have hnames : ((Naming.nameSnapshot s).relay fun a =>
      Work.ofExchange (Llm.Client.complete settings.model a)).Asks Effect.IsModel :=
    Dialogue.Asks.relay (fun a => asks_ofExchange _) _
  exact hnames.bind fun _ => trivial

/-- Naming asks the model alone, and what it makes of a snapshot follows from the answers. -/
theorem path_named (h : Path (named settings s) es (.done s')) :
    (∀ e ∈ es, e.1.IsModel) ∧
      ∃ answers, answers.length = s.tables.length ∧ s' = s.afterAnswers answers := by
  refine ⟨(asks_named.of_path h).1, ?_⟩
  obtain ⟨⟨s'', n⟩, es, last, rfl, hrelay, hlast⟩ := Path.of_bind_done h
  obtain ⟨rfl, hend⟩ := Dialogue.path_done.1 hlast
  cases hend
  obtain ⟨parts, answers, hnames, -, -⟩ := hrelay.of_relay_done
  obtain ⟨hlength, rfl, -, -⟩ := Naming.path_nameSnapshot hnames
  exact ⟨answers.map (·.2), by simp [hlength], rfl⟩

/-- The file is read, the model asked, and the file written. -/
theorem path_nameFile (hs : Snapshot.parse text = some s)
    (h : Path (nameFile settings path) (⟨.readFile path, .ok text⟩ :: es) (.done ended)) :
    ∃ talk s' result, es = talk ++ [⟨.writeFile path s'.toJson.pretty, result⟩] ∧
      Path (named settings s) talk (.done s') := by
  obtain ⟨r, es', hes, hrest⟩ := Dialogue.path_ask_done.1 h
  obtain ⟨hread, rfl⟩ := List.cons.inj hes
  cases hread
  have hsnapshot : Workspace.readSnapshot path (.ok text) = .ok s := by
    simp [Workspace.readSnapshot, hs]
  simp only [Dialogue.bind, hsnapshot] at hrest
  obtain ⟨s', talk, last, rfl, hnamed, hlast⟩ := Path.of_bind_done hrest
  obtain ⟨result, last, rfl, hend⟩ := Dialogue.path_ask_done.1 hlast
  obtain ⟨rfl, -⟩ := Dialogue.path_done.1 hend
  exact ⟨talk, s', result, rfl, hnamed⟩

/-- A snapshot is read back from either layout of its text, field by field. So a file that held one
holds, once it was named, that very snapshot after the model's answers: the text written is read as
it, the model alone was asked in between, and nothing but names was set. -/
theorem rewritten_snapshot (s : Snapshot) (hs : s.WorkspaceFits) :
    (Snapshot.parse s.toJson.compact = some s ∧ Snapshot.parse s.toJson.pretty = some s) ∧
      ∀ (settings : Settings) (path text : String) (es : List (Exchange Effect.Result))
        (ended : Ended), Snapshot.parse text = some s →
        Path (nameFile settings path) (⟨.readFile path, .ok text⟩ :: es) (.done ended) →
        ∃ talk answers written result,
          es = talk ++ [⟨.writeFile path written, result⟩] ∧ (∀ e ∈ talk, e.1.IsModel) ∧
          answers.length = s.tables.length ∧
          Snapshot.parse written = some (s.afterAnswers answers) ∧
          s.Renamed (s.afterAnswers answers) := by
  refine ⟨⟨Snapshot.parse_compact hs, Snapshot.parse_pretty hs⟩, ?_⟩
  intro settings path text es ended htext h
  obtain ⟨talk, s', result, hes, hnamed⟩ := path_nameFile htext h
  obtain ⟨hmodel, answers, hlength, rfl⟩ := path_named hnamed
  have hfits : s.WorkspaceFits := Snapshot.workspaceFits_of_parse htext
  have hnamedFits : (s.afterAnswers answers).WorkspaceFits := hfits
  exact ⟨talk, answers, _, result, hes, hmodel, hlength, Snapshot.parse_pretty hnamedFits,
    Snapshot.renamed_afterAnswers hlength⟩

/-- Texts with a quote, a backslash, a line break, control characters and letters beyond ASCII. -/
def awkwardSnapshot : Snapshot where
  workspace := -9223372036854775808
  tables :=
    [{ schema := "pub\"lic", name := "a\\b", businessName := some "ligne\n\x01", description := none
       columns :=
        [{ name := "\t", dataType := "text", isNullable := true, isPrimaryKey := false
           businessName := none, description := some "größe \u2028" }] }]
  foreignKeys :=
    [{ constraint := none
       source := { schema := "pub\"lic", table := "a\\b", column := "\t" }
       target := { schema := "", table := "\x7f", column := "null" } }]

theorem result_nonempty (e : Effect) : Nonempty e.Result := by
  cases e with
  | lookup => exact ⟨none⟩
  | readFile => exact ⟨.ok ""⟩
  | writeFile => exact ⟨.ok ()⟩
  | readInput => exact ⟨""⟩
  | model step => cases step with
    | post => exact ⟨none⟩
    | pause => exact ⟨()⟩
  | database call => cases call with
    | connect => exact ⟨.ok 0⟩
    | command => exact ⟨.ok ()⟩
    | query => exact ⟨{ columns := [], rows := [], ended := .ok 0 }⟩
    | close => exact ⟨()⟩
  | freshResponse => exact ⟨""⟩
  | clock =>
    let date : Date := ⟨1970, 1, 1, by decide, by decide, by decide⟩
    let time : Time := ⟨0, 0, 0, 0, by decide, by decide⟩
    exact ⟨{ milliseconds := 0, moment := { date, time } }⟩

/-- Such a snapshot comes back from both layouts, and from the file it was named in. -/
theorem rewritten_awkwardSnapshot :
    awkwardSnapshot.WorkspaceFits ∧
      Snapshot.parse awkwardSnapshot.toJson.compact = some awkwardSnapshot ∧
      Snapshot.parse awkwardSnapshot.toJson.pretty = some awkwardSnapshot ∧
      ∃ (talk : List (Exchange Effect.Result)) (answers : List (Except Error String))
        (written : String) (result : Except String Unit) (ended : Ended),
        Path (nameFile .standard "snapshot.json")
          (⟨.readFile "snapshot.json", .ok awkwardSnapshot.toJson.pretty⟩ ::
            (talk ++ [⟨.writeFile "snapshot.json" written, result⟩])) (.done ended) ∧
        Snapshot.parse written = some (awkwardSnapshot.afterAnswers answers) ∧
        awkwardSnapshot.Renamed (awkwardSnapshot.afterAnswers answers) := by
  have hfits : awkwardSnapshot.WorkspaceFits := ⟨by decide, by decide⟩
  obtain ⟨⟨hcompact, hpretty⟩, hfile⟩ := rewritten_snapshot awkwardSnapshot hfits
  have hopened : Path (nameFile .standard "snapshot.json")
      [⟨.readFile "snapshot.json", .ok awkwardSnapshot.toJson.pretty⟩] _ := .next .here
  obtain ⟨es, ended, hrun⟩ := hopened.finish result_nonempty
  obtain ⟨talk, answers, written, result, rfl, -, -, hwritten, hrenamed⟩ :=
    hfile .standard "snapshot.json" _ es ended hpretty hrun
  exact ⟨hfits, hcompact, hpretty, talk, answers, written, result, ended, hrun, hwritten, hrenamed⟩

end Command

end Querent
