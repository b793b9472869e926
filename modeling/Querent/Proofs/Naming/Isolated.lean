import Querent.Proofs.Catalog.UniqueNames
import Querent.Proofs.Naming.Run
import Querent.Proofs.Pipeline.Answer

/-! What naming makes of each table. It is settled by the answer for that table alone, and of all that
the answer suggests for one text the last counts that is not blank. -/
namespace Querent.Naming

open Dialogue (Path)

/-! ### The last suggestion -/

/-- A suggested text without the white space at its ends, if anything is left of it. -/
def given (suggested : Option String) : Option String :=
  (suggested.map trimmed).filter fun s => !s.isEmpty

/-- The last of some suggested texts that is not blank. -/
def lastGiven (suggested : List (Option String)) : Option String :=
  (suggested.filterMap given).getLast?

variable {old new : Option String} {t t' : Table} {s : TableSuggestion} {cs : List Column} {i : Nat}

theorem better_eq (old suggested : Option String) : better old suggested = (given suggested).or old := by
  cases suggested with
  | none => rfl
  | some s =>
    show (if (trimmed s).isEmpty then old else some (trimmed s)) = _
    rw [given, Option.map_some, Option.filter_some]
    cases (trimmed s).isEmpty <;> rfl

theorem lastGiven_concat (suggested : List (Option String)) (s : Option String) :
    lastGiven (suggested ++ [s]) = (given s).or (lastGiven suggested) := by
  rw [lastGiven, List.filterMap_append]
  cases hs : given s <;> simp [lastGiven, hs]

/-- Taken over one after the other, suggestions leave the last, or the old text where there is none. -/
theorem foldl_better (old : Option String) (suggested : List (Option String)) :
    suggested.foldl better old = (lastGiven suggested).or old := by
  induction suggested using List.reverseRecOn with
  | nil => rfl
  | append_singleton suggested s ih =>
    rw [List.foldl_append, List.foldl_cons, List.foldl_nil, ih, better_eq, lastGiven_concat,
      Option.or_assoc]

/-- A column after some suggestions for it. -/
def named (c : Column) (ss : List Suggestion) : Column :=
  { c with
    businessName := (lastGiven (ss.map (·.businessName))).or c.businessName
    description := (lastGiven (ss.map (·.description))).or c.description }

theorem foldl_improveColumn (c : Column) (ss : List Suggestion) :
    ss.foldl improveColumn c = named c ss := by
  have hfold : ss.foldl improveColumn c =
      { c with
        businessName := (ss.map (·.businessName)).foldl better c.businessName
        description := (ss.map (·.description)).foldl better c.description } := by
    induction ss generalizing c with
    | nil => rfl
    | cons s ss ih => exact ih (improveColumn c s)
  rw [hfold, foldl_better, foldl_better]
  rfl

/-! ### Columns -/

/-- Whether a suggestion is for the column at a place: it is the first of the name. -/
def isFor (cs : List Column) (i : Nat) (s : ColumnSuggestion) : Bool :=
  cs.findIdx? (·.name == s.column) == some i

/-- What is suggested for the column at a place. -/
def suggestedAt (cs : List Column) (i : Nat) (ss : List ColumnSuggestion) : List Suggestion :=
  (ss.filter (isFor cs i)).map (·.suggestion)

theorem names_improveColumns (s : ColumnSuggestion) (cs : List Column) :
    (improveColumns s cs).map (·.name) = cs.map (·.name) := by
  induction cs with
  | nil => rfl
  | cons c cs ih =>
    rw [improveColumns]
    split
    · rfl
    · rw [List.map_cons, ih, List.map_cons]

/-- Names alone settle which column a suggestion is for. -/
theorem isFor_congr {cs' : List Column} (h : cs.map (·.name) = cs'.map (·.name)) :
    isFor cs = isFor cs' := by
  have hfind (cs : List Column) (n : String) :
      cs.findIdx? (·.name == n) = (cs.map (·.name)).findIdx? (· == n) := by
    rw [List.findIdx?_map]
    rfl
  funext i s
  rw [isFor, isFor, hfind, hfind, h]

theorem getElem?_improveColumns (s : ColumnSuggestion) (cs : List Column) (i : Nat) :
    (improveColumns s cs)[i]? =
      cs[i]?.map fun c => if isFor cs i s then improveColumn c s.suggestion else c := by
  induction cs generalizing i with
  | nil => rfl
  | cons c cs ih =>
    rw [improveColumns]
    by_cases hname : c.name = s.column
    · cases i <;> simp [isFor, List.findIdx?_cons, hname]
    · cases i with
      | zero => simp [isFor, List.findIdx?_cons, hname]
      | succ i => simp [isFor, List.findIdx?_cons, hname, ih]

/-- Each column takes what is suggested for it, in turn. -/
theorem getElem?_foldl_improveColumns (ss : List ColumnSuggestion) (cs : List Column) (i : Nat) :
    (ss.foldl (fun cs s => improveColumns s cs) cs)[i]? =
      cs[i]?.map fun c => named c (suggestedAt cs i ss) := by
  have hfold : (ss.foldl (fun cs s => improveColumns s cs) cs)[i]? =
      cs[i]?.map fun c => (suggestedAt cs i ss).foldl improveColumn c := by
    induction ss generalizing cs with
    | nil => simp [suggestedAt]
    | cons s ss ih =>
      have hsame : suggestedAt (improveColumns s cs) i ss = suggestedAt cs i ss := by
        rw [suggestedAt, isFor_congr (names_improveColumns s cs), suggestedAt]
      rw [List.foldl_cons, ih, getElem?_improveColumns, hsame, Option.map_map]
      congr 1
      funext c
      cases hfor : isFor cs i s <;> simp [suggestedAt, hfor]
  simpa only [foldl_improveColumn] using hfold

/-! ### Tables -/

/-- A table with the last of what is suggested for each of its texts, and otherwise as it was. -/
structure Suggested (t : Table) (s : TableSuggestion) (t' : Table) : Prop where
  schema : t'.schema = t.schema
  name : t'.name = t.name
  businessName : t'.businessName = (given s.table.businessName).or t.businessName
  description : t'.description = (given s.table.description).or t.description
  columns : ∀ i, t'.columns[i]? =
    t.columns[i]?.map fun c => named c (suggestedAt t.columns i s.columns)

theorem suggested_improve (t : Table) (s : TableSuggestion) : Suggested t s (improve t s) where
  schema := rfl
  name := rfl
  businessName := better_eq _ _
  description := better_eq _ _
  columns := getElem?_foldl_improveColumns s.columns t.columns

theorem afterAnswer_error {answer : Except Error String} {e : Error} (h : answer.bind parse = .error e) :
    afterAnswer t answer = t := by
  rw [afterAnswer, h]

theorem afterAnswer_ok {answer : Except Error String} (h : answer.bind parse = .ok s) :
    Suggested t s (afterAnswer t answer) := by
  rw [afterAnswer, h]
  exact suggested_improve t s

/-- Whatever a model answers for the tables of a catalogue, naming comes to one end. It asks for each
table as it was loaded. All but business names and descriptions is as it was, and so is a table whose
answer holds no suggestion; in the others each text is the last one suggested for it, if any is. The
suggestions are counted, and the answer for a table settles what becomes of it whatever the other
answers are. -/
theorem nameSnapshot_isolated (x : Snapshot) {answers : List (Except Error String)}
    (h : answers.length = x.tables.length) :
    ∃ y n,
      (∀ asks z, Path (nameSnapshot x) asks (.done z) ∧ asks.map (·.2) = answers ↔
        asks = asksOf x.foreignKeys x.tables answers ∧ z = (y, n)) ∧
      y.workspace = x.workspace ∧ y.foreignKeys = x.foreignKeys ∧
      y.tables.length = x.tables.length ∧ n = countSuggestions answers ∧
      ∀ (i : Nat) t answer, x.tables[i]? = some t → answers[i]? = some answer →
        ∃ t', y.tables[i]? = some t' ∧
          (∀ e, answer.bind parse = .error e → t' = t) ∧
          (∀ s, answer.bind parse = .ok s → Suggested t s t') ∧
          ∀ asks' y' n', Path (nameSnapshot x) asks' (.done (y', n')) →
            (asks'.map (·.2))[i]? = some answer → y'.tables[i]? = some t' := by
  obtain ⟨n, hpath⟩ := path_nameSnapshot_of h
  have hanswers : (asksOf x.foreignKeys x.tables answers).map (·.2) = answers := by
    rw [asksOf, ← List.map_uncurry_zip_eq_zipWith, List.map_map]
    exact List.map_snd_zip h.le
  have htable (answers' : List (Except Error String)) (i : Nat) {t : Table}
      {answer : Except Error String} (ht : x.tables[i]? = some t) (ha : answers'[i]? = some answer) :
      (x.afterAnswers answers').tables[i]? = some (afterAnswer t answer) := by
    show (List.zipWith afterAnswer x.tables answers')[i]? = _
    rw [List.getElem?_zipWith, ht, ha]
  refine ⟨x.afterAnswers answers, n, fun asks z => ⟨?_, ?_⟩, rfl, rfl, ?_, ?_, ?_⟩
  · rintro ⟨hasks, rfl⟩
    obtain ⟨y, m⟩ := z
    obtain ⟨-, rfl, hasked, rfl⟩ := path_nameSnapshot hasks
    obtain ⟨-, -, -, rfl⟩ := path_nameSnapshot hpath
    exact ⟨hasked, by rw [hanswers]⟩
  · rintro ⟨rfl, rfl⟩
    exact ⟨hpath, hanswers⟩
  · simp [Snapshot.afterAnswers, h]
  · rw [(path_nameSnapshot hpath).2.2.2, hanswers]
  · intro i t answer ht ha
    refine ⟨afterAnswer t answer, htable answers i ht ha, fun e => afterAnswer_error,
      fun s => afterAnswer_ok, fun asks' y' n' hpath' ha' => ?_⟩
    obtain ⟨-, rfl, -, -⟩ := path_nameSnapshot hpath'
    exact htable _ i ht ha'

/-- An answer that is an object, as it is printed. -/
theorem parse_prints {members : List (String × Json)} {text : String}
    (hproper : (Json.object members).Proper) (h : Candidate.Prints (.object members) text)
    (hs : TableSuggestion.ofTree (Json.readTree (.object members)) = some s) :
    parse text = .ok s := by
  have hstrip : Llm.stripFence text = text := by
    rw [Llm.stripFence, Candidate.trim_prints h,
      Llm.insideFence_eq_none (Candidate.not_isBlock_prints h), Option.getD_none,
      Candidate.trim_prints h, String.ofList_toList]
  rw [parse, hstrip, Candidate.parse_prints hproper h, Option.bind_some, hs]

/-- Three tables, the first with two columns of one name. -/
def ledger : Snapshot :=
  .ofNames [("orders", [("id", none), ("amt", some "Old"), ("id", none)]),
    ("customers", [("name", some "Name")]), ("payroll", [])]

/-- What is suggested for a column. -/
def suggestedName (column businessName : String) : Json :=
  .object [("columnName", .string column), ("businessName", .string businessName)]

/-- Suggestions for the first table, of which some are blank, some are for one column, and one is for a
column it has not. -/
def ledgerMembers : List (String × Json) :=
  [("table", .object [("businessName", .string " Orders "), ("description", .string " ")]),
    ("columns", .array [suggestedName "amt" "Amount", suggestedName "ghost" "Ghost",
      suggestedName "amt" " Total", suggestedName "amt" "", suggestedName "id" "Number"])]

def ledgerSuggestion : TableSuggestion where
  table := ⟨some " Orders ", some " "⟩
  columns := [⟨"amt", ⟨some "Amount", none⟩⟩, ⟨"ghost", ⟨some "Ghost", none⟩⟩,
    ⟨"amt", ⟨some " Total", none⟩⟩, ⟨"amt", ⟨some "", none⟩⟩, ⟨"id", ⟨some "Number", none⟩⟩]

/-- These suggestions, no answer for the second table, and one in plain words for the third. -/
def ledgerAnswers : List (Except Error String) :=
  [.ok (Json.object ledgerMembers).compact, .error (.model "no answer"), .ok "Payroll, I suppose"]

/-- The first table takes the last names that are not blank; the others stay. -/
theorem nameSnapshot_isolated_ledger :
    ledgerAnswers.length = ledger.tables.length ∧ ∃ y : Snapshot,
      Path (nameSnapshot ledger) (asksOf [] ledger.tables ledgerAnswers) (.done (y, 1)) ∧
      (∃ t : Table, y.tables[0]? = some t ∧ t.businessName = some "Orders" ∧ t.description = none ∧
        ∀ i : Nat, t.columns[i]?.map (·.businessName) = [some "Number", some "Total", none][i]?) ∧
      y.tables[1]? = ledger.tables[1]? ∧ y.tables[2]? = ledger.tables[2]? := by
  have hlength : ledgerAnswers.length = ledger.tables.length := rfl
  have hfirst : (Except.ok (Json.object ledgerMembers).compact).bind parse = .ok ledgerSuggestion := by
    have hproper : (Json.object ledgerMembers).Proper := by
      simp [ledgerMembers, suggestedName, Json.Proper, Json.ProperMembers, Json.ProperItems]
    have htree : TableSuggestion.ofTree (Json.readTree (.object ledgerMembers)) =
        some ledgerSuggestion := by decide +kernel
    rw [Except.bind, parse_prints hproper (.inl rfl) htree]
  have hlast : (Except.ok "Payroll, I suppose").bind parse =
      .error (.model "Failed to parse business names") := by
    have hstrip : Llm.stripFence "Payroll, I suppose" = "Payroll, I suppose" := by decide
    have hscan : Json.Token.scan "Payroll, I suppose".toList = none :=
      Json.Token.scan_of_read_eq_none rfl rfl
    rw [Except.bind, parse, hstrip, Json.Tree.parse, hscan]
    rfl
  obtain ⟨y, n, hpath, -, -, -, hn, hall⟩ := nameSnapshot_isolated ledger hlength
  have hone : n = 1 := by
    have hcount : countSuggestions ledgerAnswers =
        (ledgerAnswers.map (·.bind parse)).countP Except.isOk := by
      rw [List.countP_map]
      rfl
    rw [hn, hcount, ledgerAnswers, List.map_cons, List.map_cons, List.map_cons, hfirst, hlast]
    rfl
  obtain ⟨orders, horders, -, hsuggested, -⟩ := hall 0 _ _ rfl rfl
  obtain ⟨customers, hcustomers, hkept, -, -⟩ := hall 1 _ _ rfl rfl
  obtain ⟨payroll, hpayroll, hkept', -, -⟩ := hall 2 _ _ rfl rfl
  have horder := hsuggested _ hfirst
  refine ⟨hlength, y, ((hpath _ _).2 ⟨rfl, by rw [hone]⟩).1,
    ⟨orders, horders, ?_, ?_, fun i => ?_⟩, ?_, ?_⟩
  · rw [horder.businessName]
    decide +kernel
  · rw [horder.description]
    decide +kernel
  · rw [horder.columns, Option.map_map]
    rcases i with _ | _ | _ | i
    · decide +kernel
    · decide +kernel
    · decide +kernel
    · rfl
  · rw [hcustomers, hkept _ rfl]
    rfl
  · rw [hpayroll, hkept' _ hlast]
    rfl

end Querent.Naming
