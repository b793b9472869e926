import Querent.Pipeline.Stages
import Querent.Proofs.Guard.Selection

/-! The fallback before the guard. It is a selection of columns from the first table, so that the
guard takes it unless a name of the catalogue is spelled like a word that the guard refuses. -/
namespace Querent

open Text Sql

/-! ### The schemas of a catalogue -/

theorem mem_insertText {s t : String} {l : List String} :
    s ∈ insertText t l ↔ s = t ∨ s ∈ l := by
  induction l with
  | nil => simp [insertText]
  | cons u l ih =>
    rw [insertText]
    split
    next h =>
      obtain rfl := beq_iff_eq.1 h
      simp
    next =>
      split
      · simp
      · simp [ih, or_left_comm]

theorem mem_foldl_insertText {s : String} {ts : List Table} {l : List String} :
    s ∈ ts.foldl (fun sorted t => insertText t.schema sorted) l ↔
      s ∈ l ∨ ∃ t ∈ ts, t.schema = s := by
  induction ts generalizing l with
  | nil => simp
  | cons t ts ih => simp [ih, mem_insertText, or_assoc, or_left_comm, eq_comm]

theorem Snapshot.mem_schemas {s : Snapshot} {schema : String} :
    schema ∈ s.schemas ↔ ∃ t ∈ s.tables, t.schema = schema := by
  simp [Snapshot.schemas, mem_foldl_insertText]

/-! ### Its names -/

/-- A letter or an underscore, then letters, digits and underscores of ASCII. -/
def Ordinary (name : String) : Prop :=
  name.toList.head?.any opensName = true ∧ name.toList.all isPlain = true

instance (name : String) : Decidable (Ordinary name) := inferInstanceAs (Decidable (_ ∧ _))

namespace Candidate

/-- The names that the fallback takes from a table. -/
def tableNames (t : Table) : List String :=
  t.schema :: t.name :: (t.columns.take columnLimit).map (·.name)

/-- The names in the fallback. -/
def fallbackNames (s : Snapshot) : List String := s.tables.head?.toList.flatMap tableNames

end Candidate

/-! ### The fallback as a selection -/

namespace Pipeline

open Candidate

variable {o : Options} {s : Snapshot} {t : Table} {ts : List Table} {out : String}

def plainName (name : String) (h : Ordinary name) : PlainName := ⟨name.toList, h.1, h.2⟩

/-- The selection that the fallback is, on the first table. -/
def selection (t : Table) (h : ∀ n ∈ tableNames t, Ordinary n) : Selection where
  schema := plainName t.schema (h _ (by simp [tableNames]))
  table := plainName t.name (h _ (by simp [tableNames]))
  columns := ((t.columns.take columnLimit).map (·.name)).pmap plainName fun _ hn =>
    h _ (List.mem_cons_of_mem _ (List.mem_cons_of_mem _ hn))

theorem columns_selection (h : ∀ n ∈ tableNames t, Ordinary n) :
    (selection t h).columns.map (·.text) = (t.columns.take columnLimit).map (·.name.toList) := by
  have hcolumns : (selection t h).columns.map (·.text) =
      ((t.columns.take columnLimit).map (·.name)).map String.toList := by
    rw [selection, List.map_pmap]
    exact List.pmap_eq_map _
  rw [hcolumns, List.map_map]
  rfl

theorem names_selection (h : ∀ n ∈ tableNames t, Ordinary n) :
    (selection t h).names.map (·.text) = (tableNames t).map String.toList := by
  rw [Selection.names, List.map_cons, List.map_cons, columns_selection, tableNames, List.map_cons,
    List.map_cons, List.map_map]
  rfl

theorem toList_fallback (hs : s.tables = t :: ts) (h : ∀ n ∈ tableNames t, Ordinary n) :
    (fallback s).toList = (selection t h).text := by
  have hpath : (selection t h).path = t.qualifiedName.toList := by
    simp [Table.qualifiedName, Selection.path, selection, plainName]
  have hentries : (selection t h).columns.map (selection t h).entry =
      (t.columns.take columnLimit).map fun c => (t.qualifiedName ++ "." ++ c.name).toList := by
    have hmap := congrArg (List.map fun n => (selection t h).path ++ '.' :: n) (columns_selection h)
    rw [List.map_map, List.map_map] at hmap
    refine hmap.trans (List.map_congr_left fun c _ => ?_)
    rw [Function.comp_apply, hpath, String.toList_append, String.toList_append]
    simp
  have hempty : (selection t h).columns.isEmpty = (t.columns.take columnLimit).isEmpty := by
    rw [← List.isEmpty_map (f := PlainName.text), columns_selection, List.isEmpty_map]
  rw [Selection.text_eq, Selection.selected_eq, hentries, hempty, hpath, fallback, hs]
  simp only [String.toList_append, apply_ite String.toList, String.toList_intercalate,
    List.isEmpty_map, List.map_map]
  simp [Function.comp_def]

/-! ### Its verdict -/

/-- Without tables the fallback names nothing. -/
theorem validate_fallback_nil (hs : s.tables = []) (dialect : Dialect) :
    Guard.validate s.foreignKeys (policy o s dialect) (fallback s) = .ok out ↔
      out = fallback s ++ " LIMIT " ++ toString o.forceLimit := by
  have htext : (fallback s).toList = "SELECT 1".toList := by simp [fallback, hs]
  have hselect : Spaced "SELECT".toList := .ofPlain (by decide)
  have hspaced : Spaced "SELECT 1".toList := hselect.append (.ofPlain (w := ['1']) (by decide))
  have htables : tables (policy o s dialect).dialect "SELECT 1".toList = [] :=
    tablesFrom_of_none (by decide)
  have hjoins : joins "SELECT 1".toList = [] := joins_of_none (by decide)
  have hcheck : Guard.checkJoins s.foreignKeys [] "SELECT 1".toList = .ok () := by
    rw [Guard.checkJoins_eq_ok, hjoins]
    simp
  have hlimit : hasLimit "SELECT 1".toList = false := by decide
  have hwords : ∀ k ∈ Guard.refusedKeywords, hasWord k "SELECT 1".toList = false := by decide
  have hopens : opensAsQuery "SELECT 1".toList = true := rfl
  have hschemas : Guard.checkSchemas (policy o s dialect).allowedSchemas [] = .ok () := rfl
  rw [Guard.validate_spaced hspaced (by decide) htext, htables, hlimit, hschemas, hcheck]
  simp only [hopens, true_and, Bool.false_eq_true, if_false, implies_true]
  exact and_iff_right hwords

/-- The fallback with a limit behind it, unless one of its names passes for one. -/
def limited (o : Options) (s : Snapshot) : String :=
  if (fallbackNames s).any (fun n => isOneOf ["LIMIT"] n.toList) then fallback s
  else fallback s ++ " LIMIT " ++ toString o.forceLimit

theorem validate_fallback_cons (hs : s.tables = t :: ts) (h : ∀ n ∈ tableNames t, Ordinary n)
    (dialect : Dialect) : Guard.validate s.foreignKeys (policy o s dialect) (fallback s) = .ok out ↔
      (∀ n ∈ tableNames t, isOneOf (Guard.barredWords o.forbidFreeJoins) n.toList = false) ∧
        out = limited o s := by
  have hnames : fallbackNames s = tableNames t := by simp [fallbackNames, hs]
  have hallowed : Guard.SchemaAllowed (policy o s dialect).allowedSchemas
      (.ofList (selection t h).schema.text) := by
    rintro list ⟨⟩
    have hmem : t.schema ∈ s.schemas := Snapshot.mem_schemas.2 ⟨t, by simp [hs], rfl⟩
    have hschema : String.ofList (selection t h).schema.text = t.schema := String.ofList_toList
    exact ⟨t.schema, hmem, by rw [hschema, sameText_refl]⟩
  have hbarred (ks : List String) :
      (∀ n ∈ (selection t h).names, isOneOf ks n.text = false) ↔
        ∀ n ∈ tableNames t, isOneOf ks n.toList = false := by
    rw [← List.forall_mem_map (f := PlainName.text) (P := fun n => isOneOf ks n = false),
      names_selection, List.forall_mem_map]
  have hany : (selection t h).names.any (fun n => isOneOf ["LIMIT"] n.text) =
      (tableNames t).any fun n => isOneOf ["LIMIT"] n.toList := by
    have hmap := congrArg (List.any · (isOneOf ["LIMIT"])) (names_selection h)
    rwa [List.any_map, List.any_map] at hmap
  rw [Guard.validate_selection _ (toList_fallback hs h) hallowed, hany, hbarred, limited, hnames]
  rfl

theorem validate_fallback_iff (h : ∀ n ∈ fallbackNames s, Ordinary n) (dialect : Dialect) :
    Guard.validate s.foreignKeys (policy o s dialect) (fallback s) = .ok out ↔
      (∀ n ∈ fallbackNames s, isOneOf (Guard.barredWords o.forbidFreeJoins) n.toList = false) ∧
        out = limited o s := by
  cases hs : s.tables with
  | nil =>
    have hnone : fallbackNames s = [] := by simp [fallbackNames, hs]
    rw [validate_fallback_nil hs, limited, hnone]
    simp
  | cons t ts =>
    have hnames : fallbackNames s = tableNames t := by simp [fallbackNames, hs]
    rw [hnames] at h ⊢
    exact validate_fallback_cons hs h dialect

/-- Behind a failed question stands the execution of the fallback, where the guard takes it. -/
theorem stagesOf_outage {c : Connection}
    (hok : Guard.validate s.foreignKeys (policy o s c.dialect) (fallback s) = .ok out)
    (prompt : String) : ∃ next, stagesOf o s c prompt =
      .ask (.model (Prompt.askStatement prompt s.tables s.foreignKeys)) next ∧
        ∀ error, ∃ rest, next (.error error) = .ask (.execute c out o.queryTimeoutMs) rest := by
  refine ⟨_, rfl, fun error => ?_⟩
  simp only [Dialogue.bind, tried, attempt, hok]
  exact ⟨_, rfl⟩

/-- Under ordinary names the guard takes the fallback, with its limit, exactly if none of the names
is spelled like a word that it refuses. Then it is what is run where the model is out. -/
theorem validate_fallback (o : Options) (s : Snapshot) (h : ∀ n ∈ fallbackNames s, Ordinary n) :
    (∀ dialect out, Guard.validate s.foreignKeys (policy o s dialect) (fallback s) = .ok out ↔
      (∀ n ∈ fallbackNames s, isOneOf (Guard.barredWords o.forbidFreeJoins) n.toList = false) ∧
        out = limited o s) ∧
    ((∀ n ∈ fallbackNames s, isOneOf (Guard.barredWords o.forbidFreeJoins) n.toList = false) →
      ∀ c prompt, ∃ next, stagesOf o s c prompt =
        .ask (.model (Prompt.askStatement prompt s.tables s.foreignKeys)) next ∧
          ∀ error, ∃ rest,
            next (.error error) = .ask (.execute c (limited o s) o.queryTimeoutMs) rest) :=
  ⟨fun dialect _ => validate_fallback_iff h dialect, fun hnames c prompt =>
    stagesOf_outage ((validate_fallback_iff h c.dialect).2 ⟨hnames, rfl⟩) prompt⟩

/-- A catalogue of one table, orders, with some columns. -/
def ordersWith (columns : List String) : Snapshot where
  workspace := 1
  tables := [{
    schema := "public", name := "orders", businessName := none, description := none
    columns := columns.map fun name =>
      { name, dataType := "text", isNullable := true, isPrimaryKey := false
        businessName := none, description := none } }]
  foreignKeys := []

theorem validate_fallback_orders :
    (∀ n ∈ fallbackNames (ordersWith ["id", "total"]), Ordinary n) ∧
      ∀ dialect, Guard.validate [] (policy .standard (ordersWith ["id", "total"]) dialect)
        (fallback (ordersWith ["id", "total"])) =
          .ok "SELECT public.orders.id, public.orders.total FROM public.orders LIMIT 101" := by
  have hordinary : ∀ n ∈ fallbackNames (ordersWith ["id", "total"]), Ordinary n := by decide
  refine ⟨hordinary, fun dialect => ?_⟩
  obtain ⟨haccepts, -⟩ := validate_fallback .standard _ hordinary
  exact (haccepts dialect _).2 ⟨by decide, by decide +kernel⟩

/-- A column that is called as a command is keeps the fallback from being accepted, and one that is
called as a limit is keeps it from being given one. -/
theorem fallback_misread :
    (∀ n ∈ fallbackNames (ordersWith ["update"]) ++ fallbackNames (ordersWith ["limit"]),
        Ordinary n) ∧
      (∀ dialect, Guard.validate [] (policy .standard (ordersWith ["update"]) dialect)
        (fallback (ordersWith ["update"])) = .error (.forbiddenKeyword "UPDATE")) ∧
      ∀ dialect, Guard.validate [] (policy .standard (ordersWith ["limit"]) dialect)
        (fallback (ordersWith ["limit"])) = .ok "SELECT public.orders.limit FROM public.orders" := by
  refine ⟨by decide, fun dialect => ?_, fun dialect => ?_⟩
  · cases dialect <;> decide +kernel
  · cases dialect <;> decide +kernel

end Pipeline

end Querent
