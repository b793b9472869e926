import Mathlib.Data.List.Forall2
import Mathlib.Data.List.Sort
import Querent.Catalog.Table

/-! The rows in which a database keeps the catalogues of its workspaces, what the declarations of the
tables allow, and what is loaded of a workspace: its tables and their columns in the order of their
numbers, and the foreign keys of its tables. -/
namespace Querent.Catalog

/-- A row of the table of tables. -/
structure TableRow where
  id : Int
  workspace : Int
  schema : String
  name : String
  businessName : Option String
  description : Option String
deriving DecidableEq

/-- A row of the table of columns. -/
structure ColumnRow where
  id : Int
  table : Int
  column : Querent.Column
deriving DecidableEq

/-- A row of the table of foreign keys. -/
structure KeyRow where
  id : Int
  constraint : Option String
  sourceTable : Int
  sourceColumn : String
  targetTable : Int
  targetColumn : String
deriving DecidableEq

/-- The rows of a database, workspaces by their numbers. -/
structure Stored where
  workspaces : List Int
  tables : List TableRow
  columns : List ColumnRow
  keys : List KeyRow
deriving DecidableEq

/-- What the declarations of the tables allow: numbers that belong to one row, names that belong to one
table of a workspace and to one column of a table, and references to rows that are there. -/
structure Stored.Allowed (s : Stored) : Prop where
  workspaceIds : s.workspaces.Nodup
  tableIds : (s.tables.map (·.id)).Nodup
  tableNames : (s.tables.map fun t => (t.workspace, t.schema, t.name)).Nodup
  tableWorkspaces : ∀ t ∈ s.tables, t.workspace ∈ s.workspaces
  columnIds : (s.columns.map (·.id)).Nodup
  columnNames : (s.columns.map fun c => (c.table, c.column.name)).Nodup
  columnTables : ∀ c ∈ s.columns, c.table ∈ s.tables.map (·.id)
  keyIds : (s.keys.map (·.id)).Nodup
  keySources : ∀ k ∈ s.keys, k.sourceTable ∈ s.tables.map (·.id)
  keyTargets : ∀ k ∈ s.keys, k.targetTable ∈ s.tables.map (·.id)

/-- A table of a catalogue, with the columns given. -/
def TableRow.table (t : TableRow) (columns : List Querent.Column) : Querent.Table :=
  { schema := t.schema, name := t.name, businessName := t.businessName
    description := t.description, columns }

/-- A foreign key with the tables at its two ends. -/
structure JoinedKey where
  key : KeyRow
  source : TableRow
  target : TableRow
deriving DecidableEq

def JoinedKey.foreignKey (j : JoinedKey) : ForeignKey :=
  { constraint := j.key.constraint
    source := { schema := j.source.schema, table := j.source.name, column := j.key.sourceColumn }
    target := { schema := j.target.schema, table := j.target.name, column := j.key.targetColumn } }

section Sorted

variable {α β : Type} {id : α → Int} {l l' : List α}

/-- Rows in the order of their numbers. -/
def sortedBy (id : α → Int) (l : List α) : List α := l.mergeSort fun a b => decide (id a ≤ id b)

theorem sortedBy_perm (id : α → Int) (l : List α) : (sortedBy id l).Perm l := List.mergeSort_perm _ _

theorem pairwise_sortedBy (id : α → Int) (l : List α) :
    (sortedBy id l).Pairwise fun a b => id a ≤ id b := by
  refine (List.pairwise_mergeSort (fun a b c => ?_) (fun a b => ?_) l).imp of_decide_eq_true
  · simp only [decide_eq_true_eq]
    omega
  · simp only [Bool.or_eq_true, decide_eq_true_eq]
    omega

/-- Rows whose numbers are their own come in one order only. -/
theorem eq_sortedBy (hids : (l.map id).Nodup) (hperm : l'.Perm l)
    (hsorted : l'.Pairwise fun a b => id a ≤ id b) : l' = sortedBy id l := by
  refine (hperm.trans (sortedBy_perm id l).symm).eq_of_pairwise (fun a b ha hb hle hge => ?_)
    hsorted (pairwise_sortedBy id l)
  have ha' : a ∈ l := hperm.mem_iff.1 ha
  have hb' : b ∈ l := (sortedBy_perm id l).mem_iff.1 hb
  exact List.inj_on_of_nodup_map hids ha' hb' (Int.le_antisymm hle hge)

theorem pairwise_lt_sortedBy (hids : (l.map id).Nodup) :
    (sortedBy id l).Pairwise fun a b => id a < id b := by
  have hnodup : ((sortedBy id l).map id).Nodup := ((sortedBy_perm id l).map id).nodup_iff.2 hids
  have hne : (sortedBy id l).Pairwise fun a b => id a ≠ id b := List.pairwise_map.1 hnodup
  exact ((pairwise_sortedBy id l).and hne).imp fun h => lt_of_le_of_ne h.1 h.2

theorem mem_sortedBy {a : α} : a ∈ sortedBy id l ↔ a ∈ l := (sortedBy_perm id l).mem_iff

theorem sortedBy_map {f : β → α} (l : List β) :
    sortedBy id (l.map f) = (sortedBy (fun b => id (f b)) l).map f := by
  have hmap := List.map_mergeSort (r := fun a b => decide (id (f a) ≤ id (f b)))
    (s := fun a b => decide (id a ≤ id b)) (f := f) (l := l) fun _ _ _ _ => rfl
  exact hmap.symm

/-- Under a number of its own there is one row. -/
theorem filter_eq_singleton {a : α} (hids : (l.map id).Nodup) (ha : a ∈ l) :
    l.filter (id · == id a) = [a] := by
  induction l with
  | nil => cases ha
  | cons b l ih =>
    obtain ⟨hb, hl⟩ := List.nodup_cons.1 hids
    rcases List.mem_cons.1 ha with rfl | ha
    · have hrest : l.filter (id · == id a) = [] := by
        refine List.filter_eq_nil_iff.2 fun c hc hid => hb ?_
        exact beq_iff_eq.1 hid ▸ List.mem_map_of_mem hc
      rw [List.filter_cons_of_pos (p := (id · == id a)) (beq_self_eq_true _), hrest]
    · have hne : id b ≠ id a := fun hid => hb (hid ▸ List.mem_map_of_mem ha)
      rw [List.filter_cons_of_neg (by simpa using hne), ih hl ha]

end Sorted

namespace Stored

variable {s : Stored} {w : Int}

def tablesOf (s : Stored) (w : Int) : List TableRow :=
  sortedBy (·.id) (s.tables.filter (·.workspace == w))

/-- The columns of the table of a number. -/
def columnsOf (s : Stored) (table : Int) : List ColumnRow :=
  sortedBy (·.id) (s.columns.filter (·.table == table))

/-- Every column with the table of its number. -/
def joinedColumns (s : Stored) : List (ColumnRow × TableRow) :=
  s.columns.flatMap fun c => (s.tables.filter (·.id == c.table)).map (c, ·)

/-- Every foreign key with the tables of its two numbers. -/
def joinedKeys (s : Stored) : List JoinedKey :=
  s.keys.flatMap fun key =>
    (s.tables.filter (·.id == key.sourceTable)).flatMap fun source =>
      (s.tables.filter (·.id == key.targetTable)).map fun target => { key, source, target }

/-- The foreign keys that lead from a table of a workspace. -/
def keysOf (s : Stored) (w : Int) : List JoinedKey :=
  sortedBy (·.key.id) (s.joinedKeys.filter (·.source.workspace == w))

/-- What is loaded of a workspace. -/
def snapshot (s : Stored) (w : Int) : Snapshot :=
  { workspace := w
    tables := (s.tablesOf w).map fun t => t.table ((s.columnsOf t.id).map (·.column))
    foreignKeys := (s.keysOf w).map (·.foreignKey) }

/-- Sets the names of a table of a workspace. -/
def nameTable (s : Stored) (w : Int) (t : Querent.Table) : Stored :=
  { s with
    tables := s.tables.map fun r =>
      if r.workspace = w ∧ r.schema = t.schema ∧ r.name = t.name then
        { r with businessName := t.businessName, description := t.description }
      else r }

/-- Sets the names of a column of a table of a workspace. -/
def nameColumn (s : Stored) (w : Int) (t : Querent.Table) (c : Querent.Column) : Stored :=
  { s with
    columns := s.columns.map fun r =>
      if r.column.name = c.name ∧ ∃ owner ∈ s.tables, owner.id = r.table ∧
          owner.workspace = w ∧ owner.schema = t.schema ∧ owner.name = t.name then
        { r with
          column := { r.column with businessName := c.businessName, description := c.description } }
      else r }

theorem mem_joinedKeys {j : JoinedKey} : j ∈ s.joinedKeys ↔
    j.key ∈ s.keys ∧ (j.source ∈ s.tables ∧ j.source.id = j.key.sourceTable) ∧
      j.target ∈ s.tables ∧ j.target.id = j.key.targetTable := by
  simp only [joinedKeys, List.mem_flatMap, List.mem_map, List.mem_filter, beq_iff_eq]
  constructor
  · rintro ⟨key, hkey, source, hsource, target, htarget, rfl⟩
    exact ⟨hkey, hsource, htarget⟩
  · rintro ⟨hkey, hsource, htarget⟩
    exact ⟨j.key, hkey, j.source, hsource, j.target, htarget, rfl⟩

theorem mem_tablesOf {t : TableRow} : t ∈ s.tablesOf w ↔ t ∈ s.tables ∧ t.workspace = w := by
  rw [tablesOf, mem_sortedBy, List.mem_filter, beq_iff_eq]

namespace Allowed

variable {t : TableRow}

theorem tableIds_filter (h : s.Allowed) (p : TableRow → Bool) :
    ((s.tables.filter p).map (·.id)).Nodup :=
  h.tableIds.sublist (List.filter_sublist.map _)

theorem columnIds_filter (h : s.Allowed) (p : ColumnRow → Bool) :
    ((s.columns.filter p).map (·.id)).Nodup :=
  h.columnIds.sublist (List.filter_sublist.map _)

theorem eq_of_id (h : s.Allowed) {t' : TableRow} (ht : t ∈ s.tables) (ht' : t' ∈ s.tables)
    (hid : t.id = t'.id) : t = t' :=
  List.inj_on_of_nodup_map h.tableIds ht ht' hid

/-- A foreign key is found with one table at each end, so its number tells it apart. -/
theorem keyIds_joined (h : s.Allowed) : (s.joinedKeys.map (·.key.id)).Nodup := by
  have hfound {number : Int} (hnumber : number ∈ s.tables.map (·.id)) :
      ∃ t, s.tables.filter (·.id == number) = [t] := by
    obtain ⟨t, ht, rfl⟩ := List.mem_map.1 hnumber
    exact ⟨t, filter_eq_singleton h.tableIds ht⟩
  have hkeys : s.joinedKeys.map (·.key.id) = s.keys.map (·.id) := by
    rw [joinedKeys, List.map_flatMap, List.map_eq_flatMap]
    refine List.flatMap_congr fun key hkey => ?_
    obtain ⟨source, hsource⟩ := hfound (h.keySources key hkey)
    obtain ⟨target, htarget⟩ := hfound (h.keyTargets key hkey)
    rw [hsource, htarget]
    rfl
  rw [hkeys]
  exact h.keyIds

/-- Among the columns with their tables, those of one table are the ones that bear its number. -/
theorem filter_joinedColumns (h : s.Allowed) (ht : t ∈ s.tables) :
    ((s.joinedColumns.filter (·.2.workspace == t.workspace)).map (·.1)).filter (·.table == t.id) =
      s.columns.filter (·.table == t.id) := by
  rw [joinedColumns, List.filter_flatMap, List.map_flatMap, List.filter_flatMap]
  induction s.columns with
  | nil => rfl
  | cons c columns ih =>
    rw [List.flatMap_cons, ih]
    by_cases hc : c.table = t.id
    · have howner : s.tables.filter (·.id == c.table) = [t] := by
        rw [hc]
        exact filter_eq_singleton h.tableIds ht
      simp only [howner]
      simp [hc]
    · have hnone : (((s.tables.filter (·.id == c.table)).map (c, ·)).filter
          (·.2.workspace == t.workspace) |>.map (·.1)).filter (·.table == t.id) = [] := by
        refine List.filter_eq_nil_iff.2 fun c' hc' htable => hc ?_
        obtain ⟨p, hp, rfl⟩ := List.mem_map.1 hc'
        obtain ⟨owner, -, rfl⟩ := List.mem_map.1 (List.mem_filter.1 hp).1
        exact beq_iff_eq.1 htable
      rw [hnone, List.filter_cons_of_neg (by simpa using hc), List.nil_append]

end Allowed

end Stored

end Querent.Catalog
