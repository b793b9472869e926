import Querent.Proofs.Catalog.RowServer

/-! What is loaded of a workspace and what is not: its tables and their columns, all of them and no
others, and the foreign keys of its tables, wherever they lead. -/
namespace Querent.Catalog

variable {σ : Type} {S : Server σ} {s : σ} {w : Int}

/-- A foreign key leads from a table of a workspace to a table of another. -/
def Stored.Crosses (s : Stored) (w : Int) (k : KeyRow) : Prop :=
  ∃ source ∈ s.tables, source.id = k.sourceTable ∧ source.workspace = w ∧
    ∃ target ∈ s.tables, target.id = k.targetTable ∧ target.workspace ≠ w

instance (s : Stored) (w : Int) (k : KeyRow) : Decidable (s.Crosses w k) :=
  inferInstanceAs (Decidable (∃ source ∈ s.tables, source.id = k.sourceTable ∧ source.workspace = w ∧
    ∃ target ∈ s.tables, target.id = k.targetTable ∧ target.workspace ≠ w))

/-- A snapshot is made of some rows of tables and some foreign keys. -/
structure Scoped (s : Stored) (w : Int) (rows : List TableRow) (keys : List JoinedKey)
    (x : Snapshot) : Prop where
  workspace : x.workspace = w
  /-- The tables of the workspace, each once, in the order of their numbers. -/
  rows_perm : rows.Perm (s.tables.filter fun t => t.workspace == w)
  rows_sorted : rows.Pairwise fun t t' => t.id < t'.id
  /-- Each with the columns under its number, each once, in the order of theirs. -/
  tables : List.Forall₂ (fun (r : TableRow) (t : Querent.Table) => ∃ columns : List ColumnRow,
    columns.Perm (s.columns.filter fun c => c.table == r.id) ∧
    (columns.Pairwise fun c c' => c.id < c'.id) ∧ t = r.table (columns.map (·.column))) rows x.tables
  /-- The foreign keys of those tables, in the order of theirs, with the tables they lead to. -/
  keys_perm : keys.Perm (s.joinedKeys.filter fun j => j.source.workspace == w)
  keys_sorted : keys.Pairwise fun j j' => j.key.id < j'.key.id
  foreignKeys : x.foreignKeys = keys.map (·.foreignKey)

theorem Stored.Allowed.scoped_snapshot {s : Stored} (h : s.Allowed) (w : Int) :
    Scoped s w (s.tablesOf w) (s.keysOf w) (s.snapshot w) where
  workspace := rfl
  rows_perm := sortedBy_perm _ _
  rows_sorted := pairwise_lt_sortedBy (h.tableIds_filter _)
  tables := by
    refine List.forall₂_map_right_iff.2 (List.forall₂_same.2 fun r _ => ?_)
    exact ⟨s.columnsOf r.id, sortedBy_perm _ _, pairwise_lt_sortedBy (h.columnIds_filter _), rfl⟩
  keys_perm := sortedBy_perm _ _
  keys_sorted := pairwise_lt_sortedBy (h.keyIds_joined.sublist (List.filter_sublist.map _))
  foreignKeys := rfl

variable {rows : List TableRow} {keys : List JoinedKey} {x : Snapshot}

/-- Both ends of every loaded key are tables of the workspace exactly if none of its keys leaves it. -/
theorem Scoped.targets_iff {s : Stored} (h : Scoped s w rows keys x) :
    (∀ j ∈ keys, j.target.workspace = w) ↔ ∀ k ∈ s.keys, ¬ s.Crosses w k := by
  have hmem (j : JoinedKey) : j ∈ keys ↔ j ∈ s.joinedKeys ∧ j.source.workspace = w := by
    rw [h.keys_perm.mem_iff, List.mem_filter, beq_iff_eq]
  constructor
  · rintro htargets k hk ⟨source, hsource, hsourceId, hw, target, htarget, htargetId, hne⟩
    have hj : (⟨k, source, target⟩ : JoinedKey) ∈ keys :=
      (hmem _).2 ⟨Stored.mem_joinedKeys.2 ⟨hk, ⟨hsource, hsourceId⟩, htarget, htargetId⟩, hw⟩
    exact hne (htargets _ hj)
  · intro hnone j hj
    obtain ⟨hjoined, hw⟩ := (hmem j).1 hj
    obtain ⟨hk, ⟨hsource, hsourceId⟩, htarget, htargetId⟩ := Stored.mem_joinedKeys.1 hjoined
    by_contra hne
    exact hnone j.key hk ⟨j.source, hsource, hsourceId, hw, j.target, htarget, htargetId, hne⟩

/-- On a server that runs the statements, a workspace is loaded whatever rows the declarations of the
tables allow, and the rows stay as they are. The tables are those of the workspace, each with its own
columns, in the order of their numbers and without loss; every foreign key is one of a table of the
workspace. But a key that leads to a table of another workspace is loaded as well: both ends of all
keys are in the workspace exactly if no such key is stored. -/
theorem load_scoped (hS : S.Runs) (session : Nat) (hw : S.holds w) (h : (S.stored s).Allowed) :
    let a := (load session w).run.run S.answer s
    S.stored a.2 = S.stored s ∧
      ∃ rows keys x, a.1 = .ok x ∧ Scoped (S.stored s) w rows keys x ∧
        (∀ j ∈ keys, j.source.workspace = w) ∧
        ((∀ j ∈ keys, j.target.workspace = w) ↔ ∀ k ∈ (S.stored s).keys, ¬ (S.stored s).Crosses w k) := by
  obtain ⟨hrun, hkept⟩ := hS.load session hw h
  have hscoped := h.scoped_snapshot w
  refine ⟨hkept, _, _, _, hrun, hscoped, fun j hj => ?_, hscoped.targets_iff⟩
  exact beq_iff_eq.1 (List.mem_filter.1 (hscoped.keys_perm.mem_iff.1 hj)).2

/-- Two workspaces with a table of one name each, and tables and columns whose rows do not stand in
the order of their numbers. -/
def twoWorkspaces : Stored :=
  let column (name : String) : Querent.Column :=
    { name, dataType := "int8", isNullable := false, isPrimaryKey := name == "id"
      businessName := none, description := none }
  { workspaces := [1, 2]
    tables := [⟨12, 2, "public", "orders", none, none⟩, ⟨11, 1, "public", "customers", none, none⟩,
      ⟨10, 1, "public", "orders", some "Orders", none⟩]
    columns := [⟨3, 10, column "customer_id"⟩, ⟨1, 11, column "id"⟩, ⟨2, 10, column "id"⟩,
      ⟨4, 12, column "id"⟩]
    keys := [⟨1, some "fk", 10, "customer_id", 11, "id"⟩] }

theorem allowed_twoWorkspaces : twoWorkspaces.Allowed := by
  constructor <;> decide

/-- The key of its orders stays in the first workspace, and so both ends of what is loaded do. -/
theorem load_scoped_twoWorkspaces :
    rowServer.holds 1 ∧ (rowServer.stored twoWorkspaces).Allowed ∧
      ∃ rows keys x, ((load 0 1).run.run rowServer.answer twoWorkspaces).1 = .ok x ∧
        Scoped twoWorkspaces 1 rows keys x ∧ ∀ j ∈ keys, j.target.workspace = 1 := by
  have hholds : rowServer.holds 1 := by
    unfold rowServer
    decide +kernel
  obtain ⟨-, rows, keys, x, hrun, hscoped, -, htargets⟩ :=
    load_scoped rowServer_runs 0 hholds (s := twoWorkspaces) allowed_twoWorkspaces
  refine ⟨hholds, allowed_twoWorkspaces, rows, keys, x, hrun, hscoped, htargets.2 ?_⟩
  show ∀ k ∈ twoWorkspaces.keys, ¬ twoWorkspaces.Crosses 1 k
  decide

/-- The orders of one workspace, with a key to the customers of another. -/
def crossing : Stored where
  workspaces := [1, 2]
  tables := [⟨10, 1, "public", "orders", none, none⟩, ⟨20, 2, "secret", "customers", none, none⟩]
  columns := []
  keys := [⟨1, some "fk", 10, "customer_id", 20, "id"⟩]

/-- The declarations of the tables allow such a key, and with it the catalogue of the first workspace
names a table that the second alone has. -/
theorem load_crossing :
    crossing.Allowed ∧ ∃ x, ((load 0 1).run.run rowServer.answer crossing).1 = .ok x ∧
      ∃ f ∈ x.foreignKeys, f.target = ⟨"secret", "customers", "id"⟩ ∧
        ∀ t ∈ crossing.tables, t.schema = f.target.schema → t.name = f.target.table →
          t.workspace = 2 := by
  have hallowed : crossing.Allowed := by constructor <;> decide
  have hholds : rowServer.holds 1 := by
    unfold rowServer
    decide +kernel
  obtain ⟨hrun, -⟩ := rowServer_runs.load 0 hholds (s := crossing) hallowed
  let j : JoinedKey :=
    { key := ⟨1, some "fk", 10, "customer_id", 20, "id"⟩
      source := ⟨10, 1, "public", "orders", none, none⟩
      target := ⟨20, 2, "secret", "customers", none, none⟩ }
  have hj : j ∈ crossing.keysOf 1 :=
    mem_sortedBy.2 (List.mem_filter.2 ⟨Stored.mem_joinedKeys.2 (by decide), rfl⟩)
  exact ⟨hallowed, _, hrun, j.foreignKey, List.mem_map_of_mem hj, rfl, by decide⟩

end Querent.Catalog
