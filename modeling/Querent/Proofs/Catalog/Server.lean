import Querent.Proofs.Catalog.Stored
import Querent.Proofs.Request.Server

/-! What the tables of a catalogue expect of a database server: that it runs their statements as they
read. A workspace is then loaded as its rows stand, and what is saved is what the statements say. -/
namespace Querent

namespace Dialogue

variable {Q : Type} {R : Q → Type} {α β ε σ : Type} {answer : (q : Q) → σ → R q × σ} {s s' : σ}
  {x : ExceptT ε (Dialogue Q R) α} {f : α → ExceptT ε (Dialogue Q R) β}

/-- One that may end early goes on with what it has got. -/
theorem run_bind_ok {a : α} (h : x.run.run answer s = (.ok a, s')) :
    (x >>= f).run.run answer s = (f a).run.run answer s' := by
  refine (run_bind answer x.run _ s).trans ?_
  rw [h]
  rfl

theorem run_bind_error {e : ε} (h : x.run.run answer s = (.error e, s')) :
    (x >>= f).run.run answer s = (.error e, s') := by
  refine (run_bind answer x.run _ s).trans ?_
  rw [h]
  rfl

/-- One that did not end early has come through its first part. -/
theorem of_run_bind_ok {b : β} (h : ((x >>= f).run.run answer s).1 = .ok b) :
    ∃ a s', x.run.run answer s = (.ok a, s') ∧
      (x >>= f).run.run answer s = (f a).run.run answer s' := by
  cases hx : x.run.run answer s with
  | mk r s' =>
    cases r with
    | ok a => exact ⟨a, s', rfl, run_bind_ok hx⟩
    | error e =>
      rw [run_bind_error hx] at h
      cases h

theorem run_adapt {δ : Type} (g : ε → δ) :
    (ExceptT.adapt g x).run.run answer s =
      ((x.run.run answer s).1.mapError g, (x.run.run answer s).2) := by
  refine (run_bind answer x.run _ s).trans ?_
  rfl

end Dialogue

namespace Catalog

open Database
open Request (sentText)

/-- A row as it is sent. -/
def TableRow.sent (t : TableRow) : List Sent :=
  [.int t.id, sentText t.schema, sentText t.name, t.businessName.elim .null sentText,
    t.description.elim .null sentText]

def ColumnRow.sent (c : ColumnRow) : List Sent :=
  [.int c.table, sentText c.column.name, sentText c.column.dataType, .bool c.column.isNullable,
    .bool c.column.isPrimaryKey, c.column.businessName.elim .null sentText,
    c.column.description.elim .null sentText]

def JoinedKey.sent (j : JoinedKey) : List Sent :=
  [j.key.constraint.elim .null sentText, sentText j.source.schema, sentText j.source.name,
    sentText j.key.sourceColumn, sentText j.target.schema, sentText j.target.name,
    sentText j.key.targetColumn]

/-- A server with the tables of catalogues. -/
structure Server (σ : Type) where
  answer : (c : Call) → σ → c.Reply × σ
  /-- The rows, as the session that asks sees them. -/
  stored : σ → Stored
  /-- The numbers that the columns hold. -/
  holds : Int → Prop

namespace Server

def tableColumns : List Database.Column :=
  [⟨"id", "INT8"⟩, ⟨"schema_name", "TEXT"⟩, ⟨"table_name", "TEXT"⟩, ⟨"business_name", "TEXT"⟩,
    ⟨"description", "TEXT"⟩]

def columnColumns : List Database.Column :=
  [⟨"table_id", "INT8"⟩, ⟨"column_name", "TEXT"⟩, ⟨"data_type", "TEXT"⟩, ⟨"is_nullable", "BOOL"⟩,
    ⟨"is_primary_key", "BOOL"⟩, ⟨"business_name", "TEXT"⟩, ⟨"description", "TEXT"⟩]

def keyColumns : List Database.Column :=
  [⟨"constraint_name", "TEXT"⟩, ⟨"from_schema", "TEXT"⟩, ⟨"from_table", "TEXT"⟩,
    ⟨"from_column", "TEXT"⟩, ⟨"to_schema", "TEXT"⟩, ⟨"to_table", "TEXT"⟩, ⟨"to_column", "TEXT"⟩]

def tablesSql : String :=
  "SELECT id, schema_name, table_name, business_name, description FROM data_tables " ++
  "WHERE workspace_id = $1 ORDER BY id"

def columnsSql : String :=
  "SELECT c.table_id, c.column_name, c.data_type, c.is_nullable, c.is_primary_key, " ++
  "c.business_name, c.description FROM data_columns c JOIN data_tables t ON t.id = c.table_id " ++
  "WHERE t.workspace_id = $1 ORDER BY c.table_id, c.id"

def keysSql : String :=
  "SELECT fk.constraint_name, ft.schema_name AS from_schema, ft.table_name AS from_table, " ++
  "fk.from_column, tt.schema_name AS to_schema, tt.table_name AS to_table, fk.to_column " ++
  "FROM foreign_keys fk JOIN data_tables ft ON ft.id = fk.from_table_id " ++
  "JOIN data_tables tt ON tt.id = fk.to_table_id WHERE ft.workspace_id = $1 ORDER BY fk.id"

def nameTableSql : String :=
  "UPDATE data_tables SET business_name = $1, description = $2 " ++
  "WHERE workspace_id = $3 AND schema_name = $4 AND table_name = $5"

def nameColumnSql : String :=
  "UPDATE data_columns c SET business_name = $1, description = $2 FROM data_tables t " ++
  "WHERE c.table_id = t.id AND t.workspace_id = $3 AND t.schema_name = $4 " ++
  "AND t.table_name = $5 AND c.column_name = $6"

/-- A statement brings some rows, and ends well. -/
structure Brings (columns : List Database.Column) (rows : List (List Sent)) (b : Brought) :
    Prop where
  columns : b.columns = columns
  rows : b.rows = rows
  ended : ∃ n, b.ended = .ok n

variable {σ : Type} (S : Server σ)

/-- The statements run as they read. -/
structure Runs : Prop where
  transaction : ∀ session s sql, sql ∈ ["BEGIN", "COMMIT"] →
    S.stored (S.answer (.command session sql) s).2 = S.stored s
  /-- Rows come sorted by their numbers. -/
  tables : ∀ session s w, S.holds w →
    let a := S.answer (.query session tablesSql [.int w]) s
    (∃ rows : List TableRow, Brings tableColumns (rows.map (·.sent)) a.1 ∧
      rows.Perm ((S.stored s).tables.filter fun t => t.workspace == w) ∧
      rows.Pairwise fun t t' => t.id ≤ t'.id) ∧
    S.stored a.2 = S.stored s
  /-- Rows come sorted by the numbers of their tables, and in a table by their own. -/
  columns : ∀ session s w, S.holds w →
    let a := S.answer (.query session columnsSql [.int w]) s
    (∃ rows : List (ColumnRow × TableRow), Brings columnColumns (rows.map (·.1.sent)) a.1 ∧
      rows.Perm ((S.stored s).joinedColumns.filter fun p => p.2.workspace == w) ∧
      rows.Pairwise fun p p' =>
        p.1.table < p'.1.table ∨ p.1.table = p'.1.table ∧ p.1.id ≤ p'.1.id) ∧
    S.stored a.2 = S.stored s
  keys : ∀ session s w, S.holds w →
    let a := S.answer (.query session keysSql [.int w]) s
    (∃ rows : List JoinedKey, Brings keyColumns (rows.map (·.sent)) a.1 ∧
      rows.Perm ((S.stored s).joinedKeys.filter fun j => j.source.workspace == w) ∧
      rows.Pairwise fun j j' => j.key.id ≤ j'.key.id) ∧
    S.stored a.2 = S.stored s
  /-- An update that ends well has been made. -/
  nameTable : ∀ session s w (t : Querent.Table) n,
    let a := S.answer (.query session nameTableSql [.ofText? t.businessName, .ofText? t.description,
      .int w, .text t.schema, .text t.name]) s
    a.1.ended = .ok n → S.stored a.2 = (S.stored s).nameTable w t
  nameColumn : ∀ session s w (t : Querent.Table) (c : Querent.Column) n,
    let a := S.answer (.query session nameColumnSql [.ofText? c.businessName, .ofText? c.description,
      .int w, .text t.schema, .text t.name, .text c.name]) s
    a.1.ended = .ok n → S.stored a.2 = (S.stored s).nameColumn w t c

end Server

/-! ### Rows as they are read -/

open Request.Server (required_eq_ok optional_elim text?_sentText)

theorem tableOf_sent (t : TableRow) : tableOf ⟨Server.tableColumns, t.sent⟩ = .ok (t.id, t.table []) := by
  let row : Row := ⟨Server.tableColumns, t.sent⟩
  have hid : row.int "id" = .ok t.id := rfl
  have hschema : row.text "schema_name" = .ok t.schema := required_eq_ok rfl rfl (text?_sentText _)
  have hname : row.text "table_name" = .ok t.name := required_eq_ok rfl rfl (text?_sentText _)
  have hbusiness : row.textOrNull "business_name" = .ok t.businessName :=
    optional_elim rfl rfl fun s _ => text?_sentText s
  have hdescription : row.textOrNull "description" = .ok t.description :=
    optional_elim rfl rfl fun s _ => text?_sentText s
  show tableOf row = _
  simp only [tableOf, hid, hschema, hname, hbusiness, hdescription]
  rfl

theorem columnOf_sent (c : ColumnRow) :
    columnOf ⟨Server.columnColumns, c.sent⟩ = .ok (c.table, c.column) := by
  let row : Row := ⟨Server.columnColumns, c.sent⟩
  have hid : row.int "table_id" = .ok c.table := rfl
  have hname : row.text "column_name" = .ok c.column.name :=
    required_eq_ok rfl rfl (text?_sentText _)
  have htype : row.text "data_type" = .ok c.column.dataType :=
    required_eq_ok rfl rfl (text?_sentText _)
  have hnullable : row.bool "is_nullable" = .ok c.column.isNullable := rfl
  have hprimary : row.bool "is_primary_key" = .ok c.column.isPrimaryKey := rfl
  have hbusiness : row.textOrNull "business_name" = .ok c.column.businessName :=
    optional_elim rfl rfl fun s _ => text?_sentText s
  have hdescription : row.textOrNull "description" = .ok c.column.description :=
    optional_elim rfl rfl fun s _ => text?_sentText s
  show columnOf row = _
  simp only [columnOf, hid, hname, htype, hnullable, hprimary, hbusiness, hdescription]
  rfl

theorem foreignKeyOf_sent (j : JoinedKey) :
    foreignKeyOf ⟨Server.keyColumns, j.sent⟩ = .ok j.foreignKey := by
  let row : Row := ⟨Server.keyColumns, j.sent⟩
  have hconstraint : row.textOrNull "constraint_name" = .ok j.key.constraint :=
    optional_elim rfl rfl fun s _ => text?_sentText s
  have hfromSchema : row.text "from_schema" = .ok j.source.schema :=
    required_eq_ok rfl rfl (text?_sentText _)
  have hfromTable : row.text "from_table" = .ok j.source.name :=
    required_eq_ok rfl rfl (text?_sentText _)
  have hfromColumn : row.text "from_column" = .ok j.key.sourceColumn :=
    required_eq_ok rfl rfl (text?_sentText _)
  have htoSchema : row.text "to_schema" = .ok j.target.schema :=
    required_eq_ok rfl rfl (text?_sentText _)
  have htoTable : row.text "to_table" = .ok j.target.name :=
    required_eq_ok rfl rfl (text?_sentText _)
  have htoColumn : row.text "to_column" = .ok j.key.targetColumn :=
    required_eq_ok rfl rfl (text?_sentText _)
  show foreignKeyOf row = _
  simp only [foreignKeyOf, hconstraint, hfromSchema, hfromTable, hfromColumn, htoSchema, htoTable,
    htoColumn]
  rfl

theorem Server.Brings.readAll {ρ α : Type} {columns : List Database.Column} {sent : ρ → List Sent}
    {read : Row → Except Fault α} {value : ρ → α} {rows : List ρ} {b : Brought}
    (h : Server.Brings columns (rows.map sent) b)
    (hread : ∀ r, read ⟨columns, sent r⟩ = .ok (value r)) :
    b.readAll read = .ok (rows.map value) := by
  obtain ⟨n, hended⟩ := h.ended
  have hrows : b.toRows.mapM read = .ok (rows.map value) := by
    rw [Brought.toRows, h.rows, h.columns, List.map_map, List.mapM_map]
    exact Request.Server.mapM_eq_ok fun r _ => hread r
  rw [Brought.readAll, hrows, hended]
  rfl

/-- Where the numbers of the tables are their own, each table gets the columns under its number. -/
theorem attach_eq {columns : List (Int × Querent.Column)} {tables : List (Int × Querent.Table)}
    (h : (tables.map (·.1)).Nodup) :
    attach columns tables = tables.map fun t =>
      { t.2 with columns := (columns.filter (·.1 == t.1)).map (·.2) } := by
  induction tables generalizing columns with
  | nil => rfl
  | cons t tables ih =>
    obtain ⟨hfirst, hrest⟩ := List.nodup_cons.1 h
    have hleft : ∀ t' ∈ tables, (columns.filter (·.1 != t.1)).filter (·.1 == t'.1) =
        columns.filter (·.1 == t'.1) := by
      intro t' ht'
      have hne : t'.1 ≠ t.1 := fun hid => hfirst (List.mem_map.2 ⟨t', ht', hid⟩)
      rw [List.filter_filter]
      refine List.filter_congr fun c _ => ?_
      by_cases hc : c.1 = t'.1 <;> simp [hc, hne]
    rw [attach, ih hrest, List.map_cons]
    refine congrArg _ (List.map_congr_left fun t' ht' => ?_)
    rw [hleft t' ht']

/-! ### Workspaces as they are loaded -/

namespace Statement

theorem sql_tables (w : Int) : (tables w).sql = Server.tablesSql := by
  have h : (tables 0).sql = Server.tablesSql := by decide +kernel
  exact h

theorem sql_columns (w : Int) : (columns w).sql = Server.columnsSql := by
  have h : (columns 0).sql = Server.columnsSql := by decide +kernel
  exact h

theorem sql_foreignKeys (w : Int) : (foreignKeys w).sql = Server.keysSql := by
  have h : (foreignKeys 0).sql = Server.keysSql := by decide +kernel
  exact h

end Statement

namespace Server

variable {σ : Type} {S : Server σ} {s : σ} {w : Int}

/-- What a statement brings, and the server after it. -/
def ask (S : Server σ) (session : Nat) (c : Statement) (s : σ) : Brought × σ :=
  S.answer (.query session c.sql c.params) s

theorem run_readRows {α : Type} {what : String} {read : Row → Except Fault α} {session : Nat}
    {c : Statement} {values : List α} (h : (S.ask session c s).1.readAll read = .ok values) :
    (readRows what read session c).run.run S.answer s = (.ok values, (S.ask session c s).2) := by
  have hrows : (readRows what read session c).run.run S.answer s =
      (((S.ask session c s).1.readAll read).mapError
        (fun f => Error.database (what ++ ": " ++ f.message)), (S.ask session c s).2) := rfl
  rw [hrows, h]
  rfl

/-- The columns that come for a workspace, by tables, are those of each of its tables. -/
theorem filter_columns {stored : Stored} (h : stored.Allowed) {rows : List (ColumnRow × TableRow)}
    (hperm : rows.Perm (stored.joinedColumns.filter fun p => p.2.workspace == w))
    (hsorted : rows.Pairwise fun p p' =>
      p.1.table < p'.1.table ∨ p.1.table = p'.1.table ∧ p.1.id ≤ p'.1.id)
    {t : TableRow} (ht : t ∈ stored.tablesOf w) :
    ((rows.map fun p => (p.1.table, p.1.column)).filter (·.1 == t.id)).map (·.2) =
      (stored.columnsOf t.id).map (·.column) := by
  obtain ⟨hmem, hworkspace⟩ := Stored.mem_tablesOf.1 ht
  have hcolumns : (rows.map (·.1)).filter (·.table == t.id) = stored.columnsOf t.id := by
    refine eq_sortedBy (h.columnIds_filter _) ?_ ?_
    · rw [← h.filter_joinedColumns hmem, hworkspace]
      exact (hperm.map _).filter _
    · have hcolumns : (rows.map (·.1)).Pairwise fun c c' =>
          c.table < c'.table ∨ c.table = c'.table ∧ c.id ≤ c'.id := List.pairwise_map.2 hsorted
      refine List.pairwise_filter.2 (hcolumns.imp fun {c c'} hle hc hc' => ?_)
      have htable : c.table = c'.table := (beq_iff_eq.1 hc).trans (beq_iff_eq.1 hc').symm
      omega
  calc ((rows.map fun p => (p.1.table, p.1.column)).filter (·.1 == t.id)).map (·.2)
      = ((rows.map (·.1)).filter (·.table == t.id)).map (·.column) := by
        simp only [List.filter_map, List.map_map]
        rfl
    _ = (stored.columnsOf t.id).map (·.column) := by rw [hcolumns]

/-- What is loaded of a workspace is what the rows say, and they stay as they are. -/
theorem Runs.load (hS : S.Runs) (session : Nat) (hw : S.holds w) (h : (S.stored s).Allowed) :
    ((load session w).run.run S.answer s).1 = .ok ((S.stored s).snapshot w) ∧
      S.stored ((load session w).run.run S.answer s).2 = S.stored s := by
  obtain ⟨⟨ts, hts, htperm, htsorted⟩, htkeep⟩ := hS.tables session s w hw
  rw [← Statement.sql_tables w] at hts htkeep
  let s₁ := (S.ask session (.tables w) s).2
  obtain ⟨⟨cs, hcs, hcperm, hcsorted⟩, hckeep⟩ := hS.columns session s₁ w hw
  rw [← Statement.sql_columns w] at hcs hckeep
  let s₂ := (S.ask session (.columns w) s₁).2
  obtain ⟨⟨ks, hks, hkperm, hksorted⟩, hkkeep⟩ := hS.keys session s₂ w hw
  rw [← Statement.sql_foreignKeys w] at hks hkkeep
  have hstored₁ : S.stored s₁ = S.stored s := htkeep
  have hstored₂ : S.stored s₂ = S.stored s := hckeep.trans hstored₁
  rw [hstored₁] at hcperm
  rw [hstored₂] at hkperm
  have htables : ts = (S.stored s).tablesOf w := eq_sortedBy (h.tableIds_filter _) htperm htsorted
  have hkeys : ks = (S.stored s).keysOf w :=
    eq_sortedBy (h.keyIds_joined.sublist (List.filter_sublist.map _)) hkperm hksorted
  have hrun : (Catalog.load session w).run.run S.answer s =
      (.ok { workspace := w
             tables := attach (cs.map fun p => (p.1.table, p.1.column))
               (ts.map fun t => (t.id, t.table []))
             foreignKeys := ks.map (·.foreignKey) },
        (S.ask session (.foreignKeys w) s₂).2) := by
    rw [Catalog.load, Dialogue.run_bind_ok (run_readRows (hts.readAll tableOf_sent)),
      Dialogue.run_bind_ok (run_readRows (hcs.readAll fun p => columnOf_sent p.1)),
      Dialogue.run_bind_ok (run_readRows (hks.readAll foreignKeyOf_sent))]
    rfl
  have hids : ((ts.map fun t => (t.id, t.table [])).map (·.1)).Nodup := by
    rw [htables, List.map_map]
    exact ((sortedBy_perm _ _).map _).nodup_iff.2 (h.tableIds_filter _)
  have hattached : attach (cs.map fun p => (p.1.table, p.1.column))
      (ts.map fun t => (t.id, t.table [])) =
        ((S.stored s).tablesOf w).map fun t => t.table (((S.stored s).columnsOf t.id).map (·.column)) := by
    rw [attach_eq hids, List.map_map, htables]
    refine List.map_congr_left fun t ht => ?_
    rw [← filter_columns h hcperm hcsorted ht]
    rfl
  rw [hrun]
  refine ⟨?_, hkkeep.trans hstored₂⟩
  rw [hattached, hkeys]
  rfl

end Server

end Catalog

end Querent
