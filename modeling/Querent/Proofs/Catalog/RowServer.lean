import Querent.Proofs.Catalog.Server

/-! A server that runs the statements of catalogues: its state is their rows. -/
namespace Querent.Catalog

open Database

namespace RowServer

def brought (columns : List Database.Column) (rows : List (List Sent)) : Brought :=
  { columns, rows, ended := .ok rows.length }

/-- What a server says that cannot run a statement. -/
def refusal : Brought := { columns := [], rows := [], ended := .error (.refused none "syntax error") }

def text? : Param → Option String
  | .text s => some s
  | _ => none

/-- Columns with their tables, in the order in which they come. -/
def sortedColumns (rows : List (ColumnRow × TableRow)) : List (ColumnRow × TableRow) :=
  rows.mergeSort fun p p' =>
    decide (p.1.table < p'.1.table ∨ p.1.table = p'.1.table ∧ p.1.id ≤ p'.1.id)

def tables (s : Stored) : List Param → Brought
  | [.int w] => brought Server.tableColumns ((s.tablesOf w).map (·.sent))
  | _ => refusal

def columns (s : Stored) : List Param → Brought
  | [.int w] =>
    let rows := sortedColumns (s.joinedColumns.filter fun p => p.2.workspace == w)
    brought Server.columnColumns (rows.map (·.1.sent))
  | _ => refusal

def keys (s : Stored) : List Param → Brought
  | [.int w] => brought Server.keyColumns ((s.keysOf w).map (·.sent))
  | _ => refusal

def nameTable (s : Stored) : List Param → Brought × Stored
  | [businessName, description, .int w, .text schema, .text name] =>
    (brought [] [], s.nameTable w
      { schema, name, businessName := text? businessName, description := text? description
        columns := [] })
  | _ => (refusal, s)

def nameColumn (s : Stored) : List Param → Brought × Stored
  | [businessName, description, .int w, .text schema, .text table, .text name] =>
    (brought [] [], s.nameColumn w
      { schema, name := table, businessName := none, description := none, columns := [] }
      { name, dataType := "", isNullable := false, isPrimaryKey := false
        businessName := text? businessName, description := text? description })
  | _ => (refusal, s)

def query (sql : String) (params : List Param) (s : Stored) : Brought × Stored :=
  if sql = Server.tablesSql then (tables s params, s)
  else if sql = Server.columnsSql then (columns s params, s)
  else if sql = Server.keysSql then (keys s params, s)
  else if sql = Server.nameTableSql then nameTable s params
  else if sql = Server.nameColumnSql then nameColumn s params
  else (refusal, s)

theorem query_tables (params : List Param) (s : Stored) :
    query Server.tablesSql params s = (tables s params, s) := by
  rw [query, if_pos rfl]

theorem query_columns (params : List Param) (s : Stored) :
    query Server.columnsSql params s = (columns s params, s) := by
  have htables : Server.columnsSql ≠ Server.tablesSql := by decide +kernel
  rw [query, if_neg htables, if_pos rfl]

theorem query_keys (params : List Param) (s : Stored) :
    query Server.keysSql params s = (keys s params, s) := by
  have htables : Server.keysSql ≠ Server.tablesSql := by decide +kernel
  have hcolumns : Server.keysSql ≠ Server.columnsSql := by decide +kernel
  rw [query, if_neg htables, if_neg hcolumns, if_pos rfl]

theorem query_nameTable (params : List Param) (s : Stored) :
    query Server.nameTableSql params s = nameTable s params := by
  have htables : Server.nameTableSql ≠ Server.tablesSql := by decide +kernel
  have hcolumns : Server.nameTableSql ≠ Server.columnsSql := by decide +kernel
  have hkeys : Server.nameTableSql ≠ Server.keysSql := by decide +kernel
  rw [query, if_neg htables, if_neg hcolumns, if_neg hkeys, if_pos rfl]

theorem query_nameColumn (params : List Param) (s : Stored) :
    query Server.nameColumnSql params s = nameColumn s params := by
  have htables : Server.nameColumnSql ≠ Server.tablesSql := by decide +kernel
  have hcolumns : Server.nameColumnSql ≠ Server.columnsSql := by decide +kernel
  have hkeys : Server.nameColumnSql ≠ Server.keysSql := by decide +kernel
  have hname : Server.nameColumnSql ≠ Server.nameTableSql := by decide +kernel
  rw [query, if_neg htables, if_neg hcolumns, if_neg hkeys, if_neg hname, if_pos rfl]

theorem sortedColumns_perm (rows : List (ColumnRow × TableRow)) : (sortedColumns rows).Perm rows :=
  List.mergeSort_perm _ _

theorem pairwise_sortedColumns (rows : List (ColumnRow × TableRow)) :
    (sortedColumns rows).Pairwise fun p p' =>
      p.1.table < p'.1.table ∨ p.1.table = p'.1.table ∧ p.1.id ≤ p'.1.id := by
  refine (List.pairwise_mergeSort (fun p p' p'' => ?_) (fun p p' => ?_) rows).imp of_decide_eq_true
  · simp only [decide_eq_true_eq]
    omega
  · simp only [Bool.or_eq_true, decide_eq_true_eq]
    omega

theorem text?_ofText? (x : Option String) : text? (.ofText? x) = x := by cases x <;> rfl

end RowServer

/-- A server that keeps the rows and nothing else. Its numbers have 64 bits. -/
def rowServer : Server Stored where
  answer
    | .connect _ _, s => (.ok 0, s)
    | .command _ _, s => (.ok (), s)
    | .query _ sql params, s => RowServer.query sql params s
    | .close _, s => ((), s)
  stored s := s
  holds n := -(Decimal.wordBound 63 : Int) ≤ n ∧ n < Decimal.wordBound 63

/-- The server runs the statements. -/
theorem rowServer_runs : rowServer.Runs where
  transaction _ _ _ _ := rfl
  tables session s w _ := by
    simp only [rowServer, RowServer.query_tables]
    exact ⟨⟨s.tablesOf w, ⟨rfl, rfl, _, rfl⟩, sortedBy_perm _ _, pairwise_sortedBy _ _⟩, trivial⟩
  columns session s w _ := by
    simp only [rowServer, RowServer.query_columns]
    exact ⟨⟨_, ⟨rfl, rfl, _, rfl⟩, RowServer.sortedColumns_perm _,
      RowServer.pairwise_sortedColumns _⟩, trivial⟩
  keys session s w _ := by
    simp only [rowServer, RowServer.query_keys]
    exact ⟨⟨s.keysOf w, ⟨rfl, rfl, _, rfl⟩, sortedBy_perm _ _, pairwise_sortedBy _ _⟩, trivial⟩
  nameTable session s w t n := by
    simp only [rowServer, RowServer.query_nameTable, RowServer.nameTable, RowServer.text?_ofText?]
    exact fun _ => rfl
  nameColumn session s w t c n := by
    simp only [rowServer, RowServer.query_nameColumn, RowServer.nameColumn, RowServer.text?_ofText?]
    exact fun _ => rfl

end Querent.Catalog
