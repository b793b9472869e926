import Mathlib.Data.List.Forall2
import Mathlib.Tactic.Common
import Querent.Database.Execute
import Querent.Proofs.Dialogue
import Querent.Proofs.Ordered

/-! What the record of a row holds. Columns of one name share an entry, and the last of them fills it. -/
namespace Querent.Database

open Dialogue (Path Exchange)

variable {d : Dialect} {columns : List Column} {row : List Sent}

/-- The cells of a row in order, each under its column's name. -/
def cells (d : Dialect) (columns : List Column) (row : List Sent) : List (String × Cell) :=
  (columns.zip row).map fun (c, v) => (c.name, decode d c v)

theorem names_cells (h : row.length = columns.length) :
    (cells d columns row).map (·.1) = columns.map (·.name) := by
  have hcolumns := List.map_fst_zip (Nat.le_of_eq h.symm)
  rw [cells, List.map_map]
  conv_rhs => rw [← hcolumns, List.map_map]
  rfl

theorem cells_append {before after : List Column} {vs vs' : List Sent} (h : before.length = vs.length) :
    cells d (before ++ after) (vs ++ vs') = cells d before vs ++ cells d after vs' := by
  rw [cells, List.zip_append h, List.map_append, cells, cells]

/-- What a record holds of the row it was made of. -/
structure Decoded (d : Dialect) (columns : List Column) (row : List Sent) (r : Record) : Prop where
  /-- All cells are there, in order, exactly if no name comes twice. -/
  entries : r.entries = cells d columns row ↔ (columns.map (·.name)).Nodup
  /-- There is one entry for each name, at the place where it comes first. -/
  keys : r.keys = (columns.map (·.name)).eraseDups
  /-- It holds the cell of the last column of the name. -/
  value : ∀ before c after v, columns = before ++ c :: after → c.name ∉ after.map (·.name) →
    row[before.length]? = some v → r.get? c.name = some (decode d c v)

theorem decoded (d : Dialect) (h : row.length = columns.length) :
    Decoded d columns row (decodeRow d columns row) where
  entries := by
    rw [← names_cells (d := d) h]
    exact Ordered.entries_ofList_iff
  keys := by
    rw [← names_cells (d := d) h]
    exact Ordered.keys_ofList _
  value before c after v := by
    rintro rfl hlast hv
    obtain ⟨hlt, rfl⟩ := List.getElem?_eq_some_iff.1 hv
    have hrow : row.take before.length ++ row[before.length] :: row.drop (before.length + 1) = row := by
      rw [← List.drop_eq_getElem_cons hlt, List.take_append_drop]
    have hbefore : before.length = (row.take before.length).length := by
      rw [List.length_take_of_le (Nat.le_of_lt hlt)]
    have hafter : (row.drop (before.length + 1)).length = after.length := by
      rw [List.length_drop, h, List.length_append, List.length_cons]
      omega
    refine Ordered.get?_ofList_eq_some_iff.2
      ⟨cells d before (row.take before.length), cells d after (row.drop (before.length + 1)), ?_, ?_⟩
    · show cells d (before ++ c :: after) row = _
      conv_lhs => rw [← hrow]
      rw [cells_append hbefore]
      rfl
    · rwa [names_cells hafter]

/-- What is asked and answered where a statement brings what it is to bring. -/
def statementRun (c : Connection) (sql : String) (timeoutMs session : Nat) (b : Brought) :
    List (Exchange Call.Reply) :=
  [⟨.connect (asked c) timeoutMs, .ok session⟩,
    ⟨.command session (timeLimit c.dialect timeoutMs), .ok ()⟩,
    ⟨.query session sql [], b⟩, ⟨.close session, ()⟩]

variable {c : Connection} {sql : String} {timeoutMs : Nat} {es : List (Exchange Call.Reply)}
  {records : List Record}

/-- A statement gives records in one way only: of the rows that it brought without a fault. -/
theorem path_execute_ok : Path (execute c sql timeoutMs) es (.done (.ok records)) ↔
    ∃ session b n, b.ended = .ok n ∧ es = statementRun c sql timeoutMs session b ∧
      records = b.rows.map (decodeRow c.dialect b.columns) := by
  constructor
  · intro h
    obtain ⟨opened, es₁, rfl, hopened⟩ := Dialogue.path_ask_done.1 h
    cases opened with
    | error f => cases (Dialogue.path_done.1 hopened).2
    | ok session =>
      obtain ⟨limited, es₂, rfl, hlimited⟩ := Dialogue.path_ask_done.1 hopened
      cases limited with
      | error f =>
        obtain ⟨-, es₃, -, hclosed⟩ := Dialogue.path_ask_done.1 hlimited
        cases (Dialogue.path_done.1 hclosed).2
      | ok u =>
        obtain ⟨⟨columns, rows, ended⟩, es₃, rfl, hbrought⟩ := Dialogue.path_ask_done.1 hlimited
        cases ended with
        | error f =>
          obtain ⟨-, es₄, -, hclosed⟩ := Dialogue.path_ask_done.1 hbrought
          cases (Dialogue.path_done.1 hclosed).2
        | ok n =>
          obtain ⟨closed, es₄, rfl, hclosed⟩ := Dialogue.path_ask_done.1 hbrought
          obtain ⟨rfl, hend⟩ := Dialogue.path_done.1 hclosed
          cases hend
          exact ⟨session, _, n, rfl, rfl, rfl⟩
  · rintro ⟨session, ⟨columns, rows, ended⟩, n, rfl, rfl, rfl⟩
    exact .next (.next (.next (.next .here)))

/-- A result that comes without a fault is decoded to a record for each row, whatever the engine and the
types. It holds all cells of the row in order exactly if no two columns have one name. In any case each
name has one entry, at the place where it comes first, with the cell of the last column of that name. -/
theorem execute_decoded (c : Connection) (sql : String) (timeoutMs : Nat) {b : Brought} {n : Nat}
    (hended : b.ended = .ok n) (hrows : ∀ row ∈ b.rows, row.length = b.columns.length) :
    ∃ records,
      (∀ session, Path (execute c sql timeoutMs) (statementRun c sql timeoutMs session b)
        (.done (.ok records))) ∧
      (∀ session es other, Path (execute c sql timeoutMs) es (.done (.ok other)) →
        ⟨.query session sql [], b⟩ ∈ es → other = records) ∧
      List.Forall₂ (Decoded c.dialect b.columns) b.rows records := by
  refine ⟨b.rows.map (decodeRow c.dialect b.columns), fun session => ?_, ?_, ?_⟩
  · exact path_execute_ok.2 ⟨session, b, n, hended, rfl, rfl⟩
  · intro session es other hpath hquery
    obtain ⟨session', b', n', -, rfl, rfl⟩ := path_execute_ok.1 hpath
    obtain ⟨-, rfl⟩ : session = session' ∧ b = b' := by simpa [statementRun] using hquery
    rfl
  · rw [List.forall₂_map_right_iff, List.forall₂_same]
    exact fun row hrow => decoded c.dialect (hrows row hrow)

/-- The columns of orders and those of their customers, one behind the other. -/
def joined : List Column := [⟨"id", "INT8"⟩, ⟨"customer_id", "INT8"⟩, ⟨"id", "INT8"⟩, ⟨"name", "TEXT"⟩]

def joinedRow : List Sent := [.int 7, .int 3, .int 3, .bytes [65, 110, 110]]

def shop : Connection where
  dialect := .postgres
  host := "localhost"
  port := 5432
  database := "shop"
  user := "reader"
  password := "pw"
  ssl := false

/-- The number of the order is not in the record; under its name stands that of the customer. -/
theorem execute_decoded_joined :
    ∃ b : Brought, b.columns = joined ∧ b.rows = [joinedRow] ∧ b.ended = .ok 1 ∧
    (∀ row ∈ b.rows, row.length = b.columns.length) ∧
    ∃ r : Record, Path (execute shop "SELECT *" 10000) (statementRun shop "SELECT *" 10000 0 b)
        (.done (.ok [r])) ∧
      r.keys = ["id", "customer_id", "name"] ∧ r.get? "id" = some (.number (.int 3)) := by
  let b : Brought := { columns := joined, rows := [joinedRow], ended := .ok 1 }
  have hrows : ∀ row ∈ b.rows, row.length = b.columns.length := by simp [b, joined, joinedRow]
  obtain ⟨records, hpath, -, hdecoded⟩ := execute_decoded shop "SELECT *" 10000 rfl hrows
  obtain ⟨r, rest, hr, hrest, rfl⟩ := List.forall₂_cons_left_iff.1 hdecoded
  obtain rfl := List.forall₂_nil_left_iff.1 hrest
  refine ⟨b, rfl, rfl, rfl, hrows, r, hpath 0, hr.keys.trans (by decide), ?_⟩
  exact hr.value [⟨"id", "INT8"⟩, ⟨"customer_id", "INT8"⟩] ⟨"id", "INT8"⟩ [⟨"name", "TEXT"⟩] (.int 3)
    rfl (by decide) rfl

/-- Two tables that are joined both have a column of one name. -/
theorem column_lost : ¬ ∀ (d : Dialect) (columns : List Column) (row : List Sent),
    row.length = columns.length → (decodeRow d columns row).entries = cells d columns row := by
  intro h
  have hdecoded : Decoded .postgres joined joinedRow (decodeRow .postgres joined joinedRow) :=
    decoded .postgres rfl
  have hnames : (joined.map (·.name)).Nodup := hdecoded.entries.1 (h _ _ _ rfl)
  exact absurd hnames (by decide)

end Querent.Database
