import Querent.Proofs.Request.Server

/-! A server that runs the statements of the table of requests: its state is the table, and its clock
stands at noon. -/
namespace Querent.Request

open Database

namespace TableServer

def noon : Moment := (Row.instant? (.moment 2024 5 1 12 0 0 0)).get (by decide +kernel)

def json (j : Json) : Sent := sentText j.compact

def time (m : Moment) : Sent :=
  .moment m.date.year m.date.month m.date.day m.time.hour m.time.minute m.time.second
    (m.time.nanos / 1000)

def brought (es : List Entry) : Brought :=
  { columns := Server.columns, rows := es.map (Entry.sent json time), ended := .ok es.length }

/-- What a server says that cannot run a statement. -/
def refusal : Brought := { columns := [], rows := [], ended := .error (.refused none "syntax error") }

def text? : Param → Option String
  | .text s => some s
  | _ => none

def json? : Param → Option Json
  | .json j => some j
  | _ => none

def insert (es : List Entry) : List Param → Brought × List Entry
  | [.int user, .int workspace, .text prompt, .text status] =>
    let new : Entry :=
      { id := es.length + 1, user, workspace, prompt, status
        sql := none, text := none, table := none, graph := none, createdAt := noon, updatedAt := noon }
    (brought [new], es ++ [new])
  | _ => (refusal, es)

def update (es : List Entry) : List Param → Brought × List Entry
  | [.text status, sql, text, table, graph, .int id] =>
    let pending (e : Entry) : Bool := e.id == id && e.status == "PENDING"
    ({ columns := [], rows := [], ended := .ok (es.countP pending) }, es.map fun e =>
      if pending e then
        { e with status, sql := text? sql, text := text? text, table := json? table
                 graph := json? graph, updatedAt := noon }
      else e)
  | _ => (refusal, es)

def find (es : List Entry) : List Param → Brought
  | [.int id, .int workspace] => brought (es.filter fun e => e.id == id && e.workspace == workspace)
  | _ => refusal

def list (es : List Entry) : List Param → Brought
  | [.int workspace, .int limit] =>
    let sorted := (es.filter fun e => e.workspace == workspace).mergeSort fun e e' => e.id ≥ e'.id
    brought (sorted.take limit.toNat)
  | _ => refusal

def query (sql : String) (params : List Param) (es : List Entry) : Brought × List Entry :=
  if sql = Server.insertSql then insert es params
  else if sql = Server.updateSql then update es params
  else if sql = Server.findSql then (find es params, es)
  else if sql = Server.listSql then (list es params, es)
  else (refusal, es)

theorem query_insert (params : List Param) (es : List Entry) :
    query Server.insertSql params es = insert es params := by
  rw [query, if_pos rfl]

theorem query_update (params : List Param) (es : List Entry) :
    query Server.updateSql params es = update es params := by
  have hinsert : Server.updateSql ≠ Server.insertSql := by decide +kernel
  rw [query, if_neg hinsert, if_pos rfl]

theorem query_find (params : List Param) (es : List Entry) :
    query Server.findSql params es = (find es params, es) := by
  have hinsert : Server.findSql ≠ Server.insertSql := by decide +kernel
  have hupdate : Server.findSql ≠ Server.updateSql := by decide +kernel
  rw [query, if_neg hinsert, if_neg hupdate, if_pos rfl]

theorem query_list (params : List Param) (es : List Entry) :
    query Server.listSql params es = (list es params, es) := by
  have hinsert : Server.listSql ≠ Server.insertSql := by decide +kernel
  have hupdate : Server.listSql ≠ Server.updateSql := by decide +kernel
  have hfind : Server.listSql ≠ Server.findSql := by decide +kernel
  rw [query, if_neg hinsert, if_neg hupdate, if_neg hfind, if_pos rfl]

/-- Integers of 64 bits, and texts without the character of code zero. -/
def fits : Param → Bool
  | .null => true
  | .int n => -(Decimal.wordBound 63 : Int) ≤ n && n < Decimal.wordBound 63
  | .text s => !s.toList.contains (Char.ofNat 0)
  | .json _ => false

end TableServer

/-- A server that keeps the table and nothing else. Of the JSON values it holds those that are read again
as they were. -/
def tableServer : Server (List Entry) where
  answer
    | .connect _ _, es => (.ok 0, es)
    | .command _ _, es => (.ok (), es)
    | .query _ sql params, es => TableServer.query sql params es
    | .close _, es => ((), es)
  entries es := es
  holds
    | .json j => Row.json? (TableServer.json j) = some j
    | p => TableServer.fits p = true
  json := TableServer.json
  time := TableServer.time

theorem TableServer.holds_of_fits {p : Param} (h : fits p = true) : tableServer.holds p := by
  cases p with
  | json j => cases h
  | _ => exact h

/-- An object without members is sent and read again. -/
theorem TableServer.holds_empty {j : Json} (h : j.members?.any List.isEmpty = true) :
    tableServer.holds (.json j) := by
  have hempty {j : Json} (h : j.members?.any List.isEmpty = true) : j = .object [] := by
    cases j with
    | object members => simpa [Json.members?] using h
    | _ => cases h
  have hparse : ((Json.parse "\x7b\x7d").bind Json.members?).any List.isEmpty = true := by
    decide +kernel
  obtain rfl := hempty h
  have hsent : Row.text? (json (.object [])) = some "\x7b\x7d" := Server.text?_sentText _
  show Row.json? (json (.object [])) = some (.object [])
  rw [Row.json?, hsent, Option.bind_some]
  cases hj : Json.parse "\x7b\x7d" with
  | none => simp [hj] at hparse
  | some j =>
    rw [hj] at hparse
    rw [hempty hparse]

theorem stamps_noon : tableServer.Stamps TableServer.noon := by
  unfold Server.Stamps
  decide +kernel

/-- The server runs the statements. -/
theorem tableServer_runs : tableServer.Runs where
  insert session es user workspace prompt status _ _ _ := by
    refine ⟨TableServer.noon, stamps_noon, ?_⟩
    simp only [tableServer, TableServer.query_insert]
    exact ⟨⟨rfl, rfl, _, rfl⟩, rfl⟩
  update session es id status sql text table graph _ _ := by
    have htext (x : Option String) : TableServer.text? (.ofText? x) = x := by cases x <;> rfl
    have hjson (x : Option Json) : TableServer.json? (.ofJson? x) = x := by cases x <;> rfl
    refine ⟨TableServer.noon, stamps_noon, ?_⟩
    simp only [tableServer, TableServer.query_update, TableServer.update, htext, hjson]
    exact ⟨trivial, trivial⟩
  find session es workspace id _ := by
    simp only [tableServer, TableServer.query_find]
    exact ⟨⟨_, ⟨rfl, rfl, _, rfl⟩, .refl _⟩, trivial⟩
  list session es workspace limit _ := by
    simp only [tableServer, TableServer.query_list]
    have hsorted : ((es.filter fun e => e.workspace == workspace).mergeSort fun e e' =>
        e.id ≥ e'.id).Pairwise fun e e' => decide (e.id ≥ e'.id) = true := by
      refine List.pairwise_mergeSort (fun e e' e'' => ?_) (fun e e' => ?_) _
      · simp only [decide_eq_true_eq]
        omega
      · simp only [Bool.or_eq_true, decide_eq_true_eq]
        omega
    exact ⟨⟨_, ⟨rfl, rfl, _, rfl⟩, List.mergeSort_perm _ _, hsorted.imp of_decide_eq_true⟩, trivial⟩
  unchanged j h := h

end Querent.Request
