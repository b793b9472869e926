import Querent.Proofs.Request.Store
import Querent.Request.Table

/-! What the table of requests expects of a database server: that it runs the four statements as they
read, numbers the rows from one on, and gives back what it was given. -/
namespace Querent.Request

open Database

/-- A row of the table. -/
structure Entry where
  id : Int
  user : Int
  workspace : Int
  prompt : String
  status : String
  sql : Option String
  text : Option String
  table : Option Json
  graph : Option Json
  createdAt : Moment
  updatedAt : Moment

/-- The row that keeps a request. -/
def Entry.of (r : Request) : Entry :=
  { id := r.id, user := r.user, workspace := r.workspace, prompt := r.prompt
    status := r.status.name, sql := r.results.sql, text := r.results.text
    table := r.results.table, graph := r.results.graph
    createdAt := r.createdAt, updatedAt := r.updatedAt }

/-- The bytes of a text in UTF-8, as which it is sent. -/
def sentText (s : String) : Sent := .bytes s.toUTF8.data.toList

/-- The values of a row, column by column. -/
def Entry.sent (json : Json → Sent) (time : Moment → Sent) (e : Entry) : List Sent :=
  [.int e.id, .int e.user, .int e.workspace, sentText e.prompt, sentText e.status,
    e.sql.elim .null sentText, e.text.elim .null sentText, e.table.elim .null json,
    e.graph.elim .null json, time e.createdAt, time e.updatedAt]

/-- A server with such a table. JSON values and times have more than one spelling; the server has its
own. -/
structure Server (σ : Type) where
  answer : (c : Call) → σ → c.Reply × σ
  /-- The rows, in the order in which they were inserted. -/
  entries : σ → List Entry
  /-- The values that the types of the columns hold. Of the JSON values these are the ones that come back
  unchanged. -/
  holds : Param → Prop
  json : Json → Sent
  time : Moment → Sent

namespace Server

def columns : List Column :=
  [⟨"id", "INT8"⟩, ⟨"user_id", "INT8"⟩, ⟨"workspace_id", "INT8"⟩, ⟨"prompt", "TEXT"⟩,
    ⟨"status", "TEXT"⟩, ⟨"sql_script", "TEXT"⟩, ⟨"result_text", "TEXT"⟩, ⟨"result_table", "JSONB"⟩,
    ⟨"graph_config", "JSONB"⟩, ⟨"created_at", "TIMESTAMPTZ"⟩, ⟨"updated_at", "TIMESTAMPTZ"⟩]

def columnList : String := ", ".intercalate (columns.map (·.name))

def insertSql : String :=
  "INSERT INTO user_requests (user_id, workspace_id, prompt, status) VALUES ($1, $2, $3, $4) " ++
  "RETURNING " ++ columnList

def updateSql : String :=
  "UPDATE user_requests SET status = $1, sql_script = $2, result_text = $3, result_table = $4, " ++
  "graph_config = $5, updated_at = NOW() WHERE id = $6 AND status = 'PENDING'"

def findSql : String :=
  "SELECT " ++ columnList ++ " FROM user_requests WHERE id = $1 AND workspace_id = $2"

def listSql : String :=
  "SELECT " ++ columnList ++
  " FROM user_requests WHERE workspace_id = $1 ORDER BY id DESC LIMIT $2"

/-- What the column of the status takes. -/
def statuses : List String := ["PENDING", "SUCCEEDED", "FAILED"]

variable {σ : Type} (S : Server σ)

/-- A row as it is sent. -/
def row (e : Entry) : List Sent := e.sent S.json S.time

/-- A statement brings some rows, and ends well. -/
structure Brings (es : List Entry) (b : Brought) : Prop where
  columns : b.columns = Server.columns
  rows : b.rows = es.map S.row
  ended : ∃ n, b.ended = .ok n

/-- A time that is read as it is. -/
def Stamps (t : Moment) : Prop := Row.instant? (S.time t) = some t

/-- The statements run as they read. -/
structure Runs : Prop where
  /-- A row gets the next number, and the time at which it is inserted twice. -/
  insert : ∀ session s user workspace prompt status,
    (∀ p ∈ [Param.int user, .int workspace, .text prompt, .text status], S.holds p) →
    status ∈ statuses → (S.entries s).length < Statement.maxLimit → ∃ t, S.Stamps t ∧
      let new : Entry :=
        { id := (S.entries s).length + 1, user, workspace, prompt, status
          sql := none, text := none, table := none, graph := none, createdAt := t, updatedAt := t }
      let a := S.answer (.query session insertSql
        [.int user, .int workspace, .text prompt, .text status]) s
      S.Brings [new] a.1 ∧ S.entries a.2 = S.entries s ++ [new]
  /-- The rows of the number that are pending change, and how many there were is told. -/
  update : ∀ session s id status sql text table graph,
    (∀ p ∈ [Param.text status, .ofText? sql, .ofText? text, .ofJson? table, .ofJson? graph, .int id],
      S.holds p) →
    status ∈ statuses → ∃ t, S.Stamps t ∧
      let pending (e : Entry) : Bool := e.id == id && e.status == "PENDING"
      let a := S.answer (.query session updateSql
        [.text status, .ofText? sql, .ofText? text, .ofJson? table, .ofJson? graph, .int id]) s
      a.1.ended = .ok ((S.entries s).countP pending) ∧
        S.entries a.2 = (S.entries s).map fun e =>
          if pending e then { e with status, sql, text, table, graph, updatedAt := t } else e
  /-- Rows come in some order. -/
  find : ∀ session s workspace id, (∀ p ∈ [Param.int id, .int workspace], S.holds p) →
    let a := S.answer (.query session findSql [.int id, .int workspace]) s
    (∃ es : List Entry, S.Brings es a.1 ∧
      es.Perm ((S.entries s).filter fun e => e.id == id && e.workspace == workspace)) ∧
    S.entries a.2 = S.entries s
  /-- Rows come sorted, the largest number first, and no more than asked for. -/
  list : ∀ session s workspace (limit : Nat), (∀ p ∈ [Param.int workspace, .int limit], S.holds p) →
    let a := S.answer (.query session listSql [.int workspace, .int limit]) s
    (∃ es : List Entry, S.Brings (es.take limit) a.1 ∧
      es.Perm ((S.entries s).filter fun e => e.workspace == workspace) ∧
      es.Pairwise fun e e' => e.id ≥ e'.id) ∧
    S.entries a.2 = S.entries s
  /-- JSON values come back unchanged. -/
  unchanged : ∀ j, S.holds (.json j) → Row.json? (S.json j) = some j

/-! ### Rows as they are read -/

variable {S : Server σ} {r : Request} {types : List String} {c : Column} {v : Sent}

theorem optional_eq_ok {α : Type} {decode : Sent → Option α} {a : α} (hnull : decode .null = none)
    (htype : types.contains c.type = true) (h : decode v = some a) :
    Row.optional types decode (c, v) = .ok (some a) := by
  unfold Row.optional
  split
  next heq =>
    obtain ⟨rfl, rfl⟩ := Prod.mk.inj heq
    rw [hnull] at h
    cases h
  next heq =>
    obtain ⟨rfl, rfl⟩ := Prod.mk.inj heq
    rw [htype, if_pos rfl, h]

theorem required_eq_ok {α : Type} {decode : Sent → Option α} {a : α} (hnull : decode .null = none)
    (htype : types.contains c.type = true) (h : decode v = some a) :
    Row.required types decode (c, v) = .ok a := by
  rw [Row.required, optional_eq_ok hnull htype h]
  rfl

/-- A field that may be null is read as it is if its value is. -/
theorem optional_elim {α : Type} {decode : Sent → Option α} {send : α → Sent} {x : Option α}
    (hnull : decode .null = none) (htype : types.contains c.type = true)
    (h : ∀ a ∈ x, decode (send a) = some a) :
    Row.optional types decode (c, x.elim .null send) = .ok x := by
  cases x with
  | none => rfl
  | some a => exact optional_eq_ok hnull htype (h a rfl)

theorem text?_sentText (s : String) : Row.text? (sentText s) = some s := by
  have hvalid : s.toUTF8.IsValidUTF8 := s.isValidUTF8
  simp only [sentText, Row.text?, textOf?, String.fromUTF8?, Array.toArray_toList]
  exact dif_pos hvalid

/-- What is sent of a request is read as it is. -/
structure Reads (S : Server σ) (r : Request) : Prop where
  table : ∀ j ∈ r.results.table, Row.json? (S.json j) = some j
  graph : ∀ j ∈ r.results.graph, Row.json? (S.json j) = some j
  createdAt : S.Stamps r.createdAt
  updatedAt : S.Stamps r.updatedAt

/-- A request whose status is still to be read. -/
def unread (r : Request) : (Status → Request) × String := (fun status => { r with status }, r.status.name)

theorem ofRow_row (h : S.Reads r) : ofRow ⟨columns, S.row (.of r)⟩ = .ok (unread r) := by
  let row : Row := ⟨columns, S.row (.of r)⟩
  have hid : row.int "id" = .ok r.id := rfl
  have huser : row.int "user_id" = .ok r.user := rfl
  have hworkspace : row.int "workspace_id" = .ok r.workspace := rfl
  have hprompt : row.text "prompt" = .ok r.prompt := required_eq_ok rfl rfl (text?_sentText _)
  have hstatus : row.text "status" = .ok r.status.name := required_eq_ok rfl rfl (text?_sentText _)
  have hsql : row.textOrNull "sql_script" = .ok r.results.sql :=
    optional_elim rfl rfl fun s _ => text?_sentText s
  have htext : row.textOrNull "result_text" = .ok r.results.text :=
    optional_elim rfl rfl fun s _ => text?_sentText s
  have htable : row.jsonOrNull "result_table" = .ok r.results.table := optional_elim rfl rfl h.table
  have hgraph : row.jsonOrNull "graph_config" = .ok r.results.graph := optional_elim rfl rfl h.graph
  have hcreated : row.instant "created_at" = .ok r.createdAt := required_eq_ok rfl rfl h.createdAt
  have hupdated : row.instant "updated_at" = .ok r.updatedAt := required_eq_ok rfl rfl h.updatedAt
  show ofRow row = _
  simp only [ofRow, hid, huser, hworkspace, hprompt, hstatus, hsql, htext, htable, hgraph, hcreated,
    hupdated]
  rfl

theorem parse_name (status : Status) : Status.parse status.name = .ok status := by
  cases status <;> rfl

theorem withStatus_unread (r : Request) : withStatus (unread r) = .ok r := by
  rw [withStatus, unread, parse_name]
  rfl

theorem mapM_eq_ok {α β ε : Type} {f : α → Except ε β} {g : α → β} {l : List α}
    (h : ∀ a ∈ l, f a = .ok (g a)) : l.mapM f = .ok (l.map g) := by
  induction l with
  | nil => rfl
  | cons a l ih =>
    rw [List.mapM_cons, h a (by simp), ih fun a' ha' => h a' (by simp [ha'])]
    rfl

namespace Brings

variable {rs : List Request} {b : Brought}

theorem toRows (hb : S.Brings (rs.map .of) b) :
    b.toRows = rs.map fun r => ⟨Server.columns, S.row (.of r)⟩ := by
  rw [Brought.toRows, hb.rows, hb.columns, List.map_map, List.map_map]
  rfl

/-- Rows are read as the requests that they keep. -/
theorem readAll (hb : S.Brings (rs.map .of) b) (hrs : ∀ r ∈ rs, S.Reads r) :
    b.readAll ofRow = .ok (rs.map unread) := by
  obtain ⟨n, hended⟩ := hb.ended
  have hrows : b.toRows.mapM ofRow = .ok (rs.map unread) := by
    rw [hb.toRows, List.mapM_map]
    exact mapM_eq_ok fun r hr => ofRow_row (hrs r hr)
  rw [Brought.readAll, hrows, hended]
  rfl

theorem readFirst (hb : S.Brings (rs.map .of) b) (hrs : ∀ r ∈ rs, S.Reads r) :
    b.readFirst ofRow = .ok (rs.head?.map unread) := by
  obtain ⟨n, hended⟩ := hb.ended
  rw [Brought.readFirst, hended, hb.toRows]
  cases rs with
  | nil => rfl
  | cons r rs =>
    have hrow := ofRow_row (hrs r (by simp))
    simp only [List.map_cons, List.head?_cons, Option.mapM_some, hrow]
    rfl

end Brings

end Server

end Querent.Request
