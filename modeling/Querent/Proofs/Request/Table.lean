import Querent.Proofs.Request.History
import Querent.Proofs.Request.Server

/-! The calls of the table, one by one, on a server that runs its statements: each answers as a store in
memory does, at the time of the server. -/
namespace Querent.Request

open Database

/-- A call of a store, put to the table. -/
def Table.perform (session : Nat) : Operation → Talk (Except Error Reply)
  | .create user workspace prompt => do
    return (← create session user workspace prompt).map .created
  | .complete id e => do return (← complete session id e.update).map fun _ => .completed
  | .find workspace id => do return (← find session workspace id).map .found
  | .latest workspace => do return (← latest session workspace).map .found
  | .list workspace limit => do return (← list session workspace limit).map .listed

/-- The statement that a call runs. -/
def Operation.statement : Operation → Statement
  | .create user workspace prompt => .insert user workspace prompt
  | .complete id e => .complete id e.update
  | .find workspace id => .find workspace id
  | .latest workspace => .list workspace 1
  | .list workspace limit => .list workspace limit

namespace Statement

theorem sql_insert (user workspace : Int) (prompt : String) :
    (insert user workspace prompt).sql = Server.insertSql := by
  have h : (insert 0 0 "").sql = Server.insertSql := by decide +kernel
  exact h

theorem sql_complete (id : Int) (u : Update) : (complete id u).sql = Server.updateSql := by
  have h : (complete 0 (.failed none)).sql = Server.updateSql := by decide +kernel
  exact h

theorem sql_find (workspace id : Int) : (find workspace id).sql = Server.findSql := by
  have h : (find 0 0).sql = Server.findSql := by decide +kernel
  exact h

theorem sql_list (workspace : Int) (limit : Nat) : (list workspace limit).sql = Server.listSql := by
  have h : (list 0 0).sql = Server.listSql := by decide +kernel
  exact h

end Statement

namespace Server

variable {σ : Type} {S : Server σ} {s : σ} {st : Store} {user workspace id : Int}
  {prompt : String} {u : Update} {limit : Nat}

/-- The table keeps the requests of a store in memory. -/
structure Keeps (S : Server σ) (s : σ) (st : Store) : Prop where
  entries : S.entries s = st.requests.map .of
  reads : ∀ r ∈ st.requests, S.Reads r
  numbered : st.Numbered

theorem name_mem_statuses (status : Status) : status.name ∈ statuses := by cases status <;> decide

/-- What a statement brings, and the server after it. -/
def ask (S : Server σ) (session : Nat) (c : Statement) (s : σ) : Brought × σ :=
  S.answer (.query session c.sql c.params) s

/-- A call runs one statement and tells something of what it brings. -/
theorem run_statement {α : Type} (session : Nat) (c : Statement) (f : Brought → α) :
    (c.run session >>= fun b => pure (f b)).run S.answer s =
      (f (S.ask session c s).1, (S.ask session c s).2) := rfl

theorem Runs.create (hS : S.Runs) (h : S.Keeps s st) (session : Nat)
    (hholds : ∀ p ∈ (Statement.insert user workspace prompt).params, S.holds p)
    (hfit : st.requests.length < Statement.maxLimit) : ∃ t,
      ((Table.create session user workspace prompt).run S.answer s).1 =
        .ok (st.create user workspace prompt t).1 ∧
      S.Keeps ((Table.create session user workspace prompt).run S.answer s).2
        (st.create user workspace prompt t).2 := by
  have hlength : (S.entries s).length = st.requests.length := by rw [h.entries, List.length_map]
  obtain ⟨t, hstamp, hb, hentries⟩ := hS.insert session s user workspace prompt Status.pending.name
    hholds (name_mem_statuses _) (by rwa [hlength])
  rw [← Statement.sql_insert user workspace prompt, hlength] at hb hentries
  let new := (st.create user workspace prompt t).1
  let a := S.ask session (.insert user workspace prompt) s
  have hnew : ∀ r ∈ [new], S.Reads r := by
    intro r hr
    rw [List.mem_singleton.1 hr]
    exact ⟨fun j hj => (by cases hj), fun j hj => (by cases hj), hstamp, hstamp⟩
  have hone : S.Brings ([new].map .of) a.1 := hb
  have hrow : a.1.readFirst ofRow = .ok (some (unread new)) := hone.readFirst hnew
  refine ⟨t, ?_, ?_, ?_, h.numbered.create user workspace prompt t⟩
  · rw [Table.create, run_statement, hrow]
    exact withStatus_unread new
  · show S.entries a.2 = (st.requests ++ [new]).map .of
    rw [List.map_append, ← h.entries]
    exact hentries
  · intro r hr
    exact (List.mem_append.1 hr).elim (h.reads r) (hnew r)

theorem pending_of (r : Request) : ((Entry.of r).status == "PENDING") = (r.status == .pending) := by
  obtain ⟨_, _, _, _, _ | _ | _, _, _, _⟩ := r <;> rfl

theorem Runs.complete (hS : S.Runs) (h : S.Keeps s st) (session : Nat)
    (hholds : ∀ p ∈ (Statement.complete id u).params, S.holds p) : ∃ t,
      ((Table.complete session id u).run S.answer s).1.toOption =
        (st.complete id u t).1.toOption ∧
      S.Keeps ((Table.complete session id u).run S.answer s).2 (st.complete id u t).2 := by
  obtain ⟨t, hstamp, hended, hentries⟩ := hS.update session s id u.status.name u.results.sql
    u.results.text u.results.table u.results.graph hholds (name_mem_statuses _)
  rw [← Statement.sql_complete id u] at hended hentries
  let a := S.ask session (.complete id u) s
  have hpending (r : Request) : ((Entry.of r).id == id && (Entry.of r).status == "PENDING") =
      (r.id == id && r.status == .pending) := by
    rw [pending_of]
    rfl
  have hcount : a.1.ended =
      .ok (st.requests.countP fun r => r.id == id && r.status == .pending) := by
    rw [h.entries, List.countP_map] at hended
    refine hended.trans (congrArg _ (List.countP_congr fun r _ => ?_))
    rw [Function.comp_apply, hpending]
  have hrequests := h.numbered.complete_requests id u t
  refine ⟨t, ?_, ?_, ?_, h.numbered.complete id u t⟩
  · rw [Table.complete, run_statement, hcount]
    by_cases hfound : ∃ r ∈ st.requests, r.id = id ∧ r.status = .pending
    · rw [h.numbered.complete_eq_ok.2 hfound]
      obtain ⟨r, hr, hid, hstatus⟩ := hfound
      have hpos : 0 < st.requests.countP fun r => r.id == id && r.status == .pending :=
        List.countP_pos_iff.2 ⟨r, hr, by simp [hid, hstatus]⟩
      obtain ⟨n, hn⟩ := Nat.exists_eq_add_one.2 hpos
      rw [hn]
      rfl
    · have hnone : (st.requests.countP fun r => r.id == id && r.status == .pending) = 0 :=
        List.countP_eq_zero.2 fun r hr hr' => hfound ⟨r, hr, by simpa using hr'⟩
      have hrefused : (st.complete id u t).1 ≠ .ok () := fun hok =>
        hfound (h.numbered.complete_eq_ok.1 hok)
      rw [hnone]
      cases hst : (st.complete id u t).1 with
      | ok _ => exact absurd hst hrefused
      | error e => rfl
  · show S.entries a.2 = _
    rw [hrequests, List.map_map]
    refine hentries.trans ?_
    rw [h.entries, List.map_map]
    refine List.map_congr_left fun r _ => ?_
    simp only [Function.comp_apply, hpending]
    simp only [Bool.and_eq_true, beq_iff_eq]
    split <;> rfl
  · intro r' hr'
    rw [hrequests] at hr'
    obtain ⟨r, hr, rfl⟩ := List.mem_map.1 hr'
    have hreads := h.reads r hr
    split
    · refine ⟨fun j hj => hS.unchanged j ?_, fun j hj => hS.unchanged j ?_, hreads.createdAt, hstamp⟩
      · exact hholds _ (by simp [Statement.params, show u.results.table = some j from hj, Param.ofJson?])
      · exact hholds _ (by simp [Statement.params, show u.results.graph = some j from hj, Param.ofJson?])
    · exact hreads

/-- A number belongs to one request, and so one request is found or none. -/
theorem filter_eq_find (hst : st.Numbered) (workspace id : Int) :
    st.requests.filter (fun r => r.id == id && r.workspace == workspace) =
      (st.find workspace id).toList := by
  have hids : ((st.requests.filter fun r => r.id == id && r.workspace == workspace).map (·.id)).Nodup :=
    hst.ids_nodup.sublist (List.filter_sublist.map _)
  have hhead : st.find workspace id =
      (st.requests.filter fun r => r.id == id && r.workspace == workspace).head? :=
    (List.head?_filter ..).symm
  have hid : ∀ r ∈ st.requests.filter fun r => r.id == id && r.workspace == workspace, r.id = id := by
    intro r hr
    have hsame := List.of_mem_filter hr
    simp only [Bool.and_eq_true, beq_iff_eq] at hsame
    exact hsame.1
  rw [hhead]
  generalize st.requests.filter (fun r => r.id == id && r.workspace == workspace) = rs at hids hid
  rcases rs with _ | ⟨r, _ | ⟨r', rest⟩⟩
  · rfl
  · rfl
  · have hsame : r.id = r'.id := (hid r (by simp)).trans (hid r' (by simp)).symm
    simp [hsame] at hids

theorem Runs.find_run (hS : S.Runs) (h : S.Keeps s st) (session : Nat)
    (hholds : ∀ p ∈ (Statement.find workspace id).params, S.holds p) :
    ((Table.find session workspace id).run S.answer s).1 = .ok (st.find workspace id) ∧
      S.Keeps ((Table.find session workspace id).run S.answer s).2 st := by
  obtain ⟨⟨es, hb, hperm⟩, hentries⟩ := hS.find session s workspace id hholds
  rw [← Statement.sql_find workspace id] at hb hentries
  let a := S.ask session (.find workspace id) s
  have hes : es = (st.find workspace id).toList.map .of := by
    rw [h.entries, List.filter_map] at hperm
    have hone : es.Perm ((st.find workspace id).toList.map .of) := by
      rw [← filter_eq_find h.numbered]
      exact hperm
    cases hfind : st.find workspace id with
    | none => simpa [hfind] using hone
    | some r => simpa [hfind, List.perm_singleton] using hone
  have hreads : ∀ r ∈ (st.find workspace id).toList, S.Reads r := fun r hr =>
    h.reads r (List.mem_of_find?_eq_some (Option.mem_toList.1 hr))
  have hrow : a.1.readFirst ofRow = .ok ((st.find workspace id).map unread) := by
    rw [hes] at hb
    refine (Brings.readFirst hb hreads).trans ?_
    rw [Option.head?_toList]
  refine ⟨?_, hentries.trans h.entries, h.reads, h.numbered⟩
  rw [Table.find, run_statement, hrow]
  cases st.find workspace id with
  | none => rfl
  | some r =>
    show (do let r ← withStatus (unread r); pure (some r)) = _
    rw [withStatus_unread]
    rfl

/-- Later requests bear larger numbers. -/
theorem ids_increase (hst : st.Numbered) : st.requests.Pairwise fun r r' => r.id < r'.id := by
  have hids : (st.requests.map (·.id)).Pairwise (· < ·) := by
    rw [hst, List.pairwise_map]
    exact List.pairwise_lt_range.imp fun hlt => by omega
  exact List.pairwise_map.1 hids

/-- The rows of a workspace, sorted by their numbers, are its requests from the newest on. -/
theorem Keeps.sorted_eq (h : S.Keeps s st) {es : List Entry}
    (hperm : es.Perm ((S.entries s).filter fun e => e.workspace == workspace))
    (hsorted : es.Pairwise fun e e' => e.id ≥ e'.id) : es = (st.newest workspace).map .of := by
  have hnewest : ((S.entries s).filter fun e => e.workspace == workspace).reverse =
      (st.newest workspace).map .of := by
    rw [h.entries, List.filter_map, ← List.map_reverse, Store.newest_eq]
    rfl
  have hdescending : ((st.newest workspace).map Entry.of).Pairwise fun e e' => e.id ≥ e'.id := by
    rw [List.pairwise_map, Store.newest_eq, List.pairwise_reverse]
    exact ((ids_increase h.numbered).filter _).imp fun hlt => Int.le_of_lt hlt
  have hids : ((S.entries s).map (·.id)).Nodup := by
    rw [h.entries, List.map_map]
    exact h.numbered.ids_nodup
  have hall : es.Perm ((st.newest workspace).map .of) := by
    rw [← hnewest]
    exact hperm.trans (List.reverse_perm _).symm
  refine hall.eq_of_pairwise (fun e e' he he' hle hge => ?_) hsorted hdescending
  have hmem : e ∈ S.entries s := List.mem_of_mem_filter (hperm.mem_iff.1 he)
  have hmem' : e' ∈ S.entries s :=
    List.mem_of_mem_filter (hperm.mem_iff.1 (hall.mem_iff.2 he'))
  exact List.inj_on_of_nodup_map hids hmem hmem' (Int.le_antisymm hge hle)

theorem Runs.list_run (hS : S.Runs) (h : S.Keeps s st) (session : Nat)
    (hholds : ∀ p ∈ (Statement.list workspace limit).params, S.holds p)
    (hfit : st.requests.length ≤ Statement.maxLimit) :
    ((Table.list session workspace limit).run S.answer s).1 = .ok (st.list workspace limit) ∧
      S.Keeps ((Table.list session workspace limit).run S.answer s).2 st := by
  have hparams : (Statement.list workspace limit).params =
      [.int workspace, .int (min limit Statement.maxLimit : Nat)] := by
    have hmin : (min (limit : Int) Statement.maxLimit) = (min limit Statement.maxLimit : Nat) := by omega
    rw [Statement.params, hmin]
  obtain ⟨⟨es, hb, hperm, hsorted⟩, hentries⟩ :=
    hS.list session s workspace (min limit Statement.maxLimit) (hparams ▸ hholds)
  rw [← Statement.sql_list workspace limit, ← hparams] at hb hentries
  let a := S.ask session (.list workspace limit) s
  have hlength : (st.newest workspace).length ≤ Statement.maxLimit := by
    rw [Store.newest_eq, List.length_reverse]
    exact Nat.le_trans (List.length_filter_le _ _) hfit
  have htake : es.take (min limit Statement.maxLimit) = (st.list workspace limit).map .of := by
    have hshort : (st.newest workspace).take (min limit Statement.maxLimit) =
        (st.newest workspace).take limit := List.take_eq_take_iff.2 (by omega)
    rw [h.sorted_eq hperm hsorted, ← List.map_take, hshort, Store.list]
  have hreads : ∀ r ∈ st.list workspace limit, S.Reads r := by
    intro r hr
    have hnewest := List.mem_of_mem_take hr
    exact h.reads r (List.mem_reverse.1 (List.mem_of_mem_filter hnewest))
  have hrows : a.1.readAll ofRow = .ok ((st.list workspace limit).map unread) := by
    rw [htake] at hb
    exact Brings.readAll hb hreads
  refine ⟨?_, hentries.trans h.entries, h.reads, h.numbered⟩
  rw [Table.list, run_statement, hrows]
  show ((st.list workspace limit).map unread).mapM withStatus = _
  rw [List.mapM_map]
  exact (mapM_eq_ok fun r _ => withStatus_unread r).trans (congrArg _ (List.map_id' _))

theorem Runs.latest_run (hS : S.Runs) (h : S.Keeps s st) (session : Nat)
    (hholds : ∀ p ∈ (Statement.list workspace 1).params, S.holds p)
    (hfit : st.requests.length ≤ Statement.maxLimit) :
    ((Table.latest session workspace).run S.answer s).1 = .ok (st.latest workspace) ∧
      S.Keeps ((Table.latest session workspace).run S.answer s).2 st := by
  obtain ⟨hanswer, hkeeps⟩ := hS.list_run h session hholds hfit
  refine ⟨?_, hkeeps⟩
  show ((Table.list session workspace 1).run S.answer s).1.map List.head? = _
  rw [hanswer, Store.latest, Store.list]
  cases st.newest workspace <;> rfl

/-- Asked for anything, the table answers as the store in memory does at some time, but for the words of
an error. -/
theorem Runs.perform (hS : S.Runs) (h : S.Keeps s st) (session : Nat) (now : Moment) (o : Operation)
    (hholds : ∀ p ∈ o.statement.params, S.holds p)
    (hfit : st.requests.length + (if o.creates then 1 else 0) ≤ Statement.maxLimit) : ∃ t,
      ((Table.perform session o).run S.answer s).1.toOption = (Store.perform t o st).1.toOption ∧
      S.Keeps ((Table.perform session o).run S.answer s).2 (Store.perform t o st).2 := by
  have hmap {α : Type} (x : Except Error α) (f : α → Reply) :
      (x.map f).toOption = x.toOption.map f := by cases x <;> rfl
  cases o with
  | create user workspace prompt =>
    obtain ⟨t, hanswer, hkeeps⟩ := hS.create h session hholds hfit
    refine ⟨t, ?_, hkeeps⟩
    show (((Table.create session user workspace prompt).run S.answer s).1.map Reply.created).toOption = _
    rw [hanswer]
    rfl
  | complete id e =>
    obtain ⟨t, hanswer, hkeeps⟩ := hS.complete h session hholds
    refine ⟨t, ?_, hkeeps⟩
    show (((Table.complete session id e.update).run S.answer s).1.map fun _ => Reply.completed).toOption = _
    rw [hmap, hanswer, ← hmap]
    rfl
  | find workspace id =>
    obtain ⟨hanswer, hkeeps⟩ := hS.find_run h session hholds
    refine ⟨now, ?_, hkeeps⟩
    show (((Table.find session workspace id).run S.answer s).1.map Reply.found).toOption = _
    rw [hanswer]
    rfl
  | latest workspace =>
    obtain ⟨hanswer, hkeeps⟩ := hS.latest_run h session hholds hfit
    refine ⟨now, ?_, hkeeps⟩
    show (((Table.latest session workspace).run S.answer s).1.map Reply.found).toOption = _
    rw [hanswer]
    rfl
  | list workspace limit =>
    obtain ⟨hanswer, hkeeps⟩ := hS.list_run h session hholds hfit
    refine ⟨now, ?_, hkeeps⟩
    show (((Table.list session workspace limit).run S.answer s).1.map Reply.listed).toOption = _
    rw [hanswer]
    rfl

end Server

end Querent.Request
