import Querent.Proofs.Request.Table
import Querent.Proofs.Request.TableServer

/-! The table of requests and the store in memory: asked alike, they answer alike, the times aside. -/
namespace Querent

namespace Request

/-! ### Times aside -/

/-- A request with its times replaced. -/
def timeless (t : Moment) (r : Request) : Request := { r with createdAt := t, updatedAt := t }

def Reply.timeless (t : Moment) : Reply → Reply
  | created r => created (r.timeless t)
  | completed => completed
  | found r => found (r.map (Request.timeless t))
  | listed rs => listed (rs.map (Request.timeless t))

/-- A reply with its times replaced, if the call succeeded. -/
def outcome (t : Moment) (answer : Except Error Reply) : Option Reply :=
  answer.toOption.map (Reply.timeless t)

end Request

namespace Store

open Request

variable {s : Store}

def timeless (t : Moment) (s : Store) : Store := { requests := s.requests.map (Request.timeless t) }

theorem completeIn_timeless (t now : Moment) (id : Int) (u : Update) (rs : List Request) :
    (completeIn id u t (rs.map (Request.timeless t))).toOption =
      (completeIn id u now rs).toOption.map (List.map (Request.timeless t)) := by
  induction rs with
  | nil => rfl
  | cons r rest ih =>
    by_cases hid : r.id = id
    · by_cases hpending : r.status = .pending
      · simp [completeIn, Request.timeless, hid, hpending, applied, Except.toOption]
      · simp [completeIn, Request.timeless, hid, hpending, Except.toOption]
    · have hcons (x : Except Error (List Request)) (r : Request) :
          (x.map (r :: ·)).toOption = x.toOption.map (r :: ·) := by cases x <;> rfl
      simp only [List.map_cons, completeIn, Request.timeless, beq_iff_eq, hid, if_false, hcons]
      rw [ih, Option.map_map, Option.map_map]
      rfl

theorem complete_timeless (t now : Moment) (id : Int) (u : Update) (s : Store) :
    (s.complete id u now).1.toOption = ((s.timeless t).complete id u t).1.toOption ∧
      (s.complete id u now).2.timeless t = ((s.timeless t).complete id u t).2 := by
  have hrequests := completeIn_timeless t now id u s.requests
  unfold complete timeless
  cases hs : completeIn id u now s.requests <;>
    cases ht : completeIn id u t (s.requests.map (Request.timeless t)) <;>
    simp_all [Except.toOption]

theorem find_timeless (t : Moment) (workspace id : Int) (s : Store) :
    (s.timeless t).find workspace id = (s.find workspace id).map (Request.timeless t) :=
  List.find?_map

theorem newest_timeless (t : Moment) (workspace : Int) (s : Store) :
    (s.timeless t).newest workspace = (s.newest workspace).map (Request.timeless t) := by
  rw [newest, timeless, ← List.map_reverse, List.filter_map]
  rfl

/-- A store answers at one time as it does at another, but for the times in its requests. -/
theorem perform_timeless (t now : Moment) (o : Operation) (s : Store) :
    outcome t (perform now o s).1 = outcome t (perform t o (s.timeless t)).1 ∧
      (perform now o s).2.timeless t = (perform t o (s.timeless t)).2 := by
  have htwice : Request.timeless t ∘ Request.timeless t = Request.timeless t := rfl
  cases o with
  | create user workspace prompt =>
    have hlength : (s.timeless t).requests.length = s.requests.length := List.length_map _
    constructor
    · simp [perform, Store.create, outcome, Reply.timeless, Request.timeless, hlength, Except.toOption]
    · simp [perform, Store.create, timeless, Request.timeless]
  | complete id e =>
    obtain ⟨hanswer, hstore⟩ := complete_timeless t now id e.update s
    refine ⟨?_, hstore⟩
    have hdone (x : Except Error Unit) :
        outcome t (x.map fun _ => .completed) = x.toOption.map fun _ => .completed := by
      cases x <;> rfl
    show outcome t ((s.complete id e.update now).1.map fun _ => Reply.completed) =
      outcome t (((s.timeless t).complete id e.update t).1.map fun _ => Reply.completed)
    rw [hdone, hdone, hanswer]
  | find workspace id =>
    simp [perform, outcome, Reply.timeless, find_timeless, htwice, Except.toOption]
  | latest workspace =>
    simp [perform, outcome, Reply.timeless, latest, newest_timeless, htwice, Except.toOption]
  | list workspace limit =>
    simp [perform, outcome, Reply.timeless, list, newest_timeless, ← List.map_take, htwice,
      Except.toOption]

end Store

namespace Request

open Database

/-! ### Calls one after another -/

/-- A call as it is put to both stores: to the table in a session, and to memory at some time. -/
structure Asked where
  session : Nat
  now : Moment
  operation : Operation

/-- The answers to some calls. -/
def answers {σ : Type} (step : Asked → σ → Except Error Reply × σ) :
    List Asked → σ → List (Except Error Reply)
  | [], _ => []
  | c :: calls, s => (step c s).1 :: answers step calls (step c s).2

/-- The answers of the table on a server. -/
def Server.answers {σ : Type} (S : Server σ) : List Asked → σ → List (Except Error Reply) :=
  Request.answers fun c => (Table.perform c.session c.operation).run S.answer

/-- The answers of the store in memory. -/
def memoryAnswers : List Asked → Store → List (Except Error Reply) :=
  answers fun c => Store.perform c.now c.operation

/-- Where the table keeps the requests of a store but for their times, all that is asked of both is
answered alike. -/
theorem Server.Keeps.answers_eq {σ : Type} {S : Server σ} {s : σ} {st memory : Store} {t : Moment}
    (hS : S.Runs) (h : S.Keeps s st) (hsame : st.timeless t = memory.timeless t) (calls : List Asked)
    (hholds : ∀ c ∈ calls, ∀ p ∈ c.operation.statement.params, S.holds p)
    (hfit : st.requests.length + calls.countP (·.operation.creates) ≤ Statement.maxLimit) :
    (S.answers calls s).map (outcome t) = (memoryAnswers calls memory).map (outcome t) := by
  induction calls generalizing s st memory with
  | nil => rfl
  | cons c calls ih =>
    obtain ⟨t', hanswer, hkeeps⟩ := hS.perform h c.session c.now c.operation
      (hholds c (by simp)) (by rw [List.countP_cons] at hfit; omega)
    obtain ⟨htable, htable'⟩ := Store.perform_timeless t t' c.operation st
    obtain ⟨hmemory, hmemory'⟩ := Store.perform_timeless t c.now c.operation memory
    have hfirst : outcome t ((Table.perform c.session c.operation).run S.answer s).1 =
        outcome t (Store.perform c.now c.operation memory).1 := by
      calc outcome t ((Table.perform c.session c.operation).run S.answer s).1
          = outcome t (Store.perform t' c.operation st).1 := congrArg (Option.map _) hanswer
        _ = outcome t (Store.perform t c.operation (memory.timeless t)).1 := by rw [htable, hsame]
        _ = outcome t (Store.perform c.now c.operation memory).1 := hmemory.symm
    have hnext : (Store.perform t' c.operation st).2.timeless t =
        (Store.perform c.now c.operation memory).2.timeless t := by
      rw [htable', hsame, ← hmemory']
    have hgrow : (Store.perform t' c.operation st).2.requests.length =
        st.requests.length + (if c.operation.creates then 1 else 0) :=
      h.numbered.perform_length t' c.operation
    have hrest := ih hkeeps hnext (fun c' hc' => hholds c' (by simp [hc']))
      (by rw [List.countP_cons] at hfit; omega)
    exact List.cons_eq_cons.2 ⟨hfirst, hrest⟩

/-- On a server that runs the statements of the table, the table and the store in memory agree from their
beginnings on: the same calls succeed, with equal replies but for the times. -/
theorem table_agrees {σ : Type} {S : Server σ} (hS : S.Runs) {start : σ} (hstart : S.entries start = [])
    (calls : List Asked) (hholds : ∀ c ∈ calls, ∀ p ∈ c.operation.statement.params, S.holds p)
    (hfit : calls.countP (·.operation.creates) ≤ Statement.maxLimit) (t : Moment) :
    (S.answers calls start).map (outcome t) = (memoryAnswers calls .empty).map (outcome t) := by
  have hkeeps : S.Keeps start .empty := ⟨hstart, fun r hr => (by cases hr), Store.numbered_empty⟩
  exact hkeeps.answers_eq hS rfl calls hholds (by rw [Store.empty, List.length_nil]; omega)

/-- Two workspaces, a request that succeeds and is then to fail, and reads of both workspaces. -/
theorem table_agrees_two_workspaces :
    let noon := TableServer.noon
    let a := fresh 1 1 10 "a" noon
    let b := fresh 2 1 20 "b" noon
    let success := Ending.succeeded "SELECT 1 LIMIT 101" none (.object []) none
    let calls : List Asked := [Operation.create 1 10 "a", .create 1 20 "b", .complete 1 success,
      .complete 1 (.failed none), .find 20 1, .latest 20, .list 10 50].map fun o => ⟨0, noon, o⟩
    (tableServer.answers calls []).map (outcome noon) =
      [some (.created a), some (.created b), some .completed, none, some (.found none),
        some (.found (some b)), some (.listed [Store.applied success.update noon a])] := by
  intro noon a b success calls
  have hholds : ∀ c ∈ calls, ∀ p ∈ c.operation.statement.params, tableServer.holds p := by
    have hall : ∀ c ∈ calls, ∀ p ∈ c.operation.statement.params, TableServer.fits p ||
        ((TableServer.json? p).bind Json.members?).any List.isEmpty := by decide +kernel
    intro c hc p hp
    rcases Bool.or_eq_true_iff.1 (hall c hc p hp) with h | h
    · exact TableServer.holds_of_fits h
    · cases p with
      | json j => exact TableServer.holds_empty h
      | _ => cases h
  rw [table_agrees tableServer_runs rfl calls hholds (by decide) noon]
  rfl

end Request

end Querent
