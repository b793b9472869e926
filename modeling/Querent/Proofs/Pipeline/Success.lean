import Querent.Proofs.Pipeline.Isolation
import Querent.Proofs.Row.Stored

/-! Requests that succeeded. What its caller was told of one he is told again later, whatever the
store in memory was asked in between. -/
namespace Querent.Pipeline

open Dialogue

variable {o : Options} {user workspace id : Int} {prompt : String}
  {es : List Event} {s s' : Store} {r : Request}

/-! ### A store in memory among all others -/

/-- Whether a call is one of the store's. -/
def Call.stored : Call → Bool
  | create _ _ _ | complete _ _ | find _ _ | latest _ | list _ _ => true
  | _ => false

/-- How a store in memory answers a call, and the store after it. The calls of all others may be
answered in any way. -/
inductive Serves : Store → Event → Store → Prop
  | create {s : Store} (user workspace : Int) (prompt : String) (now : Moment) :
      Serves s ⟨.create user workspace prompt, .ok (s.create user workspace prompt now).1⟩
        (s.create user workspace prompt now).2
  | complete {s : Store} (id : Int) (u : Update) (now : Moment) :
      Serves s ⟨.complete id u, (s.complete id u now).1⟩ (s.complete id u now).2
  | find {s : Store} (workspace id : Int) :
      Serves s ⟨.find workspace id, .ok (s.find workspace id)⟩ s
  | latest {s : Store} (workspace : Int) :
      Serves s ⟨.latest workspace, .ok (s.latest workspace)⟩ s
  | list {s : Store} (workspace : Int) (limit : Nat) :
      Serves s ⟨.list workspace limit, .ok (s.list workspace limit)⟩ s
  | other {s : Store} {q : Call} (r : q.Reply) (foreign : q.stored = false) : Serves s ⟨q, r⟩ s

theorem Serves.of_complete {u : Update} {reply : Except Error Unit}
    (h : Serves s ⟨.complete id u, reply⟩ s') : ∃ now, s' = (s.complete id u now).2 := by
  cases h with
  | complete _ _ now => exact ⟨now, rfl⟩
  | other _ foreign => cases foreign

/-- Calls, whoever makes them, of which those of the store are answered out of memory. -/
abbrev Served : Store → List Event → Store → Prop := Through Serves

theorem Serves.numbered {e : Event} (h : Serves s e s') (numbered : s.Numbered) : s'.Numbered := by
  cases h with
  | create user workspace prompt now => exact numbered.create user workspace prompt now
  | complete id u now => exact numbered.complete id u now
  | _ => exact numbered

theorem Served.numbered (h : Served s es s') (numbered : s.Numbered) : s'.Numbered :=
  h.keeps (fun _ _ _ hstep => hstep.numbered) numbered

/-- A request that has come to its end stays as it is. -/
theorem Served.mem_of_ended (h : Served s es s') (hr : r ∈ s.requests)
    (hended : r.status ≠ .pending) : r ∈ s'.requests := by
  refine h.keeps (I := fun s => r ∈ s.requests) (fun s e s' hstep hr => ?_) hr
  cases hstep with
  | create user workspace prompt now => exact List.mem_append_left _ hr
  | complete id u now => exact Store.mem_complete hr hended
  | _ => exact hr

theorem Served.eq_of_foreign (h : Served s es s') (hes : ∀ e ∈ es, e.1.stored = false) :
    s' = s := by
  refine h.eq_of_forall fun e he s s' hstep => ?_
  cases hstep with
  | create | complete => cases hes _ he
  | _ => rfl

theorem stored_of_stage {q : Call} (h : q.part = .stage) : q.stored = false := by
  cases q <;> first | rfl | cases h

/-- Behind its checks a request stands last in the store, pending. -/
theorem Served.of_passed {source : DataSource}
    (h : Served s (passed user workspace prompt source r) s') :
    s' = { requests := s.requests ++ [r] } ∧ r.id = s.requests.length + 1 ∧
      r.workspace = workspace ∧ r.status = .pending := by
  obtain ⟨s₁, hchecks, hcreate⟩ : ∃ s₁, Served s [⟨.allow workspace, true⟩,
      ⟨.isOwner user workspace, .ok true⟩, ⟨.dataSource workspace, .ok (some source)⟩] s₁ ∧
      Served s₁ [⟨.create user workspace prompt, .ok r⟩] s' := h.of_append
  obtain rfl : s₁ = s := hchecks.eq_of_foreign (by simp [Call.stored])
  cases hcreate with
  | cons first rest =>
    cases rest
    cases first with
    | create _ _ _ now => exact ⟨rfl, rfl, rfl, rfl⟩
    | other _ foreign => cases foreign

/-- The record that a success leaves. -/
theorem exists_record_of_success {a : Answer} (numbered : s.Numbered)
    (h : Path (create o user workspace prompt) es (done (.ok a))) (hserved : Served s es s') :
    ∃ r ∈ s'.requests, ∃ out response, r.workspace = workspace ∧ r.status = .succeeded ∧
      r.results = (Outcome.update out).results ∧ a = out.answer r.id response := by
  obtain ⟨source, c, r, called, out, response, rfl, hstages, rfl⟩ := path_create_ok h
  obtain ⟨s₁, hpassed, hafter⟩ := hserved.of_append
  obtain ⟨rfl, hid, hworkspace, hpending⟩ := Served.of_passed hpassed
  obtain ⟨s₂, hcalled, hending⟩ := hafter.of_append
  obtain rfl := Served.eq_of_foreign hcalled fun e he =>
    stored_of_stage ((stages_asks.of_path hstages).1 e he)
  have fresh : ∀ r' ∈ s.requests, r'.id ≠ r.id := by
    intro r' hr'
    rw [hid]
    exact numbered.fresh hr'
  cases hending with
  | cons first rest =>
    obtain rfl := Served.eq_of_foreign rest (by simp [Call.stored])
    obtain ⟨now, rfl⟩ := first.of_complete
    refine ⟨Store.applied out.update now r, ?_, out, response, hworkspace, rfl, rfl, rfl⟩
    simp [Store.complete, completeIn_append fresh hpending]

/-- Whatever the collaborators are, memory serves. -/
theorem serves_memory (w : Collaborators) (now : Now) (response : String) (q : Call) (m : Memory) :
    Serves m.store ⟨q, (w.answer now response q m).1⟩ (w.answer now response q m).2.store := by
  cases q with
  | create user workspace prompt => exact .create user workspace prompt now.moment
  | complete id u => exact .complete id u now.moment
  | find workspace id => exact .find workspace id
  | latest workspace => exact .latest workspace
  | list workspace limit => exact .list workspace limit
  | _ => exact .other _ rfl

theorem served_history {α : Type} (w : Collaborators) (v : Visit) (d : Course α) (m : Memory) :
    Served m.store (d.history (v.answers w) m) (d.run (v.answers w) m).2.store := by
  induction d generalizing m with
  | done a => exact .nil _
  | ask q next ih => exact .cons (serves_memory w _ _ q m) (ih _ _)

/-! ### Reading it again -/

/-- A caller who is let through is told what the store has under the number, unless the directory
does not name him the owner. -/
theorem path_getOne {x : Except Error Answer} (h : Path (getOne user workspace id) es (done x))
    (hallowed : ⟨.allow workspace, true⟩ ∈ es) :
    (∃ found, es = [⟨.allow workspace, true⟩, ⟨.isOwner user workspace, .ok true⟩,
        ⟨.find workspace id, found⟩] ∧ x = found.bind (shown (.notFound "Request not found"))) ∨
      ∃ r, r ≠ .ok true ∧ ⟨.isOwner user workspace, r⟩ ∈ es := by
  unfold getOne enter at h
  rcases path_step_bind h with ⟨e, rfl, hentered⟩ | ⟨_, es₁, es₂, rfl, hentered, hafter⟩
  all_goals rcases path_step_bind hentered with ⟨e, hx, hallow⟩ | ⟨_, _, _, rfl, hallow, howner⟩
  · obtain ⟨-, hx⟩ | ⟨rfl, -⟩ := path_allow hallow
    · cases hx
    · simp at hallowed
  · obtain ⟨-, hx⟩ | ⟨e', -, rfl | rfl⟩ := path_checkOwner howner
    · cases hx
    · exact .inr ⟨.ok false, by simp, by simp⟩
    · exact .inr ⟨.error e', by simp, by simp⟩
  · cases hx
  · obtain ⟨rfl, -⟩ | ⟨-, hx⟩ := path_allow hallow
    swap
    · cases hx
    obtain ⟨rfl, -⟩ | ⟨e', hx, -⟩ := path_checkOwner howner
    swap
    · cases hx
    left
    rcases path_step_bind hafter with ⟨e, rfl, hfind⟩ | ⟨r?, _, _, rfl, hfind, hshown⟩
    · obtain ⟨r, rfl, hr⟩ := path_question.1 hfind
      subst hr
      exact ⟨_, rfl, rfl⟩
    · obtain ⟨r, rfl, hr⟩ := path_question.1 hfind
      subst hr
      cases r? with
      | none =>
        obtain ⟨rfl, hx⟩ := path_done.1 hshown
        cases hx
        exact ⟨_, rfl, rfl⟩
      | some r =>
        obtain ⟨rfl, hx⟩ := path_done.1 hshown
        cases hx
        exact ⟨_, rfl, rfl⟩

/-- What a caller is told of a stored success is what the one who made it was told, the columns
aside, which are the same in another order. -/
structure Recalls (told again : Answer) : Prop where
  request : again.request = told.request
  wasSuccess : told.status = .succeeded
  status : again.status = .succeeded
  sql : again.sql = told.sql
  text : again.text = told.text
  table : ∃ t t', told.table = some t ∧ again.table = some t' ∧ t'.entries.Perm t.entries
  graph : again.graph = told.graph

theorem recalls_ofRequest {out : Outcome} {response : String} (hstatus : r.status = .succeeded)
    (hresults : r.results = out.update.results) :
    Recalls (out.answer r.id response) (.ofRequest r false) := by
  obtain ⟨t, hread, hperm⟩ := Columnar.ofJson?_toValue out.table
  constructor
  case table =>
    refine ⟨out.table, t, rfl, ?_, hperm⟩
    rw [← hread]
    simp [Answer.ofRequest, hresults, Outcome.update, Update.succeeded]
  case status => exact hstatus
  all_goals simp [Answer.ofRequest, hresults, Outcome.update, Update.succeeded, Outcome.answer]

/-- Whatever the store in memory has been asked since, a success is told again as it was told at
first, if the limiter lets the caller through and the directory still names him the owner. -/
theorem success_recalled {earlier making later reading : List Event} {s₀ s₁ s₂ s₃ : Store}
    {told : Answer} {x : Except Error Answer}
    (hearlier : Served .empty earlier s₀)
    (hmaking : Path (create o user workspace prompt) making (done (.ok told)))
    (hmade : Served s₀ making s₁) (hlater : Served s₁ later s₂)
    (hreading : Path (getOne user workspace told.request) reading (done x))
    (hread : Served s₂ reading s₃) (hallowed : ⟨.allow workspace, true⟩ ∈ reading) :
    ⟨.isOwner user workspace, .ok true⟩ ∈ making ∧
    ((∃ again, x = .ok again ∧ Recalls told again) ∨
      ∃ r, r ≠ .ok true ∧ ⟨.isOwner user workspace, r⟩ ∈ reading) ∧
    ∀ (w : Collaborators) (now : Now) (response : String) (q : Call) (m : Memory),
      Serves m.store ⟨q, (w.answer now response q m).1⟩ (w.answer now response q m).2.store := by
  have howner : ⟨.isOwner user workspace, .ok true⟩ ∈ making := by
    obtain ⟨source, c, r, called, out, response, rfl, -⟩ := path_create_ok hmaking
    simp [passed]
  refine ⟨howner, ?_, serves_memory⟩
  have numbered₀ : s₀.Numbered := hearlier.numbered Store.numbered_empty
  have numbered₂ : s₂.Numbered := hlater.numbered (hmade.numbered numbered₀)
  obtain ⟨r, hr, out, response, rfl, hstatus, hresults, rfl⟩ :=
    exists_record_of_success numbered₀ hmaking hmade
  have hkept : r ∈ s₂.requests := hlater.mem_of_ended hr (by simp [hstatus])
  obtain ⟨found, rfl, rfl⟩ | hdenied := path_getOne hreading hallowed
  · left
    obtain ⟨s, hchecks, hfind⟩ : ∃ s, Served s₂ [⟨.allow r.workspace, true⟩,
        ⟨.isOwner user r.workspace, .ok true⟩] s ∧
        Served s [⟨.find r.workspace r.id, found⟩] s₃ := hread.of_append
    obtain rfl := hchecks.eq_of_foreign (by simp [Call.stored])
    cases hfind with
    | cons first _ =>
      cases first with
      | find =>
        rw [numbered₂.find_of_mem hkept]
        exact ⟨_, rfl, recalls_ofRequest hstatus hresults⟩
      | other _ foreign => cases foreign
  · exact .inr hdenied

/-- A workspace whose database brings two rows. -/
def ledger : Collaborators :=
  let row (total : Int) (day : String) (paid : Bool) : Record :=
    .ofList [("total", .number (.int total)), ("day", .text day), ("paid", .bool paid)]
  { bare with execute _ _ _ := .ok [row 3 "Monday" true, row 5 "Tuesday" false] }

def askedFirst : Visit := visitAt 1 1 (.create "how much") 0 "r-1"

def askedElsewhere : Visit := visitAt 2 2 (.create "how many") 1 "r-2"

def askedAgain : Visit := visitAt 1 1 (.read (.one 1)) 2 "r-3"

/-- What is told of the first request, and the memory then. -/
def ledgerMade : Except Error Answer × Memory :=
  (create .standard 1 1 "how much").run (askedFirst.answers ledger)
    { limiter := .standard, store := .empty }

/-- The memory after another workspace has had a request. -/
def ledgerLater : Memory :=
  ((create .standard 2 2 "how many").run (askedElsewhere.answers bare) ledgerMade.2).2

/-- What is told of the first request then. -/
def ledgerRead : Except Error Answer × Memory :=
  (getOne 1 1 1).run (askedAgain.answers ledger) ledgerLater

def columnNames (a : Answer) : Option (List String) :=
  a.table.map fun t => t.entries.map (·.1)

/-- The columns come back sorted. -/
theorem success_recalled_ledger :
    ∃ told recalled, ledgerMade.1 = .ok told ∧ ledgerRead.1 = .ok recalled ∧
      Recalls told recalled ∧ columnNames told = some ["total", "day", "paid"] ∧
      columnNames recalled = some ["day", "paid", "total"] := by
  have hnames : ledgerMade.1.toOption.map (fun a => (a.request, columnNames a)) =
      some (1, some ["total", "day", "paid"]) := by decide +kernel
  have hsorted : ledgerRead.1.toOption.map columnNames = some (some ["day", "paid", "total"]) := by
    decide +kernel
  have hmaking : Path (create .standard 1 1 "how much") _ (done ledgerMade.1) :=
    path_history (askedFirst.answers ledger) _ _
  have hallowed :
      ⟨.allow 1, true⟩ ∈ (getOne 1 1 1).history (askedAgain.answers ledger) ledgerLater := by
    have hallow : (askedAgain.answers ledger (.allow 1) ledgerLater).1 = true := by decide +kernel
    have hfirst : ⟨.allow 1, (askedAgain.answers ledger (.allow 1) ledgerLater).1⟩ ∈
        (getOne 1 1 1).history (askedAgain.answers ledger) ledgerLater := List.mem_cons_self
    rwa [hallow] at hfirst
  cases htold : ledgerMade.1 with
  | error e => simp [htold, Except.toOption] at hnames
  | ok told =>
    obtain ⟨hrequest, hcolumns⟩ : told.request = 1 ∧
        columnNames told = some ["total", "day", "paid"] := by
      simpa [htold, Except.toOption] using hnames
    rw [htold] at hmaking
    have hreading : Path (getOne 1 1 told.request)
        ((getOne 1 1 1).history (askedAgain.answers ledger) ledgerLater) (done ledgerRead.1) := by
      rw [hrequest]
      exact path_history (askedAgain.answers ledger) (getOne 1 1 1) ledgerLater
    have hmade := served_history ledger askedFirst (create .standard 1 1 "how much")
      { limiter := .standard, store := .empty }
    obtain ⟨-, ⟨recalled, hrecalled, hsame⟩ | ⟨r, hdenied, hmem⟩, -⟩ :=
      success_recalled (.nil Store.empty) hmaking hmade (served_history bare askedElsewhere _ _)
        hreading (served_history ledger askedAgain _ ledgerLater) hallowed
    · refine ⟨told, recalled, rfl, hrecalled, hsame, hcolumns, ?_⟩
      simpa [hrecalled, Except.toOption] using hsorted
    · obtain ⟨m, rfl⟩ := exists_answer_of_mem_history hmem
      exact absurd rfl hdenied

end Querent.Pipeline
