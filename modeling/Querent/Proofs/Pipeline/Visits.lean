import Querent.Pipeline.Memory
import Querent.Proofs.Pipeline.Guarded
import Querent.Proofs.Request.Store

/-! Operations answered out of memory, one after the other. What one of them comes to is settled by the
limiter, by the collaborators and by the records so far: it is turned away, refused, read from the
store, or made a record with its end. -/
namespace Querent.Pipeline

open Dialogue

/-- What a caller is told; in a list for every operation, though most give one answer. -/
abbrev Told := Except Error (List Answer)

inductive Lookup where
  | one (id : Int)
  | latest
  | all

/-- What a user may do with a workspace. -/
inductive Operation where
  | create (prompt : String)
  | read (lookup : Lookup)

def single (d : Course (Except Error Answer)) : Course Told := d.bind fun x => done (x.map ([·]))

def Operation.course (o : Options) (user workspace : Int) : Operation → Course Told
  | create prompt => single (Pipeline.create o user workspace prompt)
  | read (.one id) => single (getOne user workspace id)
  | read .latest => single (getLatest user workspace)
  | read .all => getAll user workspace

/-- An operation by a user on a workspace, with the clocks at each of its calls and the name that its
response is given. -/
structure Visit where
  user : Int
  workspace : Int
  operation : Operation
  clock : Call → Now
  response : String

namespace Visit

/-- When the limiter is asked. -/
def time (v : Visit) : Nat := (v.clock (.allow v.workspace)).milliseconds

def answers (v : Visit) (w : Collaborators) (c : Call) (m : Memory) : c.Reply × Memory :=
  w.answer (v.clock c) v.response c m

def run (v : Visit) (w : Collaborators) (o : Options) (m : Memory) : Told × Memory :=
  (v.operation.course o v.user v.workspace).run (v.answers w) m

/-- Whether the limiter lets a visit through. -/
def allowed (v : Visit) (m : Memory) : Bool := (m.limiter.check v.workspace v.time).1

/-- The memory after the limiter was asked. -/
def checked (v : Visit) (m : Memory) : Memory :=
  { m with limiter := (m.limiter.check v.workspace v.time).2 }

end Visit

/-! ### What the collaborators and the store say -/

def owned (w : Collaborators) (user workspace : Int) : Except Error Unit :=
  (w.isOwner user workspace).bind fun owns =>
    if owns then .ok () else .error (.notFound "Workspace not found")

def connected (w : Collaborators) (workspace : Int) : Except Error Connection :=
  (w.dataSource workspace).bind fun
    | some source => Connection.ofJson source.dialect source.config
    | none => .error (.notFound "Data source not configured")

/-- What stands between the limiter and a new record, and the connection that it is given. -/
def admitted (w : Collaborators) (user workspace : Int) (prompt : String) :
    Except Error Connection :=
  (checkPrompt prompt).bind fun _ => (owned w user workspace).bind fun _ => connected w workspace

/-- The record that was looked for, or word that there is none. -/
def shown (missing : Error) : Option Request → Except Error Answer
  | some r => .ok (.ofRequest r false)
  | none => .error missing

def Lookup.found (s : Store) (workspace : Int) : Lookup → Told
  | one id => (shown (.notFound "Request not found") (s.find workspace id)).map ([·])
  | latest => (shown (.notFound "No requests yet") (s.latest workspace)).map ([·])
  | all => .ok ((s.list workspace historyLimit).map (.ofRequest · true))

/-- The update that the end of a request brings. -/
def ending : Except Failure Outcome → Update
  | .ok out => out.update
  | .error f => .failed f.sql

def ended (id : Int) (response : String) : Except Failure Outcome → Told
  | .ok out => .ok [out.answer id response]
  | .error f => .error f.error

/-- The record of a visit that has come to its end. -/
def Visit.record (v : Visit) (id : Int) (prompt : String) (x : Except Failure Outcome) : Request where
  id := id
  user := v.user
  workspace := v.workspace
  prompt := prompt
  status := (ending x).status
  results := (ending x).results
  createdAt := (v.clock (.create v.user v.workspace prompt)).moment
  updatedAt := (v.clock (.complete id (ending x))).moment

variable {w : Collaborators} {o : Options} {v : Visit} {m : Memory} {α β : Type}

/-! ### The parts of an operation -/

theorem run_step_bind {σ : Type} {answer : (q : Call) → σ → q.Reply × σ} {s : σ} {x : Step α}
    {f : α → Step β} : (x >>= f).run.run answer s =
      match (x.run.run answer s).1 with
      | .ok a => (f a).run.run answer (x.run.run answer s).2
      | .error e => (.error e, (x.run.run answer s).2) := by
  have hbind : (x >>= f).run = x.run.bind fun
      | .ok a => (f a).run
      | .error e => done (.error e) := by
    refine congrArg x.run.bind (funext fun r => ?_)
    cases r <;> rfl
  rw [hbind, run_bind]
  cases (x.run.run answer s).1 <;> rfl

theorem run_allow : (Step.allow v.workspace).run.run (v.answers w) m =
    (if v.allowed m then .ok () else .error (.rateLimited v.workspace), v.checked m) := by
  have hcall : (Step.ask (.allow v.workspace)).run.run (v.answers w) m =
      (.ok (v.allowed m), v.checked m) := rfl
  unfold Step.allow
  rw [run_step_bind, hcall]
  cases v.allowed m <;> rfl

theorem run_checkOwner : (checkOwner v.user v.workspace).run.run (v.answers w) m =
    (owned w v.user v.workspace, m) := by
  have hcall : (Step.isOwner v.user v.workspace).run.run (v.answers w) m =
      (w.isOwner v.user v.workspace, m) := rfl
  unfold checkOwner owned
  rw [run_step_bind, hcall]
  rcases w.isOwner v.user v.workspace with e | _ | _ <;> rfl

theorem run_enter : (enter v.user v.workspace).run.run (v.answers w) m =
    (if v.allowed m then owned w v.user v.workspace else .error (.rateLimited v.workspace),
      v.checked m) := by
  unfold enter
  rw [run_step_bind, run_allow]
  cases v.allowed m
  · rfl
  · exact run_checkOwner

theorem run_connectionOf : (connectionOf v.workspace).run.run (v.answers w) m =
    (connected w v.workspace, m) := by
  have hcall : (Step.dataSource v.workspace).run.run (v.answers w) m =
      (w.dataSource v.workspace, m) := rfl
  unfold connectionOf connected
  rw [run_step_bind, hcall]
  rcases w.dataSource v.workspace with e | _ | source <;> rfl

/-- The record is made if everything before it is passed. -/
theorem run_opened (prompt : String) : (opened v.user v.workspace prompt).run.run (v.answers w) m =
    if v.allowed m then
      match admitted w v.user v.workspace prompt with
      | .ok c =>
        let new := m.store.create v.user v.workspace prompt
          (v.clock (.create v.user v.workspace prompt)).moment
        (.ok (c, new.1), { v.checked m with store := new.2 })
      | .error e => (.error e, v.checked m)
    else (.error (.rateLimited v.workspace), v.checked m) := by
  unfold opened admitted
  rw [run_step_bind, run_allow]
  cases v.allowed m
  · rfl
  have hprompt : (ExceptT.mk (pure (checkPrompt prompt)) : Step Unit).run.run (v.answers w)
      (v.checked m) = (checkPrompt prompt, v.checked m) := rfl
  simp only [if_true]
  rw [run_step_bind, hprompt]
  cases checkPrompt prompt with
  | error e => rfl
  | ok _ =>
    simp only [Except.bind]
    rw [run_step_bind, run_checkOwner]
    cases owned w v.user v.workspace with
    | error e => rfl
    | ok _ =>
      simp only
      rw [run_step_bind, run_connectionOf]
      cases connected w v.workspace <;> rfl

theorem completeIn_append {rs : List Request} {r : Request} {u : Update} {now : Moment}
    (fresh : ∀ r' ∈ rs, r'.id ≠ r.id) (pending : r.status = .pending) :
    Store.completeIn r.id u now (rs ++ [r]) = .ok (rs ++ [Store.applied u now r]) := by
  induction rs with
  | nil => simp [Store.completeIn, pending]
  | cons r' rs ih =>
    obtain ⟨hne, hrest⟩ := List.forall_mem_cons.1 fresh
    simp [Store.completeIn, hne, ih hrest, Except.map]

/-- A record that is new takes its end. -/
theorem run_settle (rs : List Request) {r : Request} (x : Except Failure Outcome)
    (hstore : m.store.requests = rs ++ [r]) (fresh : ∀ r' ∈ rs, r'.id ≠ r.id)
    (pending : r.status = .pending) :
    (settle r.id x).run (v.answers w) m =
      (match x with
        | .ok out => .ok (out.answer r.id v.response)
        | .error f => .error f.error,
      { m with store := { requests := rs ++
        [Store.applied (ending x) (v.clock (.complete r.id (ending x))).moment r] } }) := by
  have hcall (u : Update) : v.answers w (.complete r.id u) m =
      (.ok (), { m with store := { requests := rs ++
        [Store.applied u (v.clock (.complete r.id u)).moment r] } }) := by
    simp [Visit.answers, Collaborators.answer, Store.complete, hstore,
      completeIn_append fresh pending]
  cases x with
  | error f => simp only [settle, failWith, Dialogue.run, hcall, ending]
  | ok out =>
    simp only [settle, Dialogue.run, hcall, ending]
    rfl

/-! ### Whole visits -/

theorem run_single (d : Course (Except Error Answer)) (m : Memory) :
    (single d).run (v.answers w) m =
      ((d.run (v.answers w) m).1.map ([·]), (d.run (v.answers w) m).2) := by
  unfold single
  rw [run_bind]
  rfl

/-- What is read behind the checks, if they are passed. -/
def entered (w : Collaborators) (v : Visit) (m : Memory) (x : Except Error α) : Except Error α :=
  if v.allowed m then (owned w v.user v.workspace).bind fun _ => x
  else .error (.rateLimited v.workspace)

theorem map_entered (f : α → β) (x : Except Error α) :
    (entered w v m x).map f = entered w v m (x.map f) := by
  unfold entered
  cases v.allowed m
  · rfl
  · cases owned w v.user v.workspace <;> rfl

theorem run_entered {f : Unit → Step α} {x : Except Error α}
    (hf : (f ()).run.run (v.answers w) (v.checked m) = (x, v.checked m)) :
    (enter v.user v.workspace >>= f).run.run (v.answers w) m =
      (entered w v m x, v.checked m) := by
  unfold entered
  rw [run_step_bind, run_enter]
  cases v.allowed m
  · rfl
  · cases owned w v.user v.workspace
    · rfl
    · exact hf

theorem run_read {lookup : Lookup} (hread : v.operation = .read lookup) :
    v.run w o m = (entered w v m (lookup.found m.store v.workspace), v.checked m) := by
  unfold Visit.run
  rw [hread]
  cases lookup with
  | one id =>
    unfold Operation.course getOne Lookup.found
    rw [run_single, run_entered, map_entered]
    have hcall : (Step.find v.workspace id).run.run (v.answers w) (v.checked m) =
        (.ok (m.store.find v.workspace id), v.checked m) := rfl
    rw [run_step_bind, hcall]
    cases m.store.find v.workspace id <;> rfl
  | latest =>
    unfold Operation.course getLatest Lookup.found
    rw [run_single, run_entered, map_entered]
    have hcall : (Step.latest v.workspace).run.run (v.answers w) (v.checked m) =
        (.ok (m.store.latest v.workspace), v.checked m) := rfl
    rw [run_step_bind, hcall]
    cases m.store.latest v.workspace <;> rfl
  | all =>
    unfold Operation.course getAll
    rw [run_entered]
    rfl

/-- What the stages of a new request bring about. -/
def Visit.outcome (v : Visit) (w : Collaborators) (o : Options) (prompt : String) (c : Connection)
    (m : Memory) : Except Failure Outcome :=
  ((stages o v.workspace c prompt).run (v.answers w) m).1

/-- The stages neither read the memory nor change it, and look at no clock. -/
theorem run_stages (v' : Visit) (m' : Memory) {workspace : Int} {prompt : String} {c : Connection} :
    (stages o workspace c prompt).run (v.answers w) m =
      (((stages o workspace c prompt).run (v'.answers w) m').1, m) := by
  apply stages_asks.run_eq
  intro q hq s s'
  cases q with
  | snapshot | model | execute => rfl
  | _ => cases hq

theorem outcome_eq {v' : Visit} (m' : Memory) (hworkspace : v.workspace = v'.workspace)
    (prompt : String) (c : Connection) : v.outcome w o prompt c m = v'.outcome w o prompt c m' := by
  unfold Visit.outcome
  rw [hworkspace, run_stages v' m']

theorem run_create {prompt : String} (hcreate : v.operation = .create prompt)
    (numbered : m.store.Numbered) : v.run w o m =
      if v.allowed m then
        match admitted w v.user v.workspace prompt with
        | .ok c =>
          let id : Int := m.store.requests.length + 1
          let x := v.outcome w o prompt c m
          (ended id v.response x,
            { v.checked m with store := { requests := m.store.requests ++ [v.record id prompt x] } })
        | .error e => (.error e, v.checked m)
      else (.error (.rateLimited v.workspace), v.checked m) := by
  unfold Visit.run
  rw [hcreate]
  unfold Operation.course create
  rw [run_single, run_bind, run_opened]
  cases v.allowed m
  · rfl
  cases admitted w v.user v.workspace prompt with
  | error e => rfl
  | ok c =>
    simp only [if_true]
    rw [run_bind, run_stages v m]
    have hsettle := run_settle (w := w) (v := v)
      (r := (m.store.create v.user v.workspace prompt
        (v.clock (.create v.user v.workspace prompt)).moment).1)
      (m := { v.checked m with store := (m.store.create v.user v.workspace prompt
        (v.clock (.create v.user v.workspace prompt)).moment).2 })
      m.store.requests (v.outcome w o prompt c m) rfl (fun _ hr => numbered.fresh hr) rfl
    unfold Visit.outcome at hsettle ⊢
    rw [hsettle]
    cases ((stages o v.workspace c prompt).run (v.answers w) m).1 <;> rfl

/-- A visit leaves the records as they are, or adds its own at the end. -/
theorem run_snd (numbered : m.store.Numbered) : (v.run w o m).2 = v.checked m ∨
    ∃ prompt x, (v.run w o m).1 = ended (m.store.requests.length + 1) v.response x ∧
      (v.run w o m).2 = { v.checked m with store := { requests := m.store.requests ++
        [v.record (m.store.requests.length + 1) prompt x] } } := by
  cases hop : v.operation with
  | read lookup =>
    left
    rw [run_read hop]
  | create prompt =>
    rw [run_create hop numbered]
    cases v.allowed m
    · left
      rfl
    cases admitted w v.user v.workspace prompt with
    | error e =>
      left
      rfl
    | ok c =>
      right
      exact ⟨prompt, v.outcome w o prompt c m, rfl, rfl⟩

theorem run_limiter (numbered : m.store.Numbered) :
    (v.run w o m).2.limiter = (m.limiter.check v.workspace v.time).2 := by
  rcases run_snd (v := v) (w := w) (o := o) numbered with hsame | ⟨prompt, x, -, hnew⟩
  · rw [hsame]
    rfl
  · rw [hnew]
    rfl

theorem run_numbered (numbered : m.store.Numbered) : (v.run w o m).2.store.Numbered := by
  rcases run_snd (v := v) (w := w) (o := o) numbered with hsame | ⟨prompt, x, -, hnew⟩
  · rw [hsame]
    exact numbered
  · rw [hnew]
    unfold Store.Numbered at numbered ⊢
    simp [List.range_succ, numbered, Visit.record]

/-! ### Histories -/

/-- A visit, whether the limiter let it through, and what its caller was told. -/
structure Entry where
  visit : Visit
  allowed : Bool
  told : Told

def log (w : Collaborators) (o : Options) : List Visit → Memory → List Entry
  | [], _ => []
  | v :: vs, m =>
    { visit := v, allowed := v.allowed m, told := (v.run w o m).1 } :: log w o vs (v.run w o m).2

theorem log_cons (v : Visit) (vs : List Visit) (m : Memory) : log w o (v :: vs) m =
    { visit := v, allowed := v.allowed m, told := (v.run w o m).1 } ::
      log w o vs (v.run w o m).2 := rfl

/-- The memory after some visits. -/
def after (w : Collaborators) (o : Options) : List Visit → Memory → Memory
  | [], m => m
  | v :: vs, m => after w o vs (v.run w o m).2

theorem requests_after (vs : List Visit) (numbered : m.store.Numbered) :
    m.store.requests <+: (after w o vs m).store.requests := by
  induction vs generalizing m with
  | nil => exact List.prefix_refl _
  | cons v vs ih =>
    have hstep : m.store.requests <+: (v.run w o m).2.store.requests := by
      rcases run_snd (v := v) (w := w) (o := o) numbered with hsame | ⟨prompt, x, -, hnew⟩
      · rw [hsame]
        exact List.prefix_refl _
      · rw [hnew]
        exact List.prefix_append _ _
    exact hstep.trans (ih (run_numbered numbered))

end Querent.Pipeline
