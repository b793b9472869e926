import Querent.Proofs.Request.Store

/-! What a store in memory holds and answers after any history of calls: each request as it was created,
closed by the first completion of its number behind it, and no other. -/
namespace Querent

namespace Request

/-- How a request comes to its end. -/
inductive Ending where
  | succeeded (sql : String) (text : Option String) (table : Json) (graph : Option Json)
  | failed (sql : Option String)

def Ending.update : Ending → Update
  | succeeded sql text table graph => .succeeded sql text table graph
  | failed sql => .failed sql

theorem Ending.status_ne (e : Ending) : e.update.status ≠ .pending := by
  cases e <;> simp [update, Update.succeeded, Update.failed]

/-- A call of a store of requests. -/
inductive Operation where
  | create (user workspace : Int) (prompt : String)
  | complete (id : Int) (ending : Ending)
  | find (workspace id : Int)
  | latest (workspace : Int)
  | list (workspace : Int) (limit : Nat)

def Operation.creates : Operation → Bool
  | create _ _ _ => true
  | _ => false

/-- What a store answers. -/
inductive Reply where
  | created (r : Request)
  | completed
  | found (r : Option Request)
  | listed (rs : List Request)

/-- A request as it is created. -/
def fresh (id user workspace : Int) (prompt : String) (now : Moment) : Request :=
  { id, user, workspace, prompt, status := .pending, results := .none, createdAt := now
    updatedAt := now }

/-- Calls in order, each at its moment. -/
abbrev History := List (Moment × Operation)

namespace History

/-- How many requests are created. -/
def creations (h : History) : Nat := h.countP (·.2.creates)

/-- The first completion of a number. -/
def closing (id : Int) (h : History) : Option (Moment × Ending) :=
  h.findSome? fun c => match c.2 with
    | .complete id' e => if id' = id then some (c.1, e) else none
    | _ => none

/-- How a request stands after some calls: if it was pending, the first completion of its number has
closed it. -/
def standing (h : History) (r : Request) : Request :=
  if r.status = .pending then
    match closing r.id h with
    | some (now, e) => Store.applied e.update now r
    | none => r
  else r

/-- The requests that come of some calls, in the order of their creation and numbered on from those that
were there. -/
def ledger (count : Nat) : History → List Request
  | [] => []
  | (now, .create user workspace prompt) :: h =>
    standing h (fresh (count + 1) user workspace prompt now) :: ledger (count + 1) h
  | _ :: h => ledger count h

end History

end Request

namespace Store

open Request History

variable {s : Store} {now : Moment} {id : Int} {u : Update} {r : Request} {h : History}

/-- Answers a call. -/
def perform (now : Moment) : Operation → Store → Except Error Reply × Store
  | .create user workspace prompt, s =>
    let (r, s) := s.create user workspace prompt now
    (.ok (.created r), s)
  | .complete id e, s =>
    let (r, s) := s.complete id e.update now
    (r.map fun _ => .completed, s)
  | .find workspace id, s => (.ok (.found (s.find workspace id)), s)
  | .latest workspace, s => (.ok (.found (s.latest workspace)), s)
  | .list workspace limit, s => (.ok (.listed (s.list workspace limit)), s)

/-- The store after some calls. -/
def run (s : Store) (h : History) : Store := h.foldl (fun s c => (perform c.1 c.2 s).2) s

theorem run_append (s : Store) (h more : History) : s.run (h ++ more) = (s.run h).run more :=
  List.foldl_append

/-! ### One call -/

theorem Numbered.perform (hs : s.Numbered) (now : Moment) (o : Operation) :
    (Store.perform now o s).2.Numbered := by
  cases o with
  | create user workspace prompt => exact hs.create user workspace prompt now
  | complete id e => exact hs.complete id e.update now
  | _ => exact hs

theorem Numbered.run (hs : s.Numbered) (h : History) : (s.run h).Numbered := by
  induction h generalizing s with
  | nil => exact hs
  | cons c h ih => exact ih (hs.perform c.1 c.2)

/-- A call closes the pending request that it completes and adds the one that it creates. -/
theorem Numbered.perform_requests (hs : s.Numbered) (now : Moment) (o : Operation) :
    (Store.perform now o s).2.requests =
      s.requests.map (standing [(now, o)]) ++ ledger s.requests.length [(now, o)] := by
  have hkeep (h : ∀ id, closing id [(now, o)] = none) :
      s.requests.map (standing [(now, o)]) = s.requests :=
    (List.map_congr_left fun r _ => by simp [standing, h]).trans (List.map_id _)
  cases o with
  | create user workspace prompt =>
    rw [hkeep fun _ => rfl]
    rfl
  | complete id e =>
    have hstanding (r : Request) : standing [(now, .complete id e)] r =
        if r.id = id ∧ r.status = .pending then applied e.update now r else r := by
      by_cases hid : id = r.id <;> by_cases hpending : r.status = .pending <;>
        simp [standing, closing, hid, hpending, eq_comm]
    rw [List.map_congr_left fun r _ => hstanding r]
    exact (hs.complete_requests id e.update now).trans (List.append_nil _).symm
  | _ =>
    rw [hkeep fun _ => rfl]
    exact (List.append_nil _).symm

theorem perform_complete_ok {e : Ending} : (perform now (.complete id e) s).1 = .ok .completed ↔
    (s.complete id e.update now).1 = .ok () := by
  simp only [perform]
  cases (s.complete id e.update now).1 <;> simp [Except.map]

theorem perform_complete_error {e : Ending} {error : Error} :
    (perform now (.complete id e) s).1 = .error error ↔
      (s.complete id e.update now).1 = .error error := by
  simp only [perform]
  cases (s.complete id e.update now).1 <;> simp [Except.map]

/-! ### Histories -/

theorem closing_append (id : Int) (h more : History) :
    closing id (h ++ more) = (closing id h).or (closing id more) := List.findSome?_append

/-- Only the first completion of a request closes it. -/
theorem standing_append (h more : History) (r : Request) :
    standing (h ++ more) r = standing more (standing h r) := by
  by_cases hpending : r.status = .pending
  swap
  · simp [standing, hpending]
  cases hclosing : closing r.id h with
  | none => simp [standing, hpending, closing_append, hclosing]
  | some closed =>
    have hended : (applied closed.2.update closed.1 r).status ≠ .pending := closed.2.status_ne
    simp [standing, hpending, closing_append, hclosing, hended]

theorem ledger_cons (count : Nat) (c : Moment × Operation) (h : History) :
    ledger count (c :: h) =
      (ledger count [c]).map (standing h) ++ ledger (count + (ledger count [c]).length) h := by
  obtain ⟨now, o⟩ := c
  cases o with
  | create user workspace prompt => simp [ledger, standing, closing]
  | _ => simp [ledger]

theorem ledger_length (count : Nat) (h : History) : (ledger count h).length = h.creations := by
  induction h generalizing count with
  | nil => rfl
  | cons c h ih =>
    obtain ⟨now, o⟩ := c
    cases o with
    | create user workspace prompt => simp [ledger, creations, Operation.creates, ih]
    | _ => simpa [ledger, creations, Operation.creates] using ih count

theorem Numbered.perform_length (hs : s.Numbered) (now : Moment) (o : Operation) :
    (Store.perform now o s).2.requests.length = s.requests.length + (if o.creates then 1 else 0) := by
  rw [hs.perform_requests, List.length_append, List.length_map, ledger_length]
  exact congrArg _ List.countP_singleton

/-- After some calls every request stands as its first completion has left it, and behind them are those
that the calls have created. -/
theorem Numbered.run_requests (hs : s.Numbered) (h : History) :
    (s.run h).requests = s.requests.map (standing h) ++ ledger s.requests.length h := by
  induction h generalizing s with
  | nil =>
    have hnone (r : Request) : standing [] r = r := by simp [standing, closing]
    rw [List.map_congr_left fun r _ => hnone r]
    simp [Store.run, ledger]
  | cons c h ih =>
    have hstep := hs.perform_requests c.1 c.2
    have hlength : (Store.perform c.1 c.2 s).2.requests.length =
        s.requests.length + (ledger s.requests.length [c]).length := by
      rw [hstep, List.length_append, List.length_map]
    calc (s.run (c :: h)).requests
        = (Store.perform c.1 c.2 s).2.requests.map (standing h) ++
            ledger (Store.perform c.1 c.2 s).2.requests.length h := ih (hs.perform c.1 c.2)
      _ = (s.requests.map (standing [c])).map (standing h) ++
            ((ledger s.requests.length [c]).map (standing h) ++
              ledger (s.requests.length + (ledger s.requests.length [c]).length) h) := by
          rw [hlength, hstep, List.map_append, List.append_assoc]
      _ = s.requests.map (standing (c :: h)) ++ ledger s.requests.length (c :: h) := by
          rw [← ledger_cons, List.map_map]
          exact congrArg (· ++ _) (List.map_congr_left fun r _ => (standing_append [c] h r).symm)

/-! ### What holds after every history -/

/-- The store after some calls from its beginning. -/
def after (h : History) : Store := empty.run h

theorem after_numbered (h : History) : (after h).Numbered := numbered_empty.run h

theorem after_requests (h : History) : (after h).requests = ledger 0 h := numbered_empty.run_requests h

theorem after_append (h more : History) :
    (after (h ++ more)).requests =
      (after h).requests.map (standing more) ++ ledger (after h).requests.length more := by
  rw [after, run_append]
  exact (after_numbered h).run_requests more

theorem standing_of_ended (hended : r.status ≠ .pending) : standing h r = r := if_neg hended

theorem standing_kept (h : History) (r : Request) :
    (standing h r).id = r.id ∧ (standing h r).user = r.user ∧
      (standing h r).workspace = r.workspace ∧ (standing h r).prompt = r.prompt ∧
      (standing h r).createdAt = r.createdAt := by
  unfold standing
  split
  · split <;> exact ⟨rfl, rfl, rfl, rfl, rfl⟩
  · exact ⟨rfl, rfl, rfl, rfl, rfl⟩

theorem newest_eq (s : Store) (workspace : Int) :
    s.newest workspace = (s.requests.filter (·.workspace == workspace)).reverse :=
  List.filter_reverse

theorem Numbered.find_eq_some (hs : s.Numbered) {workspace : Int} :
    s.find workspace id = some r ↔ r ∈ s.requests ∧ r.id = id ∧ r.workspace = workspace := by
  constructor
  · intro hfind
    have hsame := List.find?_some hfind
    simp only [Bool.and_eq_true, beq_iff_eq] at hsame
    exact ⟨List.mem_of_find?_eq_some hfind, hsame⟩
  · rintro ⟨hr, rfl, rfl⟩
    exact hs.find_of_mem hr

/-- What a store holds after some calls, and how it answers and what it keeps from there on. -/
structure Lawful (h : History) : Prop where
  /-- The requests are those that the calls have created, each closed by the first completion of its
  number behind it, and numbered from one on in the order of their creation. -/
  held : (after h).requests = ledger 0 h ∧
    (ledger 0 h).map (·.id) = (List.range h.creations).map fun n : Nat => (n : Int) + 1
  /-- The next request created bears the next number and is pending. -/
  create : ∀ now user workspace prompt,
    let new := fresh (h.creations + 1) user workspace prompt now
    perform now (.create user workspace prompt) (after h) =
      (.ok (.created new), { requests := (after h).requests ++ [new] })
  /-- A completion succeeds if its request is there and pending, and not otherwise. -/
  completes : ∀ now id e, (perform now (.complete id e) (after h)).1 = .ok .completed ↔
    ∃ r ∈ (after h).requests, r.id = id ∧ r.status = .pending
  /-- One that succeeds changes its request and no other. -/
  changes : ∀ now id e, (perform now (.complete id e) (after h)).1 = .ok .completed →
    ∃ earlier r later, (after h).requests = earlier ++ r :: later ∧ r.id = id ∧
      (perform now (.complete id e) (after h)).2.requests =
        earlier ++ { r with status := e.update.status, results := e.update.results, updatedAt := now } ::
          later
  /-- One that fails changes nothing. -/
  refused : ∀ now id e error, (perform now (.complete id e) (after h)).1 = .error error →
    (perform now (.complete id e) (after h)).2 = after h
  /-- Whatever follows, a request keeps its place and what it was created with, and it stays as it is
  once it is no longer pending. -/
  kept : ∀ (more : History) (i : Nat) (r : Request), (after h).requests[i]? = some r →
    ∃ r' : Request, (after (h ++ more)).requests[i]? = some r' ∧
      (r'.id = r.id ∧ r'.user = r.user ∧ r'.workspace = r.workspace ∧ r'.prompt = r.prompt ∧
        r'.createdAt = r.createdAt) ∧ (r.status ≠ .pending → r' = r)
  /-- A request is found under its number in its own workspace and in no other. -/
  find : ∀ now workspace id, ∃ found,
    perform now (.find workspace id) (after h) = (.ok (.found found), after h) ∧
      ∀ r, found = some r ↔ r ∈ (after h).requests ∧ r.id = id ∧ r.workspace = workspace
  /-- Lists hold the requests of a workspace, the last created first. -/
  list : ∀ now workspace limit, perform now (.list workspace limit) (after h) =
    (.ok (.listed (((after h).requests.filter (·.workspace == workspace)).reverse.take limit)), after h)
  latest : ∀ now workspace, perform now (.latest workspace) (after h) =
    (.ok (.found ((after h).requests.filter (·.workspace == workspace)).reverse.head?), after h)

/-- Every history leaves the store so. -/
theorem lawful_after (h : History) : Lawful h := by
  have hs := after_numbered h
  have hlength : (after h).requests.length = h.creations := by rw [after_requests, ledger_length]
  constructor
  case held =>
    refine ⟨after_requests h, ?_⟩
    rw [← after_requests, ← hlength]
    exact hs
  case create =>
    intro now user workspace prompt new
    simp only [perform, Store.create, hlength, new, fresh]
  case completes => exact fun now id e => perform_complete_ok.trans hs.complete_eq_ok
  case changes =>
    intro now id e hok
    obtain ⟨earlier, r, later, hsplit, hid, -, hchanged⟩ :=
      exists_of_complete_ok (perform_complete_ok.1 hok)
    exact ⟨earlier, r, later, hsplit, hid, hchanged⟩
  case refused =>
    intro now id e error herror
    exact complete_of_error (perform_complete_error.1 herror)
  case kept =>
    intro more i r hr
    refine ⟨standing more r, ?_, standing_kept more r, standing_of_ended⟩
    obtain ⟨hi, -⟩ := List.getElem?_eq_some_iff.1 hr
    rw [after_append, List.getElem?_append_left (by simpa using hi), List.getElem?_map, hr]
    rfl
  case find => exact fun now workspace id => ⟨_, rfl, fun r => hs.find_eq_some⟩
  case list =>
    intro now workspace limit
    rw [← newest_eq]
    rfl
  case latest =>
    intro now workspace
    rw [← newest_eq]
    rfl

end Store

end Querent
