import Querent.Proofs.Pipeline.Guarded

/-! Where a request stands: what the calls made so far say of its record, and what is asked next. It is
created once, gets no update while it is in its stages, and is then offered its success, its failure,
or one after the other. -/
namespace Querent.Pipeline

open Dialogue

variable {o : Options} {c : Connection} {user workspace id : Int} {prompt : String}
  {es es₁ es₂ : List Event} {rest : Course (Except Error Answer)}

/-- An update offered to the store, and whether the store took it. -/
structure Sent where
  id : Int
  update : Update
  taken : Bool

def Event.created? : Event → Option Int
  | ⟨.create _ _ _, .ok r⟩ => some r.id
  | _ => none

def Event.sent? : Event → Option Sent
  | ⟨.complete id update, r⟩ => some { id, update, taken := r.isOk }
  | _ => none

/-- The record that some calls created. -/
def created (es : List Event) : Option Int := es.findSome? Event.created?

/-- The updates that some calls sent, in order. -/
def sent (es : List Event) : List Sent := es.filterMap Event.sent?

/-- What the calls so far say of the record: its number, and what the update that was taken made of it. -/
def row (es : List Event) : Option (Int × Status × Results) :=
  (created es).map fun id =>
    match (sent es).find? (·.taken) with
    | some x => (id, x.update.status, x.update.results)
    | none => (id, .pending, .none)

theorem created?_of_part {e : Event} (h : e.1.part ≠ .check) : e.created? = none := by
  obtain ⟨q, r⟩ := e
  cases q <;> first | rfl | exact absurd rfl h

theorem sent?_of_part {e : Event} (h : e.1.part ≠ .ending) : e.sent? = none := by
  obtain ⟨q, r⟩ := e
  cases q <;> first | rfl | exact absurd rfl h

theorem created_append (h : ∀ e ∈ es₂, e.1.part ≠ .check) : created (es₁ ++ es₂) = created es₁ := by
  have hnone : es₂.findSome? Event.created? = none :=
    List.findSome?_eq_none_iff.2 fun e he => created?_of_part (h e he)
  unfold created
  rw [List.findSome?_append, hnone, Option.or_none]

theorem sent_append : sent (es₁ ++ es₂) = sent es₁ ++ sent es₂ := List.filterMap_append

theorem sent_eq_nil (h : ∀ e ∈ es, e.1.part ≠ .ending) : sent es = [] :=
  List.filterMap_eq_nil_iff.2 fun e he => sent?_of_part (h e he)

theorem created_passed {source : DataSource} {r : Request} :
    created (passed user workspace prompt source r) = some r.id := rfl

theorem created_eq_none (h : Uncreated es) : created es = none := by
  refine List.findSome?_eq_none_iff.2 fun e he => ?_
  obtain ⟨q, r⟩ := e
  cases q with
  | create u w p =>
    cases r with
    | error e => rfl
    | ok r => exact absurd he (h u w p r)
  | _ => rfl

theorem noRows_append : NoRows (es₁ ++ es₂) ↔ NoRows es₁ ∧ NoRows es₂ := by
  simp only [NoRows, List.mem_append, not_or, forall_and]

theorem noRows_of_part (h : ∀ e ∈ es, e.1.part ≠ .stage) : NoRows es :=
  fun _ _ _ _ he => h _ he rfl

/-- The last part of a request: what it has sent and been told, and what it does next. -/
inductive Settling (id : Int) :
    Except Failure Outcome → List Event → Course (Except Error Answer) → Prop
  | storing (out : Outcome) (next : Except Error Unit → Course (Except Error Answer)) :
      Settling id (.ok out) [] (.ask (.complete id out.update) next)
  | stored (out : Outcome) (next : String → Course (Except Error Answer)) :
      Settling id (.ok out) [⟨.complete id out.update, .ok ()⟩] (.ask .freshResponse next)
  | answered (out : Outcome) (response : String) :
      Settling id (.ok out) [⟨.complete id out.update, .ok ()⟩, ⟨.freshResponse, response⟩]
        (.done (.ok (out.answer id response)))
  | withdrawing (out : Outcome) (e : Error)
      (next : Except Error Unit → Course (Except Error Answer)) :
      Settling id (.ok out) [⟨.complete id out.update, .error e⟩]
        (.ask (.complete id (.failed (some out.sql))) next)
  | withdrawn (out : Outcome) (e : Error) (taken : Except Error Unit) :
      Settling id (.ok out) [⟨.complete id out.update, .error e⟩,
        ⟨.complete id (.failed (some out.sql)), taken⟩] (.done (.error e))
  | failing (f : Failure) (next : Except Error Unit → Course (Except Error Answer)) :
      Settling id (.error f) [] (.ask (.complete id (.failed f.sql)) next)
  | failed (f : Failure) (taken : Except Error Unit) :
      Settling id (.error f) [⟨.complete id (.failed f.sql), taken⟩] (.done (.error f.error))

theorem path_settle {ended : Except Failure Outcome} (h : Path (settle id ended) es rest) :
    Settling id ended es rest := by
  cases ended with
  | error f =>
    cases h with
    | here => exact .failing f _
    | @next _ _ r _ _ path =>
      cases path
      exact .failed f r
  | ok out =>
    cases h with
    | here => exact .storing out _
    | @next _ _ r _ _ path =>
      cases r with
      | error e =>
        cases path with
        | here => exact .withdrawing out e _
        | @next _ _ taken _ _ path =>
          cases path
          exact .withdrawn out e taken
      | ok _ =>
        cases path with
        | here => exact .stored out _
        | @next _ _ response _ _ path =>
          cases path
          exact .answered out response

/-- A request is checked, or refused, or in its stages, or comes to its end. -/
inductive Standing : List Event → Course (Except Error Answer) → Prop
  | checking {es : List Event} {q : Call} {next : q.Reply → Course (Except Error Answer)}
      (check : q.part = .check) (uncreated : created es = none) (unsent : sent es = []) :
      Standing es (.ask q next)
  | refused {es : List Event} (e : Error) (uncreated : created es = none) (unsent : sent es = []) :
      Standing es (.done (.error e))
  | staging {es : List Event} {q : Call} {next : q.Reply → Course (Except Error Answer)} (id : Int)
      (stage : q.part = .stage) (owned : created es = some id) (unsent : sent es = []) :
      Standing es (.ask q next)
  | settling {es endings : List Event} {rest : Course (Except Error Answer)} {id : Int}
      {ended : Except Failure Outcome} (owned : created (es ++ endings) = some id)
      (unsent : sent es = []) (noRows : ∀ f, ended = .error f → NoRows (es ++ endings))
      (settling : Settling id ended endings rest) : Standing (es ++ endings) rest

theorem path_standing (h : Path (create o user workspace prompt) es rest) : Standing es rest := by
  have hunsent {es : List Event} {part : Part} (hes : ∀ e ∈ es, e.1.part = part)
      (hpart : part ≠ .ending) : sent es = [] :=
    sent_eq_nil fun e he => by rwa [hes e he]
  rcases h.of_bind with ⟨q, next, hopened, rfl⟩ | ⟨x, es₁, es₂, rfl, hopened, hafter⟩
  · obtain ⟨hchecks, hcheck, -⟩ := opened_asks.of_path hopened
    exact .checking hcheck (created_eq_none (path_opened_ask hopened)) (hunsent hchecks (by decide))
  have hchecks := (opened_asks.of_path hopened).1
  have hunsent₁ : sent es₁ = [] := hunsent hchecks (by decide)
  obtain ⟨source, c, r, -, -, rfl, rfl⟩ | ⟨e, rfl, -, hnone⟩ := path_opened hopened
  swap
  · obtain ⟨rfl, rfl⟩ := path_done.1 hafter
    rw [List.append_nil]
    exact .refused e (created_eq_none hnone) hunsent₁
  have howned {es : List Event} (hes : ∀ e ∈ es, e.1.part ≠ .check) :
      created (passed user workspace prompt source r ++ es) = some r.id := by
    rw [created_append hes, created_passed]
  rcases hafter.of_bind with ⟨q, next, hstages, rfl⟩ | ⟨ended, es₃, es₄, rfl, hstages, hsettle⟩
  · obtain ⟨hcalled, hstage, -⟩ := stages_asks.of_path hstages
    refine .staging r.id hstage (howned fun e he => by simp [hcalled e he]) ?_
    rw [sent_append, hunsent₁, hunsent hcalled (by decide), List.append_nil]
  · have hcalled := (stages_asks.of_path hstages).1
    have hendings := ((settle_asks ended).of_path hsettle).1
    rw [← List.append_assoc]
    have hwhole : created (passed user workspace prompt source r ++ es₃ ++ es₄) = some r.id := by
      rw [List.append_assoc]
      refine howned fun e he => ?_
      rcases List.mem_append.1 he with he | he
      · simp [hcalled e he]
      · simp [hendings e he]
    have hunsent₃ : sent (passed user workspace prompt source r ++ es₃) = [] := by
      rw [sent_append, hunsent₁, hunsent hcalled (by decide), List.append_nil]
    refine .settling hwhole hunsent₃ (fun f hf => ?_) (path_settle hsettle)
    have hpassed : NoRows (passed user workspace prompt source r) :=
      noRows_of_part fun e he => by simp [hchecks e he]
    have hlast : NoRows es₄ := noRows_of_part fun e he => by simp [hendings e he]
    exact noRows_append.2 ⟨noRows_append.2 ⟨hpassed, (path_stages hstages).2 f hf⟩, hlast⟩

/-! ### The updates of one request -/

@[simp] theorem status_update (out : Outcome) : out.update.status = .succeeded := rfl

@[simp] theorem status_failed (sql : Option String) : (Update.failed sql).status = .failed := rfl

/-- What a record may hold, by its status. -/
def Fits : Status → Results → Prop
  | .pending, r => r = .none
  | .failed, r => r.text = none ∧ r.table = none ∧ r.graph = none
  | .succeeded, r => r.sql.isSome ∧ r.table.isSome

theorem fits_update (out : Outcome) : Fits .succeeded out.update.results := ⟨rfl, rfl⟩

theorem fits_failed (sql : Option String) : Fits .failed (Update.failed sql).results := ⟨rfl, rfl, rfl⟩

/-- A request sends its updates in order: to its own record, each kind at most once and at most one of
them taken, and a failure only without rows or after its success was turned down. -/
structure Orderly (es : List Event) : Prop where
  own : ∀ x ∈ sent es, created es = some x.id
  succeeds : (sent es).countP (·.update.status = .succeeded) ≤ 1
  fails : (sent es).countP (·.update.status = .failed) ≤ 1
  failure : ∀ x ∈ sent es, x.update.status = .failed → NoRows es ∨
    ∃ y, y.update.status = .succeeded ∧ y.taken = false ∧ [y, x].Sublist (sent es)
  taken : (sent es).countP (·.taken) ≤ 1
  fits : ∀ x ∈ sent es, Fits x.update.status x.update.results

namespace Orderly

variable {out : Outcome} {sql : Option String} {taken : Bool}

theorem of_unsent (h : sent es = []) : Orderly es := by
  constructor <;> simp [h]

theorem of_success (h : sent es = [⟨id, out.update, taken⟩]) (owned : created es = some id) :
    Orderly es := by
  constructor
  case taken => exact Nat.le_trans List.countP_le_length (by simp [h])
  all_goals simp [h, owned, fits_update]

theorem of_failure (h : sent es = [⟨id, .failed sql, taken⟩]) (owned : created es = some id)
    (noRows : NoRows es) : Orderly es := by
  constructor
  case taken => exact Nat.le_trans List.countP_le_length (by simp [h])
  all_goals simp [h, owned, noRows, fits_failed]

theorem of_withdrawn (h : sent es = [⟨id, out.update, false⟩, ⟨id, .failed sql, taken⟩])
    (owned : created es = some id) : Orderly es := by
  constructor
  case taken =>
    rw [h, List.countP_cons_of_neg (by simp)]
    exact Nat.le_trans List.countP_le_length (by simp)
  case failure =>
    intro x hx hstatus
    refine .inr ⟨⟨id, out.update, false⟩, rfl, rfl, ?_⟩
    rw [h] at hx ⊢
    rcases List.mem_cons.1 hx with rfl | hx
    · cases hstatus
    · obtain rfl := List.mem_singleton.1 hx
      exact List.Sublist.refl _
  all_goals simp [h, owned, fits_update, fits_failed]

end Orderly

theorem Standing.orderly (h : Standing es rest) : Orderly es := by
  cases h with
  | checking _ _ unsent => exact .of_unsent unsent
  | refused _ _ unsent => exact .of_unsent unsent
  | staging _ _ _ unsent => exact .of_unsent unsent
  | @settling es endings _ id ended owned unsent noRows settling =>
    have hsent : sent (es ++ endings) = sent endings := by rw [sent_append, unsent, List.nil_append]
    cases settling with
    | storing out _ => exact .of_unsent hsent
    | stored out _ => exact .of_success hsent owned
    | answered out response => exact .of_success hsent owned
    | withdrawing out e _ => exact .of_success hsent owned
    | withdrawn out e taken => exact .of_withdrawn hsent owned
    | failing f _ => exact .of_unsent hsent
    | failed f taken => exact .of_failure hsent owned (noRows f rfl)

/-! ### The record of one request -/

theorem row_of_taken {x : Sent} (owned : created es = some id)
    (h : (sent es).find? (·.taken) = some x) :
    row es = some (id, x.update.status, x.update.results) := by
  simp [row, owned, h]

theorem row_of_pending (owned : created es = some id) (h : ∀ x ∈ sent es, x.taken = false) :
    row es = some (id, .pending, .none) := by
  have hnone : (sent es).find? (·.taken) = none := by simpa using h
  simp [row, owned, hnone]

theorem created_of_row {x : Int × Status × Results} (h : row es = some x) :
    created es = some x.1 := by
  obtain ⟨id, hcreated, hx⟩ := Option.map_eq_some_iff.1 h
  have hid : x.1 = id := by
    subst hx
    split <;> rfl
  rw [hcreated, hid]

/-- A call that neither creates nor completes leaves the record as it is, and so does one in vain. -/
theorem row_concat {e : Event} (hcreated : e.created? = none)
    (hsent : ∀ x, e.sent? = some x → x.taken = false) : row (es ++ [e]) = row es := by
  have hsame : created (es ++ [e]) = created es := by
    simp [created, List.findSome?_append, hcreated]
  have hnone : (sent [e]).find? (·.taken) = none := by
    rw [List.find?_eq_none]
    intro x hx
    simp [hsent x (by simpa [sent] using hx)]
  unfold row
  rw [hsame, sent_append, List.find?_append, hnone, Option.or_none]

theorem Standing.of_create {u w : Int} {p : String}
    {next : Except Error Request → Course (Except Error Answer)}
    (h : Standing es (.ask (.create u w p) next)) : created es = none ∧ sent es = [] := by
  cases h with
  | checking _ uncreated unsent => exact ⟨uncreated, unsent⟩
  | staging _ stage => cases stage
  | settling _ _ _ settling => cases settling

theorem Standing.of_complete {u : Update} {next : Except Error Unit → Course (Except Error Answer)}
    (h : Standing es (.ask (.complete id u) next)) :
    created es = some id ∧ ∀ x ∈ sent es, x.taken = false := by
  cases h with
  | checking check => cases check
  | staging _ stage => cases stage
  | settling owned unsent _ settling =>
    rw [sent_append, unsent, List.nil_append]
    cases settling with
    | storing => exact ⟨owned, by simp [sent]⟩
    | withdrawing => exact ⟨owned, by simp [sent, Event.sent?, Except.isOk, Except.toBool]⟩
    | failing => exact ⟨owned, by simp [sent]⟩

/-- How a request has ended: unstored, with an answer, or with a failure for its record. -/
theorem Standing.of_done {x : Except Error Answer} (h : Standing es (.done x)) :
    (created es = none ∧ ∃ e, x = .error e) ∨
    (∃ id out response, x = .ok (Outcome.answer out id response) ∧
      row es = some (id, .succeeded, out.update.results)) ∨
    ∃ id e sql taken, x = .error e ∧ ⟨id, .failed sql, taken⟩ ∈ sent es ∧
      row es = some (id, if taken then (.failed, (Update.failed sql).results) else (.pending, .none)) := by
  cases h with
  | refused e uncreated => exact .inl ⟨uncreated, e, rfl⟩
  | @settling es endings _ id ended owned unsent _ settling =>
    have hsent : sent (es ++ endings) = sent endings := by rw [sent_append, unsent, List.nil_append]
    have hfailed {sql : Option String} {taken : Bool}
        (hfind : (sent endings).find? (·.taken) =
          if taken then some ⟨id, .failed sql, true⟩ else none) :
        row (es ++ endings) = some
          (id, if taken then (.failed, (Update.failed sql).results) else (.pending, .none)) := by
      rw [← hsent] at hfind
      cases taken with
      | true => exact row_of_taken owned hfind
      | false =>
        refine row_of_pending owned fun x hx => ?_
        simpa using List.find?_eq_none.1 hfind x hx
    cases settling with
    | answered out response =>
      exact .inr (.inl ⟨id, out, response, rfl, row_of_taken owned (by rw [hsent]; rfl)⟩)
    | withdrawn out e taken =>
      refine .inr (.inr ⟨id, e, some out.sql, taken.isOk, rfl, ?_, hfailed ?_⟩)
      · rw [hsent]
        simp [sent, Event.sent?]
      · cases taken <;> rfl
    | failed f taken =>
      refine .inr (.inr ⟨id, f.error, f.sql, taken.isOk, rfl, ?_, hfailed ?_⟩)
      · rw [hsent]
        simp [sent, Event.sent?]
      · cases taken <;> rfl

/-- A request that succeeded was created, went through its stages, and its outcome was stored. -/
theorem path_create_ok {a : Answer} (h : Path (create o user workspace prompt) es (done (.ok a))) :
    ∃ source c r called out response,
      es = passed user workspace prompt source r ++ (called ++
        [⟨.complete r.id out.update, .ok ()⟩, ⟨.freshResponse, response⟩]) ∧
      Path (stages o workspace c prompt) called (done (.ok out)) ∧
      a = out.answer r.id response := by
  obtain ⟨x, es₁, es₂, rfl, hopened, hafter⟩ := h.of_bind_done
  obtain ⟨source, c, r, -, -, rfl, rfl⟩ | ⟨e, rfl, -⟩ := path_opened hopened
  · obtain ⟨ended, called, endings, rfl, hstages, hsettle⟩ := hafter.of_bind_done
    cases path_settle hsettle with
    | answered out response => exact ⟨source, c, r, called, out, response, rfl, hstages, rfl⟩
  · cases (path_done.1 hafter).2

end Querent.Pipeline
