import Querent.Pipeline.Memory
import Querent.Proofs.Pipeline.Shared

/-! What becomes of every request among any number at once. Its record ends as its caller is told, and
no other caller has a part in it. -/
namespace Querent.Pipeline

open Dialogue

variable {rejects : Update → Prop} {s : Shared} {c : Caller} {r : Request} {es : List Event}

theorem Orderly.fits_row {id : Int} {status : Status} {results : Results} (h : Orderly es)
    (hrow : row es = some (id, status, results)) : Fits status results := by
  obtain ⟨id', -, hpair⟩ := Option.map_eq_some_iff.1 hrow
  cases hfind : (sent es).find? (·.taken) with
  | none =>
    rw [hfind] at hpair
    cases hpair
    rfl
  | some x =>
    rw [hfind] at hpair
    cases hpair
    exact h.fits x (List.mem_of_find?_eq_some hfind)

namespace Consistent

theorem exists_caller (h : Consistent rejects s) (hr : r ∈ s.store.requests) :
    ∃ c ∈ s.callers, row c.log = some (recordRow r) := by
  have hmem : recordRow r ∈ s.callers.filterMap (row ·.log) :=
    h.rows.mem_iff.1 (List.mem_map_of_mem hr)
  exact List.mem_filterMap.1 hmem

theorem exists_record {x : Int × Status × Results} (h : Consistent rejects s) (hc : c ∈ s.callers)
    (hrow : row c.log = some x) : ∃ r ∈ s.store.requests, recordRow r = x := by
  have hmem : x ∈ s.store.requests.map recordRow :=
    h.rows.mem_iff.2 (List.mem_filterMap.2 ⟨c, hc, hrow⟩)
  exact List.mem_map.1 hmem

/-- The record of a caller says what the caller knows of it. -/
theorem record_eq {x : Int × Status × Results} (h : Consistent rejects s) (hc : c ∈ s.callers)
    (hrow : row c.log = some x) (hr : r ∈ s.store.requests) (owned : created c.log = some r.id) :
    recordRow r = x := by
  obtain ⟨r', hr', rfl⟩ := h.exists_record hc hrow
  have hid : r'.id = r.id := by
    have howned := created_of_row hrow
    rw [owned] at howned
    exact (Option.some.inj howned).symm
  rw [List.inj_on_of_nodup_map h.ids hr' hr hid]

end Consistent

/-- A finished request has an answer exactly if its record succeeded, and then the record's. Where the
store turns no failure down, the record has ended. -/
structure Ended (rejects : Update → Prop) (requests : List Request) (owned : Option Int)
    (x : Except Error Answer) : Prop where
  answered : (∃ a, x = .ok a) ↔ ∃ r ∈ requests, owned = some r.id ∧ r.status = .succeeded
  answer : ∀ a, x = .ok a → ∀ r ∈ requests, owned = some r.id →
    a.request = r.id ∧ a.sql = r.results.sql ∧ a.text = r.results.text ∧
      a.table.map Columnar.toValue = r.results.table ∧ a.graph = r.results.graph
  settled : (∀ u, u.status = .failed → ¬ rejects u) → ∀ r ∈ requests, owned = some r.id →
    r.status = .succeeded ∨ r.status = .failed

theorem Ended.of_answer {id : Int} {out : Outcome} {response : String} (h : Consistent rejects s)
    (hc : c ∈ s.callers) (hrow : row c.log = some (id, .succeeded, out.update.results)) :
    Ended rejects s.store.requests (created c.log) (.ok (out.answer id response)) := by
  have hrecord {r : Request} (hr : r ∈ s.store.requests) (owned : created c.log = some r.id) :
      r.id = id ∧ r.status = .succeeded ∧ r.results = out.update.results := by
    simpa [recordRow] using h.record_eq hc hrow hr owned
  refine ⟨⟨fun _ => ?_, fun _ => ⟨_, rfl⟩⟩, fun a ha r hr owned => ?_, fun _ r hr owned => ?_⟩
  · obtain ⟨r, hr, hsame⟩ := h.exists_record hc hrow
    obtain ⟨hid, hstatus, -⟩ : r.id = id ∧ r.status = .succeeded ∧ _ := by
      simpa [recordRow] using hsame
    exact ⟨r, hr, by rw [created_of_row hrow, hid], hstatus⟩
  · cases ha
    obtain ⟨hid, -, hresults⟩ := hrecord hr owned
    rw [hid, hresults]
    exact ⟨rfl, rfl, rfl, rfl, rfl⟩
  · exact .inl (hrecord hr owned).2.1

theorem Ended.of_failure {id : Int} {e : Error} {sql : Option String} {taken : Bool}
    (h : Consistent rejects s) (hc : c ∈ s.callers) (hsent : ⟨id, .failed sql, taken⟩ ∈ sent c.log)
    (hrow : row c.log =
      some (id, if taken then (.failed, (Update.failed sql).results) else (.pending, .none))) :
    Ended rejects s.store.requests (created c.log) (.error e) := by
  have hrecord {r : Request} (hr : r ∈ s.store.requests) (owned : created c.log = some r.id) :
      r.status = if taken then .failed else .pending := by
    have hsame := h.record_eq hc hrow hr owned
    cases taken <;> exact congrArg (·.2.1) hsame
  refine ⟨⟨?_, ?_⟩, ?_, fun hfailed r hr owned => ?_⟩
  · rintro ⟨a, ha⟩
    cases ha
  · rintro ⟨r, hr, owned, hstatus⟩
    rw [hrecord hr owned] at hstatus
    cases taken <;> cases hstatus
  · intro a ha
    cases ha
  · cases taken with
    | true => exact .inr (hrecord hr owned)
    | false => exact absurd (h.turnedDown c hc _ hsent rfl) (hfailed _ rfl)

theorem Consistent.ended (h : Consistent rejects s) (hc : c ∈ s.callers) {x : Except Error Answer}
    (hdone : c.rest = .done x) : Ended rejects s.store.requests (created c.log) x := by
  have hpath := h.path c hc
  rw [hdone] at hpath
  obtain ⟨huncreated, e, rfl⟩ | ⟨id, out, response, rfl, hrow⟩ |
      ⟨id, e, sql, taken, rfl, hsent, hrow⟩ := (path_standing hpath).of_done
  · rw [huncreated]
    constructor <;> simp
  · exact .of_answer h hc hrow
  · exact .of_failure h hc hsent hrow

/-! ### The store in memory -/

/-- The store in memory answers as a store may, and turns nothing down. -/
theorem answers_memory {m : Memory} (w : Collaborators) (now : Now) (response : String) (q : Call)
    (h : m.store.Numbered) :
    Answers (fun _ => False) m.store q (w.answer now response q m).1
        (w.answer now response q m).2.store ∧
      (w.answer now response q m).2.store.Numbered := by
  cases q with
  | create user workspace prompt =>
    refine ⟨.created _ ?_ rfl rfl, h.create user workspace prompt now.moment⟩
    intro r hr
    exact h.fresh hr
  | complete id update => exact ⟨.completed now.moment, h.complete id update now.moment⟩
  | allow workspace => exact ⟨.other _ rfl, h⟩
  | _ => exact ⟨.other _ rfl, h⟩

def Caller.finished (c : Caller) (es : List Event) (x : Except Error Answer) : Caller :=
  { c with log := c.log ++ es, rest := .done x }

/-- While the others wait, a caller may be answered to the end as the store allows. -/
theorem Reachable.path {before after : List Caller} {store store' : Store} {x : Except Error Answer}
    (h : Reachable rejects ⟨store, before ++ c :: after⟩) (hpath : Path c.rest es (done x))
    (hthrough : Through (fun s e s' => Answers rejects s e.1 e.2 s') store es store') :
    Reachable rejects ⟨store', before ++ c.finished es x :: after⟩ := by
  -- on what is to come; the answers so far and the store differ from step to step
  generalize hrest : c.rest = d at hpath
  generalize hend : done x = last at hpath
  induction hpath generalizing c store with
  | here =>
    subst hend
    cases hthrough
    have hsame : c.finished [] x = c := by
      cases c
      simp_all [Caller.finished]
    rwa [hsame]
  | next _ ih =>
    cases hthrough with
    | cons first rest =>
      have hnext := ih (h.tail (.reply hrest first)) rest rfl hend
      simpa [Caller.told, Caller.finished] using hnext

/-- An answerer with a store in its state that answers each call as a store may. -/
theorem through_history {σ : Type} {answer : (q : Call) → σ → q.Reply × σ} (store : σ → Store)
    {I : σ → Prop}
    (hstep : ∀ q s, I s → Answers rejects (store s) q (answer q s).1 (store (answer q s).2) ∧
      I (answer q s).2) (d : Course (Except Error Answer)) {s : σ} (hs : I s) :
    Through (fun s e s' => Answers rejects s e.1 e.2 s') (store s) (d.history answer s)
      (store (d.run answer s).2) := by
  induction d generalizing s with
  | done x => exact .nil _
  | ask q next ih =>
    obtain ⟨hanswers, hnext⟩ := hstep q s hs
    exact .cons hanswers (ih _ hnext)

/-- While the others wait, a caller may be answered out of memory to the end. -/
theorem Reachable.run {before after : List Caller} {m : Memory} (w : Collaborators) (now : Now)
    (response : String) (h : Reachable (fun _ => False) ⟨m.store, before ++ c :: after⟩)
    (numbered : m.store.Numbered) :
    Reachable (fun _ => False) ⟨(c.rest.run (w.answer now response) m).2.store,
      before ++ c.finished (c.rest.history (w.answer now response) m)
        (c.rest.run (w.answer now response) m).1 :: after⟩ :=
  h.path (path_history _ _ _) (through_history Memory.store (I := fun m => m.store.Numbered)
    (fun q _ hm => answers_memory w now response q hm) c.rest numbered)

/-! ### The main result -/

/-- Requests that share a store, answered in any order, keep to their own records. Each sends its
updates in order, and has its answer exactly if its record succeeded. The store in memory is one of
those that turn no failure down, so that there no record is left pending. -/
theorem lifecycle (h : Reachable rejects s) :
    (∀ c ∈ s.callers, Orderly c.log ∧
      (∀ id, created c.log = some id → ∃ r ∈ s.store.requests, r.id = id) ∧
      ∀ x, c.rest = .done x → Ended rejects s.store.requests (created c.log) x) ∧
    (s.store.requests.map (·.id)).Nodup ∧
    (∀ r ∈ s.store.requests, Fits r.status r.results) ∧
    ∀ (w : Collaborators) (now : Now) (response : String) (q : Call) (m : Memory),
      m.store.Numbered →
        Answers (fun _ => False) m.store q (w.answer now response q m).1
          (w.answer now response q m).2.store ∧
        (w.answer now response q m).2.store.Numbered := by
  have hconsistent := h.consistent
  refine ⟨fun c hc => ⟨?_, ?_, ?_⟩, hconsistent.ids, fun r hr => ?_,
    fun w now response q _ => answers_memory w now response q⟩
  · exact (path_standing (hconsistent.path c hc)).orderly
  · intro id howned
    obtain ⟨x, hrow⟩ : ∃ x, row c.log = some x := by simp [row, howned]
    obtain ⟨r, hr, rfl⟩ := hconsistent.exists_record hc hrow
    refine ⟨r, hr, ?_⟩
    rw [created_of_row hrow] at howned
    exact Option.some.inj howned
  · intro x hdone
    exact hconsistent.ended hc hdone
  · obtain ⟨c, hc, hrow⟩ := hconsistent.exists_caller hr
    exact (path_standing (hconsistent.path c hc)).orderly.fits_row hrow

/-- A workspace without tables and without a model. -/
def bare : Collaborators where
  isOwner _ _ := .ok true
  dataSource _ := .ok (some
    { dialect := .postgres
      config := .object [("host", .string "db"), ("port", .ofNat 5432),
        ("database", .string "d"), ("user", .string "u"), ("password", .string "p")] })
  snapshot workspace := .ok (.empty workspace)
  model _ := .error (.model "no model")
  execute _ _ _ := .ok []

def firstMoment : Now where
  milliseconds := 0
  moment := { date := (Date.of? 2024 1 1).get (by decide), time := .midnight }

/-- One of two callers has come to the end, and the other has yet to be let through. -/
def oneOfTwo : Shared :=
  let answer := bare.answer firstMoment "r-1"
  let memory : Memory := { limiter := .standard, store := .empty }
  let c := Caller.start .standard 1 1 "how many"
  { store := (c.rest.run answer memory).2.store
    callers := [c.finished (c.rest.history answer memory) (c.rest.run answer memory).1,
      .start .standard 2 1 "how few"] }

theorem reachable_oneOfTwo : Reachable (fun _ => False) oneOfTwo := by
  have hfirst : Move (fun _ => False) { store := .empty, callers := [] }
      { store := .empty, callers := [.start .standard 1 1 "how many"] } :=
    .call .standard 1 1 "how many"
  have hsecond : Move (fun _ => False)
      { store := .empty, callers := [.start .standard 1 1 "how many"] }
      { store := .empty, callers := [.start .standard 1 1 "how many",
        .start .standard 2 1 "how few"] } :=
    .call .standard 2 1 "how few"
  have hboth : Reachable (fun _ => False)
      { store := .empty, callers := [] ++ .start .standard 1 1 "how many" ::
        [.start .standard 2 1 "how few"] } := (Relation.ReflTransGen.single hfirst).tail hsecond
  exact hboth.run (m := { limiter := .standard, store := .empty }) bare firstMoment "r-1"
    Store.numbered_empty

/-- The fallback statement has run, and its record has succeeded. -/
theorem lifecycle_oneOfTwo :
    Reachable (fun _ => False) oneOfTwo ∧
      oneOfTwo.store.requests.map (fun r => (r.id, r.status, r.results.sql)) =
        [(1, .succeeded, some "SELECT 1 LIMIT 101")] ∧
      (∀ c ∈ oneOfTwo.callers, Orderly c.log ∧ ∀ x, c.rest = .done x →
        Ended (fun _ => False) oneOfTwo.store.requests (created c.log) x) ∧
      ∀ r ∈ oneOfTwo.store.requests, Fits r.status r.results := by
  obtain ⟨hcallers, -, hfits, -⟩ := lifecycle reachable_oneOfTwo
  refine ⟨reachable_oneOfTwo, by decide +kernel, fun c hc => ?_, hfits⟩
  obtain ⟨horderly, -, hended⟩ := hcallers c hc
  exact ⟨horderly, hended⟩

end Querent.Pipeline
