import Mathlib.Data.List.Perm.Basic
import Mathlib.Logic.Relation
import Querent.Proofs.Pipeline.Standing
import Querent.Proofs.Request.Store

/-! Any number of requests at once that share one store. Calls are answered one at a time, in any order;
the store creates under new numbers and may turn updates down, and all else answers as it likes. -/
namespace Querent.Pipeline

open Dialogue

/-- One who makes a request: what has been asked and answered, and what is to come. -/
structure Caller where
  options : Options
  user : Int
  workspace : Int
  prompt : String
  log : List Event
  rest : Course (Except Error Answer)

def Caller.start (o : Options) (user workspace : Int) (prompt : String) : Caller where
  options := o
  user := user
  workspace := workspace
  prompt := prompt
  log := []
  rest := create o user workspace prompt

/-- A caller that has been given an answer. -/
def Caller.told (c : Caller) (e : Event) (rest : Course (Except Error Answer)) : Caller :=
  { c with log := c.log ++ [e], rest }

structure Shared where
  store : Store
  callers : List Caller

/-- Whether a call is one that changes the store. -/
def Call.changes : Call → Bool
  | create _ _ _ | complete _ _ => true
  | _ => false

/-- How a call may be answered, and the store after it. Of the updates that it could make, the store
may turn down those of some kinds. -/
inductive Answers (rejects : Update → Prop) : Store → (q : Call) → q.Reply → Store → Prop
  | created {store : Store} {user workspace : Int} {prompt : String} (r : Request)
      (fresh : ∀ r' ∈ store.requests, r'.id ≠ r.id) (pending : r.status = .pending)
      (blank : r.results = .none) :
      Answers rejects store (.create user workspace prompt) (.ok r)
        { requests := store.requests ++ [r] }
  | uncreated {store : Store} {user workspace : Int} {prompt : String} (e : Error) :
      Answers rejects store (.create user workspace prompt) (.error e) store
  | completed {store : Store} {id : Int} {u : Update} (now : Moment) :
      Answers rejects store (.complete id u) (store.complete id u now).1
        (store.complete id u now).2
  | rejected {store : Store} {id : Int} {u : Update} (e : Error) (allowed : rejects u) :
      Answers rejects store (.complete id u) (.error e) store
  | other {store : Store} {q : Call} (r : q.Reply) (keeps : q.changes = false) :
      Answers rejects store q r store

/-- A new request, or one answer to one caller. -/
inductive Move (rejects : Update → Prop) : Shared → Shared → Prop
  | call {s : Shared} (o : Options) (user workspace : Int) (prompt : String) :
      Move rejects s { s with callers := s.callers ++ [.start o user workspace prompt] }
  | reply {store store' : Store} {before after : List Caller} {c : Caller} {q : Call}
      {next : q.Reply → Course (Except Error Answer)} {r : q.Reply} (asks : c.rest = .ask q next)
      (answers : Answers rejects store q r store') :
      Move rejects ⟨store, before ++ c :: after⟩
        ⟨store', before ++ c.told ⟨q, r⟩ (next r) :: after⟩

/-- What can come about from an empty store. -/
def Reachable (rejects : Update → Prop) : Shared → Prop :=
  Relation.ReflTransGen (Move rejects) { store := .empty, callers := [] }

/-! ### The records and their callers -/

/-- What a record says. -/
def recordRow (r : Request) : Int × Status × Results := (r.id, r.status, r.results)

/-- The records of the store are what the callers know of theirs, each under a number of its own. -/
structure Consistent (rejects : Update → Prop) (s : Shared) : Prop where
  path : ∀ c ∈ s.callers, Path (create c.options c.user c.workspace c.prompt) c.log c.rest
  ids : (s.store.requests.map (·.id)).Nodup
  rows : (s.store.requests.map recordRow).Perm (s.callers.filterMap (row ·.log))
  turnedDown : ∀ c ∈ s.callers, ∀ x ∈ sent c.log, x.taken = false → rejects x.update

variable {rejects : Update → Prop} {s s' : Shared} {store store' : Store}
  {before after : List Caller} {c c' : Caller}

theorem consistent_start : Consistent rejects { store := .empty, callers := [] } where
  path := by simp
  ids := .nil
  rows := .nil
  turnedDown := by simp

theorem filterMap_between {α β : Type} (f : α → Option β) (before after : List α) (a : α) :
    (before ++ a :: after).filterMap f =
      before.filterMap f ++ ((f a).toList ++ after.filterMap f) := by
  rw [List.filterMap_append, List.filterMap_cons]
  cases f a <;> rfl

theorem perm_exchange {α : Type} {a b : α} {l₁ l₂ m₁ m₂ : List α}
    (h : (l₁ ++ a :: l₂).Perm (m₁ ++ a :: m₂)) : (l₁ ++ b :: l₂).Perm (m₁ ++ b :: m₂) := by
  have hrest : (l₁ ++ l₂).Perm (m₁ ++ m₂) :=
    (List.perm_cons a).1 (List.perm_middle.symm.trans (h.trans List.perm_middle))
  exact List.perm_middle.trans ((hrest.cons b).trans List.perm_middle.symm)

/-- One caller is replaced by one that knows of the changes of the store. -/
theorem Consistent.replace (h : Consistent rejects ⟨store, before ++ c :: after⟩)
    (path : Path (create c'.options c'.user c'.workspace c'.prompt) c'.log c'.rest)
    (ids : (store'.requests.map (·.id)).Nodup)
    (rows : (store.requests.map recordRow).Perm
        (before.filterMap (row ·.log) ++ ((row c.log).toList ++ after.filterMap (row ·.log))) →
      (store'.requests.map recordRow).Perm
        (before.filterMap (row ·.log) ++ ((row c'.log).toList ++ after.filterMap (row ·.log))))
    (turnedDown : ∀ x ∈ sent c'.log, x.taken = false → rejects x.update) :
    Consistent rejects ⟨store', before ++ c' :: after⟩ := by
  have hmem {c₁ : Caller} (hc : c₁ ∈ before ++ c' :: after) :
      c₁ = c' ∨ c₁ ∈ before ++ c :: after := by
    simp only [List.mem_append, List.mem_cons] at hc ⊢
    tauto
  refine ⟨fun c₁ hc => ?_, ids, ?_, fun c₁ hc => ?_⟩
  · rcases hmem hc with rfl | hc
    · exact path
    · exact h.path c₁ hc
  · rw [filterMap_between]
    exact rows (by rw [← filterMap_between]; exact h.rows)
  · rcases hmem hc with rfl | hc
    · exact turnedDown
    · exact h.turnedDown c₁ hc

theorem mem_sent_concat {x : Sent} {e : Event} {es : List Event} :
    x ∈ sent (es ++ [e]) ↔ x ∈ sent es ∨ e.sent? = some x := by
  rw [sent_append, List.mem_append]
  exact or_congr_right (by simp [sent])

theorem quiet_of_keeps {q : Call} (r : q.Reply) (keeps : q.changes = false) :
    Event.created? ⟨q, r⟩ = none ∧ Event.sent? ⟨q, r⟩ = none := by
  cases q <;> first | exact ⟨rfl, rfl⟩ | cases keeps

section Reply

variable {q : Call} {next : q.Reply → Course (Except Error Answer)} {r : q.Reply}

/-- An answer that changes no record. -/
theorem Consistent.unchanged (h : Consistent rejects ⟨store, before ++ c :: after⟩)
    (asks : c.rest = .ask q next) (hcreated : Event.created? ⟨q, r⟩ = none)
    (hsent : ∀ x, Event.sent? ⟨q, r⟩ = some x → x.taken = false ∧ rejects x.update) :
    Consistent rejects ⟨store, before ++ c.told ⟨q, r⟩ (next r) :: after⟩ := by
  have hpath := h.path c (by simp)
  rw [asks] at hpath
  have hrow : row (c.told ⟨q, r⟩ (next r)).log = row c.log :=
    row_concat hcreated fun x hx => (hsent x hx).1
  refine h.replace (hpath.concat r) h.ids (fun hrows => by rwa [hrow]) fun x hx htaken => ?_
  rcases mem_sent_concat.1 hx with hx | hx
  · exact h.turnedDown c (by simp) x hx htaken
  · exact (hsent x hx).2

/-- The creation of a record. -/
theorem Consistent.creation {user workspace : Int} {prompt : String} {r : Request}
    {next : Except Error Request → Course (Except Error Answer)}
    (h : Consistent rejects ⟨store, before ++ c :: after⟩)
    (asks : c.rest = .ask (.create user workspace prompt) next)
    (fresh : ∀ r' ∈ store.requests, r'.id ≠ r.id) (pending : r.status = .pending)
    (blank : r.results = .none) :
    Consistent rejects ⟨{ requests := store.requests ++ [r] },
      before ++ c.told ⟨.create user workspace prompt, .ok r⟩ (next (.ok r)) :: after⟩ := by
  have hpath := h.path c (by simp)
  rw [asks] at hpath
  obtain ⟨huncreated, hunsent⟩ := (path_standing hpath).of_create
  have hbefore : row c.log = none := by simp [row, huncreated]
  have hafter : row (c.told ⟨.create user workspace prompt, .ok r⟩ (next (.ok r))).log =
      some (recordRow r) := by
    have howned : created (c.told ⟨.create user workspace prompt, .ok r⟩ (next (.ok r))).log =
        some r.id := by
      unfold created at huncreated ⊢
      rw [Caller.told, List.findSome?_append, huncreated]
      rfl
    have hnone : sent (c.told ⟨.create user workspace prompt, .ok r⟩ (next (.ok r))).log = [] := by
      rw [Caller.told, sent_append, hunsent]
      rfl
    rw [row_of_pending howned (by simp [hnone]), recordRow, pending, blank]
  refine h.replace (hpath.concat (.ok r)) ?_ (fun hrows => ?_) fun x hx htaken => ?_
  · have hnew : r.id ∉ store.requests.map (·.id) := by
      intro hmem
      obtain ⟨r', hr', hid⟩ := List.mem_map.1 hmem
      exact fresh r' hr' hid
    rw [List.map_append, List.map_singleton]
    exact (List.perm_append_singleton _ _).nodup_iff.2 (List.nodup_cons.2 ⟨hnew, h.ids⟩)
  · rw [hbefore] at hrows
    rw [hafter, List.map_append, List.map_singleton]
    have hcons : (store.requests.map recordRow ++ [recordRow r]).Perm
        (recordRow r :: (before.filterMap (row ·.log) ++ after.filterMap (row ·.log))) :=
      (List.perm_append_singleton _ _).trans (hrows.cons _)
    exact hcons.trans List.perm_middle.symm
  · rcases mem_sent_concat.1 hx with hx | hx
    · exact h.turnedDown c (by simp) x hx htaken
    · cases hx

/-- The update of the caller's own record, which is still pending and so takes it. -/
theorem Consistent.completion {id : Int} {u : Update}
    {next : Except Error Unit → Course (Except Error Answer)} (now : Moment)
    (h : Consistent rejects ⟨store, before ++ c :: after⟩)
    (asks : c.rest = .ask (.complete id u) next) :
    Consistent rejects ⟨(store.complete id u now).2, before ++
      c.told ⟨.complete id u, (store.complete id u now).1⟩ (next (store.complete id u now).1) ::
        after⟩ := by
  have hpath := h.path c (by simp)
  rw [asks] at hpath
  obtain ⟨howned, huntaken⟩ := (path_standing hpath).of_complete
  have hbefore : row c.log = some (id, .pending, .none) := row_of_pending howned huntaken
  -- what the caller knows is in the store, and under its number there is nothing else
  have hmem : (id, Status.pending, Results.none) ∈ store.requests.map recordRow :=
    h.rows.mem_iff.2 (List.mem_filterMap.2 ⟨c, by simp, hbefore⟩)
  obtain ⟨r, hr, hrow⟩ := List.mem_map.1 hmem
  obtain ⟨rfl, hpending, hblank⟩ : r.id = id ∧ r.status = .pending ∧ r.results = .none := by
    simpa [recordRow] using hrow
  have hids : (store.requests.map (·.id)).Nodup := h.ids
  obtain ⟨rs, hrs⟩ : ∃ rs, Store.completeIn r.id u now store.requests = .ok rs :=
    Store.completeIn_of_pending hids hr hpending
  obtain ⟨first, r', last, hsplit, hid, -, rfl⟩ := Store.completeIn_eq_ok hrs
  have hsame : r' = r := List.inj_on_of_nodup_map hids (by simp [hsplit]) hr hid
  subst hsame
  have hcomplete : store.complete r'.id u now =
      (.ok (), { requests := first ++ Store.applied u now r' :: last }) := by
    simp only [Store.complete, hrs]
  rw [hcomplete]
  have hafter : row (c.told ⟨.complete r'.id u, .ok ()⟩ (next (.ok ()))).log =
      some (recordRow (Store.applied u now r')) := by
    have hstill : created (c.told ⟨.complete r'.id u, .ok ()⟩ (next (.ok ()))).log = some r'.id := by
      rw [Caller.told, created_append (by simp [Call.part]), howned]
    have hnone : (sent c.log).find? (·.taken) = none := by simpa using huntaken
    refine row_of_taken (x := ⟨r'.id, u, true⟩) hstill ?_
    rw [Caller.told, sent_append, List.find?_append, hnone]
    rfl
  refine h.replace (hpath.concat (.ok ())) ?_ (fun hrows => ?_) fun x hx htaken => ?_
  · simpa [hsplit, Store.applied] using hids
  · rw [hsplit, hbefore, ← hrow, List.map_append, List.map_cons] at hrows
    rw [hafter, List.map_append, List.map_cons]
    exact perm_exchange hrows
  · rcases mem_sent_concat.1 hx with hx | hx
    · exact h.turnedDown c (by simp) x hx htaken
    · cases hx
      cases htaken

end Reply

theorem Move.consistent (move : Move rejects s s') (h : Consistent rejects s) :
    Consistent rejects s' := by
  cases move with
  | call o user workspace prompt =>
    refine ⟨fun c hc => ?_, h.ids, ?_, fun c hc => ?_⟩
    · rcases List.mem_append.1 hc with hc | hc
      · exact h.path c hc
      · obtain rfl := List.mem_singleton.1 hc
        exact .here
    · have hnone : row (Caller.start o user workspace prompt).log = none := rfl
      simpa [List.filterMap_append, hnone] using h.rows
    · rcases List.mem_append.1 hc with hc | hc
      · exact h.turnedDown c hc
      · obtain rfl := List.mem_singleton.1 hc
        simp [Caller.start, sent]
  | reply asks answers =>
    cases answers with
    | created r fresh pending blank => exact h.creation asks fresh pending blank
    | uncreated e => exact h.unchanged asks rfl (by simp [Event.sent?])
    | completed now => exact h.completion now asks
    | rejected e allowed =>
      refine h.unchanged asks rfl fun x hx => ?_
      cases hx
      exact ⟨rfl, allowed⟩
    | other _ keeps =>
      obtain ⟨hcreated, hsent⟩ := quiet_of_keeps _ keeps
      exact h.unchanged asks hcreated (by simp [hsent])

theorem Reachable.consistent (h : Reachable rejects s) : Consistent rejects s := by
  induction h with
  | refl => exact consistent_start
  | tail _ move ih => exact move.consistent ih

end Querent.Pipeline
