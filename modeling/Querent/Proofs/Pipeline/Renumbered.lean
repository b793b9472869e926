import Mathlib.Data.List.Forall2
import Querent.Proofs.Pipeline.Visits

/-! Two histories of which one leaves out visits. What is told in both is the same up to the numbers of
the requests, provided that the limiter decides the common visits alike and that what is left out
stores nothing for the workspaces looked at. -/
namespace Querent.Pipeline

/-! ### Things that are the same up to the numbers of requests -/

section Same

variable (R : Int → Int → Prop)

/-- The name of a response is a new one each time. -/
structure SameAnswer (a a' : Answer) : Prop where
  request : R a.request a'.request
  status : a.status = a'.status
  response : a.response.isSome = a'.response.isSome
  prompt : a.prompt = a'.prompt
  sql : a.sql = a'.sql
  text : a.text = a'.text
  table : a.table = a'.table
  graph : a.graph = a'.graph

inductive SameTold : Told → Told → Prop
  | error (e : Error) : SameTold (.error e) (.error e)
  | ok {as as' : List Answer} (answers : List.Forall₂ (SameAnswer R) as as') :
      SameTold (.ok as) (.ok as')

inductive SameLookup : Lookup → Lookup → Prop
  | one {id id' : Int} (number : R id id') : SameLookup (.one id) (.one id')
  | latest : SameLookup .latest .latest
  | all : SameLookup .all .all

inductive SameOperation : Operation → Operation → Prop
  | create (prompt : String) : SameOperation (.create prompt) (.create prompt)
  | read {lookup lookup' : Lookup} (same : SameLookup R lookup lookup') :
      SameOperation (.read lookup) (.read lookup')

/-- The time of the visit is the same; the clocks may go on as they like after it. -/
structure SameVisit (v v' : Visit) : Prop where
  user : v.user = v'.user
  workspace : v.workspace = v'.workspace
  time : v.time = v'.time
  operation : SameOperation R v.operation v'.operation

/-- The times of a record are of no account: nobody is told them. -/
structure SameRecord (r r' : Request) : Prop where
  id : R r.id r'.id
  user : r.user = r'.user
  workspace : r.workspace = r'.workspace
  prompt : r.prompt = r'.prompt
  status : r.status = r'.status
  results : r.results = r'.results

end Same

/-- The records of some workspaces. -/
def keptOf (P : Int → Bool) (s : Store) : List Request := s.requests.filter fun r => P r.workspace

/-- The records of some workspaces in one store are those of another. -/
def SameStores (R : Int → Int → Prop) (P : Int → Bool) (s s' : Store) : Prop :=
  List.Forall₂ (SameRecord R) (keptOf P s) s'.requests

/-- Some numbers, one after the other, stand for those from one on, and no others do. -/
structure Numbering (R : Int → Int → Prop) (ids : List Int) : Prop where
  place : ∀ (n : Nat) i, ids[n]? = some i → R i (n + 1)
  faithful : ∀ {i i' j j'}, i ∈ ids → R i i' → R j j' → (i = j ↔ i' = j')

variable {R : Int → Int → Prop} {P : Int → Bool} {ids : List Int} {workspace : Int} {s s' : Store}
  {r r' : Request} {w : Collaborators} {o : Options} {v v' : Visit} {m m' : Memory}

/-! ### Reading -/

theorem forall₂_find? {α β : Type} {S : α → β → Prop} {p : α → Bool} {p' : β → Bool} {l : List α}
    {l' : List β} (h : List.Forall₂ S l l') (hp : ∀ a ∈ l, ∀ a', S a a' → p a = p' a') :
    Option.Rel S (l.find? p) (l'.find? p') := by
  induction h with
  | nil => exact .none
  | @cons a a' l l' hfirst _ ih =>
    obtain ⟨hsame, hrest⟩ := List.forall_mem_cons.1 hp
    rw [List.find?_cons, List.find?_cons, ← hsame a' hfirst]
    cases p a
    · exact ih hrest
    · exact .some hfirst

theorem SameRecord.ofRequest (h : SameRecord R r r') (withPrompt : Bool) :
    SameAnswer R (.ofRequest r withPrompt) (.ofRequest r' withPrompt) := by
  constructor
  case request => exact h.id
  all_goals simp [Answer.ofRequest, h.status, h.prompt, h.results]

theorem sameTold_shown {found found' : Option Request} (e : Error)
    (h : Option.Rel (SameRecord R) found found') :
    SameTold R ((shown e found).map ([·])) ((shown e found').map ([·])) := by
  cases h with
  | none => exact .error e
  | some h => exact .ok (.cons (h.ofRequest false) .nil)

namespace SameStores

theorem newest (h : SameStores R P s s') (hP : P workspace = true) :
    List.Forall₂ (SameRecord R) (s.newest workspace) (s'.newest workspace) := by
  have hkept : s.newest workspace = (keptOf P s).reverse.filter (·.workspace == workspace) := by
    unfold Store.newest keptOf
    rw [← List.filter_reverse, List.filter_filter]
    refine List.filter_congr fun r _ => ?_
    by_cases hr : r.workspace = workspace <;> simp [hr, hP]
  rw [hkept]
  refine List.rel_filter ?_ (List.rel_reverse h)
  intro r r' hr
  simp only [hr.workspace]

theorem find (h : SameStores R P s s') (hP : P workspace = true) (numbering : Numbering R ids)
    (hids : ∀ r ∈ keptOf P s, r.id ∈ ids) {id id' : Int} (hid : R id id') :
    Option.Rel (SameRecord R) (s.find workspace id) (s'.find workspace id') := by
  have hkept : s.find workspace id =
      (keptOf P s).find? fun r => r.id == id && r.workspace == workspace := by
    unfold Store.find keptOf
    rw [List.find?_filter]
    congr 1
    funext r
    rw [Bool.eq_iff_iff]
    by_cases hr : r.workspace = workspace <;> simp [hr, hP]
  rw [hkept]
  apply forall₂_find? h
  intro r hr r' hsame
  have hnumber : r.id = id ↔ r'.id = id' := numbering.faithful (hids r hr) hsame.id hid
  rw [hsame.workspace, Bool.eq_iff_iff]
  simp [hnumber]

theorem found (h : SameStores R P s s') (hP : P workspace = true) (numbering : Numbering R ids)
    (hids : ∀ r ∈ keptOf P s, r.id ∈ ids) {lookup lookup' : Lookup}
    (hlookup : SameLookup R lookup lookup') :
    SameTold R (lookup.found s workspace) (lookup'.found s' workspace) := by
  cases hlookup with
  | one number => exact sameTold_shown _ (h.find hP numbering hids number)
  | latest =>
    refine sameTold_shown _ ?_
    have hnewest := h.newest hP
    unfold Store.latest
    generalize s.newest workspace = rs, s'.newest workspace = rs' at hnewest
    cases hnewest with
    | nil => exact .none
    | cons hfirst _ => exact .some hfirst
  | all =>
    have htold : Relator.LiftFun (SameRecord R) (SameAnswer R) (Answer.ofRequest · true)
        (Answer.ofRequest · true) := fun _ _ hr => hr.ofRequest true
    exact .ok (List.rel_map htold (List.forall₂_take _ (h.newest hP)))

end SameStores

/-! ### One visit in both -/

theorem sameTold_entered {x x' : Told} (hv : SameVisit R v v')
    (hallowed : v.allowed m = v'.allowed m') (h : SameTold R x x') :
    SameTold R (entered w v m x) (entered w v' m' x') := by
  unfold entered
  rw [← hallowed, ← hv.workspace, ← hv.user]
  cases v.allowed m
  · exact .error _
  · cases owned w v.user v.workspace with
    | error e => exact .error e
    | ok _ => exact h

theorem sameTold_ended {id id' : Int} (response response' : String) (x : Except Failure Outcome)
    (hid : R id id') : SameTold R (ended id response x) (ended id' response' x) := by
  cases x with
  | error f => exact .error _
  | ok out => exact .ok (.cons ⟨hid, rfl, rfl, rfl, rfl, rfl, rfl, rfl⟩ .nil)

theorem sameRecord {id id' : Int} (hv : SameVisit R v v') (hid : R id id') (prompt : String)
    (x : Except Failure Outcome) : SameRecord R (v.record id prompt x) (v'.record id' prompt x) :=
  ⟨hid, hv.user, hv.workspace, rfl, rfl, rfl⟩

theorem keptOf_append {rs : List Request} {id : Int} {prompt : String}
    {x : Except Failure Outcome} (hP : P v.workspace = true) :
    keptOf P { requests := rs ++ [v.record id prompt x] } =
      keptOf P { requests := rs } ++ [v.record id prompt x] := by
  simp [keptOf, Visit.record, hP]

/-- A new record gets numbers that stand for each other. -/
theorem Numbering.next (numbering : Numbering R ids) (h : SameStores R P s s')
    (hids : (keptOf P s ++ [r]).map (·.id) <+: ids) : R r.id (s'.requests.length + 1) := by
  obtain ⟨rest, hrest⟩ := hids
  have hlength : (keptOf P s).length = s'.requests.length := h.length_eq
  rw [← hlength]
  apply numbering.place
  simp [← hrest]

/-- A visit of the workspaces looked at, made in both histories. -/
theorem SameStores.run (h : SameStores R P m.store m'.store) (numbered : m.store.Numbered)
    (numbered' : m'.store.Numbered) (numbering : Numbering R ids)
    (hids : (keptOf P (v.run w o m).2.store).map (·.id) <+: ids) (hP : P v.workspace = true)
    (hv : SameVisit R v v') (hallowed : v.allowed m = v'.allowed m') :
    SameTold R (v.run w o m).1 (v'.run w o m').1 ∧
      SameStores R P (v.run w o m).2.store (v'.run w o m').2.store := by
  have hoperation := hv.operation
  generalize hop : v.operation = op, hop' : v'.operation = op' at hoperation
  cases hoperation with
  | read same =>
    rw [run_read hop] at hids
    rw [run_read hop, run_read hop', ← hv.workspace]
    have hmem : ∀ r ∈ keptOf P m.store, r.id ∈ ids :=
      fun r hr => hids.subset (List.mem_map_of_mem hr)
    exact ⟨sameTold_entered hv hallowed (h.found hP numbering hmem same), h⟩
  | create prompt =>
    rw [run_create hop numbered] at hids
    rw [run_create hop numbered, run_create hop' numbered', ← hallowed, ← hv.workspace, ← hv.user]
    cases hcheck : v.allowed m with
    | false => exact ⟨.error _, h⟩
    | true =>
      cases hadmitted : admitted w v.user v.workspace prompt with
      | error e => exact ⟨.error e, h⟩
      | ok c =>
        simp only [hcheck, hadmitted, if_true] at hids
        rw [keptOf_append hP] at hids
        have hnumber := numbering.next h hids
        simp only [if_true, outcome_eq (w := w) (o := o) (m := m) m' hv.workspace prompt c]
        refine ⟨sameTold_ended _ _ _ hnumber, ?_⟩
        unfold SameStores
        rw [keptOf_append hP]
        exact List.rel_append h (.cons (sameRecord hv hnumber prompt _) .nil)

/-! ### Whole histories -/

/-- The visits that are left out store nothing for the workspaces looked at. -/
def Silent (w : Collaborators) (o : Options) (P : Int → Bool) (v : Visit) : Prop :=
  ∀ m : Memory, m.store.Numbered → keptOf P (v.run w o m).2.store = keptOf P m.store

theorem keptOf_after (P : Int → Bool) (vs : List Visit) (numbered : m.store.Numbered) :
    keptOf P m.store <+: keptOf P (after w o vs m).store :=
  (requests_after vs numbered).filter _

theorem SameStores.log (keep : Visit → Bool) {vs vs' : List Visit}
    (h : SameStores R P m.store m'.store) (numbered : m.store.Numbered)
    (numbered' : m'.store.Numbered) (numbering : Numbering R ids)
    (hids : (keptOf P (after w o vs m).store).map (·.id) = ids)
    (hkeep : ∀ v ∈ vs, keep v = true → P v.workspace = true)
    (hdrop : ∀ v ∈ vs, keep v = false → Silent w o P v)
    (hvs : List.Forall₂ (SameVisit R) (vs.filter keep) vs')
    (hallowed : ((log w o vs m).filter (keep ·.visit)).map (·.allowed) =
      (log w o vs' m').map (·.allowed)) :
    List.Forall₂ (SameTold R) (((Pipeline.log w o vs m).filter (keep ·.visit)).map (·.told))
      ((Pipeline.log w o vs' m').map (·.told)) := by
  induction vs generalizing m m' vs' with
  | nil =>
    cases hvs
    exact .nil
  | cons v vs ih =>
    obtain ⟨hkeepFirst, hkeepRest⟩ := List.forall_mem_cons.1 hkeep
    obtain ⟨hdropFirst, hdropRest⟩ := List.forall_mem_cons.1 hdrop
    rw [log_cons] at hallowed ⊢
    cases hv : keep v with
    | false =>
      rw [List.filter_cons_of_neg (by simp [hv])] at hvs hallowed ⊢
      have hsame : SameStores R P (v.run w o m).2.store m'.store := by
        unfold SameStores
        rw [hdropFirst hv m numbered]
        exact h
      exact ih hsame (run_numbered numbered) numbered' hids hkeepRest hdropRest hvs hallowed
    | true =>
      rw [List.filter_cons_of_pos (by simp [hv])] at hvs hallowed ⊢
      cases hvs with
      | @cons _ v' _ vs' hfirst hrest =>
        rw [log_cons] at hallowed ⊢
        obtain ⟨hcheck, hallowed⟩ := List.cons_eq_cons.1 hallowed
        have hlast : (keptOf P (v.run w o m).2.store).map (·.id) <+: ids := by
          rw [← hids]
          exact (keptOf_after P vs (run_numbered numbered)).map _
        obtain ⟨htold, hsame⟩ :=
          h.run numbered numbered' numbering hlast (hkeepFirst hv) hfirst hcheck
        exact .cons htold (ih hsame (run_numbered numbered) (run_numbered numbered') hids
          hkeepRest hdropRest hrest hallowed)

end Querent.Pipeline
