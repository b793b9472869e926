import Mathlib.Data.List.Sort
import Querent.Proofs.Limiter.Peers
import Querent.Proofs.Limiter.Window
import Querent.Proofs.Pipeline.Lifecycle
import Querent.Proofs.Pipeline.Renumbered

/-! Workspaces by themselves. What is told about one workspace is what would be told if nobody had ever
come to another, up to the numbers of the requests, and only its own requests are told about. -/
namespace Querent.Pipeline

/-- The limiter's clock does not go back from one visit to the next. -/
def InOrder (vs : List Visit) : Prop := vs.Pairwise fun v v' => v.time ≤ v'.time

/-- A memory before the first visit. -/
def Memory.fresh (limit window checks : Nat) : Memory :=
  { limiter := .fresh limit window checks, store := .empty }

variable {w : Collaborators} {o : Options} {v : Visit} {vs vs' : List Visit} {m m' : Memory}
  {R : Int → Int → Prop} {P : Int → Bool} {workspace i i' j j' : Int} {ids : List Int} {since : Nat}

/-! ### Numbers by their place -/

/-- The n-th of some numbers stands for n, and any other for one past them. -/
def Place (ids : List Int) (i i' : Int) : Prop :=
  (∃ n : Nat, ids[n]? = some i ∧ i' = n + 1) ∨ (i ∉ ids ∧ ∀ n < ids.length, i' ≠ n + 1)

theorem exists_place (ids : List Int) (i : Int) : ∃ i', Place ids i i' := by
  by_cases hi : i ∈ ids
  · obtain ⟨n, hn⟩ := List.mem_iff_getElem?.1 hi
    exact ⟨n + 1, .inl ⟨n, hn, rfl⟩⟩
  · exact ⟨0, .inr ⟨hi, fun n _ => by omega⟩⟩

theorem Place.of_mem (h : Place ids i i') (hi : i ∈ ids) :
    ∃ n : Nat, ids[n]? = some i ∧ i' = n + 1 := by
  rcases h with hplace | ⟨hnone, -⟩
  · exact hplace
  · exact absurd hi hnone

/-- Numbers in order are renumbered in order. -/
theorem Place.lt_iff (sorted : ids.Pairwise (· < ·)) (hi : i ∈ ids) (hj : j ∈ ids)
    (h : Place ids i i') (h' : Place ids j j') : i < j ↔ i' < j' := by
  obtain ⟨n, hn, rfl⟩ := h.of_mem hi
  obtain ⟨k, hk, rfl⟩ := h'.of_mem hj
  obtain ⟨hnlt, rfl⟩ := List.getElem?_eq_some_iff.1 hn
  obtain ⟨hklt, rfl⟩ := List.getElem?_eq_some_iff.1 hk
  rw [sorted.sortedLT.getElem_lt_getElem_iff]
  omega

theorem numbering_place (nodup : ids.Nodup) : Numbering (Place ids) ids where
  place n i hn := .inl ⟨n, hn, rfl⟩
  faithful := by
    intro i i' j j' hi h h'
    obtain ⟨n, hn, rfl⟩ := h.of_mem hi
    obtain ⟨hnlt, rfl⟩ := List.getElem?_eq_some_iff.1 hn
    rcases h' with ⟨k, hk, rfl⟩ | ⟨hnone, hpast⟩
    · obtain ⟨hklt, rfl⟩ := List.getElem?_eq_some_iff.1 hk
      rw [nodup.getElem_inj_iff]
      omega
    · have hne : ids[n] ≠ j := fun heq => hnone (heq ▸ hi)
      have hne' := hpast n hnlt
      exact ⟨fun heq => absurd heq hne, fun heq => absurd heq.symm hne'⟩

theorem after_numbered (vs : List Visit) (numbered : m.store.Numbered) :
    (after w o vs m).store.Numbered := by
  induction vs generalizing m with
  | nil => exact numbered
  | cons v vs ih => exact ih (run_numbered numbered)

theorem ids_sorted {s : Store} (numbered : s.Numbered) (P : Int → Bool) :
    ((keptOf P s).map (·.id)).Pairwise (· < ·) := by
  have hall : (s.requests.map (·.id)).Pairwise (· < ·) := by
    rw [numbered, List.pairwise_map]
    exact List.pairwise_lt_range.imp fun hlt => by omega
  exact hall.sublist (List.filter_sublist.map _)

/-! ### The limiter's decisions -/

theorem allowed_eq {v v' : Visit} (hv : SameVisit R v v')
    (same : Limiter.SameTimes m.limiter m'.limiter v.workspace since)
    (peers : Limiter.Peers m.limiter m'.limiter since) (hle : since ≤ v.time) :
    v.allowed m = v'.allowed m' := by
  unfold Visit.allowed
  rw [← hv.workspace, ← hv.time]
  exact same.allowed peers hle

theorem allowed_isolated (numbered : m.store.Numbered) (numbered' : m'.store.Numbered)
    (same : Limiter.SameTimes m.limiter m'.limiter workspace since)
    (peers : Limiter.Peers m.limiter m'.limiter since) (hsince : ∀ v ∈ vs, since ≤ v.time)
    (inOrder : InOrder vs)
    (hvs : List.Forall₂ (SameVisit R) (vs.filter (·.workspace == workspace)) vs') :
    ((log w o vs m).filter (·.visit.workspace == workspace)).map (·.allowed) =
      (log w o vs' m').map (·.allowed) := by
  induction vs generalizing m m' vs' since with
  | nil =>
    cases hvs
    rfl
  | cons v vs ih =>
    obtain ⟨hfirst, hrest⟩ := List.pairwise_cons.1 inOrder
    have hle : since ≤ v.time := hsince v List.mem_cons_self
    rw [log_cons]
    by_cases hv : v.workspace = workspace
    · subst hv
      rw [List.filter_cons_of_pos (by simp)] at hvs ⊢
      cases hvs with
      | @cons _ v' _ vs' hvisit hvs =>
        rw [log_cons, List.map_cons, List.map_cons, allowed_eq hvisit same peers hle]
        have hlimiter' : (v'.run w o m').2.limiter =
            (m'.limiter.check v.workspace v.time).2 := by
          rw [run_limiter numbered', ← hvisit.workspace, ← hvisit.time]
        rw [ih (run_numbered numbered) (run_numbered numbered') ?_ ?_ hfirst hrest hvs]
        · rw [run_limiter numbered, hlimiter']
          exact same.check peers hle v.workspace
        · rw [run_limiter numbered, hlimiter']
          exact peers.check hle v.workspace
    · rw [List.filter_cons_of_neg (by simpa using hv)] at hvs ⊢
      refine ih (run_numbered numbered) numbered' ?_ ?_ hfirst hrest hvs
      · rw [run_limiter numbered]
        exact same.check_left peers hle fun heq => hv heq.symm
      · rw [run_limiter numbered]
        exact peers.check_left hle v.workspace

/-! ### What answers show -/

/-- An answer about a request. A table is told as the request was answered first, or as it is read from
what was stored. -/
structure Shows (a : Answer) (r : Request) : Prop where
  request : a.request = r.id
  status : a.status = r.status
  prompt : a.prompt = none ∨ a.prompt = some r.prompt
  sql : a.sql = r.results.sql
  text : a.text = r.results.text
  table : a.table.map Columnar.toValue = r.results.table ∨
    a.table = r.results.table.bind Columnar.ofJson?
  graph : a.graph = r.results.graph

theorem shows_ofRequest (r : Request) (withPrompt : Bool) : Shows (.ofRequest r withPrompt) r where
  request := rfl
  status := rfl
  prompt := by cases withPrompt <;> simp [Answer.ofRequest]
  sql := rfl
  text := rfl
  table := .inr rfl
  graph := rfl

theorem shows_found {lookup : Lookup} {s : Store} {as : List Answer}
    (h : lookup.found s workspace = .ok as) : ∀ a ∈ as, ∃ r ∈ s.requests,
      r.workspace = workspace ∧ Shows a r := by
  have hnewest {r : Request} (hr : r ∈ s.newest workspace) :
      r ∈ s.requests ∧ r.workspace = workspace := by
    simpa [Store.newest] using hr
  -- looking up one request
  have hone {e : Error} {found : Option Request}
      (hfound : ∀ r, found = some r → r ∈ s.requests ∧ r.workspace = workspace)
      (htold : (shown e found).map ([·]) = .ok as) : ∀ a ∈ as, ∃ r ∈ s.requests,
        r.workspace = workspace ∧ Shows a r := by
    cases found with
    | none => cases htold
    | some r =>
      obtain ⟨hmem, hworkspace⟩ := hfound r rfl
      cases htold
      intro a ha
      rw [List.mem_singleton.1 ha]
      exact ⟨r, hmem, hworkspace, shows_ofRequest r false⟩
  cases lookup with
  | one id =>
    refine hone (fun r hr => ⟨List.mem_of_find?_eq_some hr, ?_⟩) h
    have hkey := List.find?_some hr
    simp only [Bool.and_eq_true, beq_iff_eq] at hkey
    exact hkey.2
  | latest => exact hone (fun r hr => hnewest (List.mem_of_head? hr)) h
  | all =>
    cases h
    intro a ha
    obtain ⟨r, hr, rfl⟩ := List.mem_map.1 ha
    obtain ⟨hmem, hworkspace⟩ := hnewest (List.mem_of_mem_take hr)
    exact ⟨r, hmem, hworkspace, shows_ofRequest r true⟩

theorem shows_run {as : List Answer} (numbered : m.store.Numbered)
    (h : (v.run w o m).1 = .ok as) : ∀ a ∈ as, ∃ r ∈ (v.run w o m).2.store.requests,
      r.workspace = v.workspace ∧ Shows a r := by
  cases hop : v.operation with
  | read lookup =>
    rw [run_read hop] at h ⊢
    have hfound : lookup.found m.store v.workspace = .ok as := by
      unfold entered at h
      cases hallowed : v.allowed m with
      | false => simp [hallowed] at h
      | true =>
        cases howned : owned w v.user v.workspace with
        | error e => simp [hallowed, howned, Except.bind] at h
        | ok _ => simpa [hallowed, howned, Except.bind] using h
    exact shows_found hfound
  | create prompt =>
    rw [run_create hop numbered] at h ⊢
    cases hallowed : v.allowed m with
    | false => simp [hallowed] at h
    | true =>
      cases hadmitted : admitted w v.user v.workspace prompt with
      | error e => simp [hallowed, hadmitted] at h
      | ok c =>
        simp only [hallowed, hadmitted, if_true] at h ⊢
        cases houtcome : v.outcome w o prompt c m with
        | error f => simp [houtcome, ended] at h
        | ok out =>
          rw [houtcome] at h
          cases h
          intro a ha
          rw [List.mem_singleton.1 ha]
          refine ⟨v.record (m.store.requests.length + 1) prompt (.ok out), by simp, rfl, ?_⟩
          exact ⟨rfl, rfl, .inl rfl, rfl, rfl, .inl rfl, rfl⟩

theorem shows_log {e : Entry} {as : List Answer} (numbered : m.store.Numbered)
    (he : e ∈ log w o vs m) (htold : e.told = .ok as) : ∀ a ∈ as,
      ∃ r ∈ (after w o vs m).store.requests, r.workspace = e.visit.workspace ∧ Shows a r := by
  induction vs generalizing m with
  | nil => cases he
  | cons v vs ih =>
    rw [log_cons] at he
    rcases List.mem_cons.1 he with rfl | he
    · intro a ha
      obtain ⟨r, hr, hshows⟩ := shows_run numbered htold a ha
      exact ⟨r, (requests_after vs (run_numbered numbered)).subset hr, hshows⟩
    · exact ih (run_numbered numbered) he

/-! ### The main result -/

theorem silent_of_other (hP : P v.workspace = false) : Silent w o P v := by
  intro m numbered
  rcases run_snd (v := v) (w := w) (o := o) numbered with hsame | ⟨prompt, x, -, hnew⟩
  · rw [hsame]
    rfl
  · rw [hnew]
    simp [keptOf, Visit.record, hP]

/-- What is told about a workspace in a history is what is told where all visits of other workspaces
are left out, and its requests are numbered from one on in the same order. All that is ever shown of
requests there is of its own. -/
theorem isolation (w : Collaborators) (o : Options) (limit window checks : Nat) (workspace : Int)
    (inOrder : InOrder vs) :
    let start := Memory.fresh limit window checks
    let own := (after w o vs start).store.requests.filter (·.workspace == workspace)
    let ids := own.map (·.id)
    (∀ vs', List.Forall₂ (SameVisit (Place ids)) (vs.filter (·.workspace == workspace)) vs' →
      List.Forall₂ (SameTold (Place ids))
        (((log w o vs start).filter (·.visit.workspace == workspace)).map (·.told))
        ((log w o vs' start).map (·.told))) ∧
    (∀ i, ∃ i', Place ids i i') ∧
    (∀ i i' j j', i ∈ ids → j ∈ ids → Place ids i i' → Place ids j j' → (i < j ↔ i' < j')) ∧
    ∀ e ∈ log w o vs start, e.visit.workspace = workspace → ∀ as, e.told = .ok as →
      ∀ a ∈ as, ∃ r ∈ own, Shows a r := by
  intro start own ids
  have numbered : start.store.Numbered := Store.numbered_empty
  have sorted : ids.Pairwise (· < ·) := ids_sorted (after_numbered vs numbered) (· == workspace)
  refine ⟨fun vs' hvs => ?_, exists_place ids, ?_, ?_⟩
  · have hfit : start.limiter.Fit 0 := (Limiter.tracks_fresh limit window checks).fit
    have hallowed := allowed_isolated (w := w) (o := o) numbered numbered
      (fun _ _ => rfl : Limiter.SameTimes _ _ workspace 0) (Limiter.peers_self hfit)
      (fun _ _ => Nat.zero_le _) inOrder hvs
    have hsame : SameStores (Place ids) (· == workspace) start.store start.store := .nil
    refine hsame.log (·.workspace == workspace) numbered numbered
      (numbering_place sorted.nodup) rfl (fun _ _ hv => hv) ?_ hvs hallowed
    intro v _ hv
    exact silent_of_other hv
  · intro i i' j j' hi hj
    exact Place.lt_iff sorted hi hj
  · rintro e he rfl as htold a ha
    obtain ⟨r, hr, hworkspace, hshows⟩ := shows_log numbered he htold a ha
    exact ⟨r, List.mem_filter.2 ⟨hr, by simpa using hworkspace⟩, hshows⟩

def visitAt (user workspace : Int) (operation : Operation) (milliseconds : Nat)
    (response : String) : Visit where
  user := user
  workspace := workspace
  operation := operation
  clock _ := { firstMoment with milliseconds }
  response := response

def twoWorkspaces : List Visit :=
  [visitAt 1 1 (.create "how many") 0 "r-1", visitAt 2 2 (.create "how few") 1 "r-2",
    visitAt 2 2 (.read (.one 2)) 2 "r-3"]

def secondWorkspace : List Visit :=
  [visitAt 2 2 (.create "how few") 1 "r-4", visitAt 2 2 (.read (.one 1)) 2 "r-5"]

/-- The second request is the first of its workspace, and is found there under either number. -/
theorem isolation_second :
    InOrder twoWorkspaces ∧
      ((after bare .standard twoWorkspaces (.fresh 30 60000 0)).store.requests.filter
        (·.workspace == 2)).map (·.id) = [2] ∧
      List.Forall₂ (SameTold (Place [2]))
        (((log bare .standard twoWorkspaces (.fresh 30 60000 0)).filter
          (·.visit.workspace == 2)).map (·.told))
        ((log bare .standard secondWorkspace (.fresh 30 60000 0)).map (·.told)) ∧
      (log bare .standard secondWorkspace (.fresh 30 60000 0)).map (fun e =>
        e.told.toOption.map fun as => as.map fun a => (a.request, a.status, a.sql)) =
          [some [(1, .succeeded, some "SELECT 1 LIMIT 101")],
            some [(1, .succeeded, some "SELECT 1 LIMIT 101")]] := by
  have inOrder : InOrder twoWorkspaces := by
    simp [InOrder, twoWorkspaces, Visit.time, visitAt]
  have hids : ((after bare .standard twoWorkspaces (.fresh 30 60000 0)).store.requests.filter
      (·.workspace == 2)).map (·.id) = [2] := by decide +kernel
  have hplace : Place [2] 2 1 := .inl ⟨0, rfl, rfl⟩
  have hvs (ids : List Int) (h : ids = [2]) : List.Forall₂ (SameVisit (Place ids))
      (twoWorkspaces.filter (·.workspace == 2)) secondWorkspace := by
    subst h
    exact .cons ⟨rfl, rfl, rfl, .create "how few"⟩ (.cons ⟨rfl, rfl, rfl, .read (.one hplace)⟩ .nil)
  have hsame := (isolation bare .standard 30 60000 0 2 inOrder).1 secondWorkspace (hvs _ hids)
  have hshown {ids : List Int} {told told' : List Told} (h : ids = [2])
      (hs : List.Forall₂ (SameTold (Place ids)) told told') :
      List.Forall₂ (SameTold (Place [2])) told told' := h ▸ hs
  exact ⟨inOrder, hids, hshown hids hsame, by decide +kernel⟩

end Querent.Pipeline
