import Querent.Proofs.Pipeline.Isolation

/-! Visits by strangers. They store nothing, but the limiter counts them: it is asked before anyone
looks who owns the workspace. Where it turns the owner away on their account, the owner notices, and
not otherwise. -/
namespace Querent.Pipeline

/-- Whether a user is known to own a workspace. -/
def Collaborators.owns (w : Collaborators) (user workspace : Int) : Bool :=
  match w.isOwner user workspace with
  | .ok owns => owns
  | .error _ => false

/-- Whether somebody visits a workspace of another. -/
def Visit.strange (v : Visit) (w : Collaborators) : Bool := !w.owns v.user v.workspace

/-- The visits that stay if those of strangers to a workspace are left out. -/
def stays (w : Collaborators) (workspace : Int) (v : Visit) : Bool :=
  !(v.workspace == workspace && v.strange w)

variable {w : Collaborators} {o : Options} {v : Visit} {vs vs' : List Visit} {m m' : Memory}
  {R : Int → Int → Prop} {P : Int → Bool} {workspace : Int} {since : Nat}

theorem owned_of_strange (h : v.strange w = true) : ∃ e, owned w v.user v.workspace = .error e := by
  unfold Visit.strange Collaborators.owns at h
  unfold owned
  rcases hanswer : w.isOwner v.user v.workspace with e | _ | _
  · exact ⟨e, rfl⟩
  · exact ⟨_, rfl⟩
  · simp [hanswer] at h

/-- A stranger gets nothing but an error, and of the memory the limiter alone is changed. -/
theorem run_strange (numbered : m.store.Numbered) (h : v.strange w = true) :
    (∃ e, (v.run w o m).1 = .error e) ∧ (v.run w o m).2 = v.checked m := by
  obtain ⟨e, howned⟩ := owned_of_strange h
  cases hop : v.operation with
  | read lookup =>
    rw [run_read hop]
    refine ⟨?_, rfl⟩
    unfold entered
    rw [howned]
    cases v.allowed m
    · exact ⟨_, rfl⟩
    · exact ⟨e, rfl⟩
  | create prompt =>
    have hrefused : ∃ e, admitted w v.user v.workspace prompt = .error e := by
      unfold admitted
      rw [howned]
      cases checkPrompt prompt with
      | error e => exact ⟨e, rfl⟩
      | ok _ => exact ⟨e, rfl⟩
    obtain ⟨e, hrefused⟩ := hrefused
    rw [run_create hop numbered, hrefused]
    cases v.allowed m
    · exact ⟨⟨_, rfl⟩, rfl⟩
    · exact ⟨⟨e, rfl⟩, rfl⟩

/-- Where the limiter lets the owner through in spite of all strangers, it does so without them. -/
theorem allowed_unhindered (numbered : m.store.Numbered) (numbered' : m'.store.Numbered)
    (same : ∀ other, other ≠ workspace → Limiter.SameTimes m.limiter m'.limiter other since)
    (more : Limiter.MoreTimes m.limiter m'.limiter workspace since)
    (peers : Limiter.Peers m.limiter m'.limiter since) (hsince : ∀ v ∈ vs, since ≤ v.time)
    (inOrder : InOrder vs) (hvs : List.Forall₂ (SameVisit R) (vs.filter (stays w workspace)) vs')
    (hall : ∀ e ∈ (log w o vs m).filter (stays w workspace ·.visit),
      e.visit.workspace = workspace → e.allowed = true) :
    ((log w o vs m).filter (stays w workspace ·.visit)).map (·.allowed) =
      (log w o vs' m').map (·.allowed) := by
  induction vs generalizing m m' vs' since with
  | nil =>
    cases hvs
    rfl
  | cons v vs ih =>
    obtain ⟨hfirst, hrest⟩ := List.pairwise_cons.1 inOrder
    have hle : since ≤ v.time := hsince v List.mem_cons_self
    rw [log_cons] at hall ⊢
    by_cases hv : stays w workspace v = true
    · rw [List.filter_cons_of_pos (by simpa using hv)] at hvs hall ⊢
      obtain ⟨hallowed, hall⟩ := List.forall_mem_cons.1 hall
      cases hvs with
      | @cons _ v' _ vs' hvisit hvs =>
        have hallowed' : v'.allowed m' = v.allowed m := by
          by_cases hworkspace : v.workspace = workspace
          · subst hworkspace
            have hless := more.allowed peers hle (hallowed rfl)
            rw [hvisit.workspace, hvisit.time] at hless
            exact hless.trans (hallowed rfl).symm
          · exact (allowed_eq hvisit (same _ hworkspace) peers hle).symm
        have hlimiter' : (v'.run w o m').2.limiter =
            (m'.limiter.check v.workspace v.time).2 := by
          rw [run_limiter numbered', ← hvisit.workspace, ← hvisit.time]
        rw [log_cons, List.map_cons, List.map_cons, hallowed']
        refine congrArg _ (ih (run_numbered numbered) (run_numbered numbered') ?_ ?_ ?_ hfirst hrest
          hvs hall)
        all_goals rw [run_limiter numbered, hlimiter']
        · intro other hother
          exact (same other hother).check peers hle v.workspace
        · refine more.check peers hle fun hworkspace => ?_
          rw [← hworkspace]
          exact hallowed hworkspace
        · exact peers.check hle v.workspace
    · rw [List.filter_cons_of_neg (by simpa using hv)] at hvs hall ⊢
      have hworkspace : v.workspace = workspace := by
        by_contra hne
        exact hv (by simp [stays, hne])
      refine ih (run_numbered numbered) numbered' ?_ ?_ ?_ hfirst hrest hvs hall
      all_goals rw [run_limiter numbered]
      · intro other hother
        exact (same other hother).check_left peers hle (by rwa [hworkspace])
      · exact more.check_left peers hle v.workspace
      · exact peers.check_left hle v.workspace

/-- With all requests in place every number stands for itself. -/
theorem numbering_eq {s : Store} (numbered : s.Numbered) :
    Numbering Eq ((keptOf (fun _ => true) s).map (·.id)) where
  place n i hn := by
    have hall : keptOf (fun _ => true) s = s.requests := List.filter_eq_self.2 fun _ _ => rfl
    rw [hall, numbered] at hn
    simp only [List.getElem?_map, Option.map_eq_some_iff] at hn
    obtain ⟨k, hk, rfl⟩ := hn
    obtain ⟨-, rfl⟩ := List.getElem?_eq_some_iff.1 hk
    simp
  faithful _ h h' := by rw [h, h']

/-- Strangers store nothing, and the only trace of their visits is that the limiter was asked. What
everybody else is told is the same without them where the limiter decides alike; it does where it turns
no visit of the owner away. -/
theorem same_without_strangers (w : Collaborators) (o : Options) (limit window checks : Nat)
    (workspace : Int) (inOrder : InOrder vs) :
    let start := Memory.fresh limit window checks
    let among := (log w o vs start).filter (stays w workspace ·.visit)
    (∀ (v : Visit) (m : Memory), m.store.Numbered → v.strange w = true →
      (∃ e, (v.run w o m).1 = .error e) ∧
      (v.run w o m).2 = { m with limiter := (m.limiter.check v.workspace v.time).2 }) ∧
    ∀ vs', List.Forall₂ (SameVisit Eq) (vs.filter (stays w workspace)) vs' →
      let alone := log w o vs' start
      (among.map (·.allowed) = alone.map (·.allowed) →
        List.Forall₂ (SameTold Eq) (among.map (·.told)) (alone.map (·.told))) ∧
      ((∀ e ∈ among, e.visit.workspace = workspace → e.allowed = true) →
        among.map (·.allowed) = alone.map (·.allowed)) := by
  intro start among
  have numbered : start.store.Numbered := Store.numbered_empty
  refine ⟨fun v m numbered => run_strange numbered, fun vs' hvs => ⟨fun hallowed => ?_, ?_⟩⟩
  · have hsame : SameStores Eq (fun _ => true) start.store start.store := .nil
    refine hsame.log (stays w workspace) numbered numbered
      (numbering_eq (after_numbered vs numbered)) rfl (fun _ _ _ => rfl) ?_ hvs hallowed
    · intro v _ hv m numbered
      have hstrange : v.strange w = true := by
        unfold stays at hv
        simp at hv
        exact hv.2
      rw [(run_strange numbered hstrange).2]
      rfl
  · have hfit : start.limiter.Fit 0 := (Limiter.tracks_fresh limit window checks).fit
    exact allowed_unhindered numbered numbered (fun _ _ _ _ => rfl)
      (Limiter.MoreTimes.of_same fun _ _ => rfl) (Limiter.peers_self hfit)
      (fun _ _ => Nat.zero_le _) inOrder hvs

/-- The first user owns every workspace. -/
def ownedByFirst : Collaborators := { bare with isOwner user _ := .ok (user == 1) }

def afterStranger : List Visit :=
  [visitAt 2 1 (.read .latest) 0 "r-1", visitAt 1 1 (.read .latest) 1 "r-2"]

def withoutStranger : List Visit := [visitAt 1 1 (.read .latest) 1 "r-3"]

theorem sameVisit_withoutStranger : List.Forall₂ (SameVisit Eq)
    (afterStranger.filter (stays ownedByFirst 1)) withoutStranger :=
  .cons ⟨rfl, rfl, rfl, .read .latest⟩ .nil

theorem inOrder_afterStranger : InOrder afterStranger := by
  simp [InOrder, afterStranger, Visit.time, visitAt]

/-- With two places in the window the stranger is not in the way. -/
theorem strangers_unnoticed :
    InOrder afterStranger ∧
      List.Forall₂ (SameTold Eq)
        (((log ownedByFirst .standard afterStranger (.fresh 2 60000 0)).filter
          (stays ownedByFirst 1 ·.visit)).map (·.told))
        ((log ownedByFirst .standard withoutStranger (.fresh 2 60000 0)).map (·.told)) ∧
      ∃ e, (log ownedByFirst .standard afterStranger (.fresh 2 60000 0)).map (·.told) =
        [.error e, .error (.notFound "No requests yet")] := by
  obtain ⟨-, hrest⟩ := same_without_strangers ownedByFirst .standard 2 60000 0 1 inOrder_afterStranger
  obtain ⟨hsame, hallowed⟩ := hrest withoutStranger sameVisit_withoutStranger
  have hall : ∀ e ∈ (log ownedByFirst .standard afterStranger (.fresh 2 60000 0)).filter
      (stays ownedByFirst 1 ·.visit), e.visit.workspace = 1 → e.allowed = true := by
    intro e he _
    obtain rfl : e = _ := List.mem_singleton.1 he
    rfl
  exact ⟨inOrder_afterStranger, hsame (hallowed hall), .notFound "Workspace not found", rfl⟩

/-- With one place the stranger takes it, and the owner is turned away. -/
theorem stranger_in_the_way :
    InOrder afterStranger ∧
      (log ownedByFirst .standard afterStranger (.fresh 1 60000 0)).map (·.told) =
        [.error (.notFound "Workspace not found"), .error (.rateLimited 1)] ∧
      (log ownedByFirst .standard withoutStranger (.fresh 1 60000 0)).map (·.told) =
        [.error (.notFound "No requests yet")] ∧
      ¬ List.Forall₂ (SameTold Eq)
        (((log ownedByFirst .standard afterStranger (.fresh 1 60000 0)).filter
          (stays ownedByFirst 1 ·.visit)).map (·.told))
        ((log ownedByFirst .standard withoutStranger (.fresh 1 60000 0)).map (·.told)) := by
  refine ⟨inOrder_afterStranger, rfl, rfl, ?_⟩
  intro hsame
  cases hsame with
  | cons hfirst _ => nomatch hfirst

end Querent.Pipeline
