import Mathlib.Data.List.Nodup
import Querent.Request.Store

/-! Requests in memory: an update finds its pending request and changes no other, and new requests are
numbered from one on. -/
namespace Querent.Store

variable {id : Int} {u : Update} {now : Moment} {r : Request} {rs rs' : List Request} {s : Store}

theorem completeIn_eq_ok (h : completeIn id u now rs = .ok rs') :
    ∃ before r after, rs = before ++ r :: after ∧ r.id = id ∧ r.status = .pending ∧
      rs' = before ++ applied u now r :: after := by
  induction rs generalizing rs' with
  | nil => cases h
  | cons r rest ih =>
    unfold completeIn at h
    split at h
    next hid =>
      split at h
      next hpending =>
        cases h
        exact ⟨[], r, rest, rfl, by simpa using hid, by simpa using hpending, rfl⟩
      next => cases h
    next =>
      cases hrest : completeIn id u now rest with
      | error e => simp [hrest, Except.map] at h
      | ok rest' =>
        obtain ⟨before, r', after, rfl, hid, hpending, rfl⟩ := ih hrest
        rw [hrest] at h
        cases h
        exact ⟨r :: before, r', after, rfl, hid, hpending, rfl⟩

theorem completeIn_of_pending (ids : (rs.map (·.id)).Nodup) (hr : r ∈ rs)
    (hpending : r.status = .pending) : ∃ rs', completeIn r.id u now rs = .ok rs' := by
  induction rs with
  | nil => cases hr
  | cons r' rest ih =>
    obtain ⟨hnew, hids⟩ := List.nodup_cons.1 ids
    unfold completeIn
    rcases List.mem_cons.1 hr with rfl | hr
    · refine ⟨applied u now r :: rest, ?_⟩
      simp only [beq_self_eq_true, if_true, hpending]
    · have hother : r'.id ≠ r.id := by
        intro hid
        apply hnew
        rw [show (fun r : Request => r.id) r' = r.id from hid]
        exact List.mem_map_of_mem hr
      obtain ⟨rest', hrest⟩ := ih hids hr
      exact ⟨r' :: rest', by simp [hother, hrest, Except.map]⟩

/-! ### Numbers -/

/-- The requests are numbered from one on. -/
def Numbered (s : Store) : Prop :=
  s.requests.map (·.id) = (List.range s.requests.length).map fun n : Nat => (n : Int) + 1

theorem numbered_empty : empty.Numbered := rfl

theorem Numbered.fresh (h : s.Numbered) (hr : r ∈ s.requests) : r.id ≠ s.requests.length + 1 := by
  have hmem : r.id ∈ s.requests.map (·.id) := List.mem_map_of_mem hr
  rw [h] at hmem
  obtain ⟨n, hn, hid⟩ := List.mem_map.1 hmem
  have hlt := List.mem_range.1 hn
  omega

theorem Numbered.create (h : s.Numbered) (user workspace : Int) (prompt : String) (now : Moment) :
    (s.create user workspace prompt now).2.Numbered := by
  unfold Numbered at h ⊢
  simp [Store.create, List.range_succ, h]

theorem Numbered.complete (h : s.Numbered) (id : Int) (u : Update) (now : Moment) :
    (s.complete id u now).2.Numbered := by
  unfold Store.complete
  cases hrs : completeIn id u now s.requests with
  | error e => exact h
  | ok rs =>
    obtain ⟨before, r, after, hbefore, -, -, rfl⟩ := completeIn_eq_ok hrs
    have hids : (before ++ applied u now r :: after).map (·.id) = s.requests.map (·.id) := by
      simp [hbefore, applied]
    have hlength : (before ++ applied u now r :: after).length = s.requests.length := by
      simp [hbefore]
    unfold Numbered at h ⊢
    rw [hids, hlength, h]

theorem Numbered.ids_nodup (h : s.Numbered) : (s.requests.map (·.id)).Nodup := by
  rw [h]
  refine List.nodup_range.map fun n n' hn => ?_
  have hnext : (n : Int) + 1 = n' + 1 := hn
  omega

/-- An update changes the pending request of its number and no other. -/
theorem Numbered.complete_requests (h : s.Numbered) (id : Int) (u : Update) (now : Moment) :
    (s.complete id u now).2.requests =
      s.requests.map fun r => if r.id = id ∧ r.status = .pending then applied u now r else r := by
  have hids := h.ids_nodup
  have hkeep (rs : List Request) (hrs : ∀ r ∈ rs, ¬ (r.id = id ∧ r.status = .pending)) :
      (rs.map fun r => if r.id = id ∧ r.status = .pending then applied u now r else r) = rs :=
    (List.map_congr_left fun r hr => if_neg (hrs r hr)).trans (List.map_id rs)
  unfold Store.complete
  cases hrs : completeIn id u now s.requests with
  | error e =>
    refine (hkeep _ fun r hr ⟨hid, hpending⟩ => ?_).symm
    obtain ⟨rs', hok⟩ : ∃ rs', completeIn r.id u now s.requests = .ok rs' :=
      completeIn_of_pending hids hr hpending
    rw [hid, hrs] at hok
    cases hok
  | ok rs =>
    obtain ⟨before, r, after, hsplit, hid, hpending, rfl⟩ := completeIn_eq_ok hrs
    rw [hsplit, List.map_append, List.map_cons, List.nodup_middle, List.nodup_cons,
      List.mem_append] at hids
    have hother {r' : Request} (hr' : r' ∈ before ∨ r' ∈ after) :
        ¬ (r'.id = id ∧ r'.status = .pending) := fun hsame =>
      hids.1 (hr'.imp (fun hr' => List.mem_map.2 ⟨r', hr', hsame.1.trans hid.symm⟩) fun hr' =>
        List.mem_map.2 ⟨r', hr', hsame.1.trans hid.symm⟩)
    show before ++ applied u now r :: after = _
    rw [hsplit, List.map_append, List.map_cons, if_pos ⟨hid, hpending⟩,
      hkeep before fun r' hr' => hother (.inl hr'), hkeep after fun r' hr' => hother (.inr hr')]

/-- An update that succeeds changes one pending request. -/
theorem exists_of_complete_ok (h : (s.complete id u now).1 = .ok ()) :
    ∃ before r after, s.requests = before ++ r :: after ∧ r.id = id ∧ r.status = .pending ∧
      (s.complete id u now).2.requests = before ++ applied u now r :: after := by
  unfold Store.complete at h ⊢
  cases hrs : completeIn id u now s.requests with
  | error e => simp [hrs] at h
  | ok rs => exact completeIn_eq_ok hrs

theorem complete_of_error {e : Error} (h : (s.complete id u now).1 = .error e) :
    (s.complete id u now).2 = s := by
  unfold Store.complete at h ⊢
  cases hrs : completeIn id u now s.requests with
  | error e => rfl
  | ok rs => simp [hrs] at h

/-- An update succeeds exactly if a request of its number is pending. -/
theorem Numbered.complete_eq_ok (h : s.Numbered) : (s.complete id u now).1 = .ok () ↔
    ∃ r ∈ s.requests, r.id = id ∧ r.status = .pending := by
  constructor
  · intro hok
    obtain ⟨before, r, after, hsplit, hid, hpending, -⟩ := exists_of_complete_ok hok
    exact ⟨r, by simp [hsplit], hid, hpending⟩
  · rintro ⟨r, hr, rfl, hpending⟩
    obtain ⟨rs, hok⟩ : ∃ rs, completeIn r.id u now s.requests = .ok rs :=
      completeIn_of_pending h.ids_nodup hr hpending
    simp only [Store.complete, hok]

/-- A request is found under its number in its workspace. -/
theorem Numbered.find_of_mem (h : s.Numbered) (hr : r ∈ s.requests) :
    s.find r.workspace r.id = some r := by
  have hids := h.ids_nodup
  cases hfind : s.find r.workspace r.id with
  | none =>
    have hnone := List.find?_eq_none.1 hfind r hr
    simp at hnone
  | some r' =>
    have hsame := List.find?_some hfind
    simp only [Bool.and_eq_true, beq_iff_eq] at hsame
    rw [List.inj_on_of_nodup_map hids (List.mem_of_find?_eq_some hfind) hr hsame.1]

/-- An update leaves a request alone that is not pending. -/
theorem mem_complete (hr : r ∈ s.requests) (hended : r.status ≠ .pending) :
    r ∈ (s.complete id u now).2.requests := by
  unfold Store.complete
  cases hrs : completeIn id u now s.requests with
  | error e => exact hr
  | ok rs =>
    obtain ⟨before, r', after, hbefore, -, hpending, rfl⟩ := completeIn_eq_ok hrs
    have hne : r ≠ r' := fun heq => hended (heq ▸ hpending)
    rw [hbefore, List.mem_append, List.mem_cons] at hr
    rw [List.mem_append, List.mem_cons]
    exact hr.imp_right fun hr => .inr (hr.resolve_left hne)

end Querent.Store
