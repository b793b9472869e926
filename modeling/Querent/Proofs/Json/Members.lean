import Mathlib.Data.List.Induction
import Mathlib.Data.List.Perm.Basic
import Mathlib.Data.String.Basic
import Querent.Json.Basic

/-! Members sorted by their keys. Under distinct keys none is lost, and each is found under its own. -/
namespace Querent

variable {key : String} {v : Json} {m : String × Json} {members members' : List (String × Json)}

theorem insertMember_perm (h : key ∉ members.map (·.1)) :
    (Json.insertMember key v members).Perm ((key, v) :: members) := by
  induction members with
  | nil => exact .refl _
  | cons m members ih =>
    obtain ⟨k, w⟩ := m
    obtain ⟨hne, hrest⟩ := not_or.1 (mt List.mem_cons.2 h)
    have hkey : (key == k) = false := by simpa using hne
    unfold Json.insertMember
    rw [hkey]
    split
    · contradiction
    · split
      · exact .refl _
      · exact ((ih hrest).cons _).trans (.swap _ _ _)

/-- Members under distinct names are sorted without loss. -/
theorem sortMembers_perm (h : (members.map (·.1)).Nodup) :
    (Json.sortMembers members).Perm members := by
  induction members using List.reverseRecOn with
  | nil => exact .refl _
  | append_singleton members m ih =>
    have hlast : Json.sortMembers (members ++ [m]) =
        Json.insertMember m.1 m.2 (Json.sortMembers members) := by
      simp [Json.sortMembers, List.foldl_append]
    rw [List.map_append, List.map_singleton, List.nodup_append] at h
    obtain ⟨hnodup, -, hnew⟩ := h
    have hperm := ih hnodup
    have hfresh : m.1 ∉ (Json.sortMembers members).map (·.1) := by
      rw [(hperm.map _).mem_iff]
      intro hmem
      exact hnew _ hmem m.1 (by simp) rfl
    rw [hlast]
    exact (insertMember_perm hfresh).trans
      ((hperm.cons m).trans (List.perm_append_singleton _ _).symm)

theorem mem_insertMember (h : m ∈ Json.insertMember key v members) : m = (key, v) ∨ m ∈ members := by
  induction members with
  | nil => exact .inl (List.mem_singleton.1 h)
  | cons m' members ih =>
    unfold Json.insertMember at h
    split at h
    · rcases List.mem_cons.1 h with rfl | hrest
      · simp_all
      · exact .inr (List.mem_cons_of_mem _ hrest)
    · split at h
      · exact List.mem_cons.1 h
      · rcases List.mem_cons.1 h with rfl | hrest
        · exact .inr List.mem_cons_self
        · exact (ih hrest).imp_right (List.mem_cons_of_mem _)

theorem pairwise_insertMember (h : members.Pairwise fun m m' => m.1 < m'.1) :
    (Json.insertMember key v members).Pairwise fun m m' => m.1 < m'.1 := by
  induction members with
  | nil => exact List.pairwise_singleton _ _
  | cons m' members ih =>
    obtain ⟨k, w⟩ := m'
    obtain ⟨hfirst, hrest⟩ := List.pairwise_cons.1 h
    unfold Json.insertMember
    by_cases hsame : key = k
    · simpa [hsame] using h
    · by_cases hless : key < k
      · simp only [beq_iff_eq, hsame, hless, if_false, if_true]
        refine List.pairwise_cons.2 ⟨fun m hm => ?_, h⟩
        rcases List.mem_cons.1 hm with rfl | hm
        · exact hless
        · exact hless.trans (hfirst m hm)
      · simp only [beq_iff_eq, hsame, hless, if_false]
        refine List.pairwise_cons.2 ⟨fun m hm => ?_, ih hrest⟩
        rcases mem_insertMember hm with rfl | hm
        · exact lt_of_le_of_ne (not_lt.1 hless) (Ne.symm hsame)
        · exact hfirst m hm

theorem pairwise_sortMembers (members : List (String × Json)) :
    (Json.sortMembers members).Pairwise fun m m' => m.1 < m'.1 := by
  induction members using List.reverseRecOn with
  | nil => exact .nil
  | append_singleton members m ih =>
    simpa [Json.sortMembers, List.foldl_append] using pairwise_insertMember ih

/-- Members under distinct names are sorted in one way only. -/
theorem sortMembers_congr (hperm : members'.Perm members) (h : (members.map (·.1)).Nodup) :
    Json.sortMembers members' = Json.sortMembers members := by
  have h' : (members'.map (·.1)).Nodup := (hperm.map _).nodup_iff.2 h
  have hsorted : (Json.sortMembers members').Perm (Json.sortMembers members) :=
    (sortMembers_perm h').trans (hperm.trans (sortMembers_perm h).symm)
  exact hsorted.eq_of_pairwise (fun _ _ _ _ hlt hgt => absurd hgt (lt_asymm hlt))
    (pairwise_sortMembers members') (pairwise_sortMembers members)

/-- Under distinct keys a member is what is found under its key. -/
theorem get?_of_mem (h : (members.map (·.1)).Nodup) (hm : (key, v) ∈ members) :
    (Json.object members).get? key = some v := by
  induction members with
  | nil => cases hm
  | cons m members ih =>
    obtain ⟨k, w⟩ := m
    obtain ⟨hnew, hnodup⟩ := List.nodup_cons.1 h
    rcases List.mem_cons.1 hm with hfirst | hrest
    · cases hfirst
      simp [Json.get?]
    · have hne : (k == key) = false := by
        rw [beq_eq_false_iff_ne]
        rintro rfl
        exact hnew (List.mem_map_of_mem (f := (·.1)) hrest)
      have hfound := ih hnodup hrest
      rw [Json.get?, List.find?_cons_of_neg (by simp [hne])]
      exact hfound

theorem get?_sortMembers (h : (members.map (·.1)).Nodup) (hm : (key, v) ∈ members) :
    (Json.object (Json.sortMembers members)).get? key = some v := by
  have hperm := sortMembers_perm h
  exact get?_of_mem ((hperm.map _).nodup_iff.2 h) (hperm.mem_iff.2 hm)

end Querent
