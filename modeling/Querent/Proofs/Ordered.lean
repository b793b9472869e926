import Mathlib.Data.List.Induction
import Mathlib.Data.List.Nodup
import Mathlib.Data.List.Perm.Subperm
import Mathlib.Tactic.Common
import Querent.Ordered

/-! What is found under a name of an ordered map, operation by operation. -/
namespace Querent.Ordered

variable {α β : Type} {m : Ordered α} {name k : String} {v w : α}

private theorem find?_putEntry (entries : List (String × α)) :
    (putEntry name v entries).find? (·.1 == k) =
      if name = k then some (name, v) else entries.find? (·.1 == k) := by
  induction entries with
  | nil => by_cases h : name = k <;> simp [putEntry, h]
  | cons e entries ih =>
    obtain ⟨k', w⟩ := e
    unfold putEntry
    by_cases hname : k' = name
    · by_cases h : name = k <;> simp [hname, h]
    · simp only [beq_iff_eq, hname, if_false]
      by_cases hk : k' = k
      · have hother : ¬ name = k := fun h => hname (hk.trans h.symm)
        simp [hk, hother]
      · rw [List.find?_cons_of_neg (by simpa using hk), List.find?_cons_of_neg (by simpa using hk), ih]

theorem get?_put : (m.put name v).get? k = if name = k then some v else m.get? k := by
  unfold get? put
  rw [find?_putEntry]
  split <;> rfl

/-- Of several values under one name the last counts. -/
theorem get?_ofList (pairs : List (String × α)) :
    (ofList pairs).get? k = (pairs.reverse.find? (·.1 == k)).map (·.2) := by
  induction pairs using List.reverseRecOn with
  | nil => rfl
  | append_singleton pairs e ih =>
    have hlast : ofList (pairs ++ [e]) = (ofList pairs).put e.1 e.2 := by
      simp [ofList, List.foldl_append]
    rw [hlast, get?_put, ih]
    by_cases h : e.1 = k <;> simp [h]

theorem putEntry_of_not_mem {entries : List (String × α)} (h : name ∉ entries.map (·.1)) :
    putEntry name v entries = entries ++ [(name, v)] := by
  induction entries with
  | nil => rfl
  | cons e entries ih =>
    obtain ⟨hne, hrest⟩ := not_or.1 (mt List.mem_cons.2 h)
    have hkey : (e.1 == name) = false := by simpa using Ne.symm hne
    unfold putEntry
    simp [hkey, ih hrest]

/-- Values under distinct names are kept as they come. -/
theorem entries_ofList {pairs : List (String × α)} (h : (pairs.map (·.1)).Nodup) :
    (ofList pairs).entries = pairs := by
  induction pairs using List.reverseRecOn with
  | nil => rfl
  | append_singleton pairs e ih =>
    rw [List.map_append, List.map_singleton, List.nodup_append] at h
    obtain ⟨hnodup, -, hnew⟩ := h
    have hfresh : e.1 ∉ pairs.map (·.1) := fun hmem => hnew _ hmem e.1 (by simp) rfl
    have hlast : (ofList (pairs ++ [e])).entries = putEntry e.1 e.2 (ofList pairs).entries := by
      simp [ofList, List.foldl_append, put]
    rw [hlast, ih hnodup, putEntry_of_not_mem hfresh]

/-- Values are kept as they come exactly if no two have one name. -/
theorem entries_ofList_iff {pairs : List (String × α)} :
    (ofList pairs).entries = pairs ↔ (pairs.map (·.1)).Nodup :=
  ⟨fun h => h ▸ (ofList pairs).nodup, entries_ofList⟩

/-- A value is found under its name exactly if none comes under that name behind it. -/
theorem get?_ofList_eq_some_iff {pairs : List (String × α)} : (ofList pairs).get? k = some v ↔
    ∃ before after, pairs = before ++ (k, v) :: after ∧ k ∉ after.map (·.1) := by
  rw [get?_ofList]
  constructor
  · intro h
    obtain ⟨⟨k', w⟩, hfind, rfl⟩ := Option.map_eq_some_iff.1 h
    obtain ⟨hkey, after, before, hpairs, hafter⟩ := List.find?_eq_some_iff_append.1 hfind
    obtain rfl : k' = k := by simpa using hkey
    refine ⟨before.reverse, after.reverse, ?_, ?_⟩
    · rw [← List.reverse_reverse pairs, hpairs]
      simp
    · intro hmem
      obtain ⟨e, he, hkey⟩ := List.mem_map.1 hmem
      simpa [hkey] using hafter e (List.mem_reverse.1 he)
  · rintro ⟨before, after, rfl, hafter⟩
    have hbehind : after.reverse.find? (·.1 == k) = none := by
      rw [List.find?_eq_none]
      intro e he hkey
      obtain rfl : e.1 = k := by simpa using hkey
      exact hafter (List.mem_map_of_mem (List.mem_reverse.1 he))
    simp [List.find?_append, hbehind]

/-- The names come in the order of their first appearance. -/
theorem keys_ofList (pairs : List (String × α)) :
    (ofList pairs).keys = (pairs.map (·.1)).eraseDups := by
  induction pairs using List.reverseRecOn with
  | nil => rfl
  | append_singleton pairs e ih =>
    have hlast : (ofList (pairs ++ [e])).keys =
        if e.1 ∈ (ofList pairs).keys then (ofList pairs).keys else (ofList pairs).keys ++ [e.1] := by
      rw [ofList, List.foldl_append]
      exact putEntry_keys e.1 e.2 (ofList pairs).entries
    rw [hlast, ih, List.map_append, List.map_singleton, List.eraseDups_append]
    by_cases h : e.1 ∈ pairs.map (·.1) <;> simp [h, List.removeAll, List.eraseDups_cons]

theorem get?_eq_some_iff : m.get? k = some v ↔ (k, v) ∈ m.entries := by
  unfold get?
  constructor
  · intro h
    obtain ⟨⟨k', w⟩, hfind, rfl⟩ := Option.map_eq_some_iff.1 h
    obtain rfl : k' = k := by simpa using List.find?_some hfind
    exact List.mem_of_find?_eq_some hfind
  · intro h
    have hinj := List.inj_on_of_nodup_map m.nodup
    cases hfind : m.entries.find? (·.1 == k) with
    | none => simpa using List.find?_eq_none.1 hfind _ h
    | some e =>
      have hkey : e.1 = k := by simpa using List.find?_some hfind
      have hsame : e = (k, v) := hinj (List.mem_of_find?_eq_some hfind) h hkey
      rw [hsame]
      rfl

/-- Of each name one of the values that came under it is kept. -/
theorem entries_ofList_subperm (pairs : List (String × α)) : (ofList pairs).entries.Subperm pairs := by
  refine List.subperm_of_subset (ofList pairs).nodup.of_map fun e he => ?_
  obtain ⟨before, after, rfl, -⟩ := get?_ofList_eq_some_iff.1 (get?_eq_some_iff.2 he)
  exact List.mem_append_right _ List.mem_cons_self

theorem isSome_get? : (m.get? k).isSome ↔ k ∈ m.keys := by
  simp [get?, keys]

theorem keys_mapWithKey (f : String → α → β) : (m.mapWithKey f).keys = m.keys := by
  simp [keys, mapWithKey]

theorem get?_mapWithKey (f : String → α → β) : (m.mapWithKey f).get? k = (m.get? k).map (f k) := by
  unfold get? mapWithKey
  rw [List.find?_map, Option.map_map, Option.map_map]
  cases hfind : m.entries.find? (·.1 == k) with
  | none => simp [Function.comp_def, hfind]
  | some e =>
    have hkey : e.1 = k := by simpa using List.find?_some hfind
    simp [Function.comp_def, hfind, hkey]

/-- New values change nothing where each is the old one. -/
theorem mapWithKey_eq_self_iff {f : String → α → α} :
    m.mapWithKey f = m ↔ ∀ k v, m.get? k = some v → f k v = v := by
  have hmap : m.mapWithKey f = m ↔ (m.entries.map fun e => (e.1, f e.1 e.2)) = m.entries.map id := by
    cases m
    simp [mapWithKey]
  rw [hmap, List.map_inj_left]
  constructor
  · intro h k v hv
    have hpair := h (k, v) (get?_eq_some_iff.1 hv)
    exact congrArg Prod.snd hpair
  · intro h e he
    have hvalue := h e.1 e.2 (get?_eq_some_iff.2 he)
    rw [hvalue]
    rfl

end Querent.Ordered
