import Mathlib.Data.Finset.Card
import Querent.Proofs.Catalog.UniqueNames
import Querent.Proofs.Row.Masked

/-! Rows under the names that readers know their columns by. No two columns have one business name, but
a column that keeps its own name can stand beside one whose business name is spelled the same. Of two
such columns a row has the place of the first and the cell of the last. -/
namespace Querent

variable {names : Ordered String} {r : Record} {s : Snapshot} {k k' n : String}

/-- The columns of a row that keep their names and share them with a renamed column of the row. -/
def Record.clashes (names : Ordered String) (r : Record) : List String :=
  r.keys.filter fun n => (names.get? n).isNone && r.keys.any fun k => names.get? k == some n

theorem mem_clashes : n ∈ r.clashes names ↔
    n ∈ r.keys ∧ names.get? n = none ∧ ∃ k ∈ r.keys, names.get? k = some n := by
  simp [Record.clashes]

theorem rename_eq : r.rename names = .ofList (r.entries.map fun e => (shownName names e.1, e.2)) := rfl

theorem keys_rename : (r.rename names).keys = (r.keys.map (shownName names)).eraseDups := by
  rw [rename_eq, Ordered.keys_ofList, List.map_map, Ordered.keys, List.map_map]
  rfl

theorem shownName_of_none (h : names.get? k = none) : shownName names k = k := by
  simp [shownName, h]

theorem shownName_of_some (h : names.get? k = some n) : shownName names k = n := by
  simp [shownName, h]

/-- Without a clash columns with different names are shown under different names. -/
theorem nodup_shown (h : r.clashes s.uniqueNames = []) :
    (r.keys.map (shownName s.uniqueNames)).Nodup := by
  have hclash {k n : String} (hk : k ∈ r.keys) (hn : n ∈ r.keys)
      (hname : s.uniqueNames.get? k = some n) (hplain : s.uniqueNames.get? n = none) : False := by
    have hmem : n ∈ r.clashes s.uniqueNames := mem_clashes.2 ⟨hn, hplain, k, hk, hname⟩
    simp [h] at hmem
  refine List.Nodup.map_on (fun k hk k' hk' hsame => ?_) r.nodup
  cases hname : s.uniqueNames.get? k with
  | none =>
    cases hname' : s.uniqueNames.get? k' with
    | none => rwa [shownName_of_none hname, shownName_of_none hname'] at hsame
    | some n =>
      rw [shownName_of_none hname, shownName_of_some hname'] at hsame
      exact (hclash hk' hk (hsame ▸ hname') hname).elim
  | some n =>
    cases hname' : s.uniqueNames.get? k' with
    | none =>
      rw [shownName_of_some hname, shownName_of_none hname'] at hsame
      exact (hclash hk hk' (hsame ▸ hname) hname').elim
    | some n' =>
      rw [shownName_of_some hname, shownName_of_some hname'] at hsame
      exact Snapshot.eq_of_get?_uniqueNames hname (hsame ▸ hname')

theorem mem_keys_rename : n ∈ (r.rename names).keys ↔
    (∃ k ∈ r.keys, names.get? k = some n) ∨ n ∈ r.keys ∧ names.get? n = none := by
  rw [keys_rename, List.mem_eraseDups, List.mem_map]
  constructor
  · rintro ⟨k, hk, rfl⟩
    cases hname : names.get? k with
    | none => exact .inr (by simpa [shownName_of_none hname] using ⟨hk, hname⟩)
    | some n => exact .inl ⟨k, hk, by rw [hname, shownName_of_some hname]⟩
  · rintro (⟨k, hk, hname⟩ | ⟨hn, hname⟩)
    · exact ⟨k, hk, shownName_of_some hname⟩
    · exact ⟨n, hn, shownName_of_none hname⟩

/-- A row loses one cell to each clash. -/
theorem size_rename (s : Snapshot) (r : Record) :
    (r.rename s.uniqueNames).size + (r.clashes s.uniqueNames).length = r.size := by
  let names := s.uniqueNames
  -- the names of the row as it is shown: the business names, and the names that stay
  let given := r.keys.filterMap names.get?
  let plain := r.keys.filter fun k => (names.get? k).isNone
  have hgiven : given.Nodup :=
    r.nodup.filterMap fun k k' n hk hk' => Snapshot.eq_of_get?_uniqueNames hk hk'
  have hplain : plain.Nodup := r.nodup.filter _
  have hclashes : (r.clashes names).Nodup := r.nodup.filter _
  have hall : given.length + plain.length = r.keys.length := by
    rw [List.length_filterMap_eq_countP, ← List.countP_eq_length_filter,
      List.length_eq_countP_add_countP fun k => (names.get? k).isSome]
    refine congrArg _ (List.countP_congr fun k _ => ?_)
    cases names.get? k <;> simp
  have hunion : given.toFinset ∪ plain.toFinset = (r.rename names).keys.toFinset := by
    ext n
    simp [given, plain, mem_keys_rename]
  have hinter : given.toFinset ∩ plain.toFinset = (r.clashes names).toFinset := by
    ext n
    simp only [given, plain, Finset.mem_inter, List.mem_toFinset, mem_clashes, List.mem_filterMap,
      List.mem_filter, Option.isNone_iff_eq_none]
    tauto
  have hcards := Finset.card_union_add_card_inter given.toFinset plain.toFinset
  have hshown : (r.rename names).keys.Nodup := (r.rename names).nodup
  rw [hunion, hinter, List.toFinset_card_of_nodup hshown, List.toFinset_card_of_nodup hclashes,
    List.toFinset_card_of_nodup hgiven, List.toFinset_card_of_nodup hplain, hall] at hcards
  simpa [Ordered.keys, Ordered.size] using hcards

theorem entries_rename_iff : (r.rename s.uniqueNames).entries =
    r.entries.map (fun e => (shownName s.uniqueNames e.1, e.2)) ↔ r.clashes s.uniqueNames = [] := by
  constructor
  · intro h
    have hsize : (r.rename s.uniqueNames).size = r.size := by
      rw [Ordered.size, h, List.length_map, Ordered.size]
    exact List.length_eq_zero_iff.1 (by have hlost := size_rename s r; omega)
  · intro h
    rw [rename_eq, Ordered.entries_ofList_iff, List.map_map]
    have hshown := nodup_shown h
    rwa [Ordered.keys, List.map_map] at hshown

/-- Under the names of readers there is a row for each row. It has the cells of the row in their order,
each under its column's business name or else its own, exactly if no column that keeps its name shares it
with a renamed one. Each such column costs one cell: the names come in the order of their first
appearance, with the cell of the last column that is shown so. -/
theorem renameRows_clashes (s : Snapshot) (rows : List Record) :
    List.Forall₂ (fun r shown =>
      (shown.entries = r.entries.map (fun e => (shownName s.uniqueNames e.1, e.2)) ↔
        r.clashes s.uniqueNames = []) ∧
      shown.size + (r.clashes s.uniqueNames).length = r.size ∧
      shown.keys = (r.keys.map (shownName s.uniqueNames)).eraseDups ∧
      ∀ n, shown.get? n = (shownUnder s.uniqueNames n r).map (·.2))
    rows (renameRows s.uniqueNames rows) := by
  rw [renameRows, List.forall₂_map_right_iff, List.forall₂_same]
  intro r _
  exact ⟨entries_rename_iff, size_rename s r, keys_rename, fun n => get?_rename⟩

/-- Customers whose label is shown as their name, beside the name itself. -/
def labels : Snapshot := .ofNames [("customers", [("label", some "name"), ("name", none)])]

/-- A business name that is spelled like another column of the row takes its place. -/
theorem column_overwritten :
    ¬ ∀ (s : Snapshot) (rows : List Record), List.Forall₂ (fun r shown =>
      shown.entries = r.entries.map fun e => (shownName s.uniqueNames e.1, e.2))
        rows (renameRows s.uniqueNames rows) := by
  intro h
  let row : Record := .ofList [("label", .text "VIP"), ("name", .text "Ann")]
  have hrow := List.forall₂_cons.1 (h labels [row])
  have hclash : row.clashes labels.uniqueNames = ["name"] := by decide +kernel
  simp [entries_rename_iff.1 hrow.1] at hclash

end Querent
