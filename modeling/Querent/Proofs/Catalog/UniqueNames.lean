import Querent.Catalog.Basic
import Querent.Proofs.Ordered

/-! The business names that columns are shown under. A name counts where one column of the whole
catalogue bears it and no other does, so that no two technical names are shown under one; of several
such columns with one technical name the last decides. -/
namespace Querent.Snapshot

variable {s : Snapshot} {c : Column} {t t' n : String}

/-- The columns of a catalogue that bear a business name. -/
def bearing (s : Snapshot) (n : String) : List Column :=
  s.columns.filter fun c => c.businessName == some n

/-- A business name, not a blank one, that a column of the catalogue bears and no other. -/
structure Alone (s : Snapshot) (c : Column) (n : String) : Prop where
  readable : isBlankText n = false
  bearing : s.bearing n = [c]

/-- The business name of a column where it is the column's alone. -/
def ownName (s : Snapshot) (c : Column) : Option String :=
  c.givenName.filter fun n => (s.bearing n).length == 1

theorem givenName_eq_some_iff :
    c.givenName = some n ↔ c.businessName = some n ∧ isBlankText n = false := by
  simp [Column.givenName, Option.filter_eq_some_iff]

theorem mem_bearing : c ∈ s.bearing n ↔ c ∈ s.columns ∧ c.businessName = some n := by
  simp [bearing]

theorem ownName_eq_some_iff (hc : c ∈ s.columns) : s.ownName c = some n ↔ s.Alone c n := by
  simp only [ownName, Option.filter_eq_some_iff, givenName_eq_some_iff, beq_iff_eq]
  constructor
  · rintro ⟨⟨hname, hreadable⟩, hone⟩
    obtain ⟨c', hbearing⟩ := List.length_eq_one_iff.1 hone
    have hmem : c ∈ s.bearing n := mem_bearing.2 ⟨hc, hname⟩
    obtain rfl : c = c' := by simpa [hbearing] using hmem
    exact ⟨hreadable, hbearing⟩
  · intro h
    have hmem : c ∈ s.bearing n := by simp [h.bearing]
    exact ⟨⟨(mem_bearing.1 hmem).2, h.readable⟩, by simp [h.bearing]⟩

/-- Counting the bearers of a name among the columns that have one finds all its bearers. -/
theorem length_given (hreadable : isBlankText n = false) :
    ((s.columns.filterMap fun c => c.givenName.map fun n => (c.name, n)).filter (·.2 == n)).length =
      (s.bearing n).length := by
  rw [List.filter_filterMap, List.length_filterMap_eq_countP, bearing, ← List.countP_eq_length_filter]
  refine List.countP_congr fun c _ => ?_
  cases hgiven : c.givenName with
  | none =>
    have hother : c.businessName ≠ some n := fun h => by
      simp [givenName_eq_some_iff.2 ⟨h, hreadable⟩] at hgiven
    simp [hother]
  | some m =>
    have hname : c.businessName = some m := (givenName_eq_some_iff.1 hgiven).1
    simp [hname, Option.filter]

theorem uniqueNames_eq (s : Snapshot) : s.uniqueNames =
    .ofList (s.columns.filterMap fun c => (s.ownName c).map fun n => (c.name, n)) := by
  unfold uniqueNames
  dsimp only
  rw [List.filter_filterMap]
  refine congrArg _ (List.filterMap_congr fun c _ => ?_)
  cases hgiven : c.givenName with
  | none => simp [ownName, hgiven]
  | some n =>
    have hcount := length_given (s := s) (givenName_eq_some_iff.1 hgiven).2
    simp only [ownName, hgiven, Option.map_some, Option.filter_some, hcount]
    split <;> rfl

/-- The last of the columns of a technical name that have a name of their own decides. -/
theorem get?_uniqueNames : s.uniqueNames.get? t = some n ↔
    ∃ before c after, s.columns = before ++ c :: after ∧ c.name = t ∧ s.Alone c n ∧
      ∀ c' ∈ after, c'.name = t → ∀ n', ¬ s.Alone c' n' := by
  rw [uniqueNames_eq, Ordered.get?_ofList_eq_some_iff]
  constructor
  · rintro ⟨named, behind, hsplit, hbehind⟩
    obtain ⟨before, rest, hcolumns, -, hrest⟩ := List.filterMap_eq_append_iff.1 hsplit
    obtain ⟨unnamed, c, after, rfl, -, hc, hafter⟩ := List.filterMap_eq_cons_iff.1 hrest
    obtain ⟨n', hown, hpair⟩ := Option.map_eq_some_iff.1 hc
    obtain ⟨rfl, rfl⟩ := Prod.mk.injEq .. ▸ hpair
    have hmem : c ∈ s.columns := by simp [hcolumns]
    refine ⟨before ++ unnamed, c, after, by simp [hcolumns], rfl, (ownName_eq_some_iff hmem).1 hown, ?_⟩
    intro c' hc' hname n'' halone
    have hmem' : c' ∈ s.columns := by simp [hcolumns, hc']
    refine hbehind (List.mem_map.2 ⟨(c'.name, n''), ?_, hname⟩)
    rw [← hafter, List.mem_filterMap]
    exact ⟨c', hc', by rw [(ownName_eq_some_iff hmem').2 halone, Option.map_some]⟩
  · rintro ⟨before, c, after, hcolumns, rfl, halone, hlast⟩
    have hown : s.ownName c = some n := (ownName_eq_some_iff (by simp [hcolumns])).2 halone
    rw [hcolumns, List.filterMap_append, List.filterMap_cons, hown, Option.map_some]
    refine ⟨_, _, rfl, fun hmem => ?_⟩
    obtain ⟨e, he, hname⟩ := List.mem_map.1 hmem
    obtain ⟨c', hc', hpair⟩ := List.mem_filterMap.1 he
    obtain ⟨n', hown', rfl⟩ := Option.map_eq_some_iff.1 hpair
    exact hlast c' hc' hname n' ((ownName_eq_some_iff (by simp [hcolumns, hc'])).1 hown')

/-- A name that a technical name has is borne by one column, and that column has the technical name. -/
theorem exists_bearing (h : s.uniqueNames.get? t = some n) : ∃ c, s.bearing n = [c] ∧ c.name = t := by
  obtain ⟨-, c, -, -, hname, halone, -⟩ := get?_uniqueNames.1 h
  exact ⟨c, halone.bearing, hname⟩

theorem eq_of_get?_uniqueNames (h : s.uniqueNames.get? t = some n)
    (h' : s.uniqueNames.get? t' = some n) : t = t' := by
  obtain ⟨c, hbearing, rfl⟩ := exists_bearing h
  obtain ⟨c', hbearing', rfl⟩ := exists_bearing h'
  obtain rfl : c = c' := by simpa [hbearing] using hbearing'
  rfl

theorem isSome_get?_uniqueNames :
    (s.uniqueNames.get? t).isSome ↔ ∃ c ∈ s.columns, c.name = t ∧ ∃ n, s.Alone c n := by
  rw [Ordered.isSome_get?, uniqueNames_eq, Ordered.keys_ofList, List.mem_eraseDups, List.mem_map]
  constructor
  · rintro ⟨e, he, rfl⟩
    obtain ⟨c, hc, hpair⟩ := List.mem_filterMap.1 he
    obtain ⟨n, hown, rfl⟩ := Option.map_eq_some_iff.1 hpair
    exact ⟨c, hc, rfl, n, (ownName_eq_some_iff hc).1 hown⟩
  · rintro ⟨c, hc, rfl, n, halone⟩
    refine ⟨(c.name, n), List.mem_filterMap.2 ⟨c, hc, ?_⟩, rfl⟩
    rw [(ownName_eq_some_iff hc).2 halone, Option.map_some]

/-- The business name that a technical name has is borne by one column of the catalogue, which has the
technical name, and by no other, so that no two technical names have one business name. Technical names
have one exactly if a column of theirs has one alone; of several such columns the last decides. -/
theorem uniqueNames_alone (s : Snapshot) :
    (∀ t n, s.uniqueNames.get? t = some n → ∃ c, s.bearing n = [c] ∧ c.name = t) ∧
    (∀ t t' n, s.uniqueNames.get? t = some n → s.uniqueNames.get? t' = some n → t = t') ∧
    (∀ t, (s.uniqueNames.get? t).isSome ↔ ∃ c ∈ s.columns, c.name = t ∧ ∃ n, s.Alone c n) ∧
    ∀ t n, s.uniqueNames.get? t = some n ↔
      ∃ before c after, s.columns = before ++ c :: after ∧ c.name = t ∧ s.Alone c n ∧
        ∀ c' ∈ after, c'.name = t → ∀ n', ¬ s.Alone c' n' :=
  ⟨fun _ _ => exists_bearing, fun _ _ _ => eq_of_get?_uniqueNames, fun _ => isSome_get?_uniqueNames,
    fun _ _ => get?_uniqueNames⟩

/-- A catalogue of tables whose columns bear the given business names. -/
def ofNames (tables : List (String × List (String × Option String))) : Snapshot where
  workspace := 1
  tables := tables.map fun (table, columns) =>
    { schema := "public", name := table, businessName := none, description := none
      columns := columns.map fun (name, businessName) =>
        { name, dataType := "text", isNullable := true, isPrimaryKey := false, businessName
          description := none } }
  foreignKeys := []

/-- Two columns share a name, and both columns `total` have one of their own. -/
def sales : Snapshot := .ofNames
  [("orders", [("total", some "Total"), ("created_at", some "Created"), ("note", some " ")]),
    ("invoices", [("total", some "Paid"), ("created_on", some "Created")])]

/-- The last of the columns `total` decides, and nothing is called by the shared name. -/
theorem uniqueNames_alone_sales :
    sales.uniqueNames.get? "total" = some "Paid" ∧
      (∃ c, sales.bearing "Paid" = [c] ∧ c.name = "total") ∧
      ∀ t, sales.uniqueNames.get? t = some "Created" → False := by
  have htotal : sales.uniqueNames.get? "total" = some "Paid" := by decide +kernel
  obtain ⟨hbearing, -⟩ := uniqueNames_alone sales
  refine ⟨htotal, hbearing "total" "Paid" htotal, fun t ht => ?_⟩
  obtain ⟨c, hone, -⟩ := hbearing t "Created" ht
  have htwo : (sales.bearing "Created").length = 2 := by decide +kernel
  simp [hone] at htwo

end Querent.Snapshot
