import Mathlib.Data.List.Forall2
import Querent.Proofs.Row.Masked
import Querent.Proofs.Row.Stored

/-! Results by column and back. Every column has a value for every row, so a table reads as the rows that
were put into it, whatever the order of its columns: the one of their first appearance, or the one in
which a stored table comes back. -/
namespace Querent.Columnar

variable {rows : List Record} {r : Record} {t : Columnar} {n : String}

/-- The value of a row in a column, null where the row lacks the column. -/
def valueIn (n : String) (r : Record) : Primitive := ((r.get? n).map Primitive.ofCell).getD .null

/-- Columns that read as the rows of a result: a row for each, with its value under every name. -/
def Reads (t : Columnar) (rows : List Record) : Prop :=
  List.Forall₂ (fun r row => row.keys = t.keys ∧ ∀ n ∈ t.keys, row.get? n = some (valueIn n r))
    rows t.toRows

/-! ### From rows to columns -/

theorem columnNames_eq (rows : List Record) :
    columnNames rows = (rows.flatMap Ordered.keys).eraseDups := by
  rw [columnNames, Ordered.keys_ofList, List.map_flatMap]
  simp [Function.comp_def]

theorem entries_ofRows (rows : List Record) :
    (ofRows rows).entries = (columnNames rows).map fun n => (n, column n rows) := by
  refine Ordered.entries_ofList ?_
  rw [List.map_map, Function.comp_def, List.map_id']
  exact (Ordered.ofList _).nodup

theorem keys_ofRows (rows : List Record) :
    (ofRows rows).keys = (rows.flatMap Ordered.keys).eraseDups := by
  rw [Ordered.keys, entries_ofRows, List.map_map, Function.comp_def, List.map_id', columnNames_eq]

theorem get?_ofRows (hn : n ∈ (ofRows rows).keys) :
    (ofRows rows).get? n = some (rows.map (valueIn n)) := by
  obtain ⟨values, hvalues⟩ := Option.isSome_iff_exists.1 (Ordered.isSome_get?.2 hn)
  rw [hvalues, eq_of_get?_ofRows hvalues]
  rfl

/-! ### From columns to rows -/

/-- Columns of one length have as many rows. -/
theorem rowCount_eq {m : Nat} (hlength : ∀ values ∈ t.values, values.length = m)
    (hsome : t.values ≠ []) : t.rowCount = m := by
  have hlongest {columns : List (List Primitive)} (h : ∀ values ∈ columns, values.length = m) :
      columns.foldl (fun n values => max n values.length) m = m := by
    induction columns with
    | nil => rfl
    | cons values columns ih =>
      obtain ⟨hfirst, hrest⟩ := List.forall_mem_cons.1 h
      rw [List.foldl_cons, hfirst, Nat.max_self, ih hrest]
  unfold rowCount
  cases hcolumns : t.values with
  | nil => exact absurd hcolumns hsome
  | cons values columns =>
    rw [hcolumns] at hlength
    obtain ⟨hfirst, hrest⟩ := List.forall_mem_cons.1 hlength
    rw [List.foldl_cons, hfirst, Nat.zero_max, hlongest hrest]

/-- A table reads as rows if it has their values in each of its columns, and a column at all. -/
theorem reads_of_values (hvalues : ∀ n ∈ t.keys, t.get? n = some (rows.map (valueIn n)))
    (hsome : t.keys ≠ []) : t.Reads rows := by
  have hlength : ∀ values ∈ t.values, values.length = rows.length := by
    intro values hmem
    obtain ⟨c, hc, rfl⟩ := List.mem_map.1 hmem
    have hcolumn := hvalues c.1 (List.mem_map_of_mem hc)
    rw [Ordered.get?_eq_some_iff.2 hc, Option.some.injEq] at hcolumn
    rw [hcolumn, List.length_map]
  have hcount : t.rowCount = rows.length :=
    rowCount_eq hlength fun hnone => hsome (by simpa [Ordered.values, Ordered.keys] using hnone)
  unfold Reads toRows
  rw [hcount, List.forall₂_iff_get]
  refine ⟨by simp, fun i hi _ => ?_⟩
  simp only [List.get_eq_getElem, List.getElem_map, List.getElem_range]
  refine ⟨Ordered.keys_mapWithKey _, fun n hn => ?_⟩
  rw [Ordered.get?_mapWithKey, hvalues n hn]
  simp [hi]

/-- The same columns in another order read as the same rows. -/
theorem reads_of_perm (hperm : t.entries.Perm (ofRows rows).entries)
    (hsome : ∃ r ∈ rows, r.keys ≠ []) : t.Reads rows := by
  have hkeys : t.keys.Perm (ofRows rows).keys := hperm.map _
  refine reads_of_values (fun n hn => ?_) fun hnone => ?_
  · have hcolumn := get?_ofRows (hkeys.mem_iff.1 hn)
    exact Ordered.get?_eq_some_iff.2 (hperm.mem_iff.2 (Ordered.get?_eq_some_iff.1 hcolumn))
  · obtain ⟨r, hr, hcolumns⟩ := hsome
    obtain ⟨n, hn⟩ := List.exists_mem_of_ne_nil _ hcolumns
    have hmem : n ∈ t.keys := by
      rw [hkeys.mem_iff, keys_ofRows, List.mem_eraseDups]
      exact List.mem_flatMap.2 ⟨r, hr, hn⟩
    simp [hnone] at hmem

/-- Rows are put into columns without loss: the columns come in the order of their first appearance, each
with a value for every row. Stored as JSON they are read as they were but for their order, once and
again, and before and after they read as the rows, with null where a row lacks a column. -/
theorem ofRows_roundTrip (rows : List Record) (hsome : ∃ r ∈ rows, r.keys ≠ []) :
    (ofRows rows).keys = (rows.flatMap Ordered.keys).eraseDups ∧
    (∀ n ∈ (ofRows rows).keys, (ofRows rows).get? n = some (rows.map (valueIn n))) ∧
    (ofRows rows).Reads rows ∧
    ∃ t, ofJson? (ofRows rows).toValue = some t ∧ t.entries.Perm (ofRows rows).entries ∧
      ofJson? t.toValue = some t ∧ t.Reads rows := by
  obtain ⟨t, hread, hperm⟩ := ofJson?_toValue (ofRows rows)
  have hagain : ofJson? t.toValue = some t := by rwa [toValue_congr hperm]
  exact ⟨keys_ofRows rows, fun n => get?_ofRows, reads_of_perm (.refl _) hsome, t, hread, hperm,
    hagain, reads_of_perm hperm hsome⟩

/-- Three rows of different columns, the last without any. -/
def ragged : List Record :=
  [.ofList [("id", .number (.int 1)), ("day", .date ⟨2024, 2, 29, by decide, by decide, by decide⟩)],
    .ofList [("tags", .json (.array [.string "a"])), ("id", .null)],
    .empty]

/-- A column that comes late is filled up with null before and behind its only value. -/
theorem ofRows_roundTrip_ragged :
    (∃ r ∈ ragged, r.keys ≠ []) ∧ (ofRows ragged).keys = ["id", "day", "tags"] ∧
      (ofRows ragged).get? "tags" = some [.null, .text "[\"a\"]", .null] ∧
      ∃ t, ofJson? (ofRows ragged).toValue = some t ∧ t.Reads ragged := by
  have hsome : ∃ r ∈ ragged, r.keys ≠ [] := ⟨_, List.mem_cons_self, by decide +kernel⟩
  obtain ⟨hkeys, hvalues, -, t, hread, -, -, hrows⟩ := ofRows_roundTrip ragged hsome
  have hnames : (ragged.flatMap Ordered.keys).eraseDups = ["id", "day", "tags"] := by decide +kernel
  have hkeys' : (ofRows ragged).keys = ["id", "day", "tags"] := hkeys.trans hnames
  refine ⟨hsome, hkeys', ?_, t, hread, hrows⟩
  rw [hvalues "tags" (by simp [hkeys'])]
  decide +kernel

end Querent.Columnar
