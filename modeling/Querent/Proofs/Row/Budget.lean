import Mathlib.Algebra.Order.BigOperators.Group.List
import Mathlib.Algebra.Ring.Nat
import Querent.Row.Budget

/-! How many rows a budget keeps. The size of a result grows with its rows, so that once a prefix fits
every shorter one does. Each step drops a fifth of the rows from a result that is too large; the last
step alone can go below the longest prefix that fits, and by no more than that fifth. -/
namespace Querent

/-- The bytes of one row as compact JSON text. -/
def Record.byteSize (r : Record) : Nat := r.toJson.compact.utf8ByteSize

namespace Budget

variable {rows rows' : List Record} {maxBytes maxBytes' : Nat}

/-! ### Sizes -/

/-- Items stand side by side with a comma between each two. -/
theorem utf8ByteSize_compactItems (items : List Json) : (Json.compactItems items).utf8ByteSize =
    (items.map fun j => j.compact.utf8ByteSize).sum + (items.length - 1) := by
  induction items with
  | nil => rfl
  | cons j items ih =>
    cases items with
    | nil => simp [Json.compactItems]
    | cons j' items =>
      have hcomma : ",".utf8ByteSize = 1 := by decide
      rw [Json.compactItems, String.utf8ByteSize_append, String.utf8ByteSize_append, ih, hcomma]
      · simp only [List.map_cons, List.sum_cons, List.length_cons]
        omega
      · simp

/-- The size of a result, from the sizes of its rows. -/
theorem byteSize_eq (rows : List Record) :
    byteSize rows = (rows.map Record.byteSize).sum + (rows.length - 1) + 2 := by
  have hbrackets : "[".utf8ByteSize = 1 ∧ "]".utf8ByteSize = 1 := by decide
  unfold byteSize rowsJson
  rw [Json.compact, String.utf8ByteSize_append, String.utf8ByteSize_append,
    utf8ByteSize_compactItems, hbrackets.1, hbrackets.2, List.map_map, List.length_map]
  have hsizes : (fun j : Json => j.compact.utf8ByteSize) ∘ Record.toJson = Record.byteSize := rfl
  rw [hsizes]
  omega

theorem byteSize_mono (h : rows <+: rows') : byteSize rows ≤ byteSize rows' := by
  obtain ⟨more, rfl⟩ := h
  simp only [byteSize_eq, List.map_append, List.sum_append, List.length_append]
  omega

theorem byteSize_take_mono {j k : Nat} (h : j ≤ k) :
    byteSize (rows.take j) ≤ byteSize (rows.take k) :=
  byteSize_mono (List.take_prefix_take_left h)

/-! ### The steps -/

theorem shrink_of_fits (h : byteSize rows ≤ maxBytes) : shrink maxBytes rows = rows := by
  rw [shrink, dif_neg fun hlarge => absurd hlarge.2 (Nat.not_lt.2 h)]

theorem shrink_isPrefix (maxBytes : Nat) (rows : List Record) : shrink maxBytes rows <+: rows := by
  fun_induction shrink maxBytes rows with
  | case1 rows _ ih => exact ih.trans (List.take_prefix _ _)
  | case2 rows _ => exact List.prefix_refl rows

theorem shrink_fits (maxBytes : Nat) (rows : List Record) :
    (shrink maxBytes rows).length ≤ 1 ∨ byteSize (shrink maxBytes rows) ≤ maxBytes := by
  fun_induction shrink maxBytes rows with
  | case1 rows _ ih => exact ih
  | case2 rows hends =>
    rcases Nat.lt_or_ge 1 rows.length with hmany | hfew
    · exact .inr (Nat.not_lt.1 fun hlarge => hends ⟨hmany, hlarge⟩)
    · exact .inl hfew

/-- Four fifths of all rows but one are left at each step. -/
theorem four_fifths_shrunk (n : Nat) : 4 * (n - 1) ≤ 5 * shrunk n := by
  unfold shrunk
  omega

/-- The number of rows that are left is at least four fifths of any number that fits. -/
theorem near_shrink {k : Nat} (hk : k ≤ rows.length) (hfits : byteSize (rows.take k) ≤ maxBytes) :
    4 * k ≤ 5 * (shrink maxBytes rows).length := by
  fun_induction shrink maxBytes rows with
  | case1 rows hlarge ih =>
    have hless : k < rows.length := by
      refine lt_of_le_of_ne hk fun heq => ?_
      rw [heq, List.take_length] at hfits
      omega
    have hshorter : shrunk rows.length < rows.length := shrunk_lt hlarge.1
    rcases Nat.le_total k (shrunk rows.length) with hle | hge
    · refine ih ?_ ?_
      · rw [List.length_take]
        omega
      · rwa [List.take_take, Nat.min_eq_left hle]
    -- the step has gone below `k`, so what it leaves fits and is the end
    · rw [shrink_of_fits ((byteSize_take_mono hge).trans hfits), List.length_take]
      have hstep := four_fifths_shrunk rows.length
      omega
  | case2 rows _ => omega

/-- With more bytes the steps end no later. -/
theorem shrink_mono (h : maxBytes ≤ maxBytes') :
    shrink maxBytes rows <+: shrink maxBytes' rows := by
  fun_induction shrink maxBytes rows with
  | case1 rows hlarge ih =>
    by_cases hlarge' : maxBytes' < byteSize rows
    · rw [shrink.eq_def maxBytes' rows, dif_pos ⟨hlarge.1, hlarge'⟩]
      exact ih
    · rw [shrink_of_fits (Nat.not_lt.1 hlarge')]
      exact (shrink_isPrefix _ _).trans (List.take_prefix _ _)
  | case2 rows hends =>
    have hends' : ¬ (1 < rows.length ∧ maxBytes' < byteSize rows) :=
      fun hlarge => hends ⟨hlarge.1, h.trans_lt hlarge.2⟩
    have hall : shrink maxBytes' rows = rows := by rw [shrink.eq_def, dif_neg hends']
    exact ⟨[], by rw [List.append_nil, hall]⟩

/-! ### The main result -/

/-- A budget keeps the first rows, no more than it allows, and more than one only if they fit. It keeps
all it allows if these fit, at least four fifths of any number that fits, and with more bytes no
fewer. -/
theorem limit_spec (b : Budget) (rows : List Record) :
    b.limit rows = rows.take (b.limit rows).length ∧
    (b.limit rows).length ≤ b.maxRows ∧
    ((b.limit rows).length ≤ 1 ∨ byteSize (b.limit rows) ≤ b.maxBytes) ∧
    (byteSize (rows.take b.maxRows) ≤ b.maxBytes →
      (b.limit rows).length = min rows.length b.maxRows) ∧
    (∀ k ≤ min rows.length b.maxRows, byteSize (rows.take k) ≤ b.maxBytes →
      4 * k ≤ 5 * (b.limit rows).length) ∧
    Monotone fun maxBytes => ({ b with maxBytes } : Budget).limit rows |>.length := by
  have hkept : b.limit rows <+: rows.take b.maxRows := shrink_isPrefix _ _
  refine ⟨?_, ?_, shrink_fits _ _, ?_, ?_, ?_⟩
  · exact List.prefix_iff_eq_take.1 (hkept.trans (List.take_prefix _ _))
  · exact hkept.length_le.trans (List.length_take_le _ _)
  · intro hfits
    unfold limit
    rw [shrink_of_fits hfits, List.length_take, Nat.min_comm]
  · intro k hk hfits
    refine near_shrink ?_ ?_
    · rw [List.length_take]
      omega
    · rwa [List.take_take, Nat.min_eq_left (by omega)]
  · intro maxBytes maxBytes' h
    exact (shrink_mono h).length_le

/-- A result of one column and `n` rows of eight bytes each. -/
def numbered (n : Nat) : List Record :=
  (List.range n).map fun i => .ofList [("id", .number (.int i))]

/-- Of six rows five would fit; the step from six leaves four, no more than a fifth less. -/
theorem limit_numbered :
    let b : Budget := { maxRows := 6, maxBytes := 46 }
    byteSize ((numbered 7).take 5) ≤ b.maxBytes ∧ (b.limit (numbered 7)).length = 4 ∧
      4 * 5 ≤ 5 * (b.limit (numbered 7)).length := by
  intro b
  have hfits : byteSize ((numbered 7).take 5) ≤ b.maxBytes := by decide +kernel
  have hlarge : 1 < ((numbered 7).take 6).length ∧ 46 < byteSize ((numbered 7).take 6) := by
    decide +kernel
  have hkept : b.limit (numbered 7) = ((numbered 7).take 6).take 4 := by
    have hfour : shrunk ((numbered 7).take 6).length = 4 := by decide
    have hends : byteSize (((numbered 7).take 6).take 4) ≤ 46 := by decide +kernel
    change shrink 46 ((numbered 7).take 6) = _
    rw [shrink, dif_pos hlarge, hfour, shrink_of_fits hends]
  refine ⟨hfits, ?_, (limit_spec b (numbered 7)).2.2.2.2.1 5 (by decide) hfits⟩
  rw [hkept]
  rfl

end Budget

end Querent
