import Mathlib.Algebra.Order.Ring.Nat
import Mathlib.Data.Int.Cast.Lemmas
import Querent.Proofs.Json.Size
import Querent.Proofs.Row.Budget
import Querent.Proofs.Row.Renamed

/-! What masks and names add to a result. A budget counts the bytes of the rows as the database gives them,
and the rows are masked and renamed afterwards. What leaves is larger by the difference that this makes to
its cells: for a masked value that is at most four bytes. -/
namespace Querent

open Mask

variable {names : Ordered String} {s : Snapshot} {r : Record}

/-- The bytes of a cell in a row as JSON text: its name, a colon and its value. -/
def memberBytes (e : String × Cell) : Nat :=
  (Json.quote e.1).utf8ByteSize + 1 + e.2.toJson.compact.utf8ByteSize

/-- A cell as it is shown, behind the mask and under the name for readers. -/
def shownCell (names : Ordered String) (e : String × Cell) : String × Cell :=
  (shownName names e.1, maskedCell e)

/-- By how many bytes a cell is longer as it is shown. -/
def growth (names : Ordered String) (e : String × Cell) : ℤ :=
  memberBytes (shownCell names e) - memberBytes e

def Record.growth (names : Ordered String) (r : Record) : ℤ := (r.entries.map (Querent.growth names)).sum

/-! ### Masked values -/

/-- Between the first two characters of a text and the last two stand all others. -/
theorem exists_middle {cs : List Char} (h : 4 ≤ cs.length) :
    ∃ middle, cs = cs.take 2 ++ middle ++ cs.drop (cs.length - 2) ∧ middle.length = cs.length - 4 := by
  have hlast : cs.drop (cs.length - 2) = (cs.drop 2).drop (cs.length - 4) := by
    rw [List.drop_drop, show 2 + (cs.length - 4) = cs.length - 2 by omega]
  refine ⟨(cs.drop 2).take (cs.length - 4), ?_, ?_⟩
  · rw [hlast, List.append_assoc, List.take_append_drop, List.take_append_drop]
  · rw [List.length_take, List.length_drop]
    omega

theorem quote_maskText_le (s : String) :
    (Json.quote (maskText s)).utf8ByteSize ≤ (Json.quote s).utf8ByteSize + 2 := by
  rw [Json.utf8ByteSize_quote, Json.utf8ByteSize_quote]
  by_cases h : s.toList.length ≤ 4
  · have hstar : (Json.escape '*').utf8ByteSize = 1 := by decide
    have hstars : Json.escapedBytes (maskText s).toList = s.toList.length := by
      simp [maskText_short h, Json.escapedBytes, hstar]
    have hall := Json.length_le_escapedBytes s.toList
    omega
  · have hlong : 4 < s.toList.length := Nat.lt_of_not_le h
    have htoken : Json.escapedBytes token.toList = 3 := by decide
    obtain ⟨middle, hparts, hlength⟩ := exists_middle hlong.le
    have hgone := Json.length_le_escapedBytes middle
    have hall := congrArg Json.escapedBytes hparts
    rw [Json.escapedBytes_append, Json.escapedBytes_append] at hall
    rw [maskText_long hlong, String.toList_ofList, Json.escapedBytes_append,
      Json.escapedBytes_append, htoken]
    omega

theorem maskCell_le (c : Cell) :
    (maskCell c).toJson.compact.utf8ByteSize ≤ c.toJson.compact.utf8ByteSize + 4 := by
  have hhidden : (Cell.text token).toJson.compact.utf8ByteSize ≤
      c.toJson.compact.utf8ByteSize + 4 := by
    have htoken : (Cell.text token).toJson.compact.utf8ByteSize = 5 := by decide
    have hone := Json.one_le_compact c.toJson
    omega
  cases c with
  | text s =>
    have hquote := quote_maskText_le s
    simp only [maskCell, Cell.toJson, Json.compact]
    omega
  | null => exact Nat.le_add_right _ _
  | bool b =>
    cases b with
    | false => exact Nat.le_add_right _ _
    | true => exact hhidden
  | _ => exact hhidden

/-- A cell is longer by the difference between its names, and by four bytes at most if it is masked. -/
theorem growth_le (names : Ordered String) (e : String × Cell) :
    growth names e ≤ (Json.quote (shownName names e.1)).utf8ByteSize - (Json.quote e.1).utf8ByteSize +
      if isSensitive e.1 then 4 else 0 := by
  have hmask := maskCell_le e.2
  unfold growth memberBytes shownCell maskedCell
  cases isSensitive e.1 with
  | true => simp only [if_true]; omega
  | false => simp only [Bool.false_eq_true, if_false]; omega

/-! ### Rows -/

theorem byteSize_record (r : Record) :
    r.byteSize = (r.entries.map memberBytes).sum + (r.entries.length - 1) + 2 := by
  have hjson : r.toJson = .object (r.entries.map fun e => (e.1, e.2.toJson)) := rfl
  have hbraces : "\x7b".utf8ByteSize = 1 ∧ "\x7d".utf8ByteSize = 1 := by decide
  have hmembers : ((fun m : String × Json => (Json.quote m.1).utf8ByteSize + 1 +
      m.2.compact.utf8ByteSize) ∘ fun e : String × Cell => (e.1, e.2.toJson)) = memberBytes := rfl
  rw [Record.byteSize, hjson, Json.compact, String.utf8ByteSize_append, String.utf8ByteSize_append,
    Json.utf8ByteSize_compactMembers, hbraces.1, hbraces.2, List.map_map, List.length_map, hmembers]
  omega

/-- The cells that come under names already taken make a row no longer. -/
theorem byteSize_ofList_le (pairs : List (String × Cell)) : Record.byteSize (.ofList pairs) ≤
    (pairs.map memberBytes).sum + (pairs.length - 1) + 2 := by
  obtain ⟨kept, hperm, hsub⟩ := Ordered.entries_ofList_subperm pairs
  have hsum : (kept.map memberBytes).sum ≤ (pairs.map memberBytes).sum :=
    (hsub.map _).sum_le_sum fun _ _ => Nat.zero_le _
  have hlength := hsub.length_le
  rw [byteSize_record, ← hperm.length_eq, ← (hperm.map memberBytes).sum_eq]
  omega

theorem sum_shownCell (names : Ordered String) (es : List (String × Cell)) :
    (((es.map (shownCell names)).map memberBytes).sum : ℤ) =
      (es.map memberBytes).sum + (es.map (growth names)).sum := by
  induction es with
  | nil => rfl
  | cons e es ih =>
    simp only [List.map_cons, List.sum_cons, Nat.cast_add, ih, growth]
    omega

theorem map_maskRecord : (maskRecord r).entries.map (fun e => (shownName names e.1, e.2)) =
    r.entries.map (shownCell names) := by
  rw [maskRecord, Ordered.mapWithKey, List.map_map]
  rfl

theorem rename_maskRecord : (maskRecord r).rename names = .ofList (r.entries.map (shownCell names)) := by
  rw [rename_eq, map_maskRecord]

theorem clashes_maskRecord : (maskRecord r).clashes names = r.clashes names := by
  unfold Record.clashes maskRecord
  rw [Ordered.keys_mapWithKey]

theorem byteSize_shown_le (names : Ordered String) (r : Record) :
    (Record.byteSize ((maskRecord r).rename names) : ℤ) ≤ r.byteSize + r.growth names := by
  have hsum := sum_shownCell names r.entries
  have hkept := byteSize_ofList_le (r.entries.map (shownCell names))
  rw [List.length_map] at hkept
  rw [rename_maskRecord, byteSize_record r, Record.growth]
  omega

/-- A row that keeps all its cells is longer by just what they are longer. -/
theorem byteSize_shown (h : r.clashes s.uniqueNames = []) :
    (Record.byteSize ((maskRecord r).rename s.uniqueNames) : ℤ) =
      r.byteSize + r.growth s.uniqueNames := by
  have hentries : ((maskRecord r).rename s.uniqueNames).entries =
      r.entries.map (shownCell s.uniqueNames) := by
    rw [entries_rename_iff.2 (clashes_maskRecord.trans h), map_maskRecord]
  have hsum := sum_shownCell s.uniqueNames r.entries
  rw [byteSize_record, hentries, byteSize_record r, List.length_map, Record.growth]
  omega

/-- The size of rows that are changed one by one. -/
theorem byteSize_map (f : Record → Record) (rows : List Record) :
    (Budget.byteSize (rows.map f) : ℤ) = Budget.byteSize rows +
      (rows.map fun r => ((f r).byteSize : ℤ) - r.byteSize).sum := by
  have hsum : (((rows.map f).map Record.byteSize).sum : ℤ) = (rows.map Record.byteSize).sum +
      (rows.map fun r => ((f r).byteSize : ℤ) - r.byteSize).sum := by
    induction rows with
    | nil => rfl
    | cons r rows ih =>
      simp only [List.map_cons, List.sum_cons, Nat.cast_add, ih]
      omega
  rw [Budget.byteSize_eq, Budget.byteSize_eq, List.length_map]
  omega

/-- The budget is kept by the rows as they come: no more of them than it allows, and more than one only
if they fit. What leaves is larger by what masks and names add to the cells, and by just that where no
two columns of a row are shown under one name. -/
theorem process_growth (budget : Budget) (s : Snapshot) (rows : List Record) :
    let names := s.uniqueNames
    let kept := budget.limit rows
    let out := process budget names rows
    let more := (kept.map (Record.growth names)).sum
    out.rows.length ≤ budget.maxRows ∧
    (out.rows.length ≤ 1 ∨ Budget.byteSize kept ≤ budget.maxBytes) ∧
    (Budget.byteSize out.rows : ℤ) ≤ Budget.byteSize kept + more ∧
    ((∀ r ∈ kept, r.clashes names = []) →
      (Budget.byteSize out.rows : ℤ) = Budget.byteSize kept + more) ∧
    ∀ e : String × Cell, growth names e ≤
      (Json.quote (shownName names e.1)).utf8ByteSize - (Json.quote e.1).utf8ByteSize +
        if isSensitive e.1 then 4 else 0 := by
  intro names kept out more
  have hrows : out.rows = kept.map fun r => (maskRecord r).rename names := rows_process budget
  have hlength : out.rows.length = kept.length := by rw [hrows, List.length_map]
  have hmax : kept.length ≤ budget.maxRows :=
    (Budget.shrink_isPrefix _ _).length_le.trans (List.length_take_le _ _)
  rw [hlength, hrows, byteSize_map]
  refine ⟨hmax, Budget.shrink_fits _ _, ?_, fun hclashes => ?_, growth_le names⟩
  · refine Int.add_le_add_left (List.sum_le_sum fun r _ => ?_) _
    have hrow := byteSize_shown_le names r
    omega
  · refine congrArg (_ + List.sum ·) (List.map_congr_left fun r hr => ?_)
    have hrow : (Record.byteSize ((maskRecord r).rename names) : ℤ) = r.byteSize + r.growth names :=
      byteSize_shown (hclashes r hr)
    omega

def phones : List Record := [.ofList [("phone", .number (.int 1))], .ofList [("phone", .number (.int 2))]]

def telephones : Snapshot := .ofNames [("customers", [("phone", some "Telephone")])]

/-- Both rows fit to the byte. -/
theorem limit_phones : ({ maxRows := 2, maxBytes := 25 } : Budget).limit phones = phones :=
  Budget.shrink_of_fits (by decide +kernel)

/-- Each of two cells is longer by four bytes for its mask and four for its name. -/
theorem process_growth_phones :
    let budget : Budget := { maxRows := 2, maxBytes := 25 }
    let names := telephones.uniqueNames
    (∀ r ∈ budget.limit phones, r.clashes names = []) ∧
      Budget.byteSize (budget.limit phones) = 25 ∧
      (Budget.byteSize (process budget names phones).rows : ℤ) = 25 + 16 := by
  intro budget names
  have hclashes : ∀ r ∈ budget.limit phones, r.clashes names = [] := by
    rw [limit_phones]
    decide +kernel
  have hbytes : Budget.byteSize (budget.limit phones) = 25 := by
    rw [limit_phones]
    decide +kernel
  have hmore : ((budget.limit phones).map (Record.growth names)).sum = 16 := by
    rw [limit_phones]
    decide +kernel
  obtain ⟨-, -, -, hsize, -⟩ := process_growth budget telephones phones
  exact ⟨hclashes, hbytes, by rw [hsize hclashes, hbytes, hmore]; rfl⟩

/-- Rows that fit are too large once they are masked and renamed. -/
theorem budget_outgrown :
    ¬ ∀ (budget : Budget) (s : Snapshot) (rows : List Record),
      let out := process budget s.uniqueNames rows
      out.rows.length ≤ budget.maxRows ∧
        (out.rows.length ≤ 1 ∨ Budget.byteSize out.rows ≤ budget.maxBytes) := by
  intro h
  obtain ⟨-, hsize⟩ := h { maxRows := 2, maxBytes := 25 } telephones phones
  rw [rows_process, limit_phones] at hsize
  exact absurd hsize (by decide +kernel)

end Querent
