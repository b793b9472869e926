import Querent.Proofs.Ordered
import Querent.Row.Process

/-! What stands under the names that a result is shown with. A row is masked under the names that the
database has for its columns and renamed afterwards, so a value is masked exactly if the column it
comes from is sensitive under its own name, whatever name it is shown under. -/
namespace Querent

open Mask

variable {names : Ordered String} {n : String} {r : Record} {c : Cell} {rows : List Record}

/-! ### Masks -/

theorem maskText_short {s : String} (h : s.toList.length ≤ 4) :
    maskText s = .ofList (List.replicate s.toList.length '*') := if_pos h

theorem maskText_long {s : String} (h : 4 < s.toList.length) :
    maskText s = .ofList (s.toList.take 2 ++ token.toList ++ s.toList.drop (s.toList.length - 2)) :=
  if_neg (Nat.not_le_of_lt h)

/-- A text of the form that the mask gives to long ones keeps it. -/
theorem maskText_ends {head tail : List Char} (hhead : head.length = 2) (htail : tail.length = 2) :
    maskText (.ofList (head ++ token.toList ++ tail)) = .ofList (head ++ token.toList ++ tail) := by
  have htoken : token.toList.length = 3 := by decide
  have hlen : (head ++ token.toList ++ tail).length = 7 := by
    rw [List.length_append, List.length_append, hhead, htoken, htail]
  have htake : (head ++ token.toList ++ tail).take 2 = head := by
    rw [List.append_assoc, ← hhead, List.take_left]
  have hdrop : (head ++ token.toList ++ tail).drop (7 - 2) = tail := by
    have hfront : (head ++ token.toList).length = 7 - 2 := by
      rw [List.length_append, hhead, htoken]
    rw [← hfront, List.drop_left]
  have hlong : 4 < (String.ofList (head ++ token.toList ++ tail)).toList.length := by
    rw [String.toList_ofList, hlen]
    omega
  rw [maskText_long hlong, String.toList_ofList, hlen, htake, hdrop]

theorem maskText_maskText (s : String) : maskText (maskText s) = maskText s := by
  by_cases h : s.toList.length ≤ 4
  · have hstars : (String.ofList (List.replicate s.toList.length '*')).toList.length ≤ 4 := by
      rw [String.toList_ofList, List.length_replicate]
      exact h
    rw [maskText_short h, maskText_short hstars, String.toList_ofList, List.length_replicate]
  · have hlong : 4 < s.toList.length := Nat.lt_of_not_le h
    have hhead : (s.toList.take 2).length = 2 := by
      rw [List.length_take]
      omega
    have htail : (s.toList.drop (s.toList.length - 2)).length = 2 := by
      rw [List.length_drop]
      omega
    rw [maskText_long hlong, maskText_ends hhead htail]

theorem maskCell_maskCell (c : Cell) : maskCell (maskCell c) = maskCell c := by
  have htoken : maskText token = token := by decide
  cases c with
  | text s => exact congrArg Cell.text (maskText_maskText s)
  | bool b => cases b <;> simp [maskCell, htoken]
  | _ => simp [maskCell, htoken]

/-! ### Names -/

/-- The name that a column is shown under. -/
def shownName (names : Ordered String) (column : String) : String := (names.get? column).getD column

/-- The last column of a row that is shown under a name, with its cell. -/
def shownUnder (names : Ordered String) (n : String) (r : Record) : Option (String × Cell) :=
  r.entries.reverse.find? fun e => shownName names e.1 == n

/-- The cell of a column as the mask leaves it. -/
def maskedCell (e : String × Cell) : Cell := if isSensitive e.1 then maskCell e.2 else e.2

theorem get?_rename : (r.rename names).get? n = (shownUnder names n r).map (·.2) := by
  have hrename : r.rename names = .ofList (r.entries.map fun e => (shownName names e.1, e.2)) := rfl
  rw [hrename, Ordered.get?_ofList, ← List.map_reverse, List.find?_map, Option.map_map]
  rfl

theorem shownUnder_maskRecord : shownUnder names n (maskRecord r) =
    (shownUnder names n r).map fun e => (e.1, maskedCell e) := by
  have hmask : (maskRecord r).entries = r.entries.map fun e => (e.1, maskedCell e) := rfl
  unfold shownUnder
  rw [hmask, ← List.map_reverse, List.find?_map]
  rfl

/-- What a name stands for in a row that is shown. -/
theorem get?_rename_maskRecord :
    ((maskRecord r).rename names).get? n = (shownUnder names n r).map maskedCell := by
  rw [get?_rename, shownUnder_maskRecord, Option.map_map]
  rfl

theorem rows_process (budget : Budget) : (process budget names rows).rows =
    (budget.limit rows).map fun r => (maskRecord r).rename names := by
  simp [process, renameRows, maskRows]

/-- The column of a name holds what the rows have under it. -/
theorem eq_of_get?_ofRows {values : List Primitive}
    (h : (Columnar.ofRows rows).get? n = some values) : values = Columnar.column n rows := by
  unfold Columnar.ofRows at h
  rw [Ordered.get?_ofList] at h
  obtain ⟨e, hfind, rfl⟩ := Option.map_eq_some_iff.1 h
  have hname : e.1 = n := by simpa using List.find?_some hfind
  obtain ⟨k, -, rfl⟩ := List.mem_map.1 (List.mem_reverse.1 (List.mem_of_find?_eq_some hfind))
  rw [← hname]

theorem maskRows_eq_self_iff :
    maskRows rows = rows ↔
      ∀ r ∈ rows, ∀ n c, isSensitive n = true → r.get? n = some c → maskCell c = c := by
  have hrow : maskRows rows = rows ↔ ∀ r ∈ rows, maskRecord r = r := by
    conv_lhs => rhs; rw [← List.map_id rows]
    exact List.map_inj_left
  rw [hrow]
  refine forall₂_congr fun r _ => ?_
  unfold maskRecord
  rw [Ordered.mapWithKey_eq_self_iff]
  refine forall₂_congr fun n c => ?_
  cases isSensitive n <;> simp

/-- Under each name a row shows the last of its columns with that name, masked if the column is
sensitive under its own name, and the table shows the same. So under sensitive names there is nothing
left to mask exactly if what comes from columns that are not sensitive needs no mask. -/
theorem process_masked (budget : Budget) (s : Snapshot) (rows : List Record) :
    let names := s.uniqueNames
    let kept := budget.limit rows
    let out := process budget names rows
    List.Forall₂ (fun r shown => ∀ n, Ordered.get? shown n = (shownUnder names n r).map maskedCell)
      kept out.rows ∧
    (∀ n values, out.table.get? n = some values → values = kept.map fun r =>
      ((shownUnder names n r).map fun e => Primitive.ofCell (maskedCell e)).getD .null) ∧
    (maskRows out.rows = out.rows ↔ ∀ r ∈ kept, ∀ n e, isSensitive n = true →
      shownUnder names n r = some e → isSensitive e.1 = false → maskCell e.2 = e.2) := by
  intro names kept out
  have hrows : out.rows = kept.map fun r => (maskRecord r).rename names := rows_process budget
  refine ⟨?_, ?_, ?_⟩
  · rw [hrows, List.forall₂_map_right_iff, List.forall₂_same]
    intro r _ n
    exact get?_rename_maskRecord
  · intro n values h
    have htable : out.table = Columnar.ofRows out.rows := rfl
    rw [htable] at h
    rw [eq_of_get?_ofRows h, Columnar.column, hrows, List.map_map]
    refine List.map_congr_left fun r _ => ?_
    simp only [Function.comp_apply, get?_rename_maskRecord, Option.map_map]
    rfl
  · rw [maskRows_eq_self_iff, hrows, List.forall_mem_map]
    refine forall₂_congr fun r _ => ?_
    simp only [get?_rename_maskRecord]
    constructor
    · intro h n e hn he hplain
      have hcell : maskedCell e = e.2 := by simp [maskedCell, hplain]
      have hself := h n (maskedCell e) hn (by rw [he]; rfl)
      rwa [hcell] at hself
    · intro h n c hn hc
      obtain ⟨e, he, rfl⟩ := Option.map_eq_some_iff.1 hc
      unfold maskedCell
      cases hplain : isSensitive e.1 with
      | true => exact maskCell_maskCell e.2
      | false => exact h n e hn he hplain

/-- A column of contacts whose name for readers says what they are. -/
def contacts : Snapshot where
  workspace := 1
  tables :=
    [{ schema := "public", name := "customers", businessName := none, description := none
       columns :=
        [{ name := "contact", dataType := "text", isNullable := false, isPrimaryKey := false
           businessName := some "Email", description := none }] }]
  foreignKeys := []

/-- The text in the only cell of a column. -/
def onlyText (name : String) : List Record → Option String
  | [r] => match r.get? name with
    | some (.text s) => some s
    | _ => none
  | _ => none

/-- A sensitive name that readers know a column by leaves its values as they are. -/
theorem email_shown :
    ¬ ∀ (budget : Budget) (s : Snapshot) (rows : List Record),
      maskRows (process budget s.uniqueNames rows).rows = (process budget s.uniqueNames rows).rows := by
  intro h
  have hsame := congrArg (onlyText "Email")
    (h .standard contacts [.ofList [("contact", .text "person@example.com")]])
  have hmasked : onlyText "Email" (maskRows (process .standard contacts.uniqueNames
      [.ofList [("contact", .text "person@example.com")]]).rows) = some "pe***om" := by
    decide +kernel
  have hshown : onlyText "Email" (process .standard contacts.uniqueNames
      [.ofList [("contact", .text "person@example.com")]]).rows = some "person@example.com" := by
    decide +kernel
  rw [hmasked, hshown] at hsame
  exact absurd hsame (by decide)

/-! What the mask makes of rows. A mask is laid over sensitive columns alone and over each cell of
them, and laid over its own result it changes nothing: what it leaves of a text has the form that it
keeps, and what stands for all else is such a text. -/

/-- What stands in a sensitive column for a cell. -/
inductive HiddenAs : Cell → Cell → Prop
  | stars (s : String) (short : s.toList.length ≤ 4) :
      HiddenAs (.text s) (.text (.ofList (List.replicate s.toList.length '*')))
  | ends {s : String} {head middle tail : List Char} (parts : s.toList = head ++ middle ++ tail)
      (first : head.length = 2) (last : tail.length = 2) (long : middle ≠ []) :
      HiddenAs (.text s) (.text (.ofList (head ++ "***".toList ++ tail)))
  | null : HiddenAs .null .null
  | no : HiddenAs (.bool false) (.bool false)
  | token {c : Cell} (text : ∀ s, c ≠ .text s) (null : c ≠ .null) (no : c ≠ .bool false) :
      HiddenAs c (.text "***")

/-- A column keeps its name, and its cell too unless it is sensitive. -/
structure CellMasked (e e' : String × Cell) : Prop where
  column : e'.1 = e.1
  shown : isSensitive e.1 = false → e'.2 = e.2
  hidden : isSensitive e.1 = true → HiddenAs e.2 e'.2

theorem hiddenAs_maskText (s : String) : HiddenAs (.text s) (.text (maskText s)) := by
  by_cases h : s.toList.length ≤ 4
  · rw [maskText_short h]
    exact .stars s h
  · have hlong : 4 < s.toList.length := Nat.lt_of_not_le h
    obtain ⟨middle, hparts⟩ : ∃ middle, s.toList =
        s.toList.take 2 ++ middle ++ s.toList.drop (s.toList.length - 2) := by
      refine ⟨(s.toList.drop 2).take (s.toList.length - 4), ?_⟩
      have hlast : s.toList.drop (s.toList.length - 2) =
          (s.toList.drop 2).drop (s.toList.length - 4) := by
        rw [List.drop_drop]
        congr 1
        omega
      rw [hlast, List.append_assoc, List.take_append_drop, List.take_append_drop]
    have hlength := congrArg List.length hparts
    simp only [List.length_append, List.length_take, List.length_drop] at hlength
    rw [maskText_long hlong]
    refine .ends hparts ?_ ?_ ?_
    · rw [List.length_take]
      omega
    · rw [List.length_drop]
      omega
    · rintro rfl
      simp only [List.length_nil] at hlength
      omega

theorem hiddenAs_maskCell (c : Cell) : HiddenAs c (maskCell c) := by
  cases c with
  | text s => exact hiddenAs_maskText s
  | null => exact .null
  | bool b =>
    cases b with
    | false => exact .no
    | true => exact .token nofun nofun nofun
  | _ => exact .token nofun nofun nofun

theorem cellMasked_maskedCell (e : String × Cell) : CellMasked e (e.1, maskedCell e) where
  column := rfl
  shown h := by simp [maskedCell, h]
  hidden h := by
    simp only [maskedCell, h, if_true]
    exact hiddenAs_maskCell e.2

theorem maskRows_maskRows (rows : List Record) : maskRows (maskRows rows) = maskRows rows := by
  rw [maskRows_eq_self_iff]
  intro r hr n c hn hc
  obtain ⟨r, -, rfl⟩ := List.mem_map.1 hr
  unfold maskRecord at hc
  rw [Ordered.get?_mapWithKey] at hc
  obtain ⟨c, -, rfl⟩ := Option.map_eq_some_iff.1 hc
  rw [if_pos hn, maskCell_maskCell]

/-- Masked once, rows stay as they are under further masks. Row by row and column by column, in
order, names and the cells of columns that are not sensitive are kept, and a cell of a sensitive
column is hidden. -/
theorem maskRows_stable (rows : List Record) : maskRows (maskRows rows) = maskRows rows ∧
    List.Forall₂ (fun r masked : Record => List.Forall₂ CellMasked r.entries masked.entries)
      rows (maskRows rows) := by
  refine ⟨maskRows_maskRows rows, ?_⟩
  unfold maskRows
  rw [List.forall₂_map_right_iff, List.forall₂_same]
  intro r _
  have hentries : (maskRecord r).entries = r.entries.map fun e => (e.1, maskedCell e) := rfl
  rw [hentries, List.forall₂_map_right_iff, List.forall₂_same]
  intro e _
  exact cellMasked_maskedCell e

end Querent
