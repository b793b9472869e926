import Mathlib.Data.List.Forall2
import Querent.Pipeline.Stages
import Querent.Proofs.Row.Budget
import Querent.Proofs.Row.Masked

/-! Results that differ in masked values alone. How many rows are kept depends on nothing but their
sizes, and what is kept is masked before anything else is done with it. So nothing that the mask
hides can be told from what is shown, stored or said to the model. -/
namespace Querent

open Mask

/-- Cells of one column that are the same as far as the mask shows them. -/
structure SameCell (e e' : String × Cell) : Prop where
  column : e.1 = e'.1
  shown : isSensitive e.1 = false → e.2 = e'.2
  hidden : isSensitive e.1 = true → maskCell e.2 = maskCell e'.2

/-- Rows of one size with the same columns in the same order that differ in masked values alone. -/
structure SameMasked (r r' : Record) : Prop where
  cells : List.Forall₂ SameCell r.entries r'.entries
  size : r.byteSize = r'.byteSize

variable {r r' : Record} {rows rows' : List Record} {maxBytes : Nat}

theorem byteSize_congr (h : List.Forall₂ SameMasked rows rows') :
    Budget.byteSize rows = Budget.byteSize rows' := by
  have hsizes : rows.map Record.byteSize = rows'.map Record.byteSize := by
    induction h with
    | nil => rfl
    | cons hrow _ ih => rw [List.map_cons, List.map_cons, hrow.size, ih]
  rw [Budget.byteSize_eq, Budget.byteSize_eq, hsizes, h.length_eq]

/-! ### The kept rows -/

/-- Each step of the budget drops as many rows of one result as of the other. -/
theorem shrink_sameMasked (h : List.Forall₂ SameMasked rows rows') :
    List.Forall₂ SameMasked (Budget.shrink maxBytes rows) (Budget.shrink maxBytes rows') := by
  fun_induction Budget.shrink maxBytes rows generalizing rows' with
  | case1 rows hlarge ih =>
    have hlarge' : 1 < rows'.length ∧ maxBytes < Budget.byteSize rows' := by
      rwa [← byteSize_congr h, ← h.length_eq]
    rw [Budget.shrink.eq_def maxBytes rows', dif_pos hlarge', ← h.length_eq]
    exact ih (List.forall₂_take _ h)
  | case2 rows hfits =>
    have hfits' : ¬ (1 < rows'.length ∧ maxBytes < Budget.byteSize rows') := by
      rwa [← byteSize_congr h, ← h.length_eq]
    rw [Budget.shrink.eq_def maxBytes rows', dif_neg hfits']
    exact h

theorem limit_sameMasked (budget : Budget) (h : List.Forall₂ SameMasked rows rows') :
    List.Forall₂ SameMasked (budget.limit rows) (budget.limit rows') :=
  shrink_sameMasked (List.forall₂_take _ h)

/-! ### Behind the mask -/

theorem SameCell.masked {e e' : String × Cell} (h : SameCell e e') :
    (e.1, maskedCell e) = (e'.1, maskedCell e') := by
  have hcell : maskedCell e = maskedCell e' := by
    unfold maskedCell
    rw [← h.column]
    cases hname : isSensitive e.1 with
    | true => exact h.hidden hname
    | false => exact h.shown hname
  rw [hcell, h.column]

theorem maskRecord_congr (h : SameMasked r r') : maskRecord r = maskRecord r' := by
  have hmasked {es es' : List (String × Cell)} (hes : List.Forall₂ SameCell es es') :
      es.map (fun e => (e.1, maskedCell e)) = es'.map fun e => (e.1, maskedCell e) := by
    induction hes with
    | nil => rfl
    | cons hcell _ ih => rw [List.map_cons, List.map_cons, hcell.masked, ih]
  have hentries : (maskRecord r).entries = (maskRecord r').entries := hmasked h.cells
  cases hr : maskRecord r
  cases hr' : maskRecord r'
  rw [hr, hr'] at hentries
  simpa using hentries

theorem maskRows_congr (h : List.Forall₂ SameMasked rows rows') :
    maskRows rows = maskRows rows' := by
  induction h with
  | nil => rfl
  | cons hrow _ ih =>
    unfold maskRows at ih ⊢
    rw [List.map_cons, List.map_cons, maskRecord_congr hrow, ih]

/-- Two results that differ in masked values alone are kept, masked, renamed and put into columns
alike, and the model is asked the same about both. -/
theorem process_of_sameMasked (h : List.Forall₂ SameMasked rows rows') (s : Snapshot) :
    (∀ budget : Budget, process budget s.uniqueNames rows = process budget s.uniqueNames rows') ∧
    ∀ (o : Pipeline.Options) (sql : String),
      Pipeline.described o s sql rows = Pipeline.described o s sql rows' := by
  have hprocess (budget : Budget) :
      process budget s.uniqueNames rows = process budget s.uniqueNames rows' := by
    unfold process
    rw [maskRows_congr (limit_sameMasked budget h)]
  refine ⟨hprocess, fun o sql => ?_⟩
  unfold Pipeline.described
  rw [hprocess]

def customer (email : String) (phone : Cell) : Record :=
  .ofList [("id", .number (.int 1)), ("email", .text email), ("phone", phone)]

/-- Another address and another number of the same length leave no trace: of both results the first
row alone fits. -/
theorem process_of_sameMasked_customers :
    let budget : Budget := { maxRows := 2, maxBytes := 80 }
    let rows := [customer "person@example.com" (.number (.int 5551234)), customer "" .null]
    let rows' := [customer "people@example.com" (.bytes [1, 2, 3]), customer "" .null]
    List.Forall₂ SameMasked rows rows' ∧
      process budget contacts.uniqueNames rows = process budget contacts.uniqueNames rows' ∧
      onlyText "email" (process budget contacts.uniqueNames rows).rows = some "pe***om" := by
  intro budget rows rows'
  have hemail : SameCell ("email", .text "person@example.com")
      ("email", .text "people@example.com") :=
    ⟨rfl, fun h => absurd h (by decide), fun _ => congrArg Cell.text (by decide)⟩
  have hphone : SameCell ("phone", .number (.int 5551234)) ("phone", .bytes [1, 2, 3]) :=
    ⟨rfl, fun h => absurd h (by decide), fun _ => rfl⟩
  have hself (e : String × Cell) : SameCell e e := ⟨rfl, fun _ => rfl, fun _ => rfl⟩
  have hrows : List.Forall₂ SameMasked rows rows' :=
    .cons ⟨.cons (hself _) (.cons hemail (.cons hphone .nil)), by decide +kernel⟩
      (.cons ⟨List.forall₂_same.2 fun e _ => hself e, rfl⟩ .nil)
  have hkept : budget.limit rows = rows.take 1 := by
    have hlarge : 1 < (rows.take 2).length ∧ 80 < Budget.byteSize (rows.take 2) := by decide +kernel
    have hone : Budget.shrunk (rows.take 2).length = 1 := by decide
    unfold Budget.limit
    rw [Budget.shrink, dif_pos hlarge, hone, Budget.shrink, dif_neg (by decide)]
    rfl
  refine ⟨hrows, (process_of_sameMasked hrows contacts).1 budget, ?_⟩
  rw [rows_process, hkept]
  decide +kernel

end Querent
