import Querent.Catalog.Json
import Querent.Proofs.Json.Read

/-! Catalogues written as JSON and read back: every record is its own description, and a snapshot
comes back from either layout of its text. -/
namespace Querent

open Json (Tree Fields Integral IntegralItems IntegralMembers)

namespace Json

variable {α : Type} {write : α → Json} {decode : Tree → Option α} {as : List α}

theorem integral_ofText? (s : Option String) : Integral (ofText? s) := by
  cases s <;> trivial

theorem integralItems_map (h : ∀ a ∈ as, Integral (write a)) : IntegralItems (as.map write) := by
  induction as with
  | nil => trivial
  | cons a as ih =>
    obtain ⟨hfirst, hrest⟩ := List.forall_mem_cons.1 h
    exact ⟨hfirst, ih hrest⟩

/-- A list is read back where each of its items is. -/
theorem list?_toTree (h : ∀ a ∈ as, decode (write a).toTree = some a) :
    Tree.list? decode (array (as.map write)).toTree = some as := by
  change (treesOf (as.map write)).mapM decode = some as
  induction as with
  | nil => rfl
  | cons a as ih =>
    obtain ⟨hfirst, hrest⟩ := List.forall_mem_cons.1 h
    simp [treesOf, hfirst, ih hrest]

/-- A text that may be missing is read back. -/
theorem nullable_ofText? (s : Option String) :
    Fields.nullable Tree.string? (ofText? s).toTree = some s := by
  cases s <;> rfl

theorem int64?_ofInt {n : Int} (hlow : -(Decimal.wordBound 63 : Int) ≤ n)
    (hhigh : n < Decimal.wordBound 63) : Tree.int64? (ofInt n).toTree = some n := by
  change Tree.intIn? _ _ (.number (some (.int n))) = some n
  have hwithin : n ≤ (Decimal.wordBound 63 : Int) - 1 := by omega
  simp [Tree.intIn?, hlow, hwithin]

theorem int64?_bounds {t : Tree} {n : Int} (h : Tree.int64? t = some n) :
    -(Decimal.wordBound 63 : Int) ≤ n ∧ n < Decimal.wordBound 63 := by
  unfold Tree.int64? Tree.intIn? at h
  split at h
  · split at h
    · rename_i hn
      simp only [Bool.and_eq_true, decide_eq_true_eq] at hn
      obtain rfl := Option.some.inj h
      omega
    · simp at h
  · simp at h

end Json

/-! ### Records -/

namespace Column

theorem integral_toJson (c : Column) : Integral c.toJson :=
  ⟨trivial, trivial, trivial, trivial, Json.integral_ofText? _, Json.integral_ofText? _, trivial⟩

theorem ofTree_toJson (c : Column) : ofTree c.toJson.toTree = some c := by
  have hname := Json.nullable_ofText? c.businessName
  have hdescription := Json.nullable_ofText? c.description
  change (Fields.nullable Tree.string? (Json.ofText? c.businessName).toTree).bind (fun name =>
    (Fields.nullable Tree.string? (Json.ofText? c.description).toTree).bind fun description =>
      some { c with businessName := name, description }) = some c
  rw [hname, hdescription]
  rfl

end Column

namespace Table

theorem integral_toJson (t : Table) : Integral t.toJson :=
  ⟨trivial, trivial, Json.integral_ofText? _, Json.integral_ofText? _,
    Json.integralItems_map fun c _ => c.integral_toJson, trivial⟩

theorem ofTree_toJson (t : Table) : ofTree t.toJson.toTree = some t := by
  have hname := Json.nullable_ofText? t.businessName
  have hdescription := Json.nullable_ofText? t.description
  have hcolumns : Tree.list? Column.ofTree (Json.array (t.columns.map Column.toJson)).toTree =
      some t.columns := Json.list?_toTree fun c _ => c.ofTree_toJson
  change (Fields.nullable Tree.string? (Json.ofText? t.businessName).toTree).bind (fun name =>
    (Fields.nullable Tree.string? (Json.ofText? t.description).toTree).bind fun description =>
      (Tree.list? Column.ofTree (Json.array (t.columns.map Column.toJson)).toTree).bind
        fun columns => some { t with businessName := name, description, columns }) = some t
  rw [hname, hdescription, hcolumns]
  rfl

end Table

namespace ForeignKey

theorem integral_toJson (k : ForeignKey) : Integral k.toJson :=
  ⟨Json.integral_ofText? _, ⟨trivial, trivial, trivial, trivial⟩,
    ⟨trivial, trivial, trivial, trivial⟩, trivial⟩

theorem ofTree_toJson (k : ForeignKey) : ofTree k.toJson.toTree = some k := by
  have hname := Json.nullable_ofText? k.constraint
  change (Fields.nullable Tree.string? (Json.ofText? k.constraint).toTree).bind (fun name =>
    some { k with constraint := name }) = some k
  rw [hname]
  rfl

end ForeignKey

namespace Snapshot

/-- The number of the workspace fits into 64 bits with its sign. -/
def WorkspaceFits (s : Snapshot) : Prop :=
  -(Decimal.wordBound 63 : Int) ≤ s.workspace ∧ s.workspace < Decimal.wordBound 63

theorem integral_toJson {s : Snapshot} (h : s.WorkspaceFits) : Integral s.toJson := by
  have hbound : (Decimal.wordBound 63 : Int) ≤ Decimal.wordBound 64 := by decide
  have hnumber : Integral (Json.ofInt s.workspace) := ⟨h.1, by have := h.2; omega⟩
  exact ⟨hnumber, Json.integralItems_map fun t _ => t.integral_toJson,
    Json.integralItems_map fun k _ => k.integral_toJson, trivial⟩

theorem ofTree_toJson {s : Snapshot} (h : s.WorkspaceFits) : ofTree s.toJson.toTree = some s := by
  have hworkspace := Json.int64?_ofInt h.1 h.2
  have htables : Tree.list? Table.ofTree (Json.array (s.tables.map Table.toJson)).toTree =
      some s.tables := Json.list?_toTree fun t _ => t.ofTree_toJson
  have hkeys : Tree.list? ForeignKey.ofTree
      (Json.array (s.foreignKeys.map ForeignKey.toJson)).toTree = some s.foreignKeys :=
    Json.list?_toTree fun k _ => k.ofTree_toJson
  change (Tree.int64? (Json.ofInt s.workspace).toTree).bind (fun workspace =>
    (Tree.list? Table.ofTree (Json.array (s.tables.map Table.toJson)).toTree).bind fun tables =>
      (Tree.list? ForeignKey.ofTree
        (Json.array (s.foreignKeys.map ForeignKey.toJson)).toTree).bind fun foreignKeys =>
          some { workspace, tables, foreignKeys }) = some s
  rw [hworkspace, htables, hkeys]
  rfl

theorem parse_compact {s : Snapshot} (h : s.WorkspaceFits) : parse s.toJson.compact = some s := by
  rw [parse, Json.parse_compact (integral_toJson h).proper, (integral_toJson h).readTree_eq]
  exact ofTree_toJson h

theorem parse_pretty {s : Snapshot} (h : s.WorkspaceFits) : parse s.toJson.pretty = some s := by
  rw [parse, Json.parse_pretty (integral_toJson h).proper, (integral_toJson h).readTree_eq]
  exact ofTree_toJson h

/-- Whatever is read has a workspace number that fits. -/
theorem workspaceFits_of_parse {s : Snapshot} {text : String} (h : parse text = some s) :
    s.WorkspaceFits := by
  obtain ⟨t, -, ht⟩ := Option.bind_eq_some_iff.1 h
  unfold ofTree at ht
  simp only [Option.bind_eq_bind, Option.bind_eq_some_iff, Option.some.injEq] at ht
  obtain ⟨f, -, w, hw, tables, -, keys, -, rfl⟩ := ht
  obtain ⟨t', -, ht'⟩ := Option.bind_eq_some_iff.1 hw
  exact Json.int64?_bounds ht'

end Snapshot

end Querent
