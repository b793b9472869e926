import Querent.Proofs.Guard.Verdict
import Querent.Proofs.Sql.AliasMap

/-! Which columns the names in an equality stand for, and what it takes for the guard to accept the
equality. -/
namespace Querent

open Sql

namespace Sql.TableRef

variable {r r' : TableRef}

/-- Two references to one table have the same columns in every catalogue. -/
theorem agrees_column (h : r.sameTable r' = true) (column : String) (declared : ColumnName) :
    (r.column column).agrees declared = (r'.column column).agrees declared := by
  obtain ⟨htable, ⟨h, h'⟩ | ⟨s, s', h, h', hs⟩⟩ := sameTable_iff.1 h
  · simp [ResolvedColumn.agrees, TableRef.column, h, h', sameText_congr htable]
  · simp [ResolvedColumn.agrees, TableRef.column, h, h', sameText_congr htable, sameText_congr hs]

end Sql.TableRef

namespace Guard

variable {keys : List ForeignKey} {refs : List TableRef} {r : TableRef} {name : String}

/-- A name stands for a table: one is called so, and every one called so is that table. -/
structure Called (refs : List TableRef) (name : String) (r : TableRef) : Prop where
  mem : r ∈ refs
  called : sameText r.calledAs name = true
  only : ∀ r' ∈ refs, sameText r'.calledAs name = true → r.sameTable r' = true

/-- The column that the parts of a name stand for: two parts are an alias and a column of the table
it stands for, and three are a schema, a table and a column. -/
inductive StandsFor (refs : List TableRef) : List String → ResolvedColumn → Prop where
  | aliased {name column : String} {r : TableRef} (h : Called refs name r) :
      StandsFor refs [name, column] (r.column column)
  | full {schema table column : String} :
      StandsFor refs [schema, table, column] { schema := some schema, table, column }

/-- Both names stand for columns, and those are the two ends of a foreign key. -/
def Declared (keys : List ForeignKey) (refs : List TableRef) (left right : List String) : Prop :=
  ∃ a b, StandsFor refs left a ∧ StandsFor refs right b ∧ ∃ k ∈ keys,
    (a.agrees k.source = true ∧ b.agrees k.target = true) ∨
      (a.agrees k.target = true ∧ b.agrees k.source = true)

/-- The order of the tables does not matter, nor how often each is named. -/
theorem StandsFor.congr {refs' : List TableRef} (hrefs : ∀ r, r ∈ refs ↔ r ∈ refs')
    {parts : List String} {x : ResolvedColumn} (h : StandsFor refs parts x) :
    StandsFor refs' parts x := by
  cases h with
  | full => exact .full
  | aliased hr =>
    exact .aliased ⟨(hrefs _).1 hr.mem, hr.called, fun r' hr' => hr.only r' ((hrefs r').2 hr')⟩

theorem Declared.congr {refs' : List TableRef} (hrefs : ∀ r, r ∈ refs ↔ r ∈ refs')
    {left right : List String} : Declared keys refs left right ↔ Declared keys refs' left right := by
  constructor
  · rintro ⟨a, b, ha, hb, hkey⟩
    exact ⟨a, b, ha.congr hrefs, hb.congr hrefs, hkey⟩
  · rintro ⟨a, b, ha, hb, hkey⟩
    exact ⟨a, b, ha.congr fun r => (hrefs r).symm, hb.congr fun r => (hrefs r).symm, hkey⟩

/-- What goes by one name is one table. -/
def CalledApart (refs : List TableRef) : Prop :=
  ∀ r ∈ refs, ∀ r' ∈ refs, sameText r.calledAs r'.calledAs = true → r.sameTable r' = true

/-- Names keep what they stand for when tables are added that go by other names. -/
theorem StandsFor.of_subset {refs' : List TableRef} (hsub : refs ⊆ refs') (hapart : CalledApart refs')
    {parts : List String} {x : ResolvedColumn} (h : StandsFor refs parts x) :
    StandsFor refs' parts x := by
  cases h with
  | full => exact .full
  | aliased hr =>
    refine .aliased ⟨hsub hr.mem, hr.called, fun r' hr' hcalled => ?_⟩
    exact hapart _ (hsub hr.mem) r' hr' (sameText_trans hr.called (sameText_symm hcalled))

theorem Declared.of_subset {refs' : List TableRef} (hsub : refs ⊆ refs') (hapart : CalledApart refs')
    {left right : List String} (h : Declared keys refs left right) :
    Declared keys refs' left right := by
  obtain ⟨a, b, ha, hb, hkey⟩ := h
  exact ⟨a, b, ha.of_subset hsub hapart, hb.of_subset hsub hapart, hkey⟩

theorem called_of_lookup (h : lookup refs name = some r) : Called refs name r := by
  obtain ⟨hfirst, hone⟩ := lookup_eq_some_iff.1 h
  have hmem := List.mem_of_find?_eq_some hfirst
  have hcalled := List.find?_some hfirst
  exact ⟨hmem, hcalled, fun r' hr' hcalled' => hone r hmem r' hr' hcalled hcalled'⟩

theorem lookup_of_called (h : Called refs name r) :
    ∃ r', lookup refs name = some r' ∧ r'.sameTable r = true := by
  have hone : OneTable refs name := fun x hx x' hx' hcalled hcalled' =>
    TableRef.sameTable_trans (TableRef.sameTable_symm (h.only x hx hcalled)) (h.only x' hx' hcalled')
  have hsome : (refs.find? fun x => sameText x.calledAs name).isSome :=
    List.find?_isSome.2 ⟨r, h.mem, h.called⟩
  obtain ⟨r', hfirst⟩ := Option.isSome_iff_exists.1 hsome
  have hcalled := List.find?_some hfirst
  refine ⟨r', lookup_eq_some_iff.2 ⟨hfirst, hone⟩, ?_⟩
  exact hone r' (List.mem_of_find?_eq_some hfirst) r h.mem hcalled h.called

theorem standsFor_of_resolve {parts : List String} {x : ResolvedColumn}
    (h : resolve refs parts = some x) : StandsFor refs parts x := by
  unfold resolve at h
  split at h
  · obtain ⟨r, hr, rfl⟩ := Option.map_eq_some_iff.1 h
    exact .aliased (called_of_lookup hr)
  · obtain rfl := Option.some.inj h
    exact .full
  · simp at h

theorem resolve_of_standsFor {parts : List String} {x : ResolvedColumn}
    (h : StandsFor refs parts x) :
    ∃ y, resolve refs parts = some y ∧ ∀ declared, y.agrees declared = x.agrees declared := by
  cases h with
  | @aliased name column r h =>
    obtain ⟨r', hr', hsame⟩ := lookup_of_called h
    exact ⟨r'.column column, by simp [resolve, hr'], TableRef.agrees_column hsame column⟩
  | full => exact ⟨_, rfl, fun _ => rfl⟩

theorem declared_iff_resolve {left right : List String} : Declared keys refs left right ↔
    ∃ a b, resolve refs left = some a ∧ resolve refs right = some b ∧
      isDeclaredJoin keys a b = true := by
  have hjoin : ∀ a b, isDeclaredJoin keys a b = true ↔ ∃ k ∈ keys,
      (a.agrees k.source = true ∧ b.agrees k.target = true) ∨
        (a.agrees k.target = true ∧ b.agrees k.source = true) := fun a b => by
    simp [isDeclaredJoin]
  constructor
  · rintro ⟨a, b, ha, hb, h⟩
    obtain ⟨a', ha', hagree⟩ := resolve_of_standsFor ha
    obtain ⟨b', hb', hagree'⟩ := resolve_of_standsFor hb
    refine ⟨a', b', ha', hb', (hjoin a' b').2 ?_⟩
    simpa only [hagree, hagree'] using h
  · rintro ⟨a, b, ha, hb, h⟩
    exact ⟨a, b, standsFor_of_resolve ha, standsFor_of_resolve hb, (hjoin a b).1 h⟩

private theorem two_le_length_of_resolve {parts : List String} {x : ResolvedColumn}
    (h : resolve refs parts = some x) : 2 ≤ parts.length := by
  unfold resolve at h
  split at h
  · simp
  · simp
  · simp at h

/-- The guard accepts an equality exactly when it follows a foreign key. -/
theorem checkEquality_eq_ok {e : Equality} :
    checkEquality keys refs e = .ok () ↔ Declared keys refs e.left e.right := by
  rw [declared_iff_resolve]
  unfold checkEquality
  constructor
  · intro h
    split at h
    · simp at h
    · split at h
      · rename_i a b ha hb
        split at h
        · rename_i hjoin
          exact ⟨a, b, ha, hb, hjoin⟩
        · simp at h
      · simp at h
  · rintro ⟨a, b, ha, hb, hjoin⟩
    have hleft := two_le_length_of_resolve ha
    have hright := two_le_length_of_resolve hb
    have hlong : (decide (e.left.length < 2) || decide (e.right.length < 2)) = false := by
      simp only [Bool.or_eq_false_iff, decide_eq_false_iff_not]
      omega
    rw [hlong, if_neg (by decide)]
    simp only [ha, hb, hjoin, if_true]

/-- An equality of qualified names that follows none is refused with both names. -/
theorem checkEquality_eq_error {e : Equality} (hleft : 2 ≤ e.left.length)
    (hright : 2 ≤ e.right.length) (h : ¬ Declared keys refs e.left e.right) :
    checkEquality keys refs e = .error (.unauthorizedJoin (dotted e.left) (dotted e.right)) := by
  have hlong : (decide (e.left.length < 2) || decide (e.right.length < 2)) = false := by
    simp only [Bool.or_eq_false_iff, decide_eq_false_iff_not]
    omega
  unfold checkEquality
  rw [hlong, if_neg (by decide)]
  split
  · rename_i a b ha hb
    split
    · rename_i hjoin
      exact absurd (declared_iff_resolve.2 ⟨a, b, ha, hb, hjoin⟩) h
    · rfl
  · rfl

end Guard

end Querent
