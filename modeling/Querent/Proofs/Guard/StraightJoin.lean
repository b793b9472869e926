import Querent.Proofs.Guard.JoinVerdict

/-! Joins that are written STRAIGHT_JOIN, beside the same joins written INNER JOIN. The guard knows the
word where a list of tables or a condition ends, but not where a table follows: it finds only the tables
behind JOIN as a word of its own. -/
namespace Querent

namespace Sql

open JoinQuery

/-- A join with STRAIGHT_JOIN written as INNER JOIN. -/
def JoinQuery.Link.inner (l : Link) : Clause :=
  { l.clause with kind := if l.straight then .inner else l.clause.kind }

namespace LinkedQuery

variable {d : Dialect} {q : LinkedQuery}

/-- The same query without the word STRAIGHT_JOIN. -/
def withInner (q : LinkedQuery) : JoinQuery := ⟨q.item, q.links.map Link.inner⟩

/-- The joins that are written STRAIGHT_JOIN. -/
def straightJoins (q : LinkedQuery) : List Clause := (q.links.filter (·.straight)).map (·.clause)

/-- The joins written INNER JOIN are those that were not written STRAIGHT_JOIN and those that were, in
all that does not depend on the kind. -/
theorem exists_inner_iff {P : Clause → Prop} (hkind : ∀ j kind, P { j with kind } ↔ P j)
    (ls : List Link) : (∃ j ∈ ls.map Link.inner, P j) ↔
      (∃ j ∈ plainJoins ls, P j) ∨ ∃ j ∈ (ls.filter (·.straight)).map (·.clause), P j := by
  induction ls with
  | nil => simp [plainJoins]
  | cons l ls ih =>
    have hl : P l.inner ↔ P l.clause := hkind _ _
    rw [List.map_cons, List.exists_mem_cons_iff, hl, ih]
    obtain ⟨_ | _, j⟩ := l
    · rw [plainJoins, List.exists_mem_cons_iff, List.filter_cons_of_neg (by simp), or_assoc]
    · rw [plainJoins, List.filter_cons_of_pos rfl, List.map_cons, List.exists_mem_cons_iff, or_left_comm]

theorem mem_refs_withInner {r : TableRef} : r ∈ q.withInner.refs d ↔
    r ∈ q.withoutStraight.refs d ∨ ∃ j ∈ q.straightJoins, j.item.ref d = r := by
  have hrefs (p : JoinQuery) : r ∈ p.refs d ↔
      p.item.ref d = r ∨ ∃ j ∈ p.joins, j.item.ref d = r := by
    simp [JoinQuery.refs, JoinQuery.items, eq_comm]
  rw [hrefs, hrefs, or_assoc]
  exact or_congr_right (exists_inner_iff (fun _ _ => .rfl) q.links)

theorem mem_equations_withInner {e : Equation} : e ∈ q.withInner.equations ↔
    e ∈ q.withoutStraight.equations ∨ ∃ j ∈ q.straightJoins, e ∈ j.equations := by
  rw [JoinQuery.equations, JoinQuery.equations, List.mem_flatMap, List.mem_flatMap]
  exact exists_inner_iff (fun _ _ => .rfl) q.links

end LinkedQuery

end Sql

namespace Guard

open Sql

variable {policy : Policy} {keys : List ForeignKey}

/-- The schemas of a query are allowed, and its equalities follow foreign keys where the policy asks
for that. -/
def Passes (policy : Policy) (keys : List ForeignKey) (q : JoinQuery) : Prop :=
  SchemasAllowed policy.dialect policy.allowedSchemas q ∧
    (policy.forbidFreeJoins = true → ∀ e ∈ q.equations, Follows policy.dialect keys q e)

/-- A query is accepted if it passes without its joins that are written STRAIGHT_JOIN. -/
theorem accepted_iff (q : LinkedQuery) :
    (∃ out, validate keys policy (.ofList q.text) = .ok out) ↔ Passes policy keys q.withoutStraight := by
  have hjoins : (q.withoutStraight.equations.forM fun e =>
      checkEquality keys (q.withoutStraight.refs policy.dialect) e.pair.equality) = .ok () ↔
      ∀ e ∈ q.withoutStraight.equations, Follows policy.dialect keys q.withoutStraight e :=
    forM_eq_ok.trans (forall₂_congr fun _ _ => checkEquality_eq_ok)
  rw [validate_linked, Passes, SchemasAllowed, ← checkSchemas_eq_ok, ← hjoins]
  cases checkSchemas policy.allowedSchemas (q.withoutStraight.refs policy.dialect) with
  | error v => simp [bind, Except.bind]
  | ok u =>
    cases policy.forbidFreeJoins with
    | false => simp [bind, Except.bind, pure, Except.pure]
    | true =>
      cases q.withoutStraight.equations.forM fun e =>
          checkEquality keys (q.withoutStraight.refs policy.dialect) e.pair.equality <;>
        simp [bind, Except.bind, pure, Except.pure]

theorem accepted_joinQuery_iff (q : JoinQuery) :
    (∃ out, validate keys policy (.ofList q.text) = .ok out) ↔ Passes policy keys q := by
  have haccepted : _ ↔ Passes policy keys q.linked.withoutStraight := accepted_iff q.linked
  rwa [q.linked_text, q.linked_withoutStraight] at haccepted

/-- The tables behind STRAIGHT_JOIN are found only as far as the query names them elsewhere too, and the
query is accepted exactly if it passes without them. Where one name stands for one table, what separates an
accepted query from the same query with INNER JOIN are the schemas of those tables and the equalities in
their conditions, which are not checked. -/
theorem validate_straight {α : Type} (view : TableRef → α) (policy : Policy) (keys : List ForeignKey)
    (q : LinkedQuery) :
    let d := policy.dialect
    let accepted (text : List Char) : Prop := ∃ out, validate keys policy (.ofList text) = .ok out
    ((∀ x, x ∈ (tables d q.text).map view ↔ x ∈ (tables d q.withInner.text).map view) ↔
      ∀ j ∈ q.straightJoins, view (j.item.ref d) ∈ (q.withoutStraight.refs d).map view) ∧
    (accepted q.text ↔ Passes policy keys q.withoutStraight) ∧
    (accepted q.withInner.text ↔ Passes policy keys q.withInner) ∧
    (CalledApart (q.withInner.refs d) → accepted q.text →
      (accepted q.withInner.text ↔ ∀ j ∈ q.straightJoins,
        (∀ s ∈ (j.item.ref d).schema, SchemaAllowed policy.allowedSchemas s) ∧
        (policy.forbidFreeJoins = true → ∀ e ∈ j.equations, Follows d keys q.withInner e))) := by
  intro d accepted
  have htables : tables d q.withInner.text = q.withInner.refs d := by
    rw [← q.withInner.linked_text, q.withInner.linked.tables_text, q.withInner.linked_withoutStraight]
  have hmem (r : TableRef) : r ∈ q.withInner.refs d ↔
      r ∈ q.withoutStraight.refs d ∨ ∃ j ∈ q.straightJoins, j.item.ref d = r :=
    LinkedQuery.mem_refs_withInner
  refine ⟨?_, accepted_iff q, accepted_joinQuery_iff _, ?_⟩
  · rw [q.tables_text, htables]
    constructor
    · intro h j hj
      exact (h _).2 (List.mem_map_of_mem ((hmem _).2 (.inr ⟨j, hj, rfl⟩)))
    · intro h x
      constructor
      · intro hx
        obtain ⟨r, hr, rfl⟩ := List.mem_map.1 hx
        exact List.mem_map_of_mem ((hmem r).2 (.inl hr))
      · intro hx
        obtain ⟨r, hr, rfl⟩ := List.mem_map.1 hx
        rcases (hmem r).1 hr with hr | ⟨j, hj, rfl⟩
        · exact List.mem_map_of_mem hr
        · exact h j hj
  · intro hapart haccepted
    obtain ⟨hschemas, hfollows⟩ := (accepted_iff q).1 haccepted
    have hsub : q.withoutStraight.refs d ⊆ q.withInner.refs d := fun r hr => (hmem r).2 (.inl hr)
    refine (accepted_joinQuery_iff _).trans ⟨fun hpass j hj => ⟨?_, fun hfree e he => ?_⟩, ?_⟩
    · exact hpass.1 _ ((hmem _).2 (.inr ⟨j, hj, rfl⟩))
    · exact hpass.2 hfree e (LinkedQuery.mem_equations_withInner.2 (.inr ⟨j, hj, he⟩))
    · intro hstraight
      refine ⟨fun r hr => ?_, fun hfree e he => ?_⟩
      · rcases (hmem r).1 hr with hr | ⟨j, hj, rfl⟩
        · exact hschemas r hr
        · exact (hstraight j hj).1
      · rcases LinkedQuery.mem_equations_withInner.1 he with he | ⟨j, hj, he⟩
        · exact (hfollows hfree e he).of_subset hsub hapart
        · exact (hstraight j hj).2 hfree e he

/-- `SELECT * FROM shop.a STRAIGHT_JOIN secret.b ON a.i = b.i`. -/
def straightQuery : LinkedQuery where
  item := ⟨false, some shop, a, none⟩
  links := [⟨true, .bare, ⟨false, some secret, b, none⟩, ⟨.aliased a i, .aliased b i⟩, []⟩]
where
  shop : JoinQuery.Word := ⟨"shop".toList, by decide, by decide, by decide⟩
  secret : JoinQuery.Word := ⟨"secret".toList, by decide, by decide, by decide⟩
  a : JoinQuery.Word := ⟨['a'], by decide, by decide, by decide⟩
  b : JoinQuery.Word := ⟨['b'], by decide, by decide, by decide⟩
  i : JoinQuery.Word := ⟨['i'], by decide, by decide, by decide⟩

/-- Where both schemas are allowed and the equality is declared, both ways to write the join pass. -/
theorem validate_straight_declared :
    let key : ForeignKey := ⟨none, ⟨"shop", "a", "i"⟩, ⟨"secret", "b", "i"⟩⟩
    let policy : Policy := ⟨.mysql, some ["shop", "secret"], 101, true⟩
    (∃ out, validate [key] policy (.ofList straightQuery.text) = .ok out) ∧
      ∃ out, validate [key] policy (.ofList straightQuery.withInner.text) = .ok out := by
  intro key policy
  obtain ⟨-, -, -, hinner⟩ := validate_straight TableRef.table policy [key] straightQuery
  have hpass : ∃ out, validate [key] policy (.ofList straightQuery.text) = .ok out :=
    ⟨"SELECT * FROM shop.a STRAIGHT_JOIN secret.b ON a.i = b.i LIMIT 101",
      eq_ok_of_toOption (by decide +kernel)⟩
  have hapart : CalledApart (straightQuery.withInner.refs .mysql) := by
    unfold CalledApart
    decide +kernel
  refine ⟨hpass, (hinner hapart hpass).2 fun j hj => ?_⟩
  obtain rfl := List.mem_singleton.1 hj
  refine ⟨?_, fun _ e he => ?_⟩
  · unfold SchemaAllowed
    decide +kernel
  · obtain rfl := List.mem_singleton.1 he
    have hcheck : checkEquality [key] (straightQuery.withInner.refs .mysql)
        ⟨["a", "i"], ["b", "i"]⟩ = .ok () := eq_ok_of_toOption (by decide +kernel)
    exact checkEquality_eq_ok.1 hcheck

/-- With INNER JOIN the query is refused for its schema and, where every schema is allowed, for the
equality that no foreign key declares. With STRAIGHT_JOIN it is accepted under both policies, and one of
its two tables is found. -/
theorem straight_join_overlooked :
    let q := straightQuery
    let listed : Policy := ⟨.mysql, some ["shop"], 101, true⟩
    let unlisted : Policy := ⟨.mysql, none, 101, true⟩
    (String.ofList q.text = "SELECT * FROM shop.a STRAIGHT_JOIN secret.b ON a.i = b.i" ∧
      String.ofList q.withInner.text = "SELECT * FROM shop.a INNER JOIN secret.b ON a.i = b.i") ∧
    ((tables .mysql q.text).map (·.table) = ["a"] ∧
      (tables .mysql q.withInner.text).map (·.table) = ["a", "b"]) ∧
    (validate [] listed (.ofList q.withInner.text) = .error (.schemaNotAllowed ["secret"]) ∧
      validate [] unlisted (.ofList q.withInner.text) = .error (.unauthorizedJoin "a.i" "b.i")) ∧
    ∀ policy ∈ [listed, unlisted], validate [] policy (.ofList q.text) =
      .ok "SELECT * FROM shop.a STRAIGHT_JOIN secret.b ON a.i = b.i LIMIT 101" := by
  refine ⟨by decide +kernel, by decide +kernel, by decide +kernel, ?_⟩
  simp only [List.forall_mem_cons, List.not_mem_nil, false_imp_iff, implies_true, and_true]
  exact ⟨eq_ok_of_toOption (by decide +kernel), eq_ok_of_toOption (by decide +kernel)⟩

end Guard

end Querent
