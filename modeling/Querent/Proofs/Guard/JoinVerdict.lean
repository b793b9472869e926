import Querent.Proofs.Guard.Declared
import Querent.Proofs.Query.JoinReading

/-! The verdict of the guard on queries that join tables under equalities of columns. -/
namespace Querent.Guard

open Text Sql

variable {ε α β : Type}

/-- A check over lists of entries is the check over all of them. -/
theorem forM_flatMap {f : β → Except ε Unit} {g : α → List β} {l : List α} :
    (l.flatMap g).forM f = l.forM fun x => (g x).forM f := by
  induction l with
  | nil => rfl
  | cons x l ih =>
    have happend : (g x ++ l.flatMap g).forM f = ((g x).forM f >>= fun _ => (l.flatMap g).forM f) :=
      List.forM_append
    rw [List.flatMap_cons, happend, ih]
    rfl

/-- A check over a list that fails gives the error of the first entry that fails. -/
theorem exists_first_error {f : α → Except ε Unit} {l : List α} (h : l.forM f ≠ .ok ()) :
    ∃ before x after e, l = before ++ x :: after ∧ (∀ y ∈ before, f y = .ok ()) ∧
      f x = .error e ∧ l.forM f = .error e := by
  induction l with
  | nil => exact absurd rfl h
  | cons x l ih =>
    have hcons : (x :: l).forM f = (f x >>= fun _ => l.forM f) := rfl
    cases hx : f x with
    | error e =>
      have herror : (x :: l).forM f = .error e := by rw [hcons, hx]; rfl
      exact ⟨[], x, l, e, rfl, by simp, hx, herror⟩
    | ok u =>
      have hrest : (x :: l).forM f = l.forM f := by rw [hcons, hx]; rfl
      rw [hrest] at h ⊢
      obtain ⟨before, y, after, e, rfl, hbefore, hy, herror⟩ := ih h
      refine ⟨x :: before, y, after, e, rfl, ?_, hy, herror⟩
      intro z hz
      rcases List.mem_cons.1 hz with rfl | hz
      · exact hx
      · exact hbefore z hz

/-! ### Schemas -/

variable {d : Dialect} {allowed : Option (List String)} {keys : List ForeignKey} {limit : Nat}
  {refs : List TableRef} {q : JoinQuery}

/-- A schema is on the list in some letter case, if there is a list. -/
def SchemaAllowed (allowed : Option (List String)) (schema : String) : Prop :=
  ∀ list ∈ allowed, ∃ s ∈ list, sameText schema s = true

/-- The schemas that are not allowed, each of them in one way of writing it. -/
structure Offending (allowed : Option (List String)) (refs : List TableRef)
    (schemas : List String) : Prop where
  sound : ∀ s ∈ schemas, ¬ SchemaAllowed allowed s ∧ ∃ r ∈ refs, r.schema = some s
  complete : ∀ r ∈ refs, ∀ s ∈ r.schema, ¬ SchemaAllowed allowed s →
    ∃ s' ∈ schemas, sameText s' s = true
  distinct : schemas.Pairwise fun s s' => sameText s s' = false

private theorem distinctTexts_spec (seen l : List String) :
    (∀ s ∈ distinctTexts seen l, s ∈ l ∧ ∀ s' ∈ seen, sameText s' s = false) ∧
      (∀ s ∈ l, ∃ s' ∈ seen ++ distinctTexts seen l, sameText s' s = true) ∧
      (distinctTexts seen l).Pairwise fun s s' => sameText s s' = false := by
  induction l generalizing seen with
  | nil => simp [distinctTexts]
  | cons s l ih =>
    unfold distinctTexts
    split
    · rename_i hseen
      obtain ⟨s', hs', hsame⟩ := List.any_eq_true.1 hseen
      obtain ⟨hsound, hcomplete, hdistinct⟩ := ih seen
      refine ⟨fun x hx => ⟨by simp [(hsound x hx).1], (hsound x hx).2⟩, ?_, hdistinct⟩
      intro x hx
      rcases List.mem_cons.1 hx with rfl | hx
      · exact ⟨s', by simp [hs'], sameText_symm hsame⟩
      · exact hcomplete x hx
    · rename_i hseen
      obtain ⟨hsound, hcomplete, hdistinct⟩ := ih (s :: seen)
      have hnew : ∀ s' ∈ seen, sameText s' s = false := by
        intro s' hs'
        by_contra hsame
        rw [Bool.not_eq_false] at hsame
        exact hseen (List.any_eq_true.2 ⟨s', hs', sameText_symm hsame⟩)
      refine ⟨?_, ?_, List.pairwise_cons.2 ⟨?_, hdistinct⟩⟩
      · intro x hx
        rcases List.mem_cons.1 hx with rfl | hx
        · exact ⟨by simp, hnew⟩
        · exact ⟨by simp [(hsound x hx).1], fun s' hs' => (hsound x hx).2 s' (by simp [hs'])⟩
      · intro x hx
        rcases List.mem_cons.1 hx with rfl | hx
        · exact ⟨x, by simp, sameText_refl x⟩
        · obtain ⟨s', hs', hsame⟩ := hcomplete x hx
          exact ⟨s', by simp at hs' ⊢; tauto, hsame⟩
      · exact fun x hx => (hsound x hx).2 s (by simp)

theorem offending_foreignSchemas (list : List String) (refs : List TableRef) :
    Offending (some list) refs (foreignSchemas list refs) := by
  obtain ⟨hsound, hcomplete, hdistinct⟩ := distinctTexts_spec []
    ((refs.filterMap (·.schema)).filter fun s => !list.any (sameText s))
  have hallowed : ∀ s, (!list.any (sameText s)) = true ↔ ¬ SchemaAllowed (some list) s := by
    simp [SchemaAllowed]
  refine ⟨?_, ?_, hdistinct⟩
  · intro s hs
    obtain ⟨hmem, hs⟩ := List.mem_filter.1 (hsound s hs).1
    exact ⟨(hallowed s).1 hs, by simpa using hmem⟩
  · intro r hr s hs hnot
    have hmem : s ∈ (refs.filterMap (·.schema)).filter fun s => !list.any (sameText s) :=
      List.mem_filter.2 ⟨List.mem_filterMap.2 ⟨r, hr, hs⟩, (hallowed s).2 hnot⟩
    simpa [foreignSchemas] using hcomplete s hmem

/-- The check on schemas passes or names the offending ones. -/
theorem checkSchemas_eq (allowed : Option (List String)) (refs : List TableRef) :
    (checkSchemas allowed refs = .ok () ∧ ∀ r ∈ refs, ∀ s ∈ r.schema, SchemaAllowed allowed s) ∨
      ∃ schemas, checkSchemas allowed refs = .error (.schemaNotAllowed schemas) ∧
        Offending allowed refs schemas ∧ schemas ≠ [] := by
  cases allowed with
  | none => exact .inl ⟨rfl, by simp [SchemaAllowed]⟩
  | some list =>
    have hspec := offending_foreignSchemas list refs
    cases hlist : foreignSchemas list refs with
    | nil =>
      refine .inl ⟨by simp [checkSchemas, hlist], ?_⟩
      intro r hr s hs
      by_contra hnot
      obtain ⟨s', hs', -⟩ := hspec.complete r hr s hs hnot
      simp [hlist] at hs'
    | cons s schemas =>
      rw [hlist] at hspec
      exact .inr ⟨s :: schemas, by simp [checkSchemas, hlist], hspec, by simp⟩

theorem checkSchemas_eq_ok :
    checkSchemas allowed refs = .ok () ↔ ∀ r ∈ refs, ∀ s ∈ r.schema, SchemaAllowed allowed s := by
  rcases checkSchemas_eq allowed refs with ⟨hok, hall⟩ | ⟨schemas, herror, hoff, hne⟩
  · exact iff_of_true hok hall
  · obtain ⟨s, rest, rfl⟩ := List.exists_cons_of_ne_nil hne
    obtain ⟨hs, r, hr, hschema⟩ := hoff.sound s (by simp)
    exact iff_of_false (by simp [herror]) fun h => hs (h r hr s hschema)

/-! ### Verdicts -/

/-- Every table is in a schema that is allowed; a table without one is too. -/
def SchemasAllowed (d : Dialect) (allowed : Option (List String)) (q : JoinQuery) : Prop :=
  ∀ r ∈ q.refs d, ∀ s ∈ r.schema, SchemaAllowed allowed s

/-- An equality follows a foreign key, as the names of its sides are understood in the query. -/
def Follows (d : Dialect) (keys : List ForeignKey) (q : JoinQuery) (e : JoinQuery.Equation) : Prop :=
  Declared keys (q.refs d) e.left.path.names e.right.path.names

theorem checkWords_text (q : LinkedQuery) : checkWords q.text = .ok () := by
  have hupper : ∀ k ∈ refusedKeywords, k.toList.all (fun c => c.isUpper || c == '_') = true := by
    decide
  have hsub : refusedKeywords ⊆ JoinQuery.endWords := List.subset_append_left _ _
  refine checkWords_eq_ok.2 ⟨rfl, fun k hk => ?_, q.tidy.isSingle⟩
  have hlacks : Lacks [k] q.text := q.lacks.mono fun w hw => by
    obtain rfl := List.mem_singleton.1 hw
    exact hsub hk
  exact hlacks.flat.hasWord_eq_false hlacks.free (hupper k hk)

theorem withLimit_text (q : LinkedQuery) (limit : Nat) :
    String.ofList (withLimit limit q.text) = .ofList q.text ++ " LIMIT " ++ toString limit := by
  have hlacks : Lacks ["LIMIT"] q.text := q.lacks.mono (by decide)
  have hlimit : hasLimit q.text = false := hlacks.flat.hasWord_eq_false hlacks.free (by decide)
  rw [withLimit, hlimit, if_neg (by decide), q.tidy.body, String.ofList_append, String.ofList_toList,
    String.append_assoc]

private theorem qualified (e : JoinQuery.Equation) : e.pair.Qualified := by
  have hpath : ∀ o : JoinQuery.Operand,
      o.path.qualifiers ≠ [] ∧ o.path.qualifiers.length ≤ 2 := by
    intro o
    cases o <;> simp [JoinQuery.Operand.path]
  exact ⟨hpath _, hpath _⟩

/-- A join is checked equality by equality. -/
theorem checkJoin_join (j : JoinQuery.Clause) :
    checkJoin keys refs j.join = j.equations.forM fun e => checkEquality keys refs e.pair.equality := by
  have hread : (j.join.condition.map equalities).getD [] =
      j.equations.map fun e => e.pair.equality := by
    have hall : ∀ e ∈ j.first.pair :: j.others.map JoinQuery.Equation.pair, e.Qualified := by
      simp only [List.mem_cons, List.mem_map]
      rintro e (rfl | ⟨e, -, rfl⟩)
      · exact qualified _
      · exact qualified _
    simp only [JoinQuery.Clause.join, Option.map_some, Option.getD_some, equalities,
      String.toList_ofList]
    rw [JoinQuery.Clause.condition, equalitiesIn_conjunction hall]
    simp [JoinQuery.Clause.equations]
  rw [checkJoin, hread]
  exact List.forM_map

/-- Joins that are written STRAIGHT_JOIN are not checked. -/
theorem checkJoins_text (q : LinkedQuery) : checkJoins keys refs q.text =
    q.withoutStraight.equations.forM fun e => checkEquality keys refs e.pair.equality := by
  have hmap (js : List JoinQuery.Clause) : (js.map JoinQuery.Clause.join).forM (checkJoin keys refs) =
      js.forM fun j => checkJoin keys refs j.join := List.forM_map
  simp only [checkJoins, q.joins_text, hmap, checkJoin_join, JoinQuery.equations, forM_flatMap]

/-- What is checked of a query are its tables and its joins, short of those written STRAIGHT_JOIN. -/
theorem validate_linked (policy : Policy) (keys : List ForeignKey) (q : LinkedQuery) :
    validate keys policy (.ofList q.text) = (do
      checkSchemas policy.allowedSchemas (q.withoutStraight.refs policy.dialect)
      if policy.forbidFreeJoins then
        q.withoutStraight.equations.forM fun e =>
          checkEquality keys (q.withoutStraight.refs policy.dialect) e.pair.equality
      return .ofList q.text ++ " LIMIT " ++ toString policy.forceLimit) := by
  have hstrip : stripComments (String.ofList q.text).toList = q.text := by
    rw [String.toList_ofList, q.tidy.flat.stripComments]
  simp only [validate, hstrip, checkWords_text, q.tidy.spaced.normalize, checkTables, q.tables_text,
    checkJoins_text, withLimit_text]
  cases checkSchemas policy.allowedSchemas (q.withoutStraight.refs policy.dialect) <;>
    cases policy.forbidFreeJoins <;> rfl

theorem validate_text (d : Dialect) (allowed : Option (List String)) (limit : Nat)
    (keys : List ForeignKey) (q : JoinQuery) :
    validate keys ⟨d, allowed, limit, true⟩ (.ofList q.text) = (do
      checkSchemas allowed (q.refs d)
      q.equations.forM fun e => checkEquality keys (q.refs d) e.pair.equality
      return .ofList q.text ++ " LIMIT " ++ toString limit) := by
  have hlinked := validate_linked ⟨d, allowed, limit, true⟩ keys q.linked
  rw [q.linked_text, q.linked_withoutStraight] at hlinked
  exact hlinked

private theorem dotted_names (o : JoinQuery.Operand) :
    dotted o.path.names = .ofList o.path.text := by
  cases o with
  | aliased n c =>
    have htext : n.text ++ '.' :: c.text = n.text ++ (".".toList ++ c.text) := rfl
    rw [JoinQuery.Operand.path, ColumnPath.text, ColumnPath.textBehind, ColumnPath.textBehind, htext,
      String.ofList_append, String.ofList_append, String.ofList_toList, ← String.append_assoc]
    rfl
  | full s t c =>
    have htext : s.text ++ '.' :: (t.text ++ '.' :: c.text) =
        s.text ++ (".".toList ++ (t.text ++ (".".toList ++ c.text))) := rfl
    rw [JoinQuery.Operand.path, ColumnPath.text, ColumnPath.textBehind, ColumnPath.textBehind,
      ColumnPath.textBehind, htext]
    simp only [String.ofList_append, String.ofList_toList, ← String.append_assoc]
    rfl

/-- An equality that follows no foreign key is refused as it is written. -/
theorem checkEquality_pair_eq_error {e : JoinQuery.Equation} (h : ¬ Follows d keys q e) :
    checkEquality keys (q.refs d) e.pair.equality =
      .error (.unauthorizedJoin (.ofList e.left.path.text) (.ofList e.right.path.text)) := by
  have hlong : ∀ o : JoinQuery.Operand, 2 ≤ o.path.names.length := by
    intro o
    cases o <;> simp [JoinQuery.Operand.path, ColumnPath.names, ColumnPath.parts]
  rw [← dotted_names, ← dotted_names]
  exact checkEquality_eq_error (hlong _) (hlong _) h

/-- The guard runs a query of this kind, with a limit, exactly when its schemas are allowed and its
equalities follow foreign keys. Otherwise it names the schemas that are not allowed and, if all are,
the first equality that follows none. -/
theorem validate_joinQuery (d : Dialect) (allowed : Option (List String)) (limit : Nat)
    (keys : List ForeignKey) (q : JoinQuery) :
    let verdict := validate keys ⟨d, allowed, limit, true⟩ (.ofList q.text)
    (verdict = .ok (.ofList q.text ++ " LIMIT " ++ toString limit) ↔
      SchemasAllowed d allowed q ∧ ∀ e ∈ q.equations, Follows d keys q e) ∧
    ((∃ schemas, verdict = .error (.schemaNotAllowed schemas) ∧
        Offending allowed (q.refs d) schemas) ↔ ¬ SchemasAllowed d allowed q) ∧
    ((∃ before e after, q.equations = before ++ e :: after ∧
        (∀ e' ∈ before, Follows d keys q e') ∧ ¬ Follows d keys q e ∧
        verdict = .error (.unauthorizedJoin (.ofList e.left.path.text) (.ofList e.right.path.text))) ↔
      SchemasAllowed d allowed q ∧ ¬ ∀ e ∈ q.equations, Follows d keys q e) := by
  intro verdict
  have hcheck : ∀ e : JoinQuery.Equation,
      checkEquality keys (q.refs d) e.pair.equality = .ok () ↔ Follows d keys q e :=
    fun e => checkEquality_eq_ok
  have hverdict : verdict = _ := validate_text d allowed limit keys q
  rcases checkSchemas_eq allowed (q.refs d) with ⟨hschemas, hallowed⟩ | ⟨schemas, herror, hoff, hne⟩
  · by_cases hall : ∀ e ∈ q.equations, Follows d keys q e
    · have hjoins : (q.equations.forM fun e => checkEquality keys (q.refs d) e.pair.equality) = .ok () :=
        forM_eq_ok.2 fun e he => (hcheck e).2 (hall e he)
      have hok : verdict = .ok (.ofList q.text ++ " LIMIT " ++ toString limit) := by
        rw [hverdict, hschemas, hjoins]
        rfl
      refine ⟨iff_of_true hok ⟨hallowed, hall⟩, iff_of_false ?_ (not_not.2 hallowed),
        iff_of_false ?_ (fun h => h.2 hall)⟩
      · rintro ⟨schemas, herror, -⟩
        simp [hok] at herror
      · rintro ⟨-, e, -, -, -, -, herror⟩
        simp [hok] at herror
    · have hjoins : (q.equations.forM fun e => checkEquality keys (q.refs d) e.pair.equality) ≠
          .ok () := fun h => hall fun e he => (hcheck e).1 (forM_eq_ok.1 h e he)
      obtain ⟨before, e, after, err, hlist, hbefore, he, hfirst⟩ := exists_first_error hjoins
      have hnot : ¬ Follows d keys q e := by
        intro h
        rw [(hcheck e).2 h] at he
        contradiction
      obtain rfl := Except.error.inj ((checkEquality_pair_eq_error hnot).symm.trans he)
      have herror : verdict = .error (.unauthorizedJoin (.ofList e.left.path.text)
          (.ofList e.right.path.text)) := by
        rw [hverdict, hschemas, hfirst]
        rfl
      refine ⟨iff_of_false ?_ (fun h => hall h.2), iff_of_false ?_ (not_not.2 hallowed),
        iff_of_true ?_ ⟨hallowed, hall⟩⟩
      · simp [herror]
      · rintro ⟨schemas, hschema, -⟩
        simp [herror] at hschema
      · exact ⟨before, e, after, hlist, fun e' he' => (hcheck e').1 (hbefore e' he'), hnot, herror⟩
  · have hnot : ¬ SchemasAllowed d allowed q := by
      obtain ⟨s, rest, rfl⟩ := List.exists_cons_of_ne_nil hne
      obtain ⟨hs, r, hr, hschema⟩ := hoff.sound s (by simp)
      exact fun h => hs (h r hr s hschema)
    have hverror : verdict = .error (.schemaNotAllowed schemas) := by
      rw [hverdict, herror]
      rfl
    refine ⟨iff_of_false ?_ (fun h => hnot h.1), iff_of_true ⟨schemas, hverror, hoff⟩ hnot,
      iff_of_false ?_ (fun h => hnot h.1)⟩
    · simp [hverror]
    · rintro ⟨-, e, -, -, -, -, hjoin⟩
      simp [hverror] at hjoin

end Querent.Guard
