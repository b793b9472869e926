import Querent.Proofs.Guard.JoinSound
import Querent.Proofs.Guard.JoinVerdict
import Querent.Proofs.Sql.Group

/-! The schemas of tables inside groups in parentheses. A group is skipped like a derived table, so only
what a JOIN inside it brings in is checked. -/
namespace Querent

open Text

namespace Sql

variable {d : Dialect} {g : GroupItem} {t : List Char}

/-- A statement that takes all columns of one item. -/
def selectItem (g : GroupItem) : List Char := "SELECT *".toList ++ (" FROM ".toList ++ g.text)

/-- The tables of a statement on one group are those that the group joins. -/
theorem tables_selectItem (hgroup : g.toItem.ref d = none) (hquiet : g.Quiet) :
    (tables d (selectItem g)).Perm (g.joined.filterMap (·.ref d)) := by
  have hlead : tables d (selectItem g) =
      tablesFrom d "SELECT *".toList.reverse (" FROM ".toList ++ g.text) :=
    tablesFrom_append (by decide) (by decide) (border_cons.2 (by decide))
  have hopens : opensClause (' ' :: "SELECT *".toList.reverse) = true := by decide +kernel
  have hends : EndsAt g.toItem.calledAs [] := stops_nil.endsAt _
  have hitem : readItems d true (trimStart g.text) = [] := by
    have hread := g.toItem.readItem (d := d) hends
    have htrim := g.toItem.trimStart hends
    rw [hgroup, g.text_toItem, List.append_nil] at hread
    rw [g.text_toItem, List.append_nil] at htrim
    rw [htrim, readItems_of_readItem hread]
    rfl
  have hfound := g.finds (d := d) (" FROM ".toList.reverse ++ "SELECT *".toList.reverse) [] hquiet
    stops_nil
  rw [Finds, List.append_nil, tablesFrom_nil, List.append_nil] at hfound
  rwa [hlead, tablesFrom_from, if_pos hopens, hitem, List.nil_append]

end Sql

namespace Guard

open Sql

variable {keys : List ForeignKey} {policy : Policy}

/-- All schemas that some items name are allowed. -/
def ItemsAllowed (d : Dialect) (allowed : Option (List String)) (is : List FromItem) : Prop :=
  ∀ i ∈ is, ∀ r ∈ i.ref d, ∀ s ∈ r.schema, SchemaAllowed allowed s

/-- In an accepted statement the schemas of the items behind a JOIN are allowed in every group, nested
to any depth; the others are those that a group opens with or that stand behind its commas. Read as an
item a group stands for no table, and if no other word of it is FROM or JOIN the search for tables finds
the items behind its joins in it and nothing else, whatever stands around it. So a statement on one group
passes for its schemas exactly if those of the items behind joins are allowed. -/
theorem validate_groups (keys : List ForeignKey) (policy : Policy) (modifiers : List Modifier)
    (padLeft : Bool) (inner : GroupItems) (padRight : Bool) (calledAs : Option Alias) :
    let d := policy.dialect
    let allowed := policy.allowedSchemas
    let g : GroupItem := .group modifiers padLeft inner padRight calledAs
    (∀ sql out before after, validate keys policy sql = .ok out →
      readText sql = before ++ (g.text ++ after) → ItemsAllowed d allowed g.joined) ∧
    (∀ i, i ∈ g.leaves ↔ i ∈ g.joined ∨ i ∈ g.leading) ∧
    (∀ t, EndsAt calledAs t → readItem d (g.text ++ t) = some (none, t)) ∧
    (g.Quiet → (∀ before t, Stops t → (tablesFrom d before (g.text ++ t)).Perm
        (g.joined.filterMap (·.ref d) ++ tablesFrom d (g.text.reverse ++ before) t)) ∧
      (checkSchemas allowed (tables d (selectItem g)) = .ok () ↔ ItemsAllowed d allowed g.joined)) := by
  intro d allowed g
  refine ⟨?_, fun i => ?_, fun t ht => ?_, fun hquiet => ⟨fun before t ht => ?_, ?_⟩⟩
  · intro sql out before after h htext i hi r hr
    obtain ⟨-, htables, -⟩ := validate_eq_ok.1 h
    have hschemas := checkSchemas_eq_ok.1 (checkTables_eq_ok.1 htables).1
    have hplace : BehindJoin i (readText sql) := by
      rw [htext]
      exact (g.behindJoin after hi).append_left before
    exact hschemas r (hplace.mem_tables hr)
  · exact inner.mem_leaves
  · exact g.toItem.readItem ht
  · exact g.finds before t hquiet ht
  · have hperm := tables_selectItem (d := d) (g := g) rfl hquiet
    rw [checkSchemas_eq_ok]
    constructor
    · intro h i hi r hr
      exact h r (hperm.mem_iff.2 (List.mem_filterMap.2 ⟨i, hi, hr⟩))
    · intro h r hr
      obtain ⟨i, hi, href⟩ := List.mem_filterMap.1 (hperm.mem_iff.1 hr)
      exact h i hi r href

/-- A table of the schema public. -/
def publicTable (table : Ident) (latin : table.isLatin = true) : FromItem where
  modifiers := []
  source := .table
    { schema := some (.bare 'p' "ublic".toList (by decide) (by decide)), table
      latin := Bool.and_eq_true_iff.2 ⟨by decide, latin⟩
      named := rfl
      unmodified := (by decide : (afterModifier "public".toList).isNone = true) } none closed_none
  calledAs := none

/-- `(public.a LEFT JOIN ONLY (public.b JOIN public.c ON b.i = c.i) ON a.i = b.i)`. -/
def nestedGroup : GroupItem :=
  .group [] false (.join (.one (.item a)) leftJoin
    (.group [.only] false (.join (.one (.item b)) join (.item c) onItems) false none)
    onOrders) false none
where
  a : FromItem := publicTable (letter 'a') (by decide)
  b : FromItem := publicTable (letter 'b') (by decide)
  c : FromItem := publicTable (letter 'c') (by decide)
  join : JoinWord :=
    { lead := [' '], word := "JOIN".toList, ne_nil := by decide, apart := by decide
      spelled := by decide, closed := nested_blank
      stops := (ItemEnd.ofKeyword (k := "JOIN") border_nil (by decide)).stops }
  leftJoin : JoinWord :=
    { lead := " LEFT ".toList, word := "JOIN".toList, ne_nil := by decide, apart := by decide
      spelled := by decide, closed := Balanced.nested (.of_all (by decide))
      stops := (ItemEnd.ofKeyword (k := "LEFT") (t := " JOIN".toList)
        (border_cons.2 (by decide)) (by decide)).stops }
  onItems : JoinRest :=
    { text := " ON b.i = c.i".toList, closed := Balanced.nested (.of_all (by decide))
      stops := (ItemEnd.ofKeyword (k := "ON") (t := " b.i = c.i".toList)
        (border_cons.2 (by decide)) (by decide)).stops }
  onOrders : JoinRest :=
    { text := " ON a.i = b.i".toList, closed := Balanced.nested (.of_all (by decide))
      stops := (ItemEnd.ofKeyword (k := "ON") (t := " a.i = b.i".toList)
        (border_cons.2 (by decide)) (by decide)).stops }

/-- The table behind the inner JOIN is the one that is checked. -/
theorem validate_groups_nested :
    let sql := "SELECT * FROM (public.a LEFT JOIN ONLY (public.b JOIN public.c ON b.i = c.i) ON a.i = b.i)"
    let policy : Policy := ⟨.postgres, some ["public"], 101, false⟩
    sql.toList = selectItem nestedGroup ∧
      nestedGroup.joined.map (·.ref .postgres) = [some ⟨some "public", "c", "c"⟩] ∧
      nestedGroup.leading.map (·.ref .postgres) =
        [some ⟨some "public", "a", "a"⟩, some ⟨some "public", "b", "b"⟩] ∧
      nestedGroup.Quiet ∧
      checkSchemas (some ["public"]) (tables .postgres (selectItem nestedGroup)) = .ok () ∧
      validate [] policy sql = .ok (sql ++ " LIMIT 101") ∧
      ItemsAllowed .postgres (some ["public"]) nestedGroup.joined := by
  intro sql policy
  have hok : validate [] policy sql = .ok (sql ++ " LIMIT 101") :=
    eq_ok_of_toOption (by decide +kernel)
  have htext : readText sql = "SELECT * FROM ".toList ++ (nestedGroup.text ++ []) := by decide +kernel
  obtain ⟨haccepted, -, -, hquiet⟩ := validate_groups [] policy [] false _ false none
  have hallowed : ItemsAllowed .postgres (some ["public"]) nestedGroup.joined :=
    haccepted sql _ _ _ hok htext
  have hnone : nestedGroup.Quiet := by decide +kernel
  exact ⟨by decide +kernel, by decide +kernel, by decide +kernel, hnone,
    (hquiet hnone).2.2 hallowed, hok, hallowed⟩

/-- Behind ONLY a table is seen, and in parentheses behind it not. Neither is a table that a group of
joins opens with. -/
theorem group_overlooked :
    let policy : Policy := ⟨.postgres, some ["public"], 101, false⟩
    validate [] policy "SELECT * FROM ONLY secret.payroll" = .error (.schemaNotAllowed ["secret"]) ∧
      ∀ source ∈ ["ONLY (secret.payroll)", "(secret.payroll p JOIN public.b ON p.i = b.i)",
          "public.b JOIN ((secret.payroll p JOIN public.c ON p.i = c.i)) ON p.i = b.i"],
        validate [] policy ("SELECT * FROM " ++ source) =
          .ok ("SELECT * FROM " ++ source ++ " LIMIT 101") := by
  refine ⟨by decide +kernel, ?_⟩
  simp only [List.forall_mem_cons, List.not_mem_nil, false_imp_iff, implies_true, and_true]
  exact ⟨eq_ok_of_toOption (by decide +kernel), eq_ok_of_toOption (by decide +kernel),
    eq_ok_of_toOption (by decide +kernel)⟩

end Guard

end Querent
