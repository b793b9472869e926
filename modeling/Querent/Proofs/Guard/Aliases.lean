import Querent.Proofs.Guard.Queries
import Querent.Proofs.Sql.Qualified

/-! What the qualifiers in a join condition stand for when sources share a name: the tables and
table functions called so are all one table, but the name of a derived table is not held against
them. -/
namespace Querent

open Text Sql

namespace Sql

/-! ### Sources -/

mutual

/-- The sources of a query at every level: tables, and queries in parentheses. -/
def Query.sources : Query → List Source
  | .select _ _ items filter => items.sources ++ filter.sources
  | .union _ left right => left.sources ++ right.sources

def Items.sources : Items → List Source
  | .one source joins => source.sources ++ joins.sources
  | .more source joins rest => source.sources ++ (joins.sources ++ rest.sources)

def Joins.sources : Joins → List Source
  | .nil => []
  | .cons _ source _ rest => source.sources ++ rest.sources

def Source.sources : Source → List Source
  | .table item => [.table item]
  | .derived query calledAs => .derived query calledAs :: query.sources

def Filter.sources : Filter → List Source
  | .none => []
  | .holds condition => condition.sources

def Condition.sources : Condition → List Source
  | .compare _ _ _ => []
  | .distinct _ _ => []
  | .within _ query => query.sources
  | .present query => query.sources
  | .and left right => left.sources ++ right.sources
  | .or left right => left.sources ++ right.sources

end

/-- The alias of a source, or the name of the table without one. -/
def Source.calledAs : Source → String
  | .table item => .ofList ((item.calledAs.map fun a => a.2.text).getD item.table.text)
  | .derived _ calledAs => .ofList calledAs.text

variable {d : Dialect} {s : List Char} {r : TableRef} {source : Source} {name : String}

theorem Source.calledAs_of_head (h : source.head d = some r) : r.calledAs = source.calledAs := by
  cases source with
  | table item =>
    obtain rfl := Option.some.inj h
    rfl
  | derived query calledAs => simp [Source.head] at h

mutual

/-- The tables of a query are those of its sources that are tables. -/
theorem Query.tables_eq : (q : Query) → q.tables d = q.sources.filterMap (Source.head d)
  | .select first others items filter => by
    simp [Query.tables, Query.sources, items.tables_eq, filter.tables_eq]
  | .union all left right => by
    simp [Query.tables, Query.sources, left.tables_eq, right.tables_eq]

theorem Items.tables_eq : (i : Items) → i.tables d = i.sources.filterMap (Source.head d)
  | .one source joins => by
    simp [Items.tables, Items.sources, source.tables_eq_sources, joins.tables_eq]
  | .more source joins rest => by
    simp [Items.tables, Items.sources, source.tables_eq_sources, joins.tables_eq, rest.tables_eq]

theorem Joins.tables_eq : (j : Joins) → j.tables d = j.sources.filterMap (Source.head d)
  | .nil => rfl
  | .cons kind source on rest => by
    simp [Joins.tables, Joins.sources, source.tables_eq_sources, rest.tables_eq]

theorem Source.tables_eq_sources : (s : Source) → s.tables d = s.sources.filterMap (Source.head d)
  | .table item => rfl
  | .derived query calledAs => by
    have hhead : (Source.derived query calledAs).head d = none := rfl
    rw [Source.tables, query.tables_eq, Source.sources, List.filterMap_cons_none hhead]

theorem Filter.tables_eq : (f : Filter) → f.tables d = f.sources.filterMap (Source.head d)
  | .none => rfl
  | .holds condition => by simp [Filter.tables, Filter.sources, condition.tables_eq]

theorem Condition.tables_eq : (c : Condition) → c.tables d = c.sources.filterMap (Source.head d)
  | .compare left op right => rfl
  | .distinct left right => rfl
  | .within column query => by simp [Condition.tables, Condition.sources, query.tables_eq]
  | .present query => by simp [Condition.tables, Condition.sources, query.tables_eq]
  | .and left right => by
    simp [Condition.tables, Condition.sources, left.tables_eq, right.tables_eq]
  | .or left right => by
    simp [Condition.tables, Condition.sources, left.tables_eq, right.tables_eq]

end

theorem Query.mem_tables {q : Query} : r ∈ q.tables d ↔ ∃ s ∈ q.sources, s.head d = some r := by
  rw [q.tables_eq, List.mem_filterMap]

/-! ### Items in texts -/

/-- The arguments of a table function; a table has none. -/
def argumentText : Option (List Char) → List Char
  | none => []
  | some a => '(' :: (a ++ [')'])

/-- A table or a table function directly behind a FROM or a JOIN of a text, where the FROM opens a
clause. -/
structure ItemPlace (s : List Char) where
  before : List Char
  word : List Char
  item : TableItem []
  arguments : Option (List Char)
  after : List Char
  parts : s = before ++ (word ++ ' ' ::
    (item.front ++ (argumentText arguments ++ (aliasText item.calledAs ++ after))))
  left : before.getLast?.any isWordChar = false
  spelled : namesTables word = true
  outside : quoteAfter none before = none
  opens : spells "FROM" word = true → ¬ EndsIn ["DISTINCT"] before ∧ ¬ InCall before
  closed : ∀ a ∈ arguments, Balanced a
  itemEnd : ItemEnd after

namespace ItemPlace

theorem behind (p : ItemPlace s) : Behind p.item.calledAs
    (argumentText p.arguments ++ (aliasText p.item.calledAs ++ p.after)) p.after := by
  cases ha : p.arguments with
  | none => exact behind_alias _ p.itemEnd
  | some a => simpa [argumentText] using behind_arguments (p.closed a ha) _ p.itemEnd

theorem isPlain_of_mem_word (p : ItemPlace s) : ∀ c ∈ p.word, isPlain c = true := by
  rcases Bool.or_eq_true_iff.1 p.spelled with h | h
  · exact isPlain_of_spells (by decide) h
  · exact isPlain_of_spells (by decide) h

/-- What stands behind the word, with the item. -/
abbrev rest (p : ItemPlace s) : List Char :=
  ' ' :: (p.item.front ++ (argumentText p.arguments ++ (aliasText p.item.calledAs ++ p.after)))

theorem wholeWord (p : ItemPlace s) : WholeWord p.before p.word p.rest := by
  refine ⟨?_, fun c hc => isWordChar_of_isPlain (p.isPlain_of_mem_word c hc), ?_, ?_⟩
  · intro hnil
    have hspelled := p.spelled
    rw [hnil] at hspelled
    exact absurd hspelled (by decide)
  · intro c hc
    have hleft := p.left
    rw [Option.mem_def.1 hc] at hleft
    simpa using hleft
  · intro c hc
    obtain rfl : ' ' = c := by simpa using hc
    decide

theorem opensClause (p : ItemPlace s) (h : sameLetters p.word "FROM".toList = true) :
    opensClause p.before.reverse = true := by
  have hspells : spells "FROM" p.word = true := by
    rw [spells_eq_sameLetters (by decide) p.isPlain_of_mem_word]
    simp only [sameLetters, beq_iff_eq] at h ⊢
    exact h.symm
  exact (opensClause_iff p.outside).2 (p.opens hspells)

/-- The table or the function is among the tables of the text. -/
theorem mem_tables (p : ItemPlace s) : p.item.ref d ∈ tables d s := by
  have hread : ∀ more, p.item.ref d ∈ readItems d more (trimStart p.rest) := by
    intro more
    rw [trimStart_blank, p.item.trimStart_front, readItems_of_readItem (readItem_behind _ p.behind)]
    simp
  have hopens : sameLetters p.word "FROM".toList = true →
      Sql.opensClause (p.before.reverse ++ []) = true := by
    rw [List.append_nil]
    exact p.opensClause
  have hfound : p.item.ref d ∈ tablesFrom d [] (p.before ++ (p.word ++ p.rest)) :=
    mem_tablesFrom p.wholeWord p.spelled rfl hopens (hread _)
  rwa [← p.parts] at hfound

end ItemPlace

end Sql

namespace Guard

variable {keys : List ForeignKey} {policy : Policy} {refs : List TableRef} {sql out : String}
  {left right names : List String} {n column : String}

/-! ### Qualifiers -/

/-- A qualifier of an equality that follows a foreign key stands for a table. -/
theorem Declared.exists_called (h : Declared keys refs left right)
    (hside : [n, column] ∈ [left, right]) : ∃ r, Called refs n r := by
  obtain ⟨a, b, ha, hb, -⟩ := h
  have hcalled : ∀ {x}, StandsFor refs [n, column] x → ∃ r, Called refs n r := by
    rintro x (⟨hr⟩ | _)
    exact ⟨_, hr⟩
  simp only [List.mem_cons, List.not_mem_nil, or_false] at hside
  rcases hside with rfl | rfl
  · exact hcalled ha
  · exact hcalled hb

/-- A table of the query and a source that is something else go by one name. -/
def Shared (d : Dialect) (q : Query) (n : String) : Prop :=
  ∃ s ∈ q.sources, ∃ r, s.head d = some r ∧ sameText s.calledAs n = true ∧
    ∃ s' ∈ q.sources, sameText s'.calledAs n = true ∧
      ∀ r', s'.head d = some r' → r.sameTable r' = false

/-- Where a name stands for a table it is shared with derived tables at most. -/
theorem shared_iff {d : Dialect} {q : Query} {r : TableRef} (h : Called (q.tables d) n r) :
    Shared d q n ↔ ∃ s ∈ q.sources, s.head d = none ∧ sameText s.calledAs n = true := by
  have honly : ∀ s ∈ q.sources, ∀ r', s.head d = some r' → sameText s.calledAs n = true →
      r.sameTable r' = true := by
    intro s hs r' hr' hcalled
    refine h.only r' (Query.mem_tables.2 ⟨s, hs, hr'⟩) ?_
    rwa [Source.calledAs_of_head hr']
  constructor
  · rintro ⟨s, hs, x, hx, hcalled, s', hs', hcalled', hother⟩
    refine ⟨s', hs', ?_, hcalled'⟩
    by_contra hsome
    obtain ⟨x', hx'⟩ := Option.ne_none_iff_exists'.1 hsome
    have hsame : x.sameTable x' = true :=
      TableRef.sameTable_trans (TableRef.sameTable_symm (honly s hs x hx hcalled))
        (honly s' hs' x' hx' hcalled')
    rw [hother x' hx'] at hsame
    contradiction
  · rintro ⟨s', hs', hnone, hcalled'⟩
    obtain ⟨s, hs, hhead⟩ := Query.mem_tables.1 h.mem
    refine ⟨s, hs, r, hhead, ?_, s', hs', hcalled', ?_⟩
    · rw [← Source.calledAs_of_head hhead]
      exact h.called
    · simp [hnone]

/-- In an accepted statement a qualifier of an equality that is read stands for a table, and the
tables and table functions behind a FROM or a JOIN that are called so are that table. In a query the
qualifiers in the conditions of its joins do, and what shares one with a table is a derived
table. -/
theorem validate_aliases (hforbid : policy.forbidFreeJoins = true)
    (h : validate keys policy sql = .ok out) :
    let d := policy.dialect
    (∀ (c : Comparison (readText sql)) n column, c.Read →
      [n, column] ∈ [c.equality.left, c.equality.right] →
      ∃ r, Called (tables d (readText sql)) n r ∧ ∀ p : ItemPlace (readText sql),
        sameText (p.item.ref d).calledAs n = true → r.sameTable (p.item.ref d) = true) ∧
    ∀ q : Query, readText sql = q.text → ∀ on ∈ q.ons, ∀ e ∈ on, ∀ n column, e.Qualified →
      [n, column] ∈ [e.left.names, e.right.names] →
      ∃ r, Called (q.tables d) n r ∧
        (Shared d q n ↔ ∃ s ∈ q.sources, s.head d = none ∧ sameText s.calledAs n = true) := by
  intro d
  constructor
  · intro c n column hread hside
    have hdeclared := declared_of_read (checkJoins_of_validate hforbid h) hread
    obtain ⟨r, hr⟩ := Declared.exists_called hdeclared hside
    exact ⟨r, hr, fun p hcalled => hr.only _ p.mem_tables hcalled⟩
  · intro q hq on hon e he n column hqualified hside
    have hfollows := allFollow_of_accepted hforbid hq ⟨out, h⟩ on hon
    obtain ⟨r, hr⟩ := (hfollows.declared e he hqualified).exists_called hside
    exact ⟨r, hr, shared_iff hr⟩

/-- The orders of a customer. -/
def orderKey : ForeignKey where
  constraint := none
  source := { schema := "public", table := "orders", column := "customer_id" }
  target := { schema := "public", table := "customers", column := "id" }

/-- `SELECT * FROM ( SELECT * FROM public.payroll ) o JOIN public.customers c
ON o.customer_id = c.id WHERE EXISTS ( SELECT * FROM public.orders o )`. -/
def borrowingQuery : Query :=
  .select .star [] (.one (.derived (everything payroll none) o)
    (.cons .bare (.table ⟨false, some schema, customers, some (false, c)⟩)
      [⟨⟨[o], customer⟩, ⟨[c], id⟩⟩] .nil))
    (.holds (.present (everything orders (some (false, o)))))
where
  schema : Query.Word := ⟨"public".toList, by decide, by decide, by decide⟩
  payroll : Query.Word := ⟨"payroll".toList, by decide, by decide, by decide⟩
  customers : Query.Word := ⟨"customers".toList, by decide, by decide, by decide⟩
  orders : Query.Word := ⟨"orders".toList, by decide, by decide, by decide⟩
  customer : Query.Word := ⟨"customer_id".toList, by decide, by decide, by decide⟩
  id : Query.Word := ⟨"id".toList, by decide, by decide, by decide⟩
  o : Query.Word := ⟨['o'], by decide, by decide, by decide⟩
  c : Query.Word := ⟨['c'], by decide, by decide, by decide⟩
  everything (table : Query.Word) (calledAs : Option (Bool × Query.Word)) : Query :=
    .select .star [] (.one (.table ⟨false, some schema, table, calledAs⟩) .nil) .none

/-- The alias of the orders is shared with a derived table, and stands for the orders in the
join. -/
theorem validate_aliases_derived :
    (∃ out, validate [orderKey] strictPolicy (.ofList borrowingQuery.text) = .ok out) ∧
      (∃ r, Called (borrowingQuery.tables .postgres) "o" r) ∧
      Shared .postgres borrowingQuery "o" := by
  have htext : readText (.ofList borrowingQuery.text) = borrowingQuery.text := by decide +kernel
  have hok : validate [orderKey] strictPolicy (.ofList borrowingQuery.text) =
      .ok (.ofList borrowingQuery.text ++ " LIMIT 101") := eq_ok_of_toOption (by decide +kernel)
  have hnames : ["o", "customer_id"] ∈ [["o", "customer_id"], ["c", "id"]] := by simp
  obtain ⟨r, hr, hshared⟩ := (validate_aliases rfl hok).2 borrowingQuery htext
    _ List.mem_cons_self _ List.mem_cons_self "o" "customer_id" ⟨by decide, by decide⟩ hnames
  refine ⟨⟨_, hok⟩, ⟨r, hr⟩, hshared.2 ⟨_, List.mem_cons_self, rfl, by decide +kernel⟩⟩

/-- A table that takes the alias of another gets its join refused. A derived table or a table
function of the other's name that takes it borrows the foreign key. -/
theorem alias_borrowed :
    let rest := " JOIN public.customers c ON o.customer_id = c.id" ++
      " WHERE EXISTS (SELECT 1 FROM public.orders o)"
    validate [orderKey] strictPolicy ("SELECT * FROM public.payroll o" ++ rest) =
      .error (.unauthorizedJoin "o.customer_id" "c.id") ∧
    ∀ source ∈ ["(SELECT * FROM public.payroll) o", "public.orders(1) o"],
      validate [orderKey] strictPolicy ("SELECT * FROM " ++ source ++ rest) =
        .ok ("SELECT * FROM " ++ source ++ rest ++ " LIMIT 101") := by
  refine ⟨by decide +kernel, ?_⟩
  simp only [List.forall_mem_cons, List.not_mem_nil, false_imp_iff, implies_true, and_true]
  exact ⟨eq_ok_of_toOption (by decide +kernel), eq_ok_of_toOption (by decide +kernel)⟩

end Guard

end Querent
