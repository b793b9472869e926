import Querent.Proofs.Guard.Queries

/-! Tables combined by a comma instead of a CROSS JOIN. The check on joins looks at the word JOIN
alone: it refuses every CROSS JOIN without a condition, and passes over the commas of a FROM
list. -/
namespace Querent

open Text Sql

namespace Sql

/-! ### One CROSS JOIN less -/

/-- Some joins hold a CROSS JOIN without a condition: those before it, what it joins, and those
behind it. -/
inductive Joins.CrossedAt : Joins → Joins → Source → Joins → Prop where
  | here (source : Source) (after : Joins) :
      CrossedAt (.cons .cross source [] after) .nil source after
  | there {joins before after : Joins} {source : Source} (kind : JoinKind) (joined : Source)
      (on : List (ColumnPair fromFunctions)) (h : CrossedAt joins before source after) :
      CrossedAt (.cons kind joined on joins) (.cons kind joined on before) source after

mutual

/-- The second query has a comma where the first has a CROSS JOIN, at some level. -/
inductive Query.Uncrossed : Query → Query → Prop where
  | items (first : Query.Selected) (others : List Query.Selected) {items items' : Items}
      (filter : Filter) (h : Items.Uncrossed items items') :
      Query.Uncrossed (.select first others items filter) (.select first others items' filter)
  | filter (first : Query.Selected) (others : List Query.Selected) (items : Items)
      {filter filter' : Filter} (h : Filter.Uncrossed filter filter') :
      Query.Uncrossed (.select first others items filter) (.select first others items filter')
  | left (all : Bool) {left left' : Query} (right : Query) (h : Query.Uncrossed left left') :
      Query.Uncrossed (.union all left right) (.union all left' right)
  | right (all : Bool) (left : Query) {right right' : Query} (h : Query.Uncrossed right right') :
      Query.Uncrossed (.union all left right) (.union all left right')

inductive Items.Uncrossed : Items → Items → Prop where
  | last (source : Source) {joins before after : Joins} {joined : Source}
      (h : joins.CrossedAt before joined after) :
      Items.Uncrossed (.one source joins) (.more source before (.one joined after))
  | split (source : Source) {joins before after : Joins} {joined : Source} (rest : Items)
      (h : joins.CrossedAt before joined after) :
      Items.Uncrossed (.more source joins rest) (.more source before (.more joined after rest))
  | oneSource {source source' : Source} (joins : Joins) (h : Source.Uncrossed source source') :
      Items.Uncrossed (.one source joins) (.one source' joins)
  | oneJoins (source : Source) {joins joins' : Joins} (h : Joins.Uncrossed joins joins') :
      Items.Uncrossed (.one source joins) (.one source joins')
  | moreSource {source source' : Source} (joins : Joins) (rest : Items)
      (h : Source.Uncrossed source source') :
      Items.Uncrossed (.more source joins rest) (.more source' joins rest)
  | moreJoins (source : Source) {joins joins' : Joins} (rest : Items)
      (h : Joins.Uncrossed joins joins') :
      Items.Uncrossed (.more source joins rest) (.more source joins' rest)
  | rest (source : Source) (joins : Joins) {rest rest' : Items} (h : Items.Uncrossed rest rest') :
      Items.Uncrossed (.more source joins rest) (.more source joins rest')

inductive Joins.Uncrossed : Joins → Joins → Prop where
  | source (kind : JoinKind) {source source' : Source} (on : List (ColumnPair fromFunctions))
      (rest : Joins) (h : Source.Uncrossed source source') :
      Joins.Uncrossed (.cons kind source on rest) (.cons kind source' on rest)
  | rest (kind : JoinKind) (source : Source) (on : List (ColumnPair fromFunctions))
      {rest rest' : Joins} (h : Joins.Uncrossed rest rest') :
      Joins.Uncrossed (.cons kind source on rest) (.cons kind source on rest')

inductive Source.Uncrossed : Source → Source → Prop where
  | derived {query query' : Query} (calledAs : Query.Word) (h : Query.Uncrossed query query') :
      Source.Uncrossed (.derived query calledAs) (.derived query' calledAs)

inductive Filter.Uncrossed : Filter → Filter → Prop where
  | holds {condition condition' : Condition} (h : Condition.Uncrossed condition condition') :
      Filter.Uncrossed (.holds condition) (.holds condition')

inductive Condition.Uncrossed : Condition → Condition → Prop where
  | within (column : Query.Column) {query query' : Query} (h : Query.Uncrossed query query') :
      Condition.Uncrossed (.within column query) (.within column query')
  | present {query query' : Query} (h : Query.Uncrossed query query') :
      Condition.Uncrossed (.present query) (.present query')
  | andLeft {left left' : Condition} (right : Condition) (h : Condition.Uncrossed left left') :
      Condition.Uncrossed (.and left right) (.and left' right)
  | andRight (left : Condition) {right right' : Condition} (h : Condition.Uncrossed right right') :
      Condition.Uncrossed (.and left right) (.and left right')
  | orLeft {left left' : Condition} (right : Condition) (h : Condition.Uncrossed left left') :
      Condition.Uncrossed (.or left right) (.or left' right)
  | orRight (left : Condition) {right right' : Condition} (h : Condition.Uncrossed right right') :
      Condition.Uncrossed (.or left right) (.or left right')

end

/-- What a comma in place of a CROSS JOIN does to a text with its tables and its conditions of
joins: the tables stay, and one of the conditions was empty. -/
structure Recast (s s' : List Char) (refs refs' : List TableRef)
    (ons : List (List (ColumnPair fromFunctions))) : Prop where
  texts : ∃ head tail, s = head ++ (" CROSS JOIN ".toList ++ tail) ∧
    s' = head ++ (", ".toList ++ tail)
  tables : refs = refs'
  unconditional : [] ∈ ons

namespace Recast

variable {s s' : List Char} {refs refs' : List TableRef}
  {ons : List (List (ColumnPair fromFunctions))}

theorem before (h : Recast s s' refs refs' ons) (t : List Char) (ts : List TableRef)
    (more : List (List (ColumnPair fromFunctions))) :
    Recast (t ++ s) (t ++ s') (ts ++ refs) (ts ++ refs') (more ++ ons) := by
  obtain ⟨⟨head, tail, rfl, rfl⟩, rfl, hons⟩ := h
  exact ⟨⟨t ++ head, tail, by simp, by simp⟩, rfl, by simp [hons]⟩

theorem behind (h : Recast s s' refs refs' ons) (t : List Char) (ts : List TableRef)
    (more : List (List (ColumnPair fromFunctions))) :
    Recast (s ++ t) (s' ++ t) (refs ++ ts) (refs' ++ ts) (ons ++ more) := by
  obtain ⟨⟨head, tail, rfl, rfl⟩, rfl, hons⟩ := h
  exact ⟨⟨head, tail ++ t, by simp, by simp⟩, rfl, by simp [hons]⟩

/-- Words of the language around the text add no tables and no conditions. -/
theorem lead (h : Recast s s' refs refs' ons) (t : List Char) :
    Recast (t ++ s) (t ++ s') refs refs' ons := h.before t [] []

theorem trail (h : Recast s s' refs refs' ons) (t : List Char) :
    Recast (s ++ t) (s' ++ t) refs refs' ons := by
  simpa using h.behind t [] []

end Recast

variable {d : Dialect}

theorem Joins.CrossedAt.recast {joins before after : Joins} {joined : Source}
    (h : joins.CrossedAt before joined after) :
    Recast joins.text (before.text ++ (", ".toList ++ (joined.text ++ after.text)))
      (joins.tables d) (before.tables d ++ (joined.tables d ++ after.tables d)) joins.ons := by
  induction h with
  | here source after => exact ⟨⟨[], source.text ++ after.text, rfl, rfl⟩, rfl, List.mem_cons_self⟩
  | @there joins before after joined kind source on h ih =>
    have hall := (((ih.lead (onText on)).before source.text (source.tables d) source.ons).lead
      " JOIN ".toList).before kind.lead [] [on]
    simp only [Joins.text_cons, Joins.tables, List.append_assoc]
    exact hall

mutual

theorem Query.Uncrossed.recast {q q' : Query} :
    Query.Uncrossed q q' → Recast q.text q'.text (q.tables d) (q'.tables d) q.ons
  | .items first others filter h =>
    (((h.recast.behind filter.text (filter.tables d) filter.ons).lead " FROM ".toList).lead
      (Query.selectText first others)).lead "SELECT ".toList
  | .filter first others items h =>
    (((h.recast.before items.text (items.tables d) items.ons).lead " FROM ".toList).lead
      (Query.selectText first others)).lead "SELECT ".toList
  | .left all right h => h.recast.behind _ (right.tables d) right.ons
  | .right all left h => (h.recast.lead _).before left.text (left.tables d) left.ons

theorem Items.Uncrossed.recast {i i' : Items} :
    Items.Uncrossed i i' → Recast i.text i'.text (i.tables d) (i'.tables d) i.ons
  | .last source h => h.recast.before source.text (source.tables d) source.ons
  | .split source rest h => by
    have hcrossed := (h.recast (d := d)).behind (", ".toList ++ rest.text) (rest.tables d) rest.ons
    have hall := hcrossed.before source.text (source.tables d) source.ons
    simp only [List.append_assoc] at hall
    exact hall
  | .oneSource joins h => h.recast.behind joins.text (joins.tables d) joins.ons
  | .oneJoins source h => h.recast.before source.text (source.tables d) source.ons
  | .moreSource joins rest h => h.recast.behind _ _ _
  | .moreJoins source rest h =>
    (h.recast.behind _ (rest.tables d) rest.ons).before source.text (source.tables d) source.ons
  | .rest source joins h =>
    ((h.recast.lead ", ".toList).before joins.text (joins.tables d) joins.ons).before source.text
      (source.tables d) source.ons

theorem Joins.Uncrossed.recast {j j' : Joins} :
    Joins.Uncrossed j j' → Recast j.text j'.text (j.tables d) (j'.tables d) j.ons
  | .source kind on rest h =>
    ((h.recast.behind (onText on ++ rest.text) (rest.tables d) rest.ons).lead
      " JOIN ".toList).before kind.lead [] [on]
  | .rest kind source on h =>
    (((h.recast.lead (onText on)).before source.text (source.tables d) source.ons).lead
      " JOIN ".toList).before kind.lead [] [on]

theorem Source.Uncrossed.recast {r r' : Source} :
    Source.Uncrossed r r' → Recast r.text r'.text (r.tables d) (r'.tables d) r.ons
  | .derived calledAs h =>
    ((h.recast.trail " )".toList).lead "( ".toList).trail (' ' :: calledAs.text)

theorem Filter.Uncrossed.recast {f f' : Filter} :
    Filter.Uncrossed f f' → Recast f.text f'.text (f.tables d) (f'.tables d) f.ons
  | .holds h => h.recast.lead " WHERE ".toList

theorem Condition.Uncrossed.recast {c c' : Condition} :
    Condition.Uncrossed c c' → Recast c.text c'.text (c.tables d) (c'.tables d) c.ons
  | .within column h =>
    (((h.recast.trail " )".toList).lead "( ".toList).lead " IN ".toList).lead column.text
  | .present h => ((h.recast.trail " )".toList).lead "( ".toList).lead "EXISTS ".toList
  | .andLeft right h => h.recast.behind _ (right.tables d) right.ons
  | .andRight left h => (h.recast.lead _).before left.text (left.tables d) left.ons
  | .orLeft right h => h.recast.behind _ (right.tables d) right.ons
  | .orRight left h => (h.recast.lead _).before left.text (left.tables d) left.ons

end

end Sql

namespace Guard

variable {keys : List ForeignKey} {d : Dialect} {allowed : Option (List String)} {limit : Nat}
  {sql sql' : String} {head tail : List Char} {q q' : Query} {k : String}

/-! ### Words and joins -/

/-- A comma in place of a CROSS JOIN takes two words away that no check on words looks for. -/
theorem hasWord_uncrossed (hk : k ∈ refusedKeywords) :
    hasWord k (head ++ (" CROSS JOIN ".toList ++ tail)) =
      hasWord k (head ++ (", ".toList ++ tail)) := by
  have hcross : words (head ++ (" CROSS JOIN ".toList ++ tail)) =
      words head ++ ("CROSS".toList :: "JOIN".toList :: words tail) := by
    have hboth : words "CROSS JOIN".toList = ["CROSS".toList, "JOIN".toList] := by decide
    have htext : head ++ (" CROSS JOIN ".toList ++ tail) =
        head ++ ' ' :: ("CROSS JOIN".toList ++ ' ' :: tail) := rfl
    rw [htext, words_append_cons (by decide), words_append_cons (by decide), hboth]
    rfl
  have hcomma : words (head ++ (", ".toList ++ tail)) = words head ++ words tail := by
    have htext : head ++ (", ".toList ++ tail) = head ++ ',' :: ' ' :: tail := rfl
    rw [htext, words_append_cons (by decide), words_cons (by decide)]
  have hnone : ∀ k ∈ refusedKeywords,
      spells k "CROSS".toList = false ∧ spells k "JOIN".toList = false := by decide
  obtain ⟨hnocross, hnojoin⟩ := hnone k hk
  simp only [hasWord_eq_any, hcross, hcomma, List.any_append, List.any_cons, hnocross, hnojoin,
    Bool.false_or]

/-- A CROSS JOIN before whose ON another JOIN comes is refused. -/
theorem checkJoins_crossed {refs : List TableRef} (hlate : Late (words tail)) :
    checkJoins keys refs (head ++ (" CROSS JOIN ".toList ++ tail)) ≠ .ok () := by
  intro h
  have htext : head ++ (" CROSS JOIN ".toList ++ tail) =
      (head ++ " CROSS".toList) ++ (" JOIN ".toList ++ tail) := by simp
  rw [htext] at h
  exact not_late_of_join h hlate

/-- Where the policy forbids free joins, the joins have to pass on top of all else. -/
theorem accepted_strict_iff :
    (∃ out, validate keys ⟨d, allowed, limit, true⟩ sql = .ok out) ↔
      (∃ out, validate keys ⟨d, allowed, limit, false⟩ sql = .ok out) ∧
        checkJoins keys (tables d (readText sql)) (readText sql) = .ok () := by
  simp only [accepted_iff_readText, checkTables_eq_ok, Bool.false_eq_true, false_imp_iff,
    forall_const, and_true, and_assoc]

/-- A text without a JOIN has no joins to check. -/
theorem checkJoins_of_no_join {refs : List TableRef} {s : List Char}
    (h : ∀ w ∈ words s, spells "JOIN" w = false) : checkJoins keys refs s = .ok () := by
  rw [checkJoins_eq_ok, joins_of_none (findWord_eq_none.2 h)]
  simp

/-- Without the policy a comma is as good as a CROSS JOIN. -/
theorem accepted_uncrossed_iff (hq : readText sql = q.text) (hq' : readText sql' = q'.text)
    (h : Query.Uncrossed q q') :
    (∃ out, validate keys ⟨d, allowed, limit, false⟩ sql' = .ok out) ↔
      ∃ out, validate keys ⟨d, allowed, limit, false⟩ sql = .ok out := by
  obtain ⟨⟨head, tail, htext, htext'⟩, htables, -⟩ := h.recast (d := d)
  have hwords : (∀ k ∈ refusedKeywords, hasWord k q'.text = false) ↔
      ∀ k ∈ refusedKeywords, hasWord k q.text = false :=
    forall₂_congr fun k hk => by rw [htext, htext', hasWord_uncrossed hk]
  rw [accepted_query_iff hq, accepted_query_iff hq', hwords, ← htables]
  simp only [Bool.false_eq_true, false_imp_iff]

/-! ### Commas and CROSS JOINs -/

/-- Where joins have to follow foreign keys, a CROSS JOIN before whose ON another JOIN comes is
refused and a statement without the word JOIN is not looked at: with a comma in place of a CROSS
JOIN a query is accepted if it would be without the policy and its other joins pass. The joins of an
accepted query that are written JOIN follow foreign keys at every level. -/
theorem validate_comma (d : Dialect) (allowed : Option (List String)) (limit : Nat)
    (keys : List ForeignKey) :
    let accepted (forbid : Bool) (sql : String) : Prop :=
      ∃ out, validate keys ⟨d, allowed, limit, forbid⟩ sql = .ok out
    (∀ sql head tail, readText sql = head ++ (" CROSS JOIN ".toList ++ tail) → Late (words tail) →
      ¬ accepted true sql) ∧
    (∀ sql, (∀ w ∈ words (readText sql), spells "JOIN" w = false) →
      (accepted true sql ↔ accepted false sql)) ∧
    (∀ sql (q : Query), readText sql = q.text → accepted true sql →
      AllFollow keys (q.tables d) q.ons) ∧
    ∀ sql sql' (q q' : Query), readText sql = q.text → readText sql' = q'.text →
      Query.Uncrossed q q' → ¬ accepted true sql ∧
        (accepted true sql' ↔
          accepted false sql ∧ checkJoins keys (q'.tables d) q'.text = .ok ()) ∧
        (q'.ons = [] → (accepted true sql' ↔ accepted false sql)) := by
  intro accepted
  have hfree : ∀ sql, (∀ w ∈ words (readText sql), spells "JOIN" w = false) →
      (accepted true sql ↔ accepted false sql) := fun sql hjoin =>
    accepted_strict_iff.trans (and_iff_left (checkJoins_of_no_join hjoin))
  have hfollow : ∀ sql (q : Query), readText sql = q.text → accepted true sql →
      AllFollow keys (q.tables d) q.ons := by
    intro sql q hq haccepted
    have hstrict : (⟨d, allowed, limit, true⟩ : Policy).forbidFreeJoins = true := rfl
    exact allFollow_of_accepted hstrict hq haccepted
  refine ⟨?_, hfree, hfollow, ?_⟩
  · intro sql head tail htext hlate haccepted
    obtain ⟨-, hjoins⟩ := accepted_strict_iff.1 haccepted
    rw [htext] at hjoins
    exact checkJoins_crossed hlate hjoins
  · intro sql sql' q q' hq hq' h
    have hboth : accepted false sql' ↔ accepted false sql := accepted_uncrossed_iff hq hq' h
    have hperm : ∀ r, r ∈ tables d q'.text ↔ r ∈ q'.tables d := fun r =>
      (tables_text_perm d q').mem_iff
    refine ⟨fun haccepted => ?_, ?_, fun hons => ?_⟩
    · exact (hfollow sql q hq haccepted [] (h.recast (d := d)).unconditional).ne_nil rfl
    · have hstrict : accepted true sql' ↔ _ := accepted_strict_iff
      rw [hq', checkJoins_congr_refs hperm] at hstrict
      exact hstrict.trans (and_congr_left' hboth)
    · rw [← hboth]
      refine hfree sql' ?_
      rw [hq']
      exact (hons ▸ q'.piece).spells_eq_false

/-- The tables x and y share a number n. -/
def numberKey : ForeignKey where
  constraint := none
  source := { schema := "public", table := "x", column := "n" }
  target := { schema := "public", table := "y", column := "n" }

/-- `SELECT * FROM x JOIN y ON x.n = y.n` with a third table behind CROSS JOIN or behind a comma. -/
def thirdTable (crossed : Bool) : Query :=
  .select .star [] (if crossed then
    .one (table x) (.cons .bare (table y) [number] (.cons .cross (table z) [] .nil))
  else
    .more (table x) (.cons .bare (table y) [number] .nil) (.one (table z) .nil)) .none
where
  x : Query.Word := ⟨['x'], by decide, by decide, by decide⟩
  y : Query.Word := ⟨['y'], by decide, by decide, by decide⟩
  z : Query.Word := ⟨['z'], by decide, by decide, by decide⟩
  n : Query.Word := ⟨['n'], by decide, by decide, by decide⟩
  table (name : Query.Word) : Source := .table ⟨false, none, name, none⟩
  number : ColumnPair fromFunctions := ⟨⟨[x], n⟩, ⟨[y], n⟩⟩

/-- Next to a join that follows a foreign key, too, the comma passes where the CROSS JOIN does
not. -/
theorem validate_comma_joined :
    let accepted (sql : String) : Prop := ∃ out, validate [numberKey] strictPolicy sql = .ok out
    (thirdTable true).Uncrossed (thirdTable false) ∧ ¬ accepted (.ofList (thirdTable true).text) ∧
      accepted (.ofList (thirdTable false).text) ∧
        AllFollow [numberKey] ((thirdTable false).tables .postgres) (thirdTable false).ons := by
  intro accepted
  obtain ⟨-, -, hfollow, hcomma⟩ := validate_comma .postgres none 101 [numberKey]
  have h : (thirdTable true).Uncrossed (thirdTable false) :=
    .items _ _ _ (.last _ (.there _ _ _ (.here _ _)))
  have hcrossed : readText (.ofList (thirdTable true).text) = (thirdTable true).text := by
    decide +kernel
  have hlisted : readText (.ofList (thirdTable false).text) = (thirdTable false).text := by
    decide +kernel
  obtain ⟨hrefused, hpasses, -⟩ := hcomma _ _ _ _ hcrossed hlisted h
  have hfree : ∃ out, validate [numberKey] ⟨.postgres, none, 101, false⟩
      (.ofList (thirdTable true).text) = .ok out :=
    ⟨"SELECT * FROM x JOIN y ON x.n = y.n CROSS JOIN z LIMIT 101",
      eq_ok_of_toOption (by decide +kernel)⟩
  have haccepted : accepted (.ofList (thirdTable false).text) :=
    hpasses.2 ⟨hfree, eq_ok_of_toOption (by decide +kernel)⟩
  exact ⟨h, hrefused, haccepted, hfollow _ _ hlisted haccepted⟩

/-- Two tables that no foreign key connects are combined by a comma, and by a CROSS JOIN they are
not. -/
theorem comma_overlooked :
    validate [] strictPolicy "SELECT * FROM a CROSS JOIN b" =
      .error (.unauthorizedJoin "b" "(no join condition)") ∧
    validate [] strictPolicy "SELECT * FROM a, b" = .ok "SELECT * FROM a, b LIMIT 101" := by
  constructor
  · decide +kernel
  · exact eq_ok_of_toOption (by decide +kernel)

end Guard

end Querent
