import Querent.Proofs.Query.Parts

/-! The FROM list of a query as the item reader goes through it: it takes the first item of every
entry and steps over the joins behind it, up to where the list ends. -/
namespace Querent.Sql

open Text Query

/-- What can stand behind a query: the end of an item at which the FROM list ends too. -/
structure ListEnd (t : List Char) : Prop where
  item : ItemEnd t
  last : nextItem t = none

namespace ListEnd

theorem border {t : List Char} (h : ListEnd t) : Border t := h.item.border

theorem nil : ListEnd [] := ⟨.nil, rfl⟩

theorem close {t : List Char} : ListEnd (" )".toList ++ t) := ⟨.close, rfl⟩

theorem union {t : List Char} : ListEnd (" UNION ".toList ++ t) :=
  ⟨.ofKeyword (k := "UNION") (border_cons.2 (by decide)) (by decide), rfl⟩

theorem ofUnion {s t : List Char} (all : Bool) :
    ListEnd (((if all then " UNION ALL ".toList else " UNION ".toList) ++ s) ++ t) := by
  cases all <;> exact .union

end ListEnd

variable {d : Dialect} {s t : List Char}

/-! ### Parentheses -/

theorem Query.Selected.balanced (s : Selected) : Balanced s.text := by
  cases s with
  | star => exact (by decide : Flat ['*']).balanced
  | column c => exact (c.lacks listWords_subset).balanced
  | call f x c =>
    have hname : Balanced f.name.toList := by
      cases f <;> exact (by decide : Flat _).balanced
    have hfrom : Balanced " FROM ".toList := (by decide : Flat _).balanced
    have hgroup : Balanced ('(' :: ((x.text ++ (" FROM ".toList ++ c.text)) ++ [')'])) :=
      .group (.append (x.lacks listWords_subset).balanced (.append hfrom (c.lacks listWords_subset).balanced))
    simpa [Selected.text] using Balanced.append hname hgroup

theorem selectText_balanced (first : Selected) (others : List Selected) :
    Balanced (selectText first others) := by
  induction others generalizing first with
  | nil => exact first.balanced
  | cons s others ih =>
    have hcomma : Balanced ", ".toList := .of_all (by decide)
    exact .append first.balanced (.append hcomma (ih s))

theorem Balanced.parenthesized (hs : Balanced s) : Balanced (parenthesized s) := by
  have hgroup : Balanced ('(' :: ((' ' :: (s ++ [' '])) ++ [')'])) :=
    .group (.cons (by decide) (.append hs (.of_all (by decide))))
  simpa [Sql.parenthesized] using hgroup

theorem balanced_union (all : Bool) :
    Balanced (if all then " UNION ALL ".toList else " UNION ".toList) := by
  cases all <;> exact (by decide : Flat _).balanced

mutual

theorem Query.balanced : (q : Query) → Balanced q.text
  | .select first others items filter => by
    have hselect : Balanced "SELECT ".toList := (by decide : Flat _).balanced
    have hfrom : Balanced " FROM ".toList := (by decide : Flat _).balanced
    exact .append hselect (.append (selectText_balanced first others)
      (.append hfrom (.append items.balanced filter.balanced)))
  | .union all left right =>
    .append left.balanced (.append (balanced_union all) right.balanced)

theorem Items.balanced : (i : Items) → Balanced i.text
  | .one source joins => .append source.balanced joins.balanced
  | .more source joins rest => by
    have hcomma : Balanced ", ".toList := .of_all (by decide)
    exact .append source.balanced (.append joins.balanced (.append hcomma rest.balanced))

theorem Joins.balanced : (j : Joins) → Balanced j.text
  | .nil => .nil
  | .cons kind source on rest => by
    have hjoin : Balanced " JOIN ".toList := (by decide : Flat _).balanced
    exact .append kind.lead_lacks.balanced (.append hjoin (.append source.balanced
      (.append (onText_lacks_listWords on).balanced rest.balanced)))

theorem Source.balanced : (s : Source) → Balanced s.text
  | .table item => item.lacks_listWords.balanced
  | .derived query calledAs =>
    .append query.balanced.parenthesized (.cons (by decide) calledAs.flat.balanced)

theorem Filter.balanced : (f : Filter) → Balanced f.text
  | .none => .nil
  | .holds condition => by
    have hwhere : Balanced " WHERE ".toList := (by decide : Flat _).balanced
    exact .append hwhere condition.balanced

theorem Condition.balanced : (c : Condition) → Balanced c.text
  | .compare left op right => (left.lacks.append_word op.lacks right.lacks).balanced
  | .distinct left right => by
    have hword : Balanced " IS DISTINCT FROM ".toList := (by decide : Flat _).balanced
    exact .append (left.lacks listWords_subset).balanced (.append hword (right.lacks listWords_subset).balanced)
  | .within column query => by
    have hin : Balanced " IN ".toList := (by decide : Flat _).balanced
    exact .append (column.lacks listWords_subset).balanced (.append hin query.balanced.parenthesized)
  | .present query => by
    have hexists : Balanced "EXISTS ".toList := (by decide : Flat _).balanced
    exact .append hexists query.balanced.parenthesized
  | .and left right => by
    have hand : Balanced " AND ".toList := (by decide : Flat _).balanced
    exact .append left.balanced (.append hand right.balanced)
  | .or left right => by
    have hor : Balanced " OR ".toList := (by decide : Flat _).balanced
    exact .append left.balanced (.append hor right.balanced)

end

/-! ### Items -/

/-- The table that an item names itself. -/
def Source.head (d : Dialect) : Source → Option TableRef
  | .table item => some (item.ref d)
  | .derived _ _ => none

/-- The tables of the query that an item is. -/
def Source.inner (d : Dialect) : Source → List TableRef
  | .table _ => []
  | .derived query _ => query.tables d

/-- The tables that the first items of the entries of a FROM list name themselves. -/
def Items.heads (d : Dialect) : Items → List TableRef
  | .one source _ => (source.head d).toList
  | .more source _ rest => (source.head d).toList ++ rest.heads d

/-- The tables inside the entries of a FROM list: those of its queries and its joins. -/
def Items.inner (d : Dialect) : Items → List TableRef
  | .one source joins => source.inner d ++ joins.tables d
  | .more source joins rest => source.inner d ++ (joins.tables d ++ rest.inner d)

theorem Source.tables_eq (s : Source) : s.tables d = (s.head d).toList ++ s.inner d := by
  cases s with
  | table item => simp [Source.tables, Source.head, Source.inner]
  | derived query calledAs => simp [Source.tables, Source.head, Source.inner]

/-- The two together are the tables of the list. -/
theorem Items.heads_inner_perm (d : Dialect) :
    (i : Items) → (i.heads d ++ i.inner d).Perm (i.tables d)
  | .one source joins => by
    simp [Items.heads, Items.inner, Items.tables, Source.tables_eq]
  | .more source joins rest => by
    have hrest := rest.heads_inner_perm d
    rw [List.perm_iff_count] at hrest ⊢
    intro r
    have hcount := hrest r
    simp only [Items.heads, Items.inner, Items.tables, Source.tables_eq, List.count_append] at hcount ⊢
    omega

theorem Source.readItem (s : Source) (ht : ItemEnd t) :
    readItem d (s.text ++ t) = some (s.head d, t) := by
  cases s with
  | table item => exact readItem_text item ht
  | derived query calledAs =>
    have hinner : Balanced (' ' :: (query.text ++ [' '])) :=
      .cons (by decide) (.append query.balanced (.of_all (by decide)))
    have htext : (Source.derived query calledAs).text ++ t =
        '(' :: ((' ' :: (query.text ++ [' '])) ++ ')' :: (aliasText (some (false, calledAs)) ++ t)) := by
      simp [Source.text, parenthesized, aliasText]
    rw [htext]
    exact readItem_group hinner calledAs ht

theorem Source.trimStart (s : Source) : trimStart (s.text ++ t) = s.text ++ t := by
  cases s with
  | table item => exact item.trimStart
  | derived query calledAs => rfl

/-- A FROM list ends before the condition of its query. -/
theorem Filter.listEnd (f : Filter) (ht : ListEnd t) : ListEnd (f.text ++ t) := by
  cases f with
  | none => exact ht
  | holds condition =>
    exact ⟨.ofKeyword (k := "WHERE") (border_cons.2 (by decide)) (by decide), rfl⟩

/-- An entry of a FROM list ends before its joins. -/
theorem Joins.itemEnd (j : Joins) (ht : ItemEnd t) : ItemEnd (j.text ++ t) := by
  cases j with
  | nil => exact ht
  | cons kind source on rest =>
    rw [Joins.text, List.append_assoc]
    exact kind.itemEnd

theorem Joins.border (j : Joins) : Border j.text := by
  cases j with
  | nil => exact border_nil
  | cons kind source on rest => exact kind.border.append (border_cons.2 (by decide))

theorem Passed.append {s' : List Char} (hs : Passed s) (hs' : Passed s') (hb : Border s') :
    Passed (s ++ s') := by
  intro t ht
  rw [List.append_assoc, hs _ (hb.append ht), hs' t ht]

/-- A blank parts two such texts. -/
theorem Passed.append_blank {s' : List Char} (hs : Passed s) (hs' : Passed s') :
    Passed (s ++ ' ' :: s') := by
  intro t ht
  have hblank : nextFrom 0 none [] (' ' :: (s' ++ t)) = nextFrom 0 none [] (s' ++ t) := rfl
  rw [List.append_assoc, List.cons_append, hs _ (border_cons.2 (by decide)), hblank, hs' t ht]

theorem Source.passed (s : Source) : Passed s.text := by
  cases s with
  | table item => exact item.lacks_listWords.passed
  | derived query calledAs =>
    have hinner : Balanced (' ' :: (query.text ++ [' '])) :=
      .cons (by decide) (.append query.balanced (.of_all (by decide)))
    have halias : Passed (' ' :: calledAs.text) :=
      Lacks.passed (.cons (by decide) (calledAs.lacks listWords_subset))
    have hgroup : Passed (parenthesized query.text) := by
      intro t ht
      have htext : parenthesized query.text ++ t =
          '(' :: ((' ' :: (query.text ++ [' '])) ++ ')' :: t) := by simp [parenthesized]
      have hopen : ∀ u, nextFrom 0 none [] ('(' :: u) = nextFrom (0 + 1) none [] u := fun u => by
        simp [nextFrom, isLetterOrNumber]
      have hclose : nextFrom (0 + 1) none [] (')' :: t) = nextFrom 0 none [] t := by
        simp [nextFrom, isLetterOrNumber]
      rw [htext, hopen, hinner.nextFrom, hclose]
    exact hgroup.append halias (border_cons.2 (by decide))

/-- The walk along a FROM list steps over the joins of an entry. -/
theorem Joins.passed : (j : Joins) → Passed j.text
  | .nil => fun _ _ => rfl
  | .cons kind source on rest => by
    have hflat : Flat (kind.lead ++ " JOIN".toList) := by cases kind <;> decide
    have hfree : Free listEnds (kind.lead ++ " JOIN".toList) := by
      cases kind <;> decide
    have hopen : Passed (kind.lead ++ " JOIN".toList) := hflat.passed hfree
    have htail : Passed (onText on ++ rest.text) :=
      (onText_lacks_listWords on).passed.append rest.passed rest.border
    have hborder : Border (onText on ++ rest.text) := (onText_border on).append rest.border
    have hall := hopen.append_blank (source.passed.append htail hborder)
    have htext : (Joins.cons kind source on rest).text =
        (kind.lead ++ " JOIN".toList) ++ ' ' :: (source.text ++ (onText on ++ rest.text)) := by
      simp [Joins.text]
    rw [htext]
    exact hall

/-! ### Lists -/

/-- Behind a JOIN one item is read. -/
theorem Source.readItems_text (s : Source) (ht : ItemEnd t) :
    readItems d false (s.text ++ t) = (s.head d).toList := by
  rw [readItems_of_readItem (s.readItem ht)]
  simp

theorem Items.trimStart (i : Items) : trimStart (i.text ++ t) = i.text ++ t := by
  cases i with
  | one source joins => rw [Items.text, List.append_assoc, source.trimStart]
  | more source joins rest => rw [Items.text, List.append_assoc, source.trimStart]

/-- Behind a FROM the first items of all entries are read, and nothing behind the list. -/
theorem Items.readItems_text (ht : ListEnd t) :
    (i : Items) → readItems d true (i.text ++ t) = i.heads d
  | .one source joins => by
    have hend : nextItem (joins.text ++ t) = none := (joins.passed t ht.border).trans ht.last
    rw [Items.text, List.append_assoc, readItems_of_readItem (source.readItem (joins.itemEnd ht.item)),
      hend]
    simp [Items.heads]
  | .more source joins rest => by
    have hitem : ItemEnd (joins.text ++ (", ".toList ++ (rest.text ++ t))) := joins.itemEnd .comma
    have hcomma : nextItem (", ".toList ++ (rest.text ++ t)) = some (rest.text ++ t) :=
      congrArg some rest.trimStart
    have hnext : nextItem (joins.text ++ (", ".toList ++ (rest.text ++ t))) =
        some (rest.text ++ t) := (joins.passed _ ItemEnd.comma.border).trans hcomma
    have htext : (Items.more source joins rest).text ++ t =
        source.text ++ (joins.text ++ (", ".toList ++ (rest.text ++ t))) := by
      simp only [Items.text, List.append_assoc]
    rw [htext, readItems_of_readItem (source.readItem hitem), hnext]
    simp [Items.heads, rest.readItems_text ht]

end Querent.Sql
