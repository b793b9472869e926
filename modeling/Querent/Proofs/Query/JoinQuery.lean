import Querent.Proofs.Guard.Verdict
import Querent.Proofs.Query.Equality
import Querent.Proofs.Sql.Tidy

/-! Queries that join tables under equalities of columns, with the text of each, and what the guard
reads in that text: the words it looks for, and the tables. Some joins may be written STRAIGHT_JOIN, a
word that the search for tables passes over. -/
namespace Querent.Sql

open Text Guard

namespace JoinQuery

/-- A name of such a query: no clause word and no word that the guard refuses. -/
abbrev Word := Name (forbiddenKeywords ++ dangerousKeywords)

/-- A column in a condition, behind an alias or behind its schema and table. -/
inductive Operand where
  | aliased (qualifier column : Word)
  | full (schema table column : Word)

def Operand.path : Operand → ColumnPath (forbiddenKeywords ++ dangerousKeywords)
  | aliased q c => ⟨[q], c⟩
  | full s t c => ⟨[s, t], c⟩

structure Equation where
  left : Operand
  right : Operand

def Equation.pair (e : Equation) : ColumnPair (forbiddenKeywords ++ dangerousKeywords) :=
  ⟨e.left.path, e.right.path⟩

/-- A table joined under one equality or more. -/
structure Clause where
  kind : JoinKind
  item : TableItem (forbiddenKeywords ++ dangerousKeywords)
  first : Equation
  others : List Equation

namespace Clause

def equations (j : Clause) : List Equation := j.first :: j.others

/-- The equalities as they are written. -/
def condition (j : Clause) : List Char := conjunction j.first.pair (j.others.map Equation.pair)

/-- The table and its condition. -/
def segment (j : Clause) : List Char :=
  j.item.text ++ ' ' :: ("ON".toList ++ ' ' :: j.condition)

def text (j : Clause) : List Char := j.kind.lead ++ (" JOIN ".toList ++ j.segment)

end Clause

/-- A join as it is written, with the words of its kind or as STRAIGHT_JOIN. -/
structure Link where
  straight : Bool
  clause : Clause

def Link.text (l : Link) : List Char :=
  if l.straight then " STRAIGHT_JOIN ".toList ++ l.clause.segment else l.clause.text

/-- The joins among some that are not written STRAIGHT_JOIN. -/
def plainJoins : List Link → List Clause
  | [] => []
  | ⟨true, _⟩ :: ls => plainJoins ls
  | ⟨false, j⟩ :: ls => j :: plainJoins ls

end JoinQuery

/-- A selection of everything from a table and the tables joined to it. -/
structure JoinQuery where
  item : TableItem (forbiddenKeywords ++ dangerousKeywords)
  joins : List JoinQuery.Clause

/-- A query of this kind some of whose joins may be written STRAIGHT_JOIN. -/
structure LinkedQuery where
  item : TableItem (forbiddenKeywords ++ dangerousKeywords)
  links : List JoinQuery.Link

namespace LinkedQuery

def text (q : LinkedQuery) : List Char :=
  "SELECT * FROM ".toList ++ (q.item.text ++ q.links.flatMap JoinQuery.Link.text)

theorem text_eq (q : LinkedQuery) :
    q.text = "SELECT * FROM ".toList ++ (q.item.text ++ q.links.flatMap JoinQuery.Link.text) := rfl

/-- The query without the joins that are written STRAIGHT_JOIN. -/
def withoutStraight (q : LinkedQuery) : JoinQuery := ⟨q.item, JoinQuery.plainJoins q.links⟩

end LinkedQuery

namespace JoinQuery

def text (q : JoinQuery) : List Char :=
  "SELECT * FROM ".toList ++ (q.item.text ++ q.joins.flatMap Clause.text)

/-- The query as one of those that may have joins written STRAIGHT_JOIN. -/
def linked (q : JoinQuery) : LinkedQuery := ⟨q.item, q.joins.map (Link.mk false)⟩

theorem linked_text (q : JoinQuery) : q.linked.text = q.text := by
  have hlinks : (q.joins.map (Link.mk false)).flatMap Link.text = q.joins.flatMap Clause.text :=
    List.flatMap_map _ _ _
  unfold LinkedQuery.text text
  exact congrArg (fun t => "SELECT * FROM ".toList ++ (q.item.text ++ t)) hlinks

theorem linked_withoutStraight (q : JoinQuery) : q.linked.withoutStraight = q := by
  have hplain (js : List Clause) : plainJoins (js.map (Link.mk false)) = js := by
    induction js with
    | nil => rfl
    | cons j js ih => exact congrArg (j :: ·) ih
  simp [linked, LinkedQuery.withoutStraight, hplain]

/-- The tables that the query names, in order. -/
def items (q : JoinQuery) : List (TableItem (forbiddenKeywords ++ dangerousKeywords)) :=
  q.item :: q.joins.map Clause.item

def refs (d : Dialect) (q : JoinQuery) : List TableRef := q.items.map (TableItem.ref d)

/-- The equalities of all joins, in order. -/
def equations (q : JoinQuery) : List Equation := q.joins.flatMap Clause.equations

variable {ks : List String} {d : Dialect} {before t : List Char}

/-! ### Words -/

/-- The words that refuse a statement, bring a limit or end a FROM list. -/
def endWords : List String := refusedKeywords ++ listEnds

/-- The words that bring tables, and those that part a join from the next one and its table from
its condition. -/
def joinWords : List String := ["FROM", "JOIN", "ON"] ++ conditionEnds

theorem item_lacks (i : TableItem (forbiddenKeywords ++ dangerousKeywords)) :
    Lacks (endWords ++ joinWords) i.text :=
  i.lacks (by decide) (by decide) (by decide)

theorem lead_lacks (kind : JoinKind) : Lacks (endWords ++ ["FROM", "JOIN", "ON"]) kind.lead := by
  cases kind <;> decide

/-- What opens a join is a word of its own that ends the condition before it. -/
theorem lead_eq (kind : JoinKind) : kind.lead = [] ∨ ∃ w, kind.lead = ' ' :: w ∧
    (w ≠ [] ∧ w.all isPlain = true) ∧ isOneOf conditionEnds w = true := by
  have hword : ∀ k : String, (k.toList ≠ [] ∧ k.toList.all isPlain = true) ∧
      isOneOf conditionEnds k.toList = true → ∃ w, ' ' :: k.toList = ' ' :: w ∧
        (w ≠ [] ∧ w.all isPlain = true) ∧ isOneOf conditionEnds w = true := fun k hk =>
    ⟨k.toList, rfl, hk⟩
  cases kind with
  | bare => exact .inl rfl
  | inner => exact .inr (hword "INNER" (by decide))
  | left => exact .inr (hword "LEFT" (by decide))
  | right => exact .inr (hword "RIGHT" (by decide))
  | full => exact .inr (hword "FULL" (by decide))
  | cross => exact .inr (hword "CROSS" (by decide))
  | natural => exact .inr (hword "NATURAL" (by decide))

namespace Clause

theorem condition_lacks (j : Clause) : Lacks (endWords ++ joinWords) j.condition :=
  conjunction_lacks (by decide) (by decide) _ _

theorem segment_lacks (j : Clause) (hon : Lacks ks "ON".toList) (h : ks ⊆ endWords ++ joinWords) :
    Lacks ks j.segment :=
  ((item_lacks j.item).mono h).append_word hon (j.condition_lacks.mono h)

end Clause

namespace Link

variable {l : Link}

theorem border (l : Link) : Border l.text := by
  obtain ⟨_ | _, j⟩ := l
  · exact j.kind.border.append (border_cons.2 (by decide))
  · exact border_cons.2 (by decide)

/-- An item ends before the join that follows it. -/
theorem itemEnd (l : Link) : ItemEnd (l.text ++ t) := by
  obtain ⟨_ | _, j⟩ := l
  · have hassoc : Link.text ⟨false, j⟩ ++ t =
        j.kind.lead ++ (" JOIN ".toList ++ (j.segment ++ t)) := by simp [Link.text, Clause.text]
    rw [hassoc]
    exact j.kind.itemEnd
  · exact .ofKeyword (k := "STRAIGHT_JOIN") (border_cons.2 (by decide)) (by decide)

/-- A join that is written STRAIGHT_JOIN holds no word JOIN: the underscore belongs to a word. -/
theorem straight_lacks (j : Clause) :
    Lacks (endWords ++ ["FROM", "JOIN"]) (Link.text ⟨true, j⟩) := by
  have hlead : Lacks (endWords ++ ["FROM", "JOIN"]) " STRAIGHT_JOIN".toList := by decide
  have htext : Link.text ⟨true, j⟩ = " STRAIGHT_JOIN".toList ++ ' ' :: j.segment := by simp [Link.text]
  rw [htext]
  exact hlead.append_cons (by decide) (j.segment_lacks (by decide) (by decide))

theorem lacks (l : Link) : Lacks endWords l.text := by
  obtain ⟨_ | _, j⟩ := l
  · have hsegment : Lacks endWords j.segment :=
      j.segment_lacks (by decide) (List.subset_append_left _ _)
    have hjoin : Lacks endWords " JOIN".toList := by decide
    exact ((lead_lacks j.kind).mono (List.subset_append_left _ _)).append
      (hjoin.append_cons (by decide) hsegment) (border_cons.2 (by decide))
  · exact (straight_lacks j).mono (List.subset_append_left _ _)

end Link

theorem links_border (ls : List Link) : Border (ls.flatMap Link.text) := by
  induction ls with
  | nil => exact border_nil
  | cons l ls ih => exact l.border.append ih

theorem links_itemEnd (ls : List Link) : ItemEnd (ls.flatMap Link.text) := by
  cases ls with
  | nil => exact .nil
  | cons l ls => exact l.itemEnd

theorem links_lacks (ls : List Link) : Lacks endWords (ls.flatMap Link.text) := by
  induction ls with
  | nil => exact .nil
  | cons l ls ih => exact l.lacks.append ih (links_border ls)

/-! ### Blanks -/

theorem columnPath_spaced {banned : List String} (c : ColumnPath banned) : Spaced c.text := by
  have hfull : ∀ e ∈ c.text, isBlank e = false := by
    intro e he
    rcases c.isPlain_or_eq_dot e he with hplain | rfl
    · exact isBlank_of_isPlain hplain
    · decide
  obtain ⟨d, ds, h, -⟩ := c.exists_cons
  exact .run (by simp [h]) hfull

theorem item_spaced {banned : List String} (i : TableItem banned) : Spaced i.text := by
  have hname : ∀ n : Name banned, Spaced n.text := fun n => .ofPlain ⟨n.ne_nil, n.plain⟩
  have hpath : Spaced i.path := by
    cases hs : i.schema with
    | none => simpa [TableItem.path, hs] using hname i.table
    | some s =>
      simpa [TableItem.path, hs, ColumnPath.text, ColumnPath.textBehind] using
        columnPath_spaced ⟨[s], i.table⟩
  have halias : Spaced (i.path ++ aliasText i.calledAs) := by
    rcases i.calledAs with _ | ⟨_ | _, a⟩
    · simpa [aliasText] using hpath
    · exact hpath.append (hname a)
    · have has : Spaced "AS".toList := .ofPlain (by decide)
      exact hpath.append (has.append (hname a))
  cases ho : i.only with
  | false => simpa [TableItem.text, ho] using halias
  | true =>
    have honly : Spaced "ONLY".toList := .ofPlain (by decide)
    simpa [TableItem.text, ho] using honly.append halias

theorem conjunction_spaced {banned : List String} (e : ColumnPair banned)
    (es : List (ColumnPair banned)) : Spaced (conjunction e es) := by
  have hmark : Spaced ['='] := .run (by simp) (by simp [isBlank])
  have hand : Spaced "AND".toList := .ofPlain (by decide)
  have hpair : ∀ e : ColumnPair banned, Spaced e.text := fun e =>
    (columnPath_spaced e.left).append (hmark.append (columnPath_spaced e.right))
  induction es generalizing e with
  | nil => exact hpair e
  | cons e' es ih => exact (hpair e).append (hand.append (ih e'))

theorem Clause.segment_spaced (j : Clause) : Spaced j.segment := by
  have hon : Spaced "ON".toList := .ofPlain (by decide)
  exact (item_spaced j.item).append (hon.append (conjunction_spaced _ _))

private theorem links_spaced {s : List Char} (hs : Spaced s) (ls : List Link) :
    Spaced (s ++ ls.flatMap Link.text) := by
  have hjoin : Spaced "JOIN".toList := .ofPlain (by decide)
  have hstraight : Spaced "STRAIGHT_JOIN".toList := .ofPlain (by decide)
  induction ls generalizing s with
  | nil => simpa using hs
  | cons l ls ih =>
    obtain ⟨_ | _, j⟩ := l
    · have hlead : Spaced (s ++ j.kind.lead) := by
        rcases lead_eq j.kind with h | ⟨w, h, hw, -⟩
        · simpa [h] using hs
        · rw [h]
          exact hs.append (.ofPlain hw)
      simpa [Link.text, Clause.text] using ih (hlead.append (hjoin.append j.segment_spaced))
    · simpa [Link.text] using ih (hs.append (hstraight.append j.segment_spaced))

/-! ### Tables -/

/-- A join brings the table of its own. -/
theorem Clause.tablesFrom_text (j : Clause) (ht : Border t) :
    tablesFrom d before (j.text ++ t) =
      j.item.ref d :: tablesFrom d (j.text.reverse ++ before) t := by
  have hitem : ItemEnd (' ' :: ("ON".toList ++ ' ' :: j.condition) ++ t) :=
    .ofKeyword (k := "ON") (border_cons.2 (by decide)) (by decide)
  have hread : readItems d false (j.segment ++ t) = [j.item.ref d] := by
    rw [Clause.segment, List.append_assoc, readItems_of_readItem (readItem_text j.item hitem)]
    rfl
  have hsegment : Lacks ["FROM", "JOIN"] j.segment := j.segment_lacks (by decide) (by decide)
  have htrim : trimStart (j.segment ++ t) = j.segment ++ t := by
    rw [Clause.segment, List.append_assoc]
    exact j.item.trimStart
  have hlead : Lacks ["FROM", "JOIN"] j.kind.lead := (lead_lacks j.kind).mono (by decide)
  have hpass : tablesFrom d before (j.text ++ t) =
      tablesFrom d (j.kind.lead.reverse ++ before) (" JOIN ".toList ++ (j.segment ++ t)) := by
    rw [Clause.text, List.append_assoc, List.append_assoc]
    exact tablesFrom_append hlead.flat hlead.free (border_cons.2 (by decide))
  rw [hpass, tablesFrom_join, htrim, hread, tablesFrom_append hsegment.flat hsegment.free ht]
  simp [Clause.text]

/-- Behind the first item every join brings the table of its own, but for those that are written
STRAIGHT_JOIN. -/
theorem tablesFrom_links (ls : List Link) :
    tablesFrom d before (ls.flatMap Link.text) = (plainJoins ls).map fun j => j.item.ref d := by
  induction ls generalizing before with
  | nil => exact tablesFrom_nil
  | cons l ls ih =>
    obtain ⟨_ | _, j⟩ := l
    · exact (j.tablesFrom_text (links_border ls)).trans (congrArg _ ih)
    · have hpass : Lacks ["FROM", "JOIN"] (Link.text ⟨true, j⟩) :=
        (Link.straight_lacks j).mono (List.subset_append_right _ _)
      exact (tablesFrom_append hpass.flat hpass.free (links_border ls)).trans ih

end JoinQuery

namespace LinkedQuery

open JoinQuery

variable {d : Dialect}

theorem lacks (q : LinkedQuery) : Lacks endWords q.text := by
  have hselect : Lacks endWords "SELECT * FROM".toList := by decide
  have hitem : Lacks endWords q.item.text := (item_lacks q.item).mono (List.subset_append_left _ _)
  have hlead : "SELECT * FROM ".toList = "SELECT * FROM".toList ++ [' '] := by simp
  rw [text_eq, hlead, List.append_assoc, List.singleton_append]
  exact hselect.append_cons (by decide) (hitem.append (links_lacks _) (links_border _))

theorem tidy (q : LinkedQuery) : Tidy q.text := by
  have hselect : Spaced "SELECT".toList := .ofPlain (by decide)
  have hfrom : Spaced "FROM".toList := .ofPlain (by decide)
  have hstar : Spaced ['*'] := .run (by simp) (by simp [isBlank])
  have hitem := hselect.append (hstar.append (hfrom.append (item_spaced q.item)))
  exact ⟨q.lacks.flat, links_spaced hitem q.links⟩

/-- The tables found are those that the query names, in order, but for those joined by
STRAIGHT_JOIN. -/
theorem tables_text (q : LinkedQuery) : tables d q.text = q.withoutStraight.refs d := by
  have hend : nextItem (q.links.flatMap Link.text) = none := by
    have hlist : Lacks listEnds (q.links.flatMap Link.text) :=
      (links_lacks _).mono (List.subset_append_right _ _)
    have hpass := hlist.flat.passed hlist.free [] border_nil
    rw [List.append_nil] at hpass
    exact hpass
  have hread : readItems d true (q.item.text ++ q.links.flatMap Link.text) = [q.item.ref d] := by
    rw [readItems_of_readItem (readItem_text q.item (links_itemEnd _)), hend]
    rfl
  have hopen : opensClause (' ' :: "SELECT *".toList.reverse) = true := by decide
  have hitem : Lacks ["FROM", "JOIN"] q.item.text := (item_lacks q.item).mono (by decide)
  have hlead : "SELECT * FROM ".toList = "SELECT *".toList ++ " FROM ".toList := by simp
  have hselect : tables d q.text = tablesFrom d ("SELECT *".toList.reverse ++ [])
      (" FROM ".toList ++ (q.item.text ++ q.links.flatMap Link.text)) := by
    rw [tables, text_eq, hlead, List.append_assoc]
    exact tablesFrom_append (by decide) (by decide) (border_cons.2 (by decide))
  rw [hselect, List.append_nil, tablesFrom_from, if_pos hopen, q.item.trimStart, hread,
    tablesFrom_append hitem.flat hitem.free (links_border _), tablesFrom_links]
  simp [refs, items, withoutStraight]

end LinkedQuery

end Querent.Sql
