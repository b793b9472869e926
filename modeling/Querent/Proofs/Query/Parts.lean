import Querent.Proofs.Query.Syntax
import Querent.Proofs.Sql.Clause

/-! The parts of a query that hold no query: to the scans they are names, numbers and comparisons
with nothing to find in them. -/
namespace Querent.Sql

open Text

variable {banned ks : List String} {d : Dialect} {before s t : List Char}

/-- A flat text without some words. -/
structure Lacks (ks : List String) (s : List Char) : Prop where
  flat : Flat s
  free : Free ks s

instance (ks : List String) (s : List Char) : Decidable (Lacks ks s) :=
  decidable_of_iff (Flat s ∧ Free ks s) ⟨fun ⟨flat, free⟩ => ⟨flat, free⟩, fun ⟨flat, free⟩ => ⟨flat, free⟩⟩

/-- The words that matter to the search for tables and to the walk along a FROM list. -/
def listWords : List String := ["FROM", "JOIN"] ++ listEnds

theorem listWords_subset : listWords ⊆ clauseWords ++ banned :=
  List.Subset.trans (by decide) (List.subset_append_left _ _)

namespace Lacks

theorem mono {ks' : List String} (h : Lacks ks s) (hks : ks' ⊆ ks) : Lacks ks' s :=
  ⟨h.flat, fun w hw => isOneOf_of_subset hks (h.free w hw)⟩

theorem balanced (h : Lacks ks s) : Balanced s := h.flat.balanced

theorem passed (h : Lacks listWords s) : Passed s :=
  h.flat.passed (h.mono (List.subset_append_right _ _)).free

theorem finds (h : Lacks listWords s) (ht : Border t) : Finds d before s t [] :=
  .flat h.flat (h.mono (List.subset_append_left _ _)).free ht

theorem append_cons {c : Char} (hs : Lacks ks s) (hc : isFlat c = true ∧ isWordChar c = false)
    (ht : Lacks ks t) : Lacks ks (s ++ c :: t) :=
  ⟨hs.flat.append (.cons hc.1 ht.flat), (free_append_cons hc.2).2 ⟨hs.free, ht.free⟩⟩

theorem nil : Lacks ks [] := ⟨by simp [Flat], by simp [Free]⟩

theorem cons {c : Char} (hc : isFlat c = true ∧ isWordChar c = false) (ht : Lacks ks t) :
    Lacks ks (c :: t) := nil.append_cons hc ht

theorem append (hs : Lacks ks s) (ht : Lacks ks t) (hb : Border t) : Lacks ks (s ++ t) := by
  refine ⟨hs.flat.append ht.flat, ?_⟩
  rw [Free, words_append fun c hc => isWordChar_of_isBorder (hb c hc)]
  exact List.forall_mem_append.2 ⟨hs.free, ht.free⟩

theorem word {w : List Char} (hne : w ≠ []) (hw : ∀ c ∈ w, isPlain c = true)
    (h : isOneOf ks w = false) : Lacks ks w := by
  constructor
  · exact .ofPlain hw
  · rw [Free, words_word hne fun c hc => isWordChar_of_isPlain (hw c hc)]
    simpa using h

/-- A word in blanks between two such texts. -/
theorem append_word {w : List Char} (hs : Lacks ks s) (hw : Lacks ks w) (ht : Lacks ks t) :
    Lacks ks (s ++ ' ' :: (w ++ ' ' :: t)) :=
  have hblank : isFlat ' ' = true ∧ isWordChar ' ' = false := by decide
  hs.append_cons hblank (hw.append_cons hblank ht)

end Lacks

theorem Name.lacks (n : Name banned) (h : ks ⊆ clauseWords ++ banned) : Lacks ks n.text :=
  .word n.ne_nil n.forall_isPlain (n.isOneOf_eq_false h)

theorem ColumnPath.lacks (c : ColumnPath banned) (h : ks ⊆ clauseWords ++ banned) :
    Lacks ks c.text := by
  obtain ⟨qs, n⟩ := c
  simp only [ColumnPath.text]
  induction qs with
  | nil => exact n.lacks h
  | cons q qs ih => exact (q.lacks h).append_cons (by decide) ih

theorem TableItem.lacks (i : TableItem banned) (h : ks ⊆ clauseWords ++ banned)
    (has : Lacks ks "AS".toList) (honly : Lacks ks "ONLY".toList) : Lacks ks i.text := by
  have hpath : Lacks ks i.path := by
    cases hs : i.schema with
    | none => simpa [TableItem.path, hs] using i.table.lacks h
    | some s =>
      simpa [TableItem.path, hs] using (s.lacks h).append_cons (by decide) (i.table.lacks h)
  have halias : Lacks ks (i.path ++ aliasText i.calledAs) := by
    rcases i.calledAs with _ | ⟨_ | _, a⟩
    · simpa [aliasText] using hpath
    · exact hpath.append_cons (by decide) (a.lacks h)
    · exact hpath.append_word has (a.lacks h)
  cases ho : i.only with
  | false => simpa [TableItem.text, ho] using halias
  | true => simpa [TableItem.text, ho] using honly.append_cons (c := ' ') (by decide) halias

/-- Where a FROM follows a column it does not follow DISTINCT. -/
theorem ColumnPath.clauseLead (c : ColumnPath banned) (hb : Border before) :
    ClauseLead (c.text.reverse ++ before) := by
  obtain ⟨qs, n⟩ := c
  simp only [ColumnPath.text]
  induction qs generalizing before with
  | nil => exact n.clauseLead hb
  | cons q qs ih =>
    have hrev : (textBehind n (q :: qs)).reverse ++ before =
        (textBehind n qs).reverse ++ '.' :: (q.text.reverse ++ before) := by simp [textBehind]
    rw [hrev]
    exact ih (by simp [isBorder, isPlain])

theorem ColumnPair.lacks (e : ColumnPair banned) (h : ks ⊆ clauseWords ++ banned) :
    Lacks ks e.text :=
  have hmark : Lacks ks ['='] := .cons (by decide) .nil
  (e.left.lacks h).append_word hmark (e.right.lacks h)

theorem conjunction_lacks (h : ks ⊆ clauseWords ++ banned) (hand : Lacks ks "AND".toList)
    (e : ColumnPair banned) (es : List (ColumnPair banned)) : Lacks ks (conjunction e es) := by
  induction es generalizing e with
  | nil => exact e.lacks h
  | cons e' es ih => exact (e.lacks h).append_word hand (ih e')

theorem onText_lacks (h : ks ⊆ clauseWords ++ banned) (hon : Lacks ks "ON".toList)
    (hand : Lacks ks "AND".toList) (es : List (ColumnPair banned)) : Lacks ks (onText es) := by
  cases es with
  | nil => exact .nil
  | cons e es => exact Lacks.nil.append_word hon (conjunction_lacks h hand e es)

theorem onText_border (es : List (ColumnPair banned)) : Border (onText es) := by
  cases es with
  | nil => exact border_nil
  | cons e es => exact border_cons.2 (by decide)

theorem onText_itemEnd (es : List (ColumnPair banned)) (ht : ItemEnd t) :
    ItemEnd (onText es ++ t) := by
  cases es with
  | nil => exact ht
  | cons e es => exact .ofKeyword (k := "ON") (border_cons.2 (by decide)) (by decide)

namespace Query

theorem Comparator.lacks (op : Comparator) : Lacks listWords op.text := by
  cases op <;> decide

/-- A number is none of some words of capitals. -/
private theorem isOneOf_toString (hk : ks.all fun k => k.toList.all fun c => c.isUpper) (n : Nat) :
    isOneOf ks (toString n).toList = false := by
  rw [isOneOf_eq_false]
  intro k hmem
  have hupper : ∀ c ∈ k.toList, c.isUpper = true :=
    List.all_eq_true.1 (List.all_eq_true.1 hk k hmem)
  have halpha : k.toList.all Char.isAlpha = true :=
    List.all_eq_true.2 fun c hc => Bool.or_eq_true_iff.2 (.inl (hupper c hc))
  have hcapital : k.toList.all (fun c => c.isUpper || c == '_') = true :=
    List.all_eq_true.2 fun c hc => by simp [hupper c hc]
  have hplain : ∀ c ∈ (toString n).toList, isPlain c = true := fun c hc =>
    isPlain_of_isDigit (isDigit_of_mem_toString hc)
  rw [← spells_eq_sameLetters hcapital hplain]
  exact not_spells_toString halpha n

theorem Operand.lacks_of (o : Operand) (h : ks ⊆ clauseWords ++ fromFunctions)
    (hk : ks.all fun k => k.toList.all fun c => c.isUpper) : Lacks ks o.text := by
  cases o with
  | column c => exact c.lacks h
  | number n =>
    have hplain : ∀ c ∈ (toString n).toList, isPlain c = true := fun c hc =>
      isPlain_of_isDigit (isDigit_of_mem_toString hc)
    exact .word (toString_toList_ne_nil n) hplain (isOneOf_toString hk n)

theorem Operand.lacks (o : Operand) : Lacks listWords o.text :=
  o.lacks_of listWords_subset (by decide)

end Query

/-! ### What a FROM list is made of -/

theorem JoinKind.lead_lacks (kind : JoinKind) : Lacks listWords kind.lead := by
  cases kind <;> decide

theorem JoinKind.border (kind : JoinKind) : Border kind.lead := by
  cases kind <;> first | exact border_nil | exact border_cons.2 (by decide)

/-- An item ends before the join that follows it. -/
theorem JoinKind.itemEnd (kind : JoinKind) : ItemEnd (kind.lead ++ (" JOIN ".toList ++ t)) := by
  have hword : ∀ k : String, isReserved k.toList = true ∧ sameLetters "AS".toList k.toList = false ∧
      k.toList.head?.any opensName = true ∧ k.toList.all isPlain = true →
        ∀ u, ItemEnd (' ' :: (k.toList ++ ' ' :: u)) := fun k hk u =>
    .ofKeyword (border_cons.2 (by decide)) hk
  cases kind with
  | bare => exact hword "JOIN" (by decide) _
  | inner => exact hword "INNER" (by decide) _
  | left => exact hword "LEFT" (by decide) _
  | right => exact hword "RIGHT" (by decide) _
  | full => exact hword "FULL" (by decide) _
  | cross => exact hword "CROSS" (by decide) _
  | natural => exact hword "NATURAL" (by decide) _

theorem TableItem.lacks_listWords (i : TableItem banned) : Lacks listWords i.text :=
  i.lacks listWords_subset (by decide) (by decide)

theorem onText_lacks_listWords (es : List (ColumnPair banned)) : Lacks listWords (onText es) :=
  onText_lacks listWords_subset (by decide) (by decide) es

end Querent.Sql
