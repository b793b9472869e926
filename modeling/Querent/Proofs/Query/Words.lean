import Querent.Proofs.Query.Lists
import Querent.Proofs.Sql.Phase

/-! The characters of a query, and where JOIN and ON stand among its words: an ON follows a JOIN,
and a query without the word JOIN has no condition of a join. -/
namespace Querent.Sql

open Text Query

/-! ### Texts -/

theorem Query.text_select (first : Selected) (others : List Selected) (items : Items)
    (filter : Filter) : (Query.select first others items filter).text =
      "SELECT ".toList ++ (selectText first others ++
        (" FROM ".toList ++ (items.text ++ filter.text))) := rfl

theorem Query.text_union (all : Bool) (left right : Query) : (Query.union all left right).text =
    left.text ++ ((if all then " UNION ALL ".toList else " UNION ".toList) ++ right.text) := rfl

theorem Items.text_one (source : Source) (joins : Joins) :
    (Items.one source joins).text = source.text ++ joins.text := rfl

theorem Items.text_more (source : Source) (joins : Joins) (rest : Items) :
    (Items.more source joins rest).text =
      source.text ++ (joins.text ++ (", ".toList ++ rest.text)) := rfl

theorem Joins.text_cons (kind : JoinKind) (source : Source) (on : List (ColumnPair fromFunctions))
    (rest : Joins) : (Joins.cons kind source on rest).text =
      kind.lead ++ (" JOIN ".toList ++ (source.text ++ (onText on ++ rest.text))) := rfl

theorem Source.text_derived (query : Query) (calledAs : Query.Word) :
    (Source.derived query calledAs).text = parenthesized query.text ++ ' ' :: calledAs.text := rfl

theorem Filter.text_holds (condition : Condition) :
    (Filter.holds condition).text = " WHERE ".toList ++ condition.text := rfl

theorem Condition.text_within (column : Query.Column) (query : Query) :
    (Condition.within column query).text =
      column.text ++ (" IN ".toList ++ parenthesized query.text) := rfl

theorem Condition.text_present (query : Query) :
    (Condition.present query).text = "EXISTS ".toList ++ parenthesized query.text := rfl

theorem Condition.text_and (left right : Condition) :
    (Condition.and left right).text = left.text ++ (" AND ".toList ++ right.text) := rfl

theorem Condition.text_or (left right : Condition) :
    (Condition.or left right).text = left.text ++ (" OR ".toList ++ right.text) := rfl

/-! ### Conditions of joins -/

mutual

/-- The conditions of the joins of a query, at every level; a join without an ON has an empty
one. -/
def Query.ons : Query → List (List (ColumnPair fromFunctions))
  | .select _ _ items filter => items.ons ++ filter.ons
  | .union _ left right => left.ons ++ right.ons

def Items.ons : Items → List (List (ColumnPair fromFunctions))
  | .one source joins => source.ons ++ joins.ons
  | .more source joins rest => source.ons ++ (joins.ons ++ rest.ons)

def Joins.ons : Joins → List (List (ColumnPair fromFunctions))
  | .nil => []
  | .cons _ source on rest => on :: (source.ons ++ rest.ons)

def Source.ons : Source → List (List (ColumnPair fromFunctions))
  | .table _ => []
  | .derived query _ => query.ons

def Filter.ons : Filter → List (List (ColumnPair fromFunctions))
  | .none => []
  | .holds condition => condition.ons

def Condition.ons : Condition → List (List (ColumnPair fromFunctions))
  | .compare _ _ _ => []
  | .distinct _ _ => []
  | .within _ query => query.ons
  | .present query => query.ons
  | .and left right => left.ons ++ right.ons
  | .or left right => left.ons ++ right.ons

end

/-! ### Parts of queries -/

variable {s t : List Char} {ws vs : List (List Char)} {a b : List (List (ColumnPair fromFunctions))}

/-- Every ON among some words follows a JOIN. -/
def Late (ws : List (List Char)) : Prop :=
  ∀ us w vs, ws = us ++ w :: vs → spells "ON" w = true → ∃ j ∈ us, spells "JOIN" j = true

namespace Late

theorem of_forall (h : ∀ w ∈ ws, spells "ON" w = false) : Late ws := by
  rintro us w vs rfl hw
  rw [h w (by simp)] at hw
  contradiction

theorem append (hws : Late ws) (hvs : Late vs) : Late (ws ++ vs) := by
  intro us w rest hsplit hw
  rcases List.append_eq_append_iff.1 hsplit with ⟨more, rfl, hvs'⟩ | ⟨more, hws', hrest⟩
  · obtain ⟨j, hj, hjoin⟩ := hvs more w rest hvs' hw
    exact ⟨j, by simp [hj], hjoin⟩
  · cases more with
    | nil =>
      obtain ⟨j, hj, hjoin⟩ := hvs [] w rest (by simpa using hrest.symm) hw
      simp at hj
    | cons v more =>
      obtain ⟨rfl, -⟩ := List.cons.inj hrest
      exact hws us w more hws' hw

/-- Once a JOIN has come, all that follows does not matter. -/
theorem append_of_join (hws : Late ws) (hjoin : ∃ j ∈ ws, spells "JOIN" j = true) :
    Late (ws ++ vs) := by
  intro us w rest hsplit hw
  rcases List.append_eq_append_iff.1 hsplit with ⟨more, rfl, -⟩ | ⟨more, hws', hrest⟩
  · obtain ⟨j, hj, hspells⟩ := hjoin
    exact ⟨j, by simp [hj], hspells⟩
  · cases more with
    | nil =>
      obtain ⟨j, hj, hspells⟩ := hjoin
      exact ⟨j, by simpa [hws'] using hj, hspells⟩
    | cons v more =>
      obtain ⟨rfl, -⟩ := List.cons.inj hrest
      exact hws us w more hws' hw

theorem cons_join {w : List Char} (hw : spells "JOIN" w = true) : Late (w :: ws) := by
  intro us v vs hsplit hv
  cases us with
  | nil =>
    obtain ⟨rfl, -⟩ := List.cons.inj hsplit
    simp only [spells, beq_iff_eq] at hw hv
    exact absurd (hw.symm.trans hv) (by decide)
  | cons u us =>
    obtain ⟨rfl, -⟩ := List.cons.inj hsplit
    exact ⟨w, by simp, hw⟩

end Late

/-- The characters of queries: those of names, numbers and comparisons, commas and parentheses. -/
def isQueryChar (c : Char) : Bool := isFlat c || [',', '(', ')'].contains c

theorem isPlain_of_isQueryChar {c : Char} (h : isQueryChar c = true) (hword : isWordChar c = true) :
    isPlain c = true := by
  rcases Bool.or_eq_true_iff.1 h with hflat | hmark
  · rwa [← isWordChar_eq_isPlain hflat]
  · have hall : [',', '(', ')'].all (fun d => !isWordChar d) = true := by decide
    have hstop : isWordChar c = false := by
      simpa using List.all_eq_true.1 hall c (List.contains_iff_mem.1 hmark)
    rw [hstop] at hword
    contradiction

/-- No quote mark and no semicolon is among them. -/
theorem not_isQuote_of_isQueryChar {c : Char} (h : isQueryChar c = true) :
    isQuote c = false ∧ c ≠ ';' := by
  rcases Bool.or_eq_true_iff.1 h with hflat | hmark
  · have hbalanced : Balanced [c] := Flat.balanced (by simpa [Flat] using hflat)
    have hsemicolon : c ≠ ';' := by
      rintro rfl
      exact absurd hflat (by decide)
    refine ⟨?_, hsemicolon⟩
    rw [Bool.eq_false_iff]
    intro hquote
    have hopen : quoteAfter none [c] = some c := by simp [nextQuote, hquote]
    rw [hbalanced.quoteAfter] at hopen
    contradiction
  · have hall : [',', '(', ')'].all (fun d => !isQuote d && d != ';') = true := by decide
    simpa using List.all_eq_true.1 hall c (List.contains_iff_mem.1 hmark)

/-- A text of query characters without some words. -/
structure Without (ks : List String) (s : List Char) : Prop where
  chars : ∀ c ∈ s, isQueryChar c = true
  free : Free ks s

namespace Without

variable {ks : List String}

theorem of_lacks (h : Lacks ks s) : Without ks s :=
  ⟨fun c hc => by simp [isQueryChar, h.flat c hc], h.free⟩

theorem of_decide (h : (s.all isQueryChar && (words s).all fun w => !isOneOf ks w) = true) :
    Without ks s := by
  simp only [Bool.and_eq_true, List.all_eq_true, Bool.not_eq_eq_eq_not, Bool.not_true] at h
  exact ⟨h.1, h.2⟩

theorem append (hs : Without ks s) (ht : Without ks t) (h : Apart isWordChar s t) :
    Without ks (s ++ t) := by
  constructor
  · intro c hc
    rcases List.mem_append.1 hc with hc | hc
    · exact hs.chars c hc
    · exact ht.chars c hc
  · rw [Free, h.words_append]
    exact List.forall_mem_append.2 ⟨hs.free, ht.free⟩

/-- A keyword of capitals that is one of the words is spelled nowhere. -/
theorem spells {k : String} (h : Without ks s) (hk : k ∈ ks)
    (hupper : k.toList.all (fun c => c.isUpper || c == '_') = true) :
    ∀ w ∈ words s, spells k w = false := by
  intro w hw
  obtain ⟨b, a, rfl, hword⟩ := mem_words_iff.1 hw
  have hplain : ∀ c ∈ w, isPlain c = true := fun c hc =>
    isPlain_of_isQueryChar (h.chars c (by simp [hc])) (hword.chars c hc)
  rw [spells_eq_sameLetters hupper hplain]
  exact isOneOf_eq_false.1 (h.free w hw) k hk

end Without

/-! ### Pieces -/

/-- A piece of a query with the conditions of the joins in it. -/
structure Piece (s : List Char) (ons : List (List (ColumnPair fromFunctions))) : Prop where
  chars : ∀ c ∈ s, isQueryChar c = true
  late : Late (words s)
  joined : ons ≠ [] ↔ ∃ w ∈ words s, spells "JOIN" w = true

namespace Piece

theorem of_without (h : Without ["ON", "JOIN"] s) : Piece s [] := by
  refine ⟨h.chars, .of_forall (h.spells (by simp) (by decide)), iff_of_false (by simp) ?_⟩
  rintro ⟨w, hw, hjoin⟩
  rw [h.spells (by simp) (by decide) w hw] at hjoin
  contradiction

theorem of_lacks (h : Lacks ["ON", "JOIN"] s) : Piece s [] := of_without (.of_lacks h)

theorem nil : Piece [] [] := of_lacks .nil

theorem append (hs : Piece s a) (ht : Piece t b) (h : Apart isWordChar s t) :
    Piece (s ++ t) (a ++ b) := by
  refine ⟨fun c hc => ?_, ?_, ?_⟩
  · rcases List.mem_append.1 hc with hc | hc
    · exact hs.chars c hc
    · exact ht.chars c hc
  · rw [h.words_append]
    exact hs.late.append ht.late
  · have hside : a ++ b ≠ [] ↔ a ≠ [] ∨ b ≠ [] := by
      rw [ne_eq, List.append_eq_nil_iff, not_and_or]
    rw [h.words_append, hside, hs.joined, ht.joined]
    simp only [List.mem_append, or_and_right, exists_or]

/-- A query without a join holds no word JOIN. -/
theorem spells_eq_false (h : Piece s []) : ∀ w ∈ words s, spells "JOIN" w = false := by
  intro w hw
  by_contra hjoin
  exact h.joined.2 ⟨w, hw, by simpa using hjoin⟩ rfl

end Piece

/-- What ends in no word character is apart from all that may follow. -/
theorem apart_of_last (h : s.getLast?.all (fun c => !isWordChar c) = true) :
    Apart isWordChar s t := by
  intro c hc d _ hrun
  have hstop : isWordChar c = false := by simpa using (Option.all_eq_true _ _).1 h c hc
  rw [hstop] at hrun
  contradiction

theorem apart_of_border (h : Border t) : Apart isWordChar s t :=
  fun _ _ d hd _ => isWordChar_of_isBorder (h d hd)

theorem apart_cons {c : Char} (h : isBorder c = true) : Apart isWordChar s (c :: t) :=
  apart_of_border (border_cons.2 h)

/-- A word between two blanks. -/
theorem words_keyword {k : List Char} (hk : k ≠ [] ∧ k.all isWordChar = true) :
    words (s ++ ' ' :: (k ++ ' ' :: t)) = words s ++ k :: words t := by
  rw [words_append_cons (by decide), words_append_cons (by decide),
    words_word hk.1 (List.all_eq_true.1 hk.2)]
  rfl

/-! ### Select lists -/

theorem Query.Selected.without (s : Selected) : Without ["ON", "JOIN"] s.text := by
  have hcolumn : ∀ c : Column, Without ["ON", "JOIN"] c.text := fun c =>
    .of_lacks (c.lacks (List.Subset.trans (by decide) (List.subset_append_left _ _)))
  cases s with
  | star => exact .of_decide (by decide)
  | column c => exact hcolumn c
  | call f x c =>
    have hname : Without ["ON", "JOIN"] (f.name.toList ++ ['(']) := by
      cases f <;> exact .of_decide (by decide)
    have hopen : Apart isWordChar (f.name.toList ++ ['('])
        (x.text ++ (" FROM ".toList ++ (c.text ++ [')']))) := apart_of_last (by simp; decide)
    have hclose : Without ["ON", "JOIN"] (c.text ++ [')']) :=
      (hcolumn c).append (.of_decide (by decide)) (apart_cons (by decide))
    have hfrom : Without ["ON", "JOIN"] (" FROM ".toList ++ (c.text ++ [')'])) :=
      .append (.of_decide (by decide)) hclose (apart_of_last (by decide))
    have hargument := (hcolumn x).append hfrom (apart_cons (by decide))
    simpa [Selected.text] using hname.append hargument hopen

theorem selectText_without (first : Selected) (others : List Selected) :
    Without ["ON", "JOIN"] (selectText first others) := by
  induction others generalizing first with
  | nil => exact first.without
  | cons s others ih =>
    have hcomma : Without ["ON", "JOIN"] (", ".toList ++ selectText s others) :=
      .append (.of_decide (by decide)) (ih s) (apart_of_last (by decide))
    exact first.without.append hcomma (apart_cons (by decide))

/-! ### Queries -/

theorem joinParts_subset : ["ON", "JOIN"] ⊆ clauseWords ++ fromFunctions :=
  List.Subset.trans (by decide) (List.subset_append_left _ _)

theorem Query.columnPiece (c : Column) : Piece c.text [] := .of_lacks (c.lacks joinParts_subset)

/-- A word of the language goes before a piece, with blanks around it. -/
theorem Piece.lead (ht : Piece t b)
    (hs : (s.all isQueryChar && (words s).all fun w => !isOneOf ["ON", "JOIN"] w) = true)
    (hlast : s.getLast?.all (fun c => !isWordChar c) = true) : Piece (s ++ t) b :=
  (Piece.of_without (.of_decide hs)).append ht (apart_of_last hlast)

theorem Piece.parenthesized (hs : Piece s a) : Piece (parenthesized s) a := by
  have hclose : Piece (s ++ " )".toList) (a ++ []) :=
    hs.append (.of_without (.of_decide (by decide))) (apart_cons (by decide))
  rw [List.append_nil] at hclose
  exact hclose.lead (by decide) (by decide)

theorem Filter.border (f : Filter) : Border f.text := by
  cases f with
  | none => exact border_nil
  | holds condition => exact border_cons.2 (by decide)

mutual

theorem Query.piece : (q : Query) → Piece q.text q.ons
  | .select first others items filter => by
    have hlist : Piece (selectText first others) [] :=
      .of_without (selectText_without first others)
    have hitems : Piece (items.text ++ filter.text) (items.ons ++ filter.ons) :=
      items.piece.append filter.piece (apart_of_border filter.border)
    have hfrom := hitems.lead (s := " FROM ".toList) (by decide) (by decide)
    exact (hlist.append hfrom (apart_cons (by decide))).lead (by decide) (by decide)
  | .union all left right => by
    cases all
    · exact left.piece.append (right.piece.lead (by decide) (by decide)) (apart_cons (by decide))
    · exact left.piece.append (right.piece.lead (by decide) (by decide)) (apart_cons (by decide))

theorem Items.piece : (i : Items) → Piece i.text i.ons
  | .one source joins => source.piece.append joins.piece (apart_of_border joins.border)
  | .more source joins rest => by
    have hrest := rest.piece.lead (s := ", ".toList) (by decide) (by decide)
    have hjoins := joins.piece.append hrest (apart_cons (by decide))
    have hborder : Border (joins.text ++ (", ".toList ++ rest.text)) :=
      joins.border.append (border_cons.2 (by decide))
    exact source.piece.append hjoins (apart_of_border hborder)

theorem Joins.piece : (j : Joins) → Piece j.text j.ons
  | .nil => .nil
  | .cons kind source on rest => by
    have hlead : Without ["ON"] kind.lead := by cases kind <;> exact .of_decide (by decide)
    have hon : Lacks [] (onText on) :=
      onText_lacks (List.nil_subset _) (by decide) (by decide) on
    have hwords : words (Joins.cons kind source on rest).text = words kind.lead ++
        "JOIN".toList :: words (source.text ++ (onText on ++ rest.text)) :=
      words_keyword (k := "JOIN".toList) (by decide)
    have hjoin : Late ("JOIN".toList :: words (source.text ++ (onText on ++ rest.text))) :=
      .cons_join (by decide)
    refine ⟨?_, ?_, iff_of_true (List.cons_ne_nil _ _) ?_⟩
    · have hword : ∀ c ∈ " JOIN ".toList, isQueryChar c = true := List.all_eq_true.1 (by decide)
      have hcondition := (Without.of_lacks hon).chars
      simp only [Joins.text_cons, List.mem_append]
      rintro c (hc | hc | hc | hc | hc)
      · exact hlead.chars c hc
      · exact hword c hc
      · exact source.piece.chars c hc
      · exact hcondition c hc
      · exact rest.piece.chars c hc
    · rw [hwords]
      exact (Late.of_forall (hlead.spells (by simp) (by decide))).append hjoin
    · rw [hwords]
      exact ⟨_, List.mem_append_right _ List.mem_cons_self, by decide⟩

theorem Source.piece : (s : Source) → Piece s.text s.ons
  | .table item => .of_lacks (item.lacks joinParts_subset (by decide) (by decide))
  | .derived query calledAs => by
    have halias : Piece (' ' :: calledAs.text) [] :=
      .of_lacks (.cons (by decide) (calledAs.lacks joinParts_subset))
    have hall := query.piece.parenthesized.append halias (apart_cons (by decide))
    rwa [List.append_nil] at hall

theorem Filter.piece : (f : Filter) → Piece f.text f.ons
  | .none => .nil
  | .holds condition => condition.piece.lead (by decide) (by decide)

theorem Condition.piece : (c : Condition) → Piece c.text c.ons
  | .compare left op right => by
    have hop : Lacks ["ON", "JOIN"] op.text := by cases op <;> decide
    exact .of_lacks ((left.lacks_of joinParts_subset (by decide)).append_word hop
      (right.lacks_of joinParts_subset (by decide)))
  | .distinct left right =>
    (columnPiece left).append ((columnPiece right).lead (by decide) (by decide))
      (apart_cons (by decide))
  | .within column query =>
    (columnPiece column).append (query.piece.parenthesized.lead (by decide) (by decide))
      (apart_cons (by decide))
  | .present query => query.piece.parenthesized.lead (by decide) (by decide)
  | .and left right =>
    left.piece.append (right.piece.lead (by decide) (by decide)) (apart_cons (by decide))
  | .or left right =>
    left.piece.append (right.piece.lead (by decide) (by decide)) (apart_cons (by decide))

end

end Querent.Sql
