import Querent.Proofs.Guard.JoinSound
import Querent.Proofs.Query.Equality
import Querent.Proofs.Query.Words

/-! The joins of a query whose joins are accepted, at every level: each has a condition, and every
equality of qualified columns in it follows a foreign key. -/
namespace Querent

namespace Sql

open Text

variable {s t w b a : List Char} {ws vs : List (List Char)}

/-! ### The text behind a JOIN -/

/-- Every JOIN of a text is read with what stands behind it up to the next. -/
theorem mem_joins (h : WholeWord b w a) (hw : spells "JOIN" w = true) :
    readJoin (upTo (spells "JOIN") a) ∈ joins (b ++ (w ++ a)) := by
  induction b using word_induction (spells "JOIN") with
  | free b hb =>
    rw [joins_wholeWord h hw hb]
    exact List.mem_cons_self
  | found u v t hfound hv hu ih =>
    rw [List.append_assoc, List.append_assoc,
      joins_wholeWord (hfound.append_right h.apart_left) hv hu]
    exact List.mem_cons_of_mem _ (ih h.behind.behind)

/-- The words up to a cut, and what follows them. -/
theorem exists_words_upTo (p : List Char → Bool) (t : List Char) :
    ∃ vs, words t = words (upTo p t) ++ vs ∧ ∀ w ∈ words (upTo p t), p w = false := by
  cases hfind : findWord p t with
  | none =>
    refine ⟨[], ?_, ?_⟩
    · simp [upTo, hfind]
    · have hall := findWord_eq_none.1 hfind
      simpa [upTo, hfind] using hall
  | some f =>
    obtain ⟨b, hb, rfl, hwhole, -, hbefore⟩ := exists_of_findWord hfind
    have hcut : upTo p (b ++ (f.word ++ f.after)) = b := by
      rw [upTo, hfind]
      simp [hb]
    rw [hcut]
    exact ⟨f.word :: words f.after, hwhole.words_eq, hbefore⟩

/-! ### An equality in its place -/

/-- Neither a dot nor a parenthesis stands behind an item. -/
theorem ItemEnd.next (h : ItemEnd t) :
    (trimStart t).head?.all (fun c => c != '.' && c != '(') = true := by
  have hdot := h.afterDot
  have hopen := h.head?_trimStart
  rw [Option.all_eq_true]
  intro c hc
  have hnotDot : c ≠ '.' := by
    rintro rfl
    obtain ⟨rest, hrest⟩ := List.head?_eq_some_iff.1 hc
    rw [Sql.afterDot, hrest] at hdot
    contradiction
  have hnotOpen : c ≠ '(' := by
    rintro rfl
    exact hopen hc
  simp [hnotDot, hnotOpen]

namespace ColumnPair

variable {banned : List String} {e : ColumnPair banned} {es : List (ColumnPair banned)}

theorem endsPredicate_text (e : ColumnPair banned) :
    ∀ w ∈ words e.text, endsPredicate w = false := by
  have hlacks : Lacks (["JOIN"] ++ conditionEnds) e.text :=
    e.lacks (List.Subset.trans (by decide) (List.subset_append_left _ _))
  intro w hw
  have hplain := hlacks.flat.isPlain_of_mem_words hw
  have hnone := isOneOf_eq_false.1 (hlacks.free w hw)
  have hjoin : spells "JOIN" w = false := by
    rw [spells_eq_sameLetters (by decide) hplain]
    exact hnone "JOIN" (by simp)
  have hclause : isClauseWord w = false := by
    have hseeks : Seeks conditionEnds fun w => conditionEnds.any fun k => spells k w :=
      seeks_any (by decide)
    exact (hseeks w hplain).trans
      (isOneOf_eq_false.2 fun k hk => hnone k (List.mem_append_right _ hk))
  simp [endsPredicate, hjoin, hclause]

/-- Behind a word and a blank, an equality of a condition stands behind that word or behind an AND,
and an item could end behind it. -/
theorem exists_place {e f : ColumnPair banned} {k : List Char} (he : e ∈ f :: es)
    (hk : k ≠ [] ∧ k.all isPlain = true) :
    ∃ front back, k ++ ' ' :: conjunction f es = front ++ ' ' :: (e.text ++ back) ∧
      (∃ u c, front = u ++ [c] ∧ isPlain c = true) ∧
      (∃ ws, words front = k :: ws ∧ ∀ w ∈ ws, endsPredicate w = false) ∧
      ∀ t, ItemEnd t → ItemEnd (back ++ t) := by
  have hplain := List.all_eq_true.1 hk.2
  have hwords : words k = [k] := words_word hk.1 fun c hc => isWordChar_of_isPlain (hplain c hc)
  have hlast : ∃ u c, k = u ++ [c] ∧ isPlain c = true := by
    obtain ⟨u, c, hu⟩ := (List.eq_nil_or_concat k).resolve_left hk.1
    rw [List.concat_eq_append] at hu
    exact ⟨u, c, hu, hplain c (by simp [hu])⟩
  induction es generalizing f k with
  | nil =>
    obtain rfl := List.mem_singleton.1 he
    exact ⟨k, [], by simp [conjunction], hlast, ⟨[], hwords, by simp⟩, fun t ht => ht⟩
  | cons e' es ih =>
    rcases List.mem_cons.1 he with rfl | he
    · refine ⟨k, " AND ".toList ++ conjunction e' es, rfl, hlast, ⟨[], hwords, by simp⟩,
        fun t _ => ?_⟩
      rw [List.append_assoc]
      exact .ofKeyword (k := "AND") (border_cons.2 (by decide)) (by decide)
    · have hand : "AND".toList ≠ [] ∧ "AND".toList.all isPlain = true := by decide
      obtain ⟨front, back, hfront, ⟨u, c, rfl, hc⟩, ⟨ws, hws, hfree⟩, hend⟩ :=
        ih he hand (List.all_eq_true.1 hand.2) (by decide) ⟨['A', 'N'], 'D', rfl, by decide⟩
      refine ⟨k ++ ' ' :: (f.text ++ ' ' :: (u ++ [c])), back, ?_, ?_, ?_, hend⟩
      · have htext : conjunction f (e' :: es) =
            f.text ++ ' ' :: ("AND".toList ++ ' ' :: conjunction e' es) := rfl
        rw [htext, hfront]
        simp
      · exact ⟨k ++ ' ' :: (f.text ++ ' ' :: u), c, by simp, hc⟩
      · have hblank : isWordChar ' ' = false := by decide
        refine ⟨words f.text ++ "AND".toList :: ws, ?_, ?_⟩
        · rw [words_append_cons hblank, words_append_cons hblank, hwords, hws]
          rfl
        · have hfirst : endsPredicate "AND".toList = false := by decide
          simp only [List.mem_append, List.mem_cons]
          rintro w (hw | rfl | hw)
          · exact f.endsPredicate_text w hw
          · exact hfirst
          · exact hfree w hw

end ColumnPair

end Sql

namespace Guard

open Text Sql

variable {banned : List String} {keys : List ForeignKey} {refs : List TableRef}
  {e : ColumnPair banned} {on : List (ColumnPair banned)} {pre source a more : List Char}

/-! ### A join in its place -/

private theorem append_keyword (pre a : List Char) (k : List Char) :
    pre ++ ' ' :: (k ++ ' ' :: a) = (pre ++ [' ']) ++ (k ++ (' ' :: a)) := by simp

/-- Behind a JOIN of an accepted text there is an ON before the next JOIN. -/
theorem not_late_of_join (h : checkJoins keys refs (pre ++ (" JOIN ".toList ++ a)) = .ok ()) :
    ¬ Late (words a) := by
  intro hlate
  have htext : pre ++ (" JOIN ".toList ++ a) =
      (pre ++ [' ']) ++ ("JOIN".toList ++ (' ' :: a)) := append_keyword pre a "JOIN".toList
  have hwhole : WholeWord (pre ++ [' ']) "JOIN".toList (' ' :: a) := by
    refine ⟨by decide, List.all_eq_true.1 (by decide), fun c hc => ?_, fun c hc => ?_⟩
    · obtain rfl : ' ' = c := by simpa using hc
      decide
    · obtain rfl : ' ' = c := by simpa using hc
      decide
  have hread := mem_joins hwhole (by decide)
  rw [← htext] at hread
  have hpass : ConditionPasses keys refs (readJoin (upTo (spells "JOIN") (' ' :: a))).condition :=
    checkJoins_eq_ok.1 h _ (List.mem_map_of_mem hread)
  obtain ⟨vs, hvs, hjoin⟩ := exists_words_upTo (spells "JOIN") (' ' :: a)
  rw [words_cons (by decide)] at hvs
  cases hfind : findWord (spells "ON") (upTo (spells "JOIN") (' ' :: a)) with
  | none =>
    have hnone : (readJoin (upTo (spells "JOIN") (' ' :: a))).condition = none := by
      rw [readJoin, hfind]
    rw [hnone] at hpass
    exact hpass.ne_nil rfl
  | some f =>
    obtain ⟨b, -, hsegment, hwholeOn, hon, -⟩ := exists_of_findWord hfind
    have hwords : words a = words b ++ f.word :: (words f.after ++ vs) := by
      rw [hvs, hsegment, hwholeOn.words_eq]
      simp
    obtain ⟨j, hj, hjoins⟩ := hlate (words b) f.word _ hwords hon
    have hmem : j ∈ words (upTo (spells "JOIN") (' ' :: a)) := by
      rw [hsegment, hwholeOn.words_eq]
      exact List.mem_append_left _ hj
    rw [hjoin j hmem] at hjoins
    contradiction

/-- Behind a JOIN, a table without JOIN and ON, and an ON, the text is in the condition. -/
theorem phaseOf_on {front : List Char} {ws : List (List Char)}
    (hsource : ∀ w ∈ words source, spells "JOIN" w = false ∧ spells "ON" w = false)
    (hfront : words front = "ON".toList :: ws) (hws : ∀ w ∈ ws, endsPredicate w = false) :
    phaseOf (pre ++ (" JOIN ".toList ++ (source ++ ' ' :: (front ++ [' '])))) = .condition := by
  have hblank : isWordChar ' ' = false := by decide
  have hwords : words (pre ++ (" JOIN ".toList ++ (source ++ ' ' :: (front ++ [' '])))) =
      words pre ++ "JOIN".toList :: (words source ++ "ON".toList :: ws) := by
    have hrest : words (source ++ ' ' :: (front ++ [' '])) = words source ++ "ON".toList :: ws := by
      rw [words_append_cons hblank, words_append_cons hblank, words_nil, List.append_nil, hfront]
    rw [← hrest]
    exact words_keyword (k := "JOIN".toList) (by decide)
  have hopen : Phase.next .target "ON".toList = .condition := by decide
  have hjoin : ∀ ph : Phase, ph.next "JOIN".toList = .target := fun _ => if_pos (by decide)
  have hfree : ws.any isClauseWord = false := by
    rw [List.any_eq_false]
    intro w hw
    simp [not_clause (hws w hw)]
  rw [phaseOf, hwords, phaseFrom_append, phaseFrom_cons, hjoin, phaseFrom_append,
    phaseFrom_target (fun w hw => (hsource w hw).1) fun w hw => (hsource w hw).2, phaseFrom_cons,
    hopen, phaseFrom_condition fun w hw => not_join (hws w hw), hfree]
  rfl

/-- What a text without quote marks ends in is the word before it and its last blank. -/
private theorem trimEnd_plain {u : List Char} {c : Char} (hc : isPlain c = true) :
    trimEnd (u ++ [c, ' ']) = u ++ [c] := by
  have hlast : ∀ d ∈ (u ++ [c]).getLast?, isBlank d = false := by
    intro d hd
    rw [List.getLast?_concat] at hd
    rw [← Option.some.inj hd]
    exact isBlank_of_isPlain hc
  have hnil : trimEnd [' '] = [] := by decide
  have happend := trimEnd_append (t := [' ']) hlast
  rwa [hnil, List.append_nil, List.append_assoc] at happend

/-- An equality behind a word and a blank, before what can end an item, as a comparison. -/
def comparisonBehind {s u after : List Char} {c : Char} {left right : List Ident}
    (hs : s = (u ++ [c, ' ']) ++ (e.text ++ after)) (hcompared : Compared e.text left right)
    (hquote : ∀ d ∈ u ++ [c, ' '], isQuote d = false) (hc : isPlain c = true)
    (hafter : ItemEnd after) : Comparison s where
  head := u ++ [c, ' ']
  text := e.text
  after := after
  left := left
  right := right
  parts := hs
  compared := hcompared
  outside := quoteAfter_of_not_isQuote (by simp) hquote
  apart_head := by
    refine fun d hd _ _ hrun => ?_
    obtain rfl : ' ' = d := by simpa using hd
    exact absurd hrun (by decide)
  apart_after := fun _ _ d hd _ => inName_of_isBorder (hafter.border d hd)
  last := by
    have hmarks : c ≠ '.' ∧ c ≠ '=' :=
      forall_isPlain (P := fun c => c ≠ '.' ∧ c ≠ '=') (by decide) hc
    rw [trimEnd_plain hc, List.getLast?_concat]
    simpa using hmarks
  next := hafter.next

/-- In a text without quote marks an equality of qualified columns is read where a condition has got
to with a word before it, if an item could end behind it. -/
theorem exists_read {s u after : List Char} {c : Char}
    (hs : s = (u ++ [c, ' ']) ++ (e.text ++ after)) (hquote : ∀ d ∈ s, isQuote d = false)
    (hc : isPlain c = true) (hphase : phaseOf (u ++ [c, ' ']) = .condition) (hafter : ItemEnd after)
    (h : e.Qualified) :
    ∃ comparison : Comparison s, comparison.Read ∧
      comparison.equality = e.equality := by
  obtain ⟨left, right, hcompared, hlatin, hleft, hright⟩ := ColumnPair.exists_compared h
  have hhead : ∀ d ∈ u ++ [c, ' '], isQuote d = false := fun d hd =>
    hquote d (by rw [hs]; exact List.mem_append_left _ hd)
  have hkeep : ∀ d ∈ (u ++ [c, ' ']) ++ (e.text ++ predicateText after), isQuote d = false := by
    have hfront : predicateText after <+: after := upTo_isPrefix.trans upTo_isPrefix
    intro d hd
    apply hquote
    rw [hs]
    simp only [List.mem_append] at hd ⊢
    rcases hd with hd | hd | hd
    · exact .inl hd
    · exact .inr (.inl hd)
    · exact .inr (.inr (hfront.subset hd))
  refine ⟨comparisonBehind hs hcompared hhead hc hafter, ⟨hphase, e.endsPredicate_text, hlatin, ?_⟩,
    ?_⟩
  · exact ⟨[], u ++ [c, ' '], rfl, .nil_left, by decide, keepsStep_of_not_isQuote hkeep⟩
  · exact congrArg₂ Equality.mk hleft hright

/-- An equality in the condition of a join follows a foreign key if no JOIN and no ON stands between
the join and its own ON. -/
theorem declared_of_on {s : List Char} (h : checkJoins keys refs s = .ok ())
    (hs : s = pre ++ (" JOIN ".toList ++ (source ++ (onText on ++ more))))
    (hquote : ∀ c ∈ s, isQuote c = false)
    (hsource : ∀ w ∈ words source, spells "JOIN" w = false ∧ spells "ON" w = false)
    (hmore : ItemEnd more) (he : e ∈ on) (hqualified : e.Qualified) :
    Declared keys refs e.left.names e.right.names := by
  obtain ⟨f, es, rfl⟩ := List.exists_cons_of_ne_nil (List.ne_nil_of_mem he)
  have hword : "ON".toList ≠ [] ∧ "ON".toList.all isPlain = true := by decide
  obtain ⟨front, back, hplace, ⟨u, c, rfl, hc⟩, ⟨ws, hwords, hws⟩, hend⟩ :=
    ColumnPair.exists_place he hword
  have hphase : phaseOf (pre ++ (" JOIN ".toList ++ (source ++ ' ' :: ((u ++ [c]) ++ [' '])))) =
      .condition := phaseOf_on hsource hwords hws
  have hhead : pre ++ (" JOIN ".toList ++ (source ++ ' ' :: ((u ++ [c]) ++ [' ']))) =
      (pre ++ (" JOIN ".toList ++ (source ++ ' ' :: u))) ++ [c, ' '] := by simp
  have hparts : s = ((pre ++ (" JOIN ".toList ++ (source ++ ' ' :: u))) ++ [c, ' ']) ++
      (e.text ++ (back ++ more)) := by
    have hon : onText (f :: es) = ' ' :: ("ON".toList ++ ' ' :: conjunction f es) := rfl
    rw [hs, hon, hplace]
    simp
  rw [hhead] at hphase
  obtain ⟨comparison, hread, hequality⟩ :=
    exists_read hparts hquote hc hphase (hend more hmore) hqualified
  have hdeclared := declared_of_read h hread
  rw [Comparison.Declared, hequality] at hdeclared
  exact hdeclared

/-! ### Queries -/

/-- The condition of a join is there, and its equalities of qualified columns follow foreign
keys. -/
structure FollowsKeys (keys : List ForeignKey) (refs : List TableRef)
    (on : List (ColumnPair banned)) : Prop where
  ne_nil : on ≠ []
  declared : ∀ e ∈ on, e.Qualified → Declared keys refs e.left.names e.right.names

/-- All conditions of joins do. -/
def AllFollow (keys : List ForeignKey) (refs : List TableRef)
    (ons : List (List (ColumnPair banned))) : Prop := ∀ on ∈ ons, FollowsKeys keys refs on

theorem AllFollow.append {ons ons' : List (List (ColumnPair banned))}
    (h : AllFollow keys refs ons) (h' : AllFollow keys refs ons') :
    AllFollow keys refs (ons ++ ons') := List.forall_mem_append.2 ⟨h, h'⟩

theorem AllFollow.nil : AllFollow keys refs ([] : List (List (ColumnPair banned))) := by
  simp [AllFollow]

/-- What is joined holds no join, as far as the joins are accepted. -/
theorem source_without {a : List (List (ColumnPair fromFunctions))} {s rest : List Char}
    (h : checkJoins keys refs s = .ok ())
    (hs : s = pre ++ (" JOIN ".toList ++ (source ++ rest))) (hsource : Piece source a)
    (hborder : Border rest) :
    a = [] ∧ ∀ w ∈ words source, spells "JOIN" w = false ∧ spells "ON" w = false := by
  have hjoin : ∀ w ∈ words source, spells "JOIN" w = false := by
    by_contra hsome
    push Not at hsome
    obtain ⟨j, hj, hspells⟩ := hsome
    refine not_late_of_join (hs ▸ h) ?_
    rw [(apart_of_border hborder).words_append]
    exact hsource.late.append_of_join ⟨j, hj, by simpa using hspells⟩
  constructor
  · by_contra hne
    obtain ⟨w, hw, hspells⟩ := hsource.joined.1 hne
    rw [hjoin w hw] at hspells
    contradiction
  · intro w hw
    refine ⟨hjoin w hw, ?_⟩
    by_contra hon
    obtain ⟨us, vs, hsplit⟩ := List.append_of_mem hw
    obtain ⟨j, hj, hspells⟩ := hsource.late us w vs hsplit (by simpa using hon)
    rw [hjoin j (by simp [hsplit, hj])] at hspells
    contradiction

end Guard

namespace Sql

open Text Query Guard

variable {keys : List ForeignKey} {refs : List TableRef} {s : List Char}

/-- A parenthesis closes before a piece. -/
theorem Piece.close {post : List Char} {b : List (List (ColumnPair fromFunctions))}
    (hpost : Piece post b) (hend : Border post) : Piece (" )".toList ++ post) b :=
  (Piece.of_without (.of_decide (by decide))).append hpost (apart_of_border hend)

mutual

/-- In its place in an accepted text a query has joins that follow foreign keys. -/
theorem Query.follows (h : checkJoins keys refs s = .ok ())
    (hquote : ∀ c ∈ s, isQuote c = false) {pre post : List Char}
    {b : List (List (ColumnPair fromFunctions))} (hend : ListEnd post) (hpost : Piece post b) :
    (q : Query) → s = pre ++ (q.text ++ post) → AllFollow keys refs q.ons
  | .select first others items filter, hs => by
    have hitems : s = (pre ++ ("SELECT ".toList ++ (selectText first others ++ " FROM ".toList))) ++
        (items.text ++ (filter.text ++ post)) := by
      rw [hs, Query.text_select]
      simp only [List.append_assoc]
    have hfilter : s = (pre ++ ("SELECT ".toList ++ (selectText first others ++
        (" FROM ".toList ++ items.text)))) ++ (filter.text ++ post) := by
      rw [hs, Query.text_select]
      simp only [List.append_assoc]
    have hrest : Piece (filter.text ++ post) (filter.ons ++ b) :=
      filter.piece.append hpost (apart_of_border hend.border)
    exact (items.follows h hquote (filter.listEnd hend).item hrest hitems).append
      (filter.follows h hquote hend.border hpost hfilter)
  | .union all left right, hs => by
    have hleft : s = pre ++ (left.text ++
        (((if all then " UNION ALL ".toList else " UNION ".toList) ++ right.text) ++ post)) := by
      rw [hs, Query.text_union]
      simp only [List.append_assoc]
    have hright : s = (pre ++ (left.text ++
        (if all then " UNION ALL ".toList else " UNION ".toList))) ++ (right.text ++ post) := by
      rw [hs, Query.text_union]
      simp only [List.append_assoc]
    have hrest : Piece (((if all then " UNION ALL ".toList else " UNION ".toList) ++ right.text) ++
        post) (right.ons ++ b) := by
      cases all <;>
        exact (right.piece.lead (by decide) (by decide)).append hpost (apart_of_border hend.border)
    exact (left.follows h hquote (.ofUnion all) hrest hleft).append
      (right.follows h hquote hend hpost hright)

theorem Items.follows (h : checkJoins keys refs s = .ok ())
    (hquote : ∀ c ∈ s, isQuote c = false) {pre post : List Char}
    {b : List (List (ColumnPair fromFunctions))} (hend : ItemEnd post) (hpost : Piece post b) :
    (i : Items) → s = pre ++ (i.text ++ post) → AllFollow keys refs i.ons
  | .one source joins, hs => by
    have hsource : s = pre ++ (source.text ++ (joins.text ++ post)) := by
      simp only [hs, Items.text_one, List.append_assoc]
    have hjoins : s = (pre ++ source.text) ++ (joins.text ++ post) := by
      simp only [hs, Items.text_one, List.append_assoc]
    have hrest := joins.piece.append hpost (apart_of_border hend.border)
    exact (source.follows h hquote (joins.border.append hend.border) hrest hsource).append
      (joins.follows h hquote hend hpost hjoins)
  | .more source joins rest, hs => by
    have hsource : s = pre ++ (source.text ++
        (joins.text ++ (", ".toList ++ (rest.text ++ post)))) := by
      simp only [hs, Items.text_more, List.append_assoc]
    have hjoins : s = (pre ++ source.text) ++
        (joins.text ++ (", ".toList ++ (rest.text ++ post))) := by
      simp only [hs, Items.text_more, List.append_assoc]
    have hitems : s = (pre ++ (source.text ++ (joins.text ++ ", ".toList))) ++
        (rest.text ++ post) := by
      simp only [hs, Items.text_more, List.append_assoc]
    have hcomma : Piece (", ".toList ++ (rest.text ++ post)) (rest.ons ++ b) :=
      (rest.piece.append hpost (apart_of_border hend.border)).lead (by decide) (by decide)
    have hrest := joins.piece.append hcomma (apart_cons (by decide))
    have hborder : Border (joins.text ++ (", ".toList ++ (rest.text ++ post))) :=
      joins.border.append (border_cons.2 (by decide))
    exact (source.follows h hquote hborder hrest hsource).append
      ((joins.follows h hquote .comma hcomma hjoins).append
        (rest.follows h hquote hend hpost hitems))

theorem Joins.follows (h : checkJoins keys refs s = .ok ())
    (hquote : ∀ c ∈ s, isQuote c = false) {pre post : List Char}
    {b : List (List (ColumnPair fromFunctions))} (hend : ItemEnd post) (hpost : Piece post b) :
    (j : Joins) → s = pre ++ (j.text ++ post) → AllFollow keys refs j.ons
  | .nil, _ => .nil
  | .cons kind source on rest, hs => by
    have hjoin : s = (pre ++ kind.lead) ++
        (" JOIN ".toList ++ (source.text ++ (onText on ++ (rest.text ++ post)))) := by
      simp only [hs, Joins.text_cons, List.append_assoc]
    have hrest : s = (pre ++ (kind.lead ++ (" JOIN ".toList ++ (source.text ++ onText on)))) ++
        (rest.text ++ post) := by
      simp only [hs, Joins.text_cons, List.append_assoc]
    have hitem : ItemEnd (rest.text ++ post) := rest.itemEnd hend
    have hborder : Border (onText on ++ (rest.text ++ post)) :=
      (onText_border on).append hitem.border
    obtain ⟨hnone, hsource⟩ := source_without h hjoin source.piece hborder
    have hne : on ≠ [] := by
      rintro rfl
      have hlate := source.piece.append (rest.piece.append hpost (apart_of_border hend.border))
        (apart_of_border hitem.border)
      exact not_late_of_join (hjoin ▸ h) hlate.late
    have hfollows : FollowsKeys keys refs on :=
      ⟨hne, fun e he hq => declared_of_on h hjoin hquote hsource hitem he hq⟩
    rw [Joins.ons, hnone]
    exact List.forall_mem_cons.2 ⟨hfollows, rest.follows h hquote hend hpost hrest⟩

theorem Source.follows (h : checkJoins keys refs s = .ok ())
    (hquote : ∀ c ∈ s, isQuote c = false) {pre post : List Char}
    {b : List (List (ColumnPair fromFunctions))} (hend : Border post) (hpost : Piece post b) :
    (r : Source) → s = pre ++ (r.text ++ post) → AllFollow keys refs r.ons
  | .table item, _ => .nil
  | .derived query calledAs, hs => by
    have hquery : s = (pre ++ "( ".toList) ++
        (query.text ++ (" )".toList ++ (' ' :: (calledAs.text ++ post)))) := by
      simp only [hs, Source.text_derived, parenthesized, List.append_assoc, List.cons_append]
    have hname : Piece calledAs.text [] := .of_lacks (calledAs.lacks joinParts_subset)
    have halias : Piece (' ' :: (calledAs.text ++ post)) b :=
      (hname.append hpost (apart_of_border hend)).lead (s := [' ']) (by decide) (by decide)
    exact query.follows h hquote .close (halias.lead (by decide) (by decide)) hquery

theorem Filter.follows (h : checkJoins keys refs s = .ok ())
    (hquote : ∀ c ∈ s, isQuote c = false) {pre post : List Char}
    {b : List (List (ColumnPair fromFunctions))} (hend : Border post) (hpost : Piece post b) :
    (f : Filter) → s = pre ++ (f.text ++ post) → AllFollow keys refs f.ons
  | .none, _ => .nil
  | .holds condition, hs => by
    have hcondition : s = (pre ++ " WHERE ".toList) ++ (condition.text ++ post) := by
      simp only [hs, Filter.text_holds, List.append_assoc]
    exact condition.follows h hquote hend hpost hcondition

theorem Condition.follows (h : checkJoins keys refs s = .ok ())
    (hquote : ∀ c ∈ s, isQuote c = false) {pre post : List Char}
    {b : List (List (ColumnPair fromFunctions))} (hend : Border post) (hpost : Piece post b) :
    (c : Condition) → s = pre ++ (c.text ++ post) → AllFollow keys refs c.ons
  | .compare _ _ _, _ => .nil
  | .distinct _ _, _ => .nil
  | .within column query, hs => by
    have hquery : s = (pre ++ (column.text ++ (" IN ".toList ++ "( ".toList))) ++
        (query.text ++ (" )".toList ++ post)) := by
      simp only [hs, Condition.text_within, parenthesized, List.append_assoc]
    exact query.follows h hquote .close (hpost.close hend) hquery
  | .present query, hs => by
    have hquery : s = (pre ++ ("EXISTS ".toList ++ "( ".toList)) ++
        (query.text ++ (" )".toList ++ post)) := by
      simp only [hs, Condition.text_present, parenthesized, List.append_assoc]
    exact query.follows h hquote .close (hpost.close hend) hquery
  | .and left right, hs => by
    have hleft : s = pre ++ (left.text ++ (" AND ".toList ++ (right.text ++ post))) := by
      simp only [hs, Condition.text_and, List.append_assoc]
    have hright : s = (pre ++ (left.text ++ " AND ".toList)) ++ (right.text ++ post) := by
      simp only [hs, Condition.text_and, List.append_assoc]
    have hrest : Piece (" AND ".toList ++ (right.text ++ post)) (right.ons ++ b) :=
      (right.piece.append hpost (apart_of_border hend)).lead (by decide) (by decide)
    exact (left.follows h hquote (border_cons.2 (by decide)) hrest hleft).append
      (right.follows h hquote hend hpost hright)
  | .or left right, hs => by
    have hleft : s = pre ++ (left.text ++ (" OR ".toList ++ (right.text ++ post))) := by
      simp only [hs, Condition.text_or, List.append_assoc]
    have hright : s = (pre ++ (left.text ++ " OR ".toList)) ++ (right.text ++ post) := by
      simp only [hs, Condition.text_or, List.append_assoc]
    have hrest : Piece (" OR ".toList ++ (right.text ++ post)) (right.ons ++ b) :=
      (right.piece.append hpost (apart_of_border hend)).lead (by decide) (by decide)
    exact (left.follows h hquote (border_cons.2 (by decide)) hrest hleft).append
      (right.follows h hquote hend hpost hright)

end

end Sql

end Querent
