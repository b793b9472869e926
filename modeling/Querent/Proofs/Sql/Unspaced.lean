import Mathlib.Data.List.Forall2
import Querent.Proofs.Sql.Condition
import Querent.Proofs.Sql.Gap
import Querent.Proofs.Sql.Normalized
import Querent.Proofs.Sql.Qualified

/-! A FROM or a JOIN before a quoted name, with white space between the two and without it: what is found
of the statement in the one case and in the other. -/
namespace Querent.Sql

open Text

variable {q : Quoted} {b w a s t u v x before before' : List Char} {m c : Char} {d : Dialect}
  {opens opens' : List (List Char)} {quote : Option Char}

/-- Every FROM and JOIN of a text that stands before white space stands outside quotes. `quote` is the
mark of the quotes that are open in front of the text. -/
def Outside (quote : Option Char) (s : List Char) : Prop :=
  ∀ b w a, s = b ++ (w ++ a) → WholeWord b w a → namesTables w = true →
    a.head?.any isBlank = true → quoteAfter quote b = none

/-! ### The words before a place -/

/-- The word before a place is told from what stands behind a mark. -/
theorem lastWord_append_mark (hm : isNameQuote m = true) :
    lastWord (s ++ m :: x) = lastWord (m :: x) := by
  have hblank : isBlank m = false := isBlank_of_isNameQuote hm
  have hletter : (isLetterOrNumber m || m == '_') = false :=
    forall_isBorder (P := fun c => (isLetterOrNumber c || c == '_') = false) (by decide)
      (isBorder_of_isNameQuote hm)
  have hword (r : List Char) : trailingWord (trimStart (x.reverse ++ m :: r)) =
      trailingWord (trimStart x.reverse) := by
    rw [trimStart_append (by simpa using hblank)]
    exact (span_append fun _ => by simpa using hletter).1
  have hrev (r : List Char) : (r ++ m :: x).reverse = x.reverse ++ m :: r.reverse := by simp
  have hnil : (m :: x).reverse = x.reverse ++ [m] := by simp
  rw [lastWord, lastWord, hrev, hnil, hword, hword]

/-- The words before the parentheses that are open behind a text, if those at its start and those before
any part of it are known. -/
theorem openFrom_lastWord
    (hopens : List.Forall₂ (fun y y' => lastWord y.reverse = lastWord y'.reverse) opens opens')
    (hbefore : ∀ z, lastWord (z ++ before).reverse = lastWord (z ++ before').reverse) :
    List.Forall₂ (fun y y' => lastWord y.reverse = lastWord y'.reverse)
      (openFrom opens quote before s) (openFrom opens' quote before' s) := by
  induction s generalizing opens opens' quote before before' with
  | nil => exact hopens
  | cons c s ih =>
    have hnext : ∀ z, lastWord (z ++ c :: before).reverse = lastWord (z ++ c :: before').reverse :=
      fun z => by simpa using hbefore (z ++ [c])
    simp only [openFrom]
    refine ih ?_ hnext
    split
    · exact hopens
    split
    · exact .cons (hbefore []) hopens
    split
    · cases hopens with
      | nil => exact .nil
      | cons _ hrest => exact hrest
    · exact hopens

/-- Whether a FROM further on opens a clause has nothing to do with the white space. -/
theorem opensClause_gap (hs : quoteAfter none s = none) :
    opensClause (s ++ (q.gap ++ q.mark :: x)).reverse = opensClause (s ++ q.mark :: x).reverse := by
  have hmark : q.mark ≠ '(' ∧ q.mark ≠ ')' := by
    constructor <;> (intro h; exact absurd (h ▸ q.isMark) (by decide))
  have hopens (r : List Char) (hr : ∀ c ∈ r, isBlank c = true) :
      openFrom [] none [] (s ++ (r ++ q.mark :: x)) =
        openFrom (openFrom [] none [] s) (nextQuote none q.mark)
          (q.mark :: (r.reverse ++ s.reverse)) x := by
    have hquote : quoteAfter none r = none :=
      quoteAfter_of_not_isQuote (by simp) fun c hc => isQuote_of_isBlank (hr c hc)
    rw [openFrom_append, openFrom_append, hs, hquote, openFrom_blanks hr, List.append_nil]
    simp [openFrom, hmark]
  have hwords : List.Forall₂ (fun y y' => lastWord y.reverse = lastWord y'.reverse)
      (openFrom [] none [] (s ++ (q.gap ++ q.mark :: x))) (openFrom [] none [] (s ++ q.mark :: x)) := by
    rw [hopens q.gap q.blank]
    have htight := hopens [] (by simp)
    rw [List.nil_append] at htight
    rw [htight]
    refine openFrom_lastWord (List.forall₂_same.2 fun _ _ => rfl) fun z => ?_
    have hbehind (r : List Char) : (z ++ q.mark :: r).reverse = r.reverse ++ q.mark :: z.reverse := by
      simp
    rw [hbehind, hbehind, lastWord_append_mark q.isMark, lastWord_append_mark q.isMark]
  have hassoc : s ++ (q.gap ++ q.mark :: x) = (s ++ q.gap) ++ q.mark :: x := by simp
  rw [Bool.eq_iff_iff, opensClause_eq_true, opensClause_eq_true]
  refine and_congr ?_ ?_
  · rw [hassoc, lastWord_append_mark q.isMark, lastWord_append_mark q.isMark]
  · unfold innermostOpen
    generalize openFrom [] none [] (s ++ (q.gap ++ q.mark :: x)) = ys at hwords
    generalize openFrom [] none [] (s ++ q.mark :: x) = ys' at hwords
    cases hwords with
    | nil => exact Iff.rfl
    | cons hfirst _ => simp [hfirst]

/-! ### The tables behind a place -/

/-- The tables behind a place depend on the text before it by the FROMs that open clauses. -/
theorem tablesFrom_before (h : ∀ x : List Char, opensClause (x ++ before) = opensClause (x ++ before')) :
    tablesFrom d before t = tablesFrom d before' t := by
  induction t using word_induction namesTables generalizing before before' with
  | free t hnone => rw [tablesFrom_of_free hnone, tablesFrom_of_free hnone]
  | found u v t hfound hv hu ih =>
    have hrest : tablesFrom d (v.reverse ++ (u.reverse ++ before)) t =
        tablesFrom d (v.reverse ++ (u.reverse ++ before')) t :=
      ih fun x => by simpa using h (x ++ (v.reverse ++ u.reverse))
    rw [tablesFrom_wholeWord hfound hv hu, tablesFrom_wholeWord hfound hv hu, h, hrest]

theorem tablesFrom_borders (hs : ∀ c ∈ s, isWordChar c = false) :
    tablesFrom d before (s ++ t) = tablesFrom d (s.reverse ++ before) t := by
  induction s generalizing before with
  | nil => rfl
  | cons c s ih =>
    obtain ⟨hc, hs⟩ := List.forall_mem_cons.1 hs
    rw [List.cons_append, tablesFrom_cons hc, ih hs]
    simp

/-- Behind the quoted name the same tables are found. -/
theorem tablesFrom_quoted (hs : quoteAfter none s = none) :
    tablesFrom d s.reverse q.spaced = tablesFrom d s.reverse q.tight := by
  have hmark : isWordChar q.mark = false := isWordChar_of_isBorder (isBorder_of_isNameQuote q.isMark)
  have hgap : ∀ c ∈ q.gap, isWordChar c = false := fun c hc => isWordChar_of_isBlank (q.blank c hc)
  rw [Quoted.spaced, tablesFrom_borders hgap, Quoted.tight, tablesFrom_cons hmark,
    tablesFrom_cons hmark]
  refine tablesFrom_before fun x => ?_
  have hopens := opensClause_gap (q := q) (x := x.reverse) hs
  simpa using hopens

/-! ### The tables of a statement -/

theorem Outside.behind (h : Outside quote (b ++ (w ++ a))) (hword : WholeWord b w a) :
    Outside (quoteAfter quote (b ++ w)) a := by
  rintro b' w' a' rfl hword' hnames hblank
  have hwhole := h (b ++ (w ++ b')) w' a' (by simp) (hword'.behind_word hword) hnames hblank
  rwa [← List.append_assoc, quoteAfter_append] at hwhole

/-- The tables that a FROM or a JOIN before a quoted name brings in. -/
def namedBy (d : Dialect) (before w : List Char) (q : Quoted) : List TableRef :=
  if !sameLetters w "FROM".toList || opensClause before then
    readItems d (sameLetters w "FROM".toList) q.tight
  else []

theorem namesTables_iff : namesTables w = true ↔ spells "FROM" w = true ∨ spells "JOIN" w = true := by
  rw [namesTables, Bool.or_eq_true]

theorem isPlain_of_namesTables (h : namesTables w = true) : ∀ c ∈ w, isPlain c = true :=
  (namesTables_iff.1 h).elim (isPlain_of_spells (by decide)) (isPlain_of_spells (by decide))

theorem quoteAfter_of_namesTables (h : namesTables w = true) : quoteAfter none w = none :=
  quoteAfter_of_not_isQuote (by simp) fun c hc =>
    isQuote_of_inName (inName_of_isPlain (isPlain_of_namesTables h c hc))

/-- A text that ends in a FROM or a JOIN does not end in the second letter of AS. -/
theorem keyLetter_of_namesTables (h : namesTables w = true) :
    ∀ c ∈ (s ++ w).getLast?, keyLetter c ≠ 'S' := by
  have hlast : (w.map keyLetter).getLast? = some 'M' ∨ (w.map keyLetter).getLast? = some 'N' := by
    rcases namesTables_iff.1 h with h | h
    · rw [spells, beq_iff_eq] at h
      exact .inl (by rw [h]; rfl)
    · rw [spells, beq_iff_eq] at h
      exact .inr (by rw [h]; rfl)
  intro c hc
  rcases List.eq_nil_or_concat w with rfl | ⟨w, e, rfl⟩
  · simp at hlast
  · obtain rfl : e = c := by simpa [← List.append_assoc] using hc
    rcases hlast with hlast | hlast
    · have he : keyLetter e = 'M' := by simpa using hlast
      simp [he]
    · have he : keyLetter e = 'N' := by simpa using hlast
      simp [he]

/-- Items are read only behind white space, and a word with white space behind it stands outside quotes. -/
theorem Outside.ends_behind (h : Outside quote (u ++ (v ++ t))) (hfound : WholeWord u v t)
    (hv : namesTables v = true) (hword : w ≠ []) (hnames : namesTables w = true)
    (hclosed : quoteAfter quote (u ++ (v ++ t)) = none) (hblank : (t ++ w).head?.any isBlank = true) :
    Ends none (t ++ w) := by
  have ht : t.head?.any isBlank = true := by
    cases t with
    | nil =>
      obtain ⟨c, w, rfl⟩ := List.exists_cons_of_ne_nil hword
      have hc : isBlank c = true := hblank
      rw [isBlank_of_isPlain (isPlain_of_namesTables hnames c (by simp))] at hc
      contradiction
    | cons c t => exact hblank
  have hstate : quoteAfter quote u = none := h u v t rfl hfound hv ht
  refine ⟨?_, keyLetter_of_namesTables hnames⟩
  rw [quoteAfter_append, hstate, quoteAfter_append, quoteAfter_of_namesTables hv] at hclosed
  rw [quoteAfter_append, hclosed, quoteAfter_of_namesTables hnames]

/-- A FROM or a JOIN further ahead names the same tables with the white space and without it. -/
theorem exists_tablesFrom_ahead (hfound : WholeWord u v t) (hv : namesTables v = true)
    (hu : ∀ x ∈ words u, namesTables x = false)
    (hends : (t ++ w).head?.any isBlank = true → Ends none (t ++ w))
    (hspaced : WholeWord (u ++ (v ++ t)) w q.spaced) (htight : WholeWord (u ++ (v ++ t)) w q.tight) :
    ∃ found,
      tablesFrom d before (u ++ (v ++ t) ++ (w ++ q.spaced)) =
        found ++ tablesFrom d (v.reverse ++ (u.reverse ++ before)) (t ++ (w ++ q.spaced)) ∧
      tablesFrom d before (u ++ (v ++ t) ++ (w ++ q.tight)) =
        found ++ tablesFrom d (v.reverse ++ (u.reverse ++ before)) (t ++ (w ++ q.tight)) := by
  have hhead (s : List Char) : ((t ++ (w ++ s)).head?.map isBlank).getD false =
      (t ++ w).head?.any isBlank := by
    obtain ⟨c, w, rfl⟩ := List.exists_cons_of_ne_nil hspaced.ne_nil
    cases t <;> rfl
  simp only [List.append_assoc]
  rw [tablesFrom_wholeWord (hfound.append_right hspaced.apart_left) hv hu,
    tablesFrom_wholeWord (hfound.append_right htight.apart_left) hv hu]
  simp only [hhead]
  cases hblank : (t ++ w).head?.any isBlank with
  | false => exact ⟨[], by simp, by simp⟩
  | true =>
    have hread (more : Bool) : readItems d more (trimStart (t ++ (w ++ q.spaced))) =
        readItems d more (trimStart (t ++ (w ++ q.tight))) := by
      have hnear : Near q (t ++ w ++ q.spaced) (t ++ w ++ q.tight) := .ahead (hends hblank)
      rw [List.append_assoc, List.append_assoc] at hnear
      exact hnear.trimStart.readItems
    simp only [hread]
    exact ⟨_, rfl, rfl⟩

/-- Directly before the quoted name the word names its tables if there is white space, and none if there
is not. -/
theorem exists_tablesFrom_here (hgap : q.gap ≠ []) (hnames : namesTables w = true)
    (hb : ∀ x ∈ words b, namesTables x = false) (hspaced : WholeWord b w q.spaced)
    (htight : WholeWord b w q.tight) (hquote : quoteAfter none (before.reverse ++ (b ++ w)) = none) :
    ∃ last,
      tablesFrom d before (b ++ (w ++ q.spaced)) = namedBy d (b.reverse ++ before) w q ++ last ∧
      tablesFrom d before (b ++ (w ++ q.tight)) = last := by
  have hblank : (q.spaced.head?.map isBlank).getD false = true := by
    obtain ⟨c, gap, hc⟩ := List.exists_cons_of_ne_nil hgap
    have hblank : isBlank c = true := q.blank c (by simp [hc])
    simp [Quoted.spaced, hc, hblank]
  have hmark : (q.tight.head?.map isBlank).getD false = false := isBlank_of_isNameQuote q.isMark
  have hplace : w.reverse ++ (b.reverse ++ before) = (before.reverse ++ (b ++ w)).reverse := by simp
  have hlast : tablesFrom d (w.reverse ++ (b.reverse ++ before)) q.spaced =
      tablesFrom d (w.reverse ++ (b.reverse ++ before)) q.tight := by
    rw [hplace]
    exact tablesFrom_quoted hquote
  refine ⟨tablesFrom d (w.reverse ++ (b.reverse ++ before)) q.tight, ?_, ?_⟩
  · rw [tablesFrom_wholeWord hspaced hnames hb]
    simp only [hblank, Bool.true_and, q.trimStart_spaced, hlast]
    rfl
  · rw [tablesFrom_wholeWord htight hnames hb]
    simp only [hmark, Bool.false_and, Bool.false_eq_true, if_false, List.nil_append]

/-- White space between a FROM or a JOIN and a quoted name is the difference between the tables that the
word names and none. All others are found with it and without it. -/
theorem tablesFrom_unspaced (hgap : q.gap ≠ []) (hword : WholeWord b w [])
    (hnames : namesTables w = true) (hout : Outside (quoteAfter none before.reverse) b)
    (hclosed : quoteAfter none (before.reverse ++ b) = none) :
    ∃ first last,
      tablesFrom d before (b ++ (w ++ q.spaced)) =
        first ++ (namedBy d (b.reverse ++ before) w q ++ last) ∧
      tablesFrom d before (b ++ (w ++ q.tight)) = first ++ last := by
  have hspaced : WholeWord b w q.spaced := hword.congr_right (q.isWordChar_head q.blank)
  have htight : WholeWord b w q.tight := hword.congr_right (q.isWordChar_head (s := []) (by simp))
  induction b using word_induction namesTables generalizing before with
  | free b hnone =>
    have hquote : quoteAfter none (before.reverse ++ (b ++ w)) = none := by
      rw [← List.append_assoc, quoteAfter_append, hclosed, quoteAfter_of_namesTables hnames]
    obtain ⟨last, hhere, hhere'⟩ :=
      exists_tablesFrom_here hgap hnames hnone hspaced htight hquote
    exact ⟨[], last, hhere, hhere'⟩
  | found u v t hfound hv hu ih =>
    have hplace : (v.reverse ++ (u.reverse ++ before)).reverse = before.reverse ++ (u ++ v) := by simp
    have hrest : Outside (quoteAfter none (v.reverse ++ (u.reverse ++ before)).reverse) t := by
      rw [hplace, quoteAfter_append]
      exact hout.behind hfound
    have hlater : quoteAfter none ((v.reverse ++ (u.reverse ++ before)).reverse ++ t) = none := by
      rw [hplace]
      simpa using hclosed
    obtain ⟨first, last, hfirst, hlast⟩ := ih hword.behind.behind hrest hlater
      hspaced.behind.behind htight.behind.behind
    have hends := hout.ends_behind hfound hv hword.ne_nil hnames (by rwa [← quoteAfter_append])
    obtain ⟨found, hahead, hahead'⟩ := exists_tablesFrom_ahead hfound hv hu hends hspaced htight
    have hnamed : t.reverse ++ (v.reverse ++ (u.reverse ++ before)) =
        (u ++ (v ++ t)).reverse ++ before := by simp
    rw [hnamed] at hfirst
    rw [hahead, hahead', hfirst, hlast]
    exact ⟨found ++ first, last, (List.append_assoc ..).symm, (List.append_assoc ..).symm⟩

/-! ### The equalities of the joins -/

/-- What the check on a join looks at. -/
def Join.equalities (j : Join) : List Equality := (j.condition.map Sql.equalities).getD []

/-- Behind a FROM or a JOIN outside quotes the equality reader begins anew. -/
theorem leads_of_namesTables (hnames : namesTables w = true) (hclosed : quoteAfter none (b ++ w) = none)
    (hstep : keepsStep none (b ++ w ++ t) = true) (hname : ∀ c ∈ t.head?, inName c = false)
    (hnext : trimStart t = q.tight) : Leads none (b ++ w) t where
  mark := by simp
  inStep := hstep
  closed := hclosed
  apart := fun _ _ d hd _ => hname d hd
  last := by
    have hne : w ≠ [] := by
      rintro rfl
      exact absurd hnames (by decide)
    obtain ⟨w, e, rfl⟩ := (List.eq_nil_or_concat w).resolve_left hne
    have he : isPlain e = true := isPlain_of_namesTables hnames e (by simp)
    have hend : trimEnd (b ++ w.concat e) = b ++ w.concat e := by
      have hcut := trimEnd_append (s := b ++ w.concat e) (t := [])
        (by simpa using isBlank_of_isPlain he)
      simpa [trimEnd] using hcut
    refine fun c s hsuffix hs => last_of_trimEnd ?_ hsuffix hs
    rw [hend]
    have hmark : e ≠ '.' ∧ e ≠ '=' := by
      constructor <;> (rintro rfl; exact absurd he (by decide))
    simp [hmark]
  next := by
    rw [hnext]
    exact fun c hc => next_of_name (s := q.rest) (.inr q.isMark) c (by rwa [← q.trimStart_tight] at hc)

theorem predicateText_cons (hc : isWordChar c = false) :
    predicateText (c :: t) = c :: predicateText t := by
  have hnone : ∀ w ∈ words [c], endsPredicate w = false := by simp [words_cons hc]
  have hapart (u : List Char) : Apart isWordChar [c] u := by
    intro d hd _ _ hword
    obtain rfl : c = d := by simpa using hd
    rw [hc] at hword
    contradiction
  have hjoin : upTo (spells "JOIN") ([c] ++ t) = [c] ++ upTo (spells "JOIN") t :=
    upTo_append (fun w hw => not_join (hnone w hw)) (hapart t)
  rw [predicateText, ← List.singleton_append, hjoin, clauseText_append hnone (hapart _)]
  rfl

theorem Quoted.apart (q : Quoted) {g : List Char} (hg : ∀ c ∈ g, isBlank c = true) :
    Apart isWordChar s (g ++ q.tight) := fun _ _ c hc _ => q.isWordChar_head hg c hc

theorem words_blanks (hs : ∀ c ∈ s, isBlank c = true) : words s = [] := by
  have hnone := words_append_right (s := []) fun c hc => isWordChar_of_isBlank (hs c hc)
  simpa using hnone

/-- A condition that is open at a quoted name goes on up to the next keyword. -/
theorem condition_quoted {g : List Char} (hwhole : WholeWord b w a) (hw : spells "ON" w = true)
    (hb : ∀ v ∈ words b, spells "ON" v = false) (ha : ∀ v ∈ words a, endsPredicate v = false)
    (hg : ∀ c ∈ g, isBlank c = true) :
    (readJoin (b ++ (w ++ a) ++ (g ++ upTo (spells "JOIN") q.tight))).condition =
      some (.ofList (trim (a ++ g ++ q.mark :: predicateText q.rest))) := by
  have hmark : isWordChar q.mark = false := isWordChar_of_isBorder (isBorder_of_isNameQuote q.isMark)
  have hcut : clauseText (upTo (spells "JOIN") q.tight) = q.mark :: predicateText q.rest :=
    predicateText_cons hmark
  have hapart {s g : List Char} (hg : ∀ c ∈ g, isBlank c = true) :
      Apart isWordChar s (g ++ upTo (spells "JOIN") q.tight) :=
    (q.apart hg).of_isPrefix ((List.prefix_append_right_inj g).2 upTo_isPrefix)
  have hgap : clauseText (g ++ upTo (spells "JOIN") q.tight) = g ++ q.mark :: predicateText q.rest := by
    have hfree : ∀ v ∈ words g, endsPredicate v = false := by simp [words_blanks hg]
    have hnext : Apart isWordChar g (upTo (spells "JOIN") q.tight) := hapart (g := []) (by simp)
    rw [clauseText_append hfree hnext, hcut]
  have hclause : clauseText (a ++ (g ++ upTo (spells "JOIN") q.tight)) =
      a ++ g ++ q.mark :: predicateText q.rest := by
    rw [clauseText_append ha (hapart hg), hgap, List.append_assoc]
  rw [List.append_assoc, List.append_assoc, condition_readJoin (hwhole.append_right (hapart hg)) hw hb,
    hclause]

/-- A condition that is open at a quoted name has the same equalities with the white space and without
it. -/
theorem equalities_open (hjoin : ∀ v ∈ words b, spells "JOIN" v = false)
    (hopen : phaseFrom .target (words b) = .condition) (h : Leads quote b q.spaced)
    (h' : Leads quote b q.tight) :
    (readJoin (b ++ (q.gap ++ upTo (spells "JOIN") q.tight))).equalities =
      (readJoin (b ++ ([] ++ upTo (spells "JOIN") q.tight))).equalities := by
  obtain ⟨front, on, behind, rfl, hwhole, hon, hfront, hbehind, -⟩ := exists_on hjoin hopen
  -- What is cut off behind the quoted name makes no difference to what leads up to it.
  let q' : Quoted := { q with rest := trimEnd (predicateText q.rest) }
  have hcut : q'.tight <+: q.tight :=
    List.cons_prefix_cons.2 ⟨rfl, trimEnd_isPrefix.trans (upTo_isPrefix.trans upTo_isPrefix)⟩
  rw [← List.append_assoc] at h h'
  have hspaced := (h.suffix.of_isPrefix ((List.prefix_append_right_inj q.gap).2 hcut)).equalitiesIn_append
  have htight := (h'.suffix.of_isPrefix hcut).equalitiesIn_append
  have hgap : equalitiesIn (q.gap ++ q'.tight) = equalitiesIn q'.tight := equalitiesIn_blanks q.blank
  have hblank : isBlank q.mark = false := isBlank_of_isNameQuote q.isMark
  rw [Join.equalities, Join.equalities, condition_quoted hwhole hon hfront hbehind q.blank,
    condition_quoted (g := []) hwhole hon hfront hbehind (by simp)]
  simp only [Option.map_some, Option.getD_some, Sql.equalities, String.toList_ofList]
  rw [equalitiesIn_trim hblank, equalitiesIn_trim hblank, List.append_nil, List.append_assoc]
  exact (hspaced.trans (congrArg _ hgap)).trans htight.symm

/-- The equalities of all joins are found with the white space and without it. -/
theorem joins_unspaced (hnames : namesTables w = true) (hclosed : quoteAfter none (b ++ w) = none)
    (hstep : phaseOf (b ++ w) = .condition → keepsStep none (b ++ w ++ q.tight) = true) :
    (joins (b ++ w ++ q.spaced)).map Join.equalities =
      (joins (b ++ w ++ q.tight)).map Join.equalities := by
  have hx : Inert (b ++ w) q.gap q.tight :=
    ⟨by simp [words_blanks q.blank], q.apart q.blank, q.apart (g := []) (by simp)⟩
  have hy : Inert (b ++ w) [] q.tight :=
    ⟨by simp, q.apart (g := []) (by simp), q.apart (g := []) (by simp)⟩
  by_cases hphase : phaseOf (b ++ w) = .condition
  · have htight := hstep hphase
    have hspaced : keepsStep none (b ++ w ++ q.spaced) = true := by
      have hgap : ∀ c ∈ q.gap, isQuote c = false := fun c hc => isQuote_of_isBlank (q.blank c hc)
      rw [keepsStep_append, hclosed, Bool.and_eq_true] at htight
      have hskip : quoteAfter none q.gap = none := quoteAfter_of_not_isQuote (by simp) hgap
      rw [Quoted.spaced, keepsStep_append, htight.1, hclosed, keepsStep_append,
        keepsStep_of_not_isQuote hgap, hskip, htight.2]
      rfl
    have hlead := leads_of_namesTables hnames hclosed hspaced q.inName_head.1 q.trimStart_spaced
    have hlead' := leads_of_namesTables hnames hclosed htight q.inName_head.2 q.trimStart_tight
    refine conditions_congr_of (f := fun c => (c.map Sql.equalities).getD []) hx hy
      fun x hsuffix hjoin htarget => ?_
    obtain ⟨r, hr⟩ := hsuffix
    rw [← hr] at hlead hlead'
    exact equalities_open hjoin (htarget.trans hphase) hlead.suffix hlead'.suffix
  · have hconditions := conditions_congr hphase hx hy
    have hmap := congrArg (List.map fun c => (c.map Sql.equalities).getD []) hconditions
    rw [List.map_map, List.map_map] at hmap
    exact hmap

/-! ### The statement as it is read -/

/-- Squeezing blanks moves no FROM and no JOIN into quotes. -/
theorem Outside.squeezed (h : Outside none s) : Outside none (squeezeFrom true s) := by
  intro b w a hparts hword hnames hbehind
  have hblank : ∀ c ∈ w, isBlank c = false := fun c hc =>
    isBlank_of_isPlain (isPlain_of_namesTables hnames c hc)
  obtain ⟨b, a, rfl, rfl, rfl⟩ := exists_run_of_squeezeFrom ⟨hword.ne_nil, hblank⟩ hparts
  cases a with
  | nil => simp [squeezeFrom] at hbehind
  | cons c a =>
    cases hc : isBlank c with
    | false => simp [squeezeFrom, hc] at hbehind
    | true =>
      have hwhole : WholeWord b w (c :: a) := by
        refine ⟨hword.ne_nil, hword.chars, isWordChar_getLast?_squeezeFrom.1 hword.left, ?_⟩
        simpa using isWordChar_of_isBlank hc
      rw [quoteAfter_squeezeFrom (by simp)]
      exact h b w (c :: a) rfl hwhole hnames hc

/-- To be asked at every place that has the letters of a FROM or a JOIN and white space behind it. -/
theorem Outside.of_places (h : ∀ n < s.length, namesTables ((s.drop n).take 4) = true →
    (s.drop (n + 4)).head?.any isBlank = true → quoteAfter none (s.take n) = none) :
    Outside none s := by
  rintro b w a rfl hword hnames hblank
  have hlength : w.length = 4 := by
    rcases namesTables_iff.1 hnames with hw | hw
    · rw [spells, beq_iff_eq] at hw
      simpa using congrArg List.length hw
    · rw [spells, beq_iff_eq] at hw
      simpa using congrArg List.length hw
  have hplace := h b.length (by simp; omega)
  rw [List.drop_left, List.take_left' hlength, List.take_left, ← List.drop_drop, List.drop_left,
    List.drop_left' hlength] at hplace
  exact hplace hnames hblank

/-- A FROM or a JOIN as a whole word, white space, and a quoted name. -/
structure QuotedLead where
  before : List Char
  word : List Char
  gap : List Char
  mark : Char
  after : List Char
  left : before.getLast?.any isWordChar = false
  spelled : namesTables word = true
  blank : gap ≠ [] ∧ gap.all isBlank = true
  isMark : isNameQuote mark = true

namespace QuotedLead

variable (k : QuotedLead)

/-- The text with the white space. -/
def spaced : List Char := k.before ++ (k.word ++ (k.gap ++ k.mark :: k.after))

/-- The text without it. -/
def tight : List Char := k.before ++ (k.word ++ k.mark :: k.after)

/-- What stands behind the word as it is read. -/
def quoted : Quoted where
  gap := [' ']
  mark := k.mark
  rest := squeezeFrom false (trimEnd k.after)
  blank := List.forall_mem_singleton.2 (by decide)
  isMark := k.isMark

/-- The text up to the word as it is read. -/
def lead : List Char := squeezeFrom true k.before ++ k.word

theorem isBlank_of_mem_word : ∀ c ∈ k.word, isBlank c = false := fun c hc =>
  isBlank_of_isPlain (isPlain_of_namesTables k.spelled c hc)

theorem word_ne_nil : k.word ≠ [] := by
  intro hnil
  have h := k.spelled
  rw [hnil] at h
  exact absurd h (by decide)

theorem normalize_spaced : normalize k.spaced = k.lead ++ k.quoted.spaced := by
  have hmark : ∀ c ∈ [k.mark], isBlank c = false :=
    List.forall_mem_singleton.2 (isBlank_of_isNameQuote k.isMark)
  have htext := normalize_append (b := k.before) (n := [k.mark]) (a := k.after)
    ⟨k.word_ne_nil, k.isBlank_of_mem_word⟩ ⟨k.blank.1, List.all_eq_true.1 k.blank.2⟩ ⟨by simp, hmark⟩
  rw [lead, List.append_assoc]
  exact htext

theorem normalize_tight : normalize k.tight = k.lead ++ k.quoted.tight := by
  have hblank : ∀ c ∈ k.word ++ [k.mark], isBlank c = false := by
    rw [List.forall_mem_append]
    exact ⟨k.isBlank_of_mem_word, List.forall_mem_singleton.2 (isBlank_of_isNameQuote k.isMark)⟩
  have htext := normalize_run (b := k.before) (a := k.after) ⟨by simp, hblank⟩
  have hparts : k.tight = k.before ++ (k.word ++ [k.mark] ++ k.after) := by simp [tight]
  rw [hparts, htext]
  simp [lead, quoted, Quoted.tight]

theorem wholeWord : WholeWord (squeezeFrom true k.before) k.word [] where
  ne_nil := k.word_ne_nil
  chars c hc := isWordChar_of_isPlain (isPlain_of_namesTables k.spelled c hc)
  left := isWordChar_getLast?_squeezeFrom.2 ((Option.any_eq_false _ _).1 k.left)
  right := by simp

theorem lead_eq : k.lead = squeezeFrom true (k.before ++ k.word) := by
  rw [squeezeFrom_append, squeezeFrom_run k.isBlank_of_mem_word, lead]

theorem trimStart_lead : trimStart k.lead ≠ [] := by
  obtain ⟨c, w, hw⟩ := List.exists_cons_of_ne_nil k.word_ne_nil
  have hc : isBlank c = false := k.isBlank_of_mem_word c (by simp [hw])
  rw [lead, hw, Text.trimStart_append (by simpa using hc)]
  simp

variable {k}

theorem quoteAfter_lead (h : quoteAfter none k.before = none) : quoteAfter none k.lead = none := by
  rw [lead, quoteAfter_append, quoteAfter_squeezeFrom (by simp), h,
    quoteAfter_of_namesTables k.spelled]

/-- The tables that the word brings in if white space follows it. -/
def named (k : QuotedLead) (d : Dialect) : List TableRef := namedBy d k.before.reverse k.word k.quoted

/-- Without the white space all tables but these are found. -/
theorem tables_unspaced (d : Dialect) (hout : Outside none k.before)
    (hquote : quoteAfter none k.before = none) : ∃ first last,
      tables d (normalize k.spaced) = first ++ (k.named d ++ last) ∧
        tables d (normalize k.tight) = first ++ last := by
  have hgap : k.quoted.gap ≠ [] := List.cons_ne_nil _ _
  have hclosed : quoteAfter none ([] ++ squeezeFrom true k.before) = none := by
    rwa [List.nil_append, quoteAfter_squeezeFrom (by simp)]
  obtain ⟨first, last, hspaced, htight⟩ :=
    @tablesFrom_unspaced k.quoted _ _ [] d hgap k.wholeWord k.spelled hout.squeezed hclosed
  have hnamed : namedBy d ((squeezeFrom true k.before).reverse ++ []) k.word k.quoted = k.named d := by
    rw [List.append_nil, named, namedBy, namedBy, opensClause_squeezeFrom]
  rw [hnamed] at hspaced
  refine ⟨first, last, ?_, ?_⟩
  · rw [normalize_spaced, lead, List.append_assoc]
    exact hspaced
  · rw [normalize_tight, lead, List.append_assoc]
    exact htight

/-- The equalities of all joins are found without it. -/
theorem joins_unspaced (hquote : quoteAfter none k.before = none)
    (hstep : phaseOf (k.before ++ k.word) = .condition → keepsStep none k.tight = true) :
    (joins (normalize k.spaced)).map Join.equalities =
      (joins (normalize k.tight)).map Join.equalities := by
  have hphase : phaseOf k.lead = phaseOf (k.before ++ k.word) := by
    rw [phaseOf, phaseOf, lead_eq, words, wordsFrom_squeezeFrom fun _ => rfl, words]
  have hjoins := Sql.joins_unspaced (q := k.quoted) k.spelled (quoteAfter_lead hquote) fun hopen => by
    have hread := keepsStep_normalize (hstep (hphase ▸ hopen))
    rwa [normalize_tight] at hread
  rw [normalize_spaced, normalize_tight]
  exact hjoins

end QuotedLead

end Querent.Sql
