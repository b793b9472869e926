import Querent.Proofs.Sql.Balanced
import Querent.Proofs.Sql.Name
import Querent.Proofs.Text.Search

/-! How the two scans behind a FROM clause pass over text with nothing in it for them: the search
for FROM and JOIN, and the walk along a FROM list. -/
namespace Querent.Sql

open Text

/-- The characters of names, numbers and comparisons. -/
def isFlat (c : Char) : Bool :=
  isPlain c || [' ', '.', '=', '<', '>', '!', '*'].contains c

/-- Text of names, numbers and comparisons with single blanks. -/
def Flat (s : List Char) : Prop := ∀ c ∈ s, isFlat c = true

/-- No word of a text is one of some words, in any case. -/
def Free (ks : List String) (s : List Char) : Prop := ∀ w ∈ words s, isOneOf ks w = false

instance (s : List Char) : Decidable (Flat s) :=
  decidable_of_iff (s.all isFlat = true) List.all_eq_true

instance (ks : List String) (s : List Char) : Decidable (Free ks s) :=
  inferInstanceAs (Decidable (∀ w ∈ words s, isOneOf ks w = false))

variable {banned ks : List String} {d : Dialect} {before s t w word : List Char} {c : Char}

theorem isFlat_of_isPlain (h : isPlain c = true) : isFlat c = true := by simp [isFlat, h]

theorem forall_isFlat {P : Char → Prop}
    (h : ∀ n < 128, isFlat (Char.ofNat n) = true → P (Char.ofNat n)) (hc : isFlat c = true) : P c := by
  have hascii : c.toNat < 128 := by
    rcases Bool.or_eq_true_iff.1 hc with hplain | hmark
    · exact toNat_lt_of_isPlain hplain
    · have hall : [' ', '.', '=', '<', '>', '!', '*'].all (fun d => d.toNat < 128) = true := by
        decide
      simpa using List.all_eq_true.1 hall c (List.contains_iff_mem.1 hmark)
  exact forall_ascii (P := fun c => isFlat c = true → P c) h hascii hc

/-- To every scan the plain characters of such a text are its word characters. -/
theorem isWordChar_eq_isPlain (h : isFlat c = true) : isWordChar c = isPlain c :=
  forall_isFlat (P := fun c => isWordChar c = isPlain c) (by decide) h

theorem isListChar_eq_isPlain (h : isFlat c = true) :
    (isLetterOrNumber c || c == '_' || c == '$') = isPlain c :=
  forall_isFlat (P := fun c => (isLetterOrNumber c || c == '_' || c == '$') = isPlain c)
    (by decide) h

namespace Flat

theorem append (hs : Flat s) (ht : Flat t) : Flat (s ++ t) := by
  intro c hc
  rcases List.mem_append.1 hc with hc | hc
  · exact hs c hc
  · exact ht c hc

theorem cons (hc : isFlat c = true) (ht : Flat t) : Flat (c :: t) := by
  intro e he
  rcases List.mem_cons.1 he with rfl | he
  · exact hc
  · exact ht e he

theorem ofPlain (h : ∀ c ∈ s, isPlain c = true) : Flat s := fun c hc => isFlat_of_isPlain (h c hc)

theorem balanced (h : Flat s) : Balanced s :=
  .of_forall fun c hc => forall_isFlat (P := fun c => isQuote c = false ∧ c ≠ '(' ∧ c ≠ ')')
    (by decide) (h c hc)

/-- The words of such a text are plain. -/
theorem isPlain_of_mem_words (h : Flat s) (hw : w ∈ words s) : ∀ c ∈ w, isPlain c = true := by
  obtain ⟨b, a, rfl, hword⟩ := mem_words_iff.1 hw
  intro c hc
  rw [← isWordChar_eq_isPlain (h c (by simp [hc]))]
  exact hword.chars c hc

end Flat

theorem Name.flat (n : Name banned) : Flat n.text := .ofPlain n.forall_isPlain

theorem free_append_cons (hc : isWordChar c = false) :
    Free ks (s ++ c :: t) ↔ Free ks s ∧ Free ks t := by
  simp only [Free, words_append_cons hc, List.forall_mem_append]

/-- A search that accepts some words and, among plain ones, no others. -/
def Seeks (ks : List String) (p : List Char → Bool) : Prop :=
  ∀ w, (∀ c ∈ w, isPlain c = true) → p w = isOneOf ks w

theorem seeks_spells {k : String} (hk : k.toList.all (fun c => c.isUpper || c == '_') = true) :
    Seeks [k] (spells k) := by
  intro w hw
  rw [spells_eq_sameLetters hk hw]
  simp [isOneOf]

theorem seeks_any (hks : ks.all fun k => k.toList.all fun c => c.isUpper || c == '_') :
    Seeks ks (fun w => ks.any fun k => spells k w) := by
  intro w hw
  have hkey : ∀ k ∈ ks, spells k w = sameLetters k.toList w := fun k hk =>
    spells_eq_sameLetters (List.all_eq_true.1 hks k hk) hw
  rw [isOneOf, Bool.eq_iff_iff, List.any_eq_true, List.any_eq_true]
  exact exists_congr fun k => and_congr_right fun hk => by rw [hkey k hk]

namespace Seeks

variable {p : List Char → Bool}

/-- The search passes over a text without the words. -/
theorem findFrom_append (hp : Seeks ks p) (hs : Flat s) (hfree : Free ks s) (ht : Border t) :
    findFrom p before [] (s ++ t) = findFrom p (s.reverse ++ before) [] t := by
  have hkeep : ∀ w ∈ wordsFrom [] s, p w = false := by
    intro w hw
    rw [hp w (hs.isPlain_of_mem_words hw)]
    exact hfree w hw
  exact Text.findFrom_append hkeep fun c hc => isWordChar_of_isBorder (ht c hc)

theorem findFrom_eq_none (hp : Seeks ks p) (hs : Flat s) (hfree : Free ks s) :
    findFrom p before [] s = none := by
  have hpass : findFrom p before [] (s ++ []) = findFrom p (s.reverse ++ before) [] [] :=
    hp.findFrom_append hs hfree border_nil
  rw [List.append_nil] at hpass
  exact hpass

theorem findFrom_word (hp : Seeks ks p) (hne : w ≠ []) (hw : ∀ c ∈ w, isPlain c = true)
    (hk : isOneOf ks w = true) (ht : Border t) :
    findFrom p before [] (w ++ t) = some ⟨before, w, t⟩ := by
  refine Text.findFrom_word hne (fun c hc => isWordChar_of_isPlain (hw c hc)) ?_
    fun c hc => isWordChar_of_isBorder (ht c hc)
  rw [hp w hw, hk]

/-- The search stops at one of the words behind such a text and a blank. -/
theorem findFrom_blank_word (hp : Seeks ks p) (hs : Flat s) (hfree : Free ks s) (hne : w ≠ [])
    (hw : ∀ c ∈ w, isPlain c = true) (hk : isOneOf ks w = true) (ht : Border t) :
    findFrom p before [] (s ++ ' ' :: (w ++ t)) = some ⟨' ' :: (s.reverse ++ before), w, t⟩ := by
  rw [hp.findFrom_append hs hfree (border_cons.2 rfl), findFrom_cons (by decide)]
  exact hp.findFrom_word hne hw hk ht

end Seeks

/-- Whether a word is one that tables are named behind. -/
def namesTables (w : List Char) : Bool := spells "FROM" w || spells "JOIN" w

theorem seeks_namesTables : Seeks ["FROM", "JOIN"] namesTables := by
  intro w hw
  rw [namesTables, seeks_spells (by decide) w hw, seeks_spells (by decide) w hw]
  simp [isOneOf]

theorem tablesFrom_of_none (h : findFrom namesTables before [] t = none) :
    tablesFrom d before t = [] := by
  rw [tablesFrom]
  split
  · rfl
  · rename_i heq
    exact absurd (h.symm.trans heq) (by simp)

theorem tablesFrom_of_some {found : Found}
    (h : findFrom namesTables before [] t = some found) :
    tablesFrom d before t =
      (if (found.after.head?.map isBlank).getD false &&
          (!sameLetters found.word "FROM".toList || opensClause found.before) then
        readItems d (sameLetters found.word "FROM".toList) (trimStart found.after)
      else []) ++ tablesFrom d (found.word.reverse ++ found.before) found.after := by
  conv_lhs => rw [tablesFrom]
  split
  · rename_i heq
    exact absurd (h.symm.trans heq) (by simp)
  · rename_i heq
    obtain rfl := Option.some.inj (h.symm.trans heq)
    rfl

/-- The tables of a text with words that name tables are those of the first and those behind it. -/
theorem tablesFrom_wholeWord {b a : List Char} (h : WholeWord b w a) (hw : namesTables w = true)
    (hb : ∀ v ∈ words b, namesTables v = false) :
    tablesFrom d before (b ++ (w ++ a)) =
      (if (a.head?.map isBlank).getD false &&
          (!sameLetters w "FROM".toList || opensClause (b.reverse ++ before)) then
        readItems d (sameLetters w "FROM".toList) (trimStart a)
      else []) ++ tablesFrom d (w.reverse ++ (b.reverse ++ before)) a :=
  tablesFrom_of_some (h.findFrom hw hb)

theorem tablesFrom_of_free (h : ∀ w ∈ words t, namesTables w = false) :
    tablesFrom d before t = [] := by
  have hpass : findFrom namesTables before [] (t ++ []) =
      findFrom namesTables (t.reverse ++ before) [] [] := findFrom_append h (by simp)
  rw [List.append_nil] at hpass
  exact tablesFrom_of_none hpass

/-- The tables behind a place depend on nothing but the next FROM or JOIN. -/
theorem tablesFrom_congr {before' t' : List Char}
    (h : findFrom namesTables before [] t = findFrom namesTables before' [] t') :
    tablesFrom d before t = tablesFrom d before' t' := by
  cases hfind : findFrom namesTables before' [] t' with
  | none => rw [tablesFrom_of_none hfind, tablesFrom_of_none (h.trans hfind)]
  | some found => rw [tablesFrom_of_some hfind, tablesFrom_of_some (h.trans hfind)]

/-- The search for tables passes over a text without FROM and JOIN. -/
theorem tablesFrom_append (hs : Flat s) (hfree : Free ["FROM", "JOIN"] s) (ht : Border t) :
    tablesFrom d before (s ++ t) = tablesFrom d (s.reverse ++ before) t :=
  tablesFrom_congr (seeks_namesTables.findFrom_append hs hfree ht)

theorem tablesFrom_cons (hc : isWordChar c = false) :
    tablesFrom d before (c :: t) = tablesFrom d (c :: before) t :=
  tablesFrom_congr (findFrom_cons hc)

/-- A blank parts such a text from whatever follows. -/
theorem tablesFrom_append_blank (hs : Flat s) (hfree : Free ["FROM", "JOIN"] s) :
    tablesFrom d before (s ++ ' ' :: t) = tablesFrom d (' ' :: (s.reverse ++ before)) t := by
  rw [tablesFrom_append hs hfree (border_cons.2 rfl), tablesFrom_cons (by decide)]

theorem tablesFrom_nil : tablesFrom d before [] = [] := tablesFrom_of_none rfl

private theorem find_keyword {k : String} (hk : k.toList ≠ [] ∧ k.toList.all isPlain = true ∧
    isOneOf ["FROM", "JOIN"] k.toList = true) :
    findFrom namesTables before [] (k.toList ++ ' ' :: t) = some ⟨before, k.toList, ' ' :: t⟩ :=
  seeks_namesTables.findFrom_word hk.1 (List.all_eq_true.1 hk.2.1) hk.2.2 (border_cons.2 rfl)

/-- At a FROM that opens a clause the tables of its list are found, and at another one none. -/
theorem tablesFrom_from :
    tablesFrom d before (" FROM ".toList ++ t) =
      (if opensClause (' ' :: before) then readItems d true (trimStart t) else []) ++
        tablesFrom d (" FROM ".toList.reverse ++ before) t := by
  have hlead : tablesFrom d before (" FROM ".toList ++ t) =
      tablesFrom d (' ' :: before) ("FROM".toList ++ ' ' :: t) := tablesFrom_cons (by decide)
  have hfrom : sameLetters "FROM".toList "FROM".toList = true := by decide
  have hblank : isBlank ' ' = true := by decide
  rw [hlead, tablesFrom_of_some (find_keyword (by decide)), tablesFrom_cons (by decide),
    trimStart_blank]
  simp only [hfrom, List.head?_cons, Option.map_some, Option.getD_some, hblank, Bool.not_true,
    Bool.false_or, Bool.true_and]
  rfl

/-- At a JOIN the table of its one item is found. -/
theorem tablesFrom_join :
    tablesFrom d before (" JOIN ".toList ++ t) =
      readItems d false (trimStart t) ++ tablesFrom d (" JOIN ".toList.reverse ++ before) t := by
  have hlead : tablesFrom d before (" JOIN ".toList ++ t) =
      tablesFrom d (' ' :: before) ("JOIN".toList ++ ' ' :: t) := tablesFrom_cons (by decide)
  have hfrom : sameLetters "JOIN".toList "FROM".toList = false := by decide
  have hblank : isBlank ' ' = true := by decide
  rw [hlead, tablesFrom_of_some (find_keyword (by decide)), tablesFrom_cons (by decide),
    trimStart_blank]
  simp only [hfrom, List.head?_cons, Option.map_some, Option.getD_some, hblank, Bool.not_false,
    Bool.true_or, Bool.and_self, if_true]
  rfl

/-- Whether the walk along a FROM list passes over a text to what follows it. -/
def Passed (s : List Char) : Prop :=
  ∀ t, Border t → nextFrom 0 none [] (s ++ t) = nextFrom 0 none [] t

/-- The walk along a FROM list passes over a text without a word that ends the list. -/
theorem Flat.passed (hs : Flat s) (hfree : Free listEnds s) : Passed s := by
  intro t ht
  have hgo : ∀ s word, Flat s → (∀ w ∈ wordsFrom word s, isOneOf listEnds w = false) →
      nextFrom 0 none word (s ++ t) = nextFrom 0 none [] t := by
    intro s
    induction s with
    | nil =>
      intro word _ hword
      have hend : (!word.isEmpty && isOneOf listEnds word.reverse) = false := by
        by_cases hw : word.isEmpty <;> simp_all [wordsFrom]
      cases t with
      | nil => rfl
      | cons c t =>
        have hc : (isLetterOrNumber c || c == '_' || c == '$') = false :=
          forall_isBorder (P := fun c => (isLetterOrNumber c || c == '_' || c == '$') = false)
            (by decide) (border_cons.1 ht)
        rw [List.nil_append]
        simp [nextFrom, hc, hend]
    | cons c s ih =>
      intro word hflat hword
      have hc : isFlat c = true := hflat c (by simp)
      have hs : Flat s := fun e he => hflat e (by simp [he])
      have hchar := isListChar_eq_isPlain hc
      have hwordChar := isWordChar_eq_isPlain hc
      simp only [List.cons_append, nextFrom, hchar, Option.isSome_none, Bool.false_eq_true, if_false]
      by_cases hp : isPlain c = true
      · simp only [hp, if_true]
        exact ih (c :: word) hs (by simpa [wordsFrom, hwordChar, hp] using hword)
      · have hmarks : isFlat c = true → isPlain c = true ∨
            (c ≠ '(' ∧ c ≠ ')' ∧ c ≠ ',' ∧ isQuote c = false) := fun hc =>
          forall_isFlat (P := fun c => isPlain c = true ∨
            (c ≠ '(' ∧ c ≠ ')' ∧ c ≠ ',' ∧ isQuote c = false)) (by decide) hc
        obtain ⟨hopen, hclose, hcomma, hquote⟩ := (hmarks hc).resolve_left hp
        have hend : (!word.isEmpty && isOneOf listEnds word.reverse) = false := by
          by_cases hw : word.isEmpty <;> simp_all [wordsFrom]
        have hrest : ∀ w ∈ wordsFrom [] s, isOneOf listEnds w = false := by
          by_cases hw : word.isEmpty <;> simp_all [wordsFrom]
        simp [hp, hend, hopen, hclose, hcomma, nextQuote_none hquote, ih [] hs hrest]
  exact hgo s [] hs hfree

end Querent.Sql
