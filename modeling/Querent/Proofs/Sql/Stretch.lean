import Querent.Proofs.Sql.Gap
import Querent.Proofs.Sql.Nested
import Querent.Proofs.Sql.QuotedItems

/-! The walk along a FROM list told without its scan: it goes to the next comma of the list's own level,
unless a word of that level before the comma is one that ends the list. -/
namespace Querent.Sql

open Text

/-- The characters that the walk takes for parts of words. -/
def isListChar (c : Char) : Bool := isLetterOrNumber c || c == '_' || c == '$'

/-- Text without a comma outside its quotes and parentheses, all of which are closed, and its words
outside them. -/
inductive Stretch : (words : List (List Char)) → (text : List Char) → Prop where
  | nil : Stretch [] []
  | mark {ws : List (List Char)} {c : Char} {s : List Char} (char : isListChar c = false)
      (quote : isQuote c = false) (opens : c ≠ '(') (closes : c ≠ ')') (comma : c ≠ ',')
      (rest : Stretch ws s) : Stretch ws (c :: s)
  | word {ws : List (List Char)} {w s : List Char} (ne_nil : w ≠ [])
      (chars : ∀ c ∈ w, isListChar c = true) (ends : ∀ c ∈ s.head?, isListChar c = false)
      (rest : Stretch ws s) : Stretch (w :: ws) (w ++ s)
  | quoted {ws : List (List Char)} {m : Char} {n s : List Char} (isMark : isQuote m = true)
      (free : m ∉ n) (rest : Stretch ws s) : Stretch ws (m :: (n ++ m :: s))
  | group {ws : List (List Char)} {g s : List Char} (inner : Nested g) (rest : Stretch ws s) :
      Stretch ws ('(' :: (g ++ ')' :: s))

variable {s t u w word text next : List Char} {ws : List (List Char)} {depth : Nat} {c m : Char}

theorem marks_of_isListChar (h : isListChar c = true) : isQuote c = false ∧ c ≠ '(' ∧ c ≠ ')' := by
  refine ⟨?_, ?_, ?_⟩
  · by_contra hquote
    simp only [isQuote, Bool.not_eq_false, Bool.or_eq_true, beq_iff_eq] at hquote
    rcases hquote with (rfl | rfl) | rfl <;> exact absurd h (by decide)
  · rintro rfl
    exact absurd h (by decide)
  · rintro rfl
    exact absurd h (by decide)

theorem isListChar_of_isQuote (h : isQuote m = true) : isListChar m = false := by
  simp only [isQuote, Bool.or_eq_true, beq_iff_eq] at h
  rcases h with (rfl | rfl) | rfl <;> decide

/-- What the walk tells apart in a character. -/
theorem kinds (c : Char) : isListChar c = true ∨ isQuote c = true ∨ c = '(' ∨ c = ')' ∨ c = ',' ∨
    isListChar c = false ∧ isQuote c = false ∧ c ≠ '(' ∧ c ≠ ')' ∧ c ≠ ',' := by
  cases isListChar c <;> cases isQuote c <;> simp
  tauto

/-- A text that begins inside a word begins with the rest of that word. -/
theorem exists_word (h : isListChar c = true) : ∃ w u, c :: s = w ++ u ∧ w ≠ [] ∧
    (∀ d ∈ w, isListChar d = true) ∧ ∀ d ∈ u.head?, isListChar d = false := by
  refine ⟨c :: s.takeWhile isListChar, s.dropWhile isListChar, by simp, by simp,
    List.forall_mem_cons.2 ⟨h, fun _ => List.mem_takeWhile_imp⟩, ?_⟩
  intro d hd
  have hstop := List.head?_dropWhile_not isListChar s
  rw [Option.mem_def.1 hd] at hstop
  simpa using hstop

/-! ### One step of the walk -/

theorem nextFrom_listChar (h : isListChar c = true) :
    nextFrom depth none word (c :: s) = nextFrom depth none (c :: word) s := by
  rw [isListChar] at h
  simp [nextFrom, h]

/-- A quote mark ends a word and opens a quoted text. -/
theorem nextFrom_quote (h : isQuote m = true) :
    nextFrom depth none [] (m :: s) = nextFrom depth (some m) [] s := by
  have hne : m ≠ '(' ∧ m ≠ ')' ∧ m ≠ ',' := by
    refine ⟨?_, ?_, ?_⟩ <;> (rintro rfl; exact absurd h (by decide))
  rw [nextFrom_cons (isListChar_of_isQuote h) hne, nextQuote_open h]
  simp

theorem nextFrom_open : nextFrom depth none [] ('(' :: s) = nextFrom (depth + 1) none [] s := by
  simp [nextFrom, isLetterOrNumber]

theorem nextFrom_close : nextFrom (depth + 1) none word (')' :: s) = nextFrom depth none [] s := by
  simp [nextFrom, isLetterOrNumber]

theorem nextItem_comma : nextItem (',' :: s) = some (trimStart s) := rfl

theorem nextItem_close : nextItem (')' :: s) = none := rfl

theorem nextFrom_mark (hc : isListChar c = false) (hquote : isQuote c = false)
    (hmark : c ≠ '(' ∧ c ≠ ')' ∧ c ≠ ',') :
    nextFrom depth none [] (c :: s) = nextFrom depth none [] s := by
  rw [nextFrom_cons hc hmark, nextQuote_none hquote]
  simp

/-- A whole word ends the list or is passed. -/
theorem nextFrom_word (hw : ∀ c ∈ w, isListChar c = true) (hne : word.reverse ++ w ≠ [])
    (ht : ∀ c ∈ t.head?, isListChar c = false) : nextFrom 0 none word (w ++ t) =
      if isOneOf listEnds (word.reverse ++ w) then none else nextFrom 0 none [] t := by
  induction w generalizing word with
  | nil =>
    rw [List.append_nil] at hne ⊢
    have hword : word ≠ [] := by simpa using hne
    cases t with
    | nil => simp [nextFrom]
    | cons c t =>
      have hc := ht c rfl
      rw [isListChar] at hc
      by_cases hend : isOneOf listEnds word.reverse = true <;> simp [nextFrom, hc, hword, hend]
  | cons c w ih =>
    obtain ⟨hc, hw⟩ := List.forall_mem_cons.1 hw
    have hrest : nextFrom 0 none (c :: word) (w ++ t) = _ := ih hw (by simp)
    rw [List.cons_append, nextFrom_listChar hc, hrest, List.reverse_cons, List.append_assoc,
      List.singleton_append]

/-! ### Groups -/

theorem Balanced.nested (hs : Balanced s) : Nested s := by
  induction hs with
  | nil => exact .nil
  | char quote opens closes => exact .char quote opens closes
  | group inner ih => exact .group ih
  | append left right ihl ihr => exact .append ihl ihr

/-- Inside parentheses the walk passes over a text whose quotes and parentheses are closed. -/
theorem Nested.nextFrom (hs : Nested s) :
    nextFrom (depth + 1) none word (s ++ t) = nextFrom (depth + 1) none word t := by
  induction hs generalizing depth word t with
  | nil => rfl
  | @char c quote opens closes =>
    exact Balanced.nextFrom (.char quote opens closes)
  | @quoted m s isMark free =>
    rw [nextFrom_word_eq [], List.cons_append, List.append_assoc,
      List.singleton_append, nextFrom_quote isMark, nextFrom_quoted free]
    exact nextFrom_word_eq _
  | @group s inner ih =>
    rw [nextFrom_word_eq [], List.cons_append, List.append_assoc,
      List.singleton_append, nextFrom_open, ih, nextFrom_close]
    exact nextFrom_word_eq _
  | append left right ihl ihr => rw [List.append_assoc, ihl, ihr]

theorem skipFrom_open : skipFrom depth none ('(' :: s) = skipFrom (depth + 1) none s := rfl

theorem skipFrom_close : skipFrom (depth + 2) none (')' :: s) = skipFrom (depth + 1) none s := rfl

theorem skipFrom_quote (h : isQuote m = true) :
    skipFrom depth none (m :: s) = skipFrom depth (some m) s := by
  simp [skipFrom, ne_of_isQuote h, nextQuote_open h]

theorem skipFrom_inside : skipFrom depth (some m) (c :: s) = skipFrom depth (nextQuote (some m) c) s := by
  simp [skipFrom]

theorem skipFrom_quoted (h : m ∉ s) :
    skipFrom depth (some m) (s ++ m :: t) = skipFrom depth none t := by
  induction s with
  | nil => rw [List.nil_append, skipFrom_inside, nextQuote_close]
  | cons c s ih =>
    obtain ⟨hc, hs⟩ : m ≠ c ∧ m ∉ s := by simpa using h
    rw [List.cons_append, skipFrom_inside, nextQuote_inside (Ne.symm hc), ih hs]

/-- Inside a group such a text brings its end no nearer. -/
theorem Nested.skipFrom (hs : Nested s) :
    skipFrom (depth + 1) none (s ++ t) = skipFrom (depth + 1) none t := by
  induction hs generalizing depth t with
  | nil => rfl
  | char quote opens closes => exact Balanced.skipFrom (.char quote opens closes)
  | @quoted m s isMark free =>
    rw [List.cons_append, List.append_assoc, List.singleton_append, skipFrom_quote isMark,
      skipFrom_quoted free]
  | @group s inner ih =>
    rw [List.cons_append, List.append_assoc, List.singleton_append, skipFrom_open, ih, skipFrom_close]
  | append left right ihl ihr => rw [List.append_assoc, ihl, ihr]

theorem Nested.skipGroup (hs : Nested s) : skipGroup ('(' :: (s ++ ')' :: t)) = some t := by
  rw [Sql.skipGroup, skipFrom_open, hs.skipFrom]
  rfl

/-- What the walk finds from inside quotes stands behind the mark that closes them. -/
theorem exists_of_nextFrom_quoted (h : nextFrom depth (some m) word s = some next) :
    ∃ n u, s = n ++ m :: u ∧ m ∉ n ∧ nextFrom depth none word u = some next := by
  induction s with
  | nil => simp [nextFrom] at h
  | cons c s ih =>
    by_cases hc : c = m
    · subst hc
      refine ⟨[], s, rfl, by simp, ?_⟩
      simpa [nextFrom, nextQuote] using h
    · have hstay : nextFrom depth (some m) word s = some next := by
        simpa [nextFrom, nextQuote, hc] using h
      obtain ⟨n, u, rfl, hn, hu⟩ := ih hstay
      exact ⟨c :: n, u, rfl, by simp [hn, Ne.symm hc], hu⟩

/-- What the walk finds from inside a group stands behind the parenthesis that closes it. -/
theorem exists_of_nextFrom_group (h : nextFrom (depth + 1) none word s = some next) :
    ∃ g u, s = g ++ ')' :: u ∧ Nested g ∧ nextFrom depth none [] u = some next := by
  generalize hlength : s.length = n
  induction n using Nat.strong_induction_on generalizing s depth word with
  | _ n ih =>
    rw [nextFrom_word_eq []] at h
    cases s with
    | nil => simp [nextFrom] at h
    | cons c s =>
      simp only [List.length_cons] at hlength
      -- a character that neither opens nor closes anything
      have hpass (hne : isQuote c = false ∧ c ≠ '(' ∧ c ≠ ')')
          (hrest : nextFrom (depth + 1) none [] s = some next) :
          ∃ g u, c :: s = g ++ ')' :: u ∧ Nested g ∧ nextFrom depth none [] u = some next := by
        obtain ⟨g, u, rfl, hg, hu⟩ := ih s.length (by omega) hrest rfl
        exact ⟨c :: g, u, rfl, .append (.char hne.1 hne.2.1 hne.2.2) hg, hu⟩
      rcases kinds c with hchar | hquote | rfl | rfl | rfl | ⟨hchar, hquote, hopen, hclose, hcomma⟩
      · rw [nextFrom_listChar hchar, nextFrom_word_eq []] at h
        exact hpass (marks_of_isListChar hchar) h
      · rw [nextFrom_quote hquote] at h
        obtain ⟨m, u, rfl, hm, hu⟩ := exists_of_nextFrom_quoted h
        have hshorter : u.length < n := by
          simp only [List.length_append, List.length_cons] at hlength
          omega
        obtain ⟨g, v, rfl, hg, hv⟩ := ih u.length hshorter hu rfl
        exact ⟨c :: (m ++ [c]) ++ g, v, by simp, .append (.quoted hquote hm) hg, hv⟩
      · rw [nextFrom_open] at h
        obtain ⟨g, u, rfl, hg, hu⟩ := ih s.length (by omega) h rfl
        have hshorter : u.length < n := by
          simp only [List.length_append, List.length_cons] at hlength
          omega
        obtain ⟨g', v, rfl, hg', hv⟩ := ih u.length hshorter hu rfl
        exact ⟨'(' :: (g ++ [')']) ++ g', v, by simp, .append (.group hg) hg', hv⟩
      · rw [nextFrom_close] at h
        exact ⟨[], s, rfl, .nil, h⟩
      · have hstay : nextQuote none ',' = none := rfl
        refine hpass (by decide) ?_
        simpa [nextFrom, isLetterOrNumber, hstay] using h
      · rw [nextFrom_mark hchar hquote ⟨hopen, hclose, hcomma⟩] at h
        exact hpass ⟨hquote, hopen, hclose⟩ h

/-! ### Flat texts -/

/-- A flat text in front of a stretch, with its words. `word` is a word that it goes on with. -/
private theorem Stretch.wordsFrom_append (ht : Stretch ws t)
    (hhead : ∀ c ∈ t.head?, isListChar c = false) (hword : ∀ c ∈ word, isPlain c = true)
    (hs : Flat s) : Stretch (wordsFrom word s ++ ws) (word.reverse ++ (s ++ t)) := by
  have hchars (word : List Char) (hword : ∀ c ∈ word, isPlain c = true) :
      ∀ c ∈ word.reverse, isListChar c = true := fun c hc =>
    forall_isPlain (P := fun c => isListChar c = true) (by decide) (hword c (by simpa using hc))
  induction s generalizing word with
  | nil =>
    cases word with
    | nil => exact ht
    | cons c word => exact .word (by simp) (hchars _ hword) hhead ht
  | cons c s ih =>
    have hflat : isFlat c = true := hs c (by simp)
    have hs : Flat s := fun e he => hs e (by simp [he])
    rw [wordsFrom, isWordChar_eq_isPlain hflat]
    by_cases hplain : isPlain c = true
    · have hrest : Stretch (wordsFrom (c :: word) s ++ ws) ((c :: word).reverse ++ (s ++ t)) :=
        ih (List.forall_mem_cons.2 ⟨hplain, hword⟩) hs
      simpa [hplain] using hrest
    · rw [Bool.not_eq_true] at hplain
      have hchar : isListChar c = false := (isListChar_eq_isPlain hflat).trans hplain
      obtain ⟨hquote, hopen, hclose, hcomma⟩ : isQuote c = false ∧ c ≠ '(' ∧ c ≠ ')' ∧ c ≠ ',' :=
        forall_isFlat (P := fun c => isQuote c = false ∧ c ≠ '(' ∧ c ≠ ')' ∧ c ≠ ',') (by decide) hflat
      have hbehind : Stretch (wordsFrom [] s ++ ws) ([].reverse ++ (s ++ t)) := ih (by simp) hs
      have hrest : Stretch (wordsFrom [] s ++ ws) (c :: (s ++ t)) :=
        .mark hchar hquote hopen hclose hcomma hbehind
      cases word with
      | nil => simpa [hplain] using hrest
      | cons e word =>
        have hends : ∀ d ∈ (c :: (s ++ t)).head?, isListChar d = false := by simpa using hchar
        simpa [hplain] using Stretch.word (by simp) (hchars _ hword) hends hrest

/-- A flat text goes on to any stretch at which its last word ends. -/
theorem Stretch.flat_append (hs : Flat s) (ht : Stretch ws t)
    (hhead : ∀ c ∈ t.head?, isListChar c = false) : Stretch (words s ++ ws) (s ++ t) := by
  have hnone : ∀ c ∈ [], isPlain c = true := by simp
  exact ht.wordsFrom_append hhead hnone hs

/-! ### The walk -/

/-- Over a stretch the walk comes to what follows it, unless a word ends the list. -/
theorem Stretch.nextItem (h : Stretch ws s) (ht : ∀ c ∈ t.head?, isListChar c = false) :
    nextItem (s ++ t) = if ws.any (isOneOf listEnds) then none else nextItem t := by
  unfold Sql.nextItem
  induction h with
  | nil => simp
  | mark char quote opens closes comma rest ih =>
    rw [List.cons_append, nextFrom_mark char quote ⟨opens, closes, comma⟩, ih]
  | @word ws w s ne_nil chars ends rest ih =>
    have hends : ∀ c ∈ (s ++ t).head?, isListChar c = false := by
      cases s with
      | nil => exact ht
      | cons c s => exact ends
    rw [List.append_assoc, nextFrom_word chars (by simpa using ne_nil) hends, List.reverse_nil,
      List.nil_append, ih, List.any_cons]
    cases isOneOf listEnds w <;> simp
  | quoted isMark free rest ih =>
    rw [List.cons_append, List.append_assoc, List.cons_append, nextFrom_quote isMark,
      nextFrom_quoted free, ih]
  | group inner rest ih =>
    rw [List.cons_append, List.append_assoc, List.cons_append, nextFrom_open, inner.nextFrom,
      nextFrom_close, ih]

/-- What the walk comes to stands behind a comma and a stretch of which no word ends the list. -/
theorem exists_of_nextItem (h : nextItem text = some next) : ∃ ws s after, Stretch ws s ∧
    (∀ w ∈ ws, isOneOf listEnds w = false) ∧ text = s ++ ',' :: after ∧ next = trimStart after := by
  unfold nextItem at h
  generalize hlength : text.length = n
  induction n using Nat.strong_induction_on generalizing text with
  | _ n ih =>
    cases text with
    | nil => simp [nextFrom] at h
    | cons c s =>
      rcases kinds c with hchar | hquote | rfl | rfl | rfl | ⟨hchar, hquote, hopen, hclose, hcomma⟩
      · obtain ⟨w, u, hsplit, hne, hw, hends⟩ := exists_word (s := s) hchar
        have hshorter : u.length < n := by
          have hpos := List.length_pos_iff.2 hne
          rw [hsplit, List.length_append] at hlength
          omega
        rw [hsplit, nextFrom_word hw (by simpa using hne) hends, List.reverse_nil,
          List.nil_append] at h
        split at h
        · simp at h
        next hfree =>
        rw [Bool.not_eq_true] at hfree
        obtain ⟨ws, r, after, hr, hws, rfl, hnext⟩ := ih _ hshorter h rfl
        have hends : ∀ d ∈ r.head?, isListChar d = false := by
          cases r with
          | nil => simp
          | cons d r => exact hends
        exact ⟨w :: ws, w ++ r, after, .word hne hw hends hr, List.forall_mem_cons.2 ⟨hfree, hws⟩,
          by rw [hsplit, List.append_assoc], hnext⟩
      · rw [nextFrom_quote hquote] at h
        obtain ⟨m, u, rfl, hm, hu⟩ := exists_of_nextFrom_quoted h
        have hshorter : u.length < n := by
          simp only [List.length_append, List.length_cons] at hlength
          omega
        obtain ⟨ws, r, after, hr, hws, rfl, hnext⟩ := ih _ hshorter hu rfl
        exact ⟨ws, c :: (m ++ c :: r), after, .quoted hquote hm hr, hws, by simp, hnext⟩
      · rw [nextFrom_open] at h
        obtain ⟨g, u, rfl, hg, hu⟩ := exists_of_nextFrom_group h
        have hshorter : u.length < n := by
          simp only [List.length_append, List.length_cons] at hlength
          omega
        obtain ⟨ws, r, after, hr, hws, rfl, hnext⟩ := ih _ hshorter hu rfl
        exact ⟨ws, '(' :: (g ++ ')' :: r), after, .group hg hr, hws, by simp, hnext⟩
      · exact absurd (h.symm.trans nextItem_close) (by simp)
      · have hnext : trimStart s = next := Option.some.inj (nextItem_comma.symm.trans h)
        exact ⟨[], [], s, .nil, by simp, rfl, hnext.symm⟩
      · rw [nextFrom_mark hchar hquote ⟨hopen, hclose, hcomma⟩] at h
        have hshorter : s.length < n := hlength ▸ Nat.lt_succ_self _
        obtain ⟨ws, r, after, hr, hws, rfl, hnext⟩ := ih _ hshorter h rfl
        exact ⟨ws, c :: r, after, .mark hchar hquote hopen hclose hcomma hr, hws, rfl, hnext⟩

/-- From any text the walk comes to the text behind a comma exactly if it has only a stretch before the
comma, and no word of that ends the list. -/
theorem nextItem_eq_some : nextItem text = some next ↔ ∃ ws s after, Stretch ws s ∧
    (∀ w ∈ ws, isOneOf listEnds w = false) ∧ text = s ++ ',' :: after ∧ next = trimStart after := by
  refine ⟨exists_of_nextItem, ?_⟩
  rintro ⟨ws, s, after, hs, hws, rfl, rfl⟩
  have hcomma : ∀ c ∈ (',' :: after).head?, isListChar c = false := by
    intro c hc
    obtain rfl : ',' = c := by simpa using hc
    decide
  have hfree : ws.any (isOneOf listEnds) = false := by simpa using hws
  rw [hs.nextItem hcomma, hfree]
  exact nextItem_comma

end Querent.Sql
