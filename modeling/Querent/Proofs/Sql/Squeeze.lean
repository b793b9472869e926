import Querent.Proofs.Sql.Nested
import Querent.Proofs.Text.Blank
import Querent.Sql.Statement

/-! A statement with its blanks squeezed. Its quotes, its open parentheses and the words before them are
those of the statement as it was written. -/
namespace Querent.Sql

open Text

variable {s t w b g n a : List Char} {c : Char} {inside : Bool} {quote : Option Char}

theorem quoteAfter_squeezeFrom (hquote : ∀ m ∈ quote, isQuote m = true) :
    quoteAfter quote (squeezeFrom inside s) = quoteAfter quote s := by
  induction s generalizing inside quote with
  | nil => rfl
  | cons c s ih =>
    cases hc : isBlank c with
    | false =>
      simp only [squeezeFrom, hc, quoteAfter_cons, Bool.false_eq_true, if_false]
      exact ih (isQuote_of_nextQuote hquote)
    | true =>
      have hskip : nextQuote quote c = quote :=
        nextQuote_of_not_isQuote hquote (isQuote_of_isBlank hc)
      have hspace : nextQuote quote ' ' = quote :=
        nextQuote_of_not_isQuote hquote (by decide)
      rw [quoteAfter_cons, hskip]
      cases inside <;> simp [squeezeFrom, hc, hspace, ih hquote]

theorem inStep_of_isBlank (hc : isBlank c = true) : inStep quote c = true := by
  cases quote with
  | none => rfl
  | some m =>
    have hne : c ≠ '.' ∧ c ≠ '=' := forall_isBlank (P := fun c => c ≠ '.' ∧ c ≠ '=') (by decide) hc
    unfold inStep
    simp [isNameQuote_of_isBlank hc, hne]

theorem keepsStep_squeezeFrom (hquote : ∀ m ∈ quote, isQuote m = true) :
    keepsStep quote (squeezeFrom inside s) = keepsStep quote s := by
  induction s generalizing inside quote with
  | nil => rfl
  | cons c s ih =>
    cases hc : isBlank c with
    | false =>
      simp only [squeezeFrom, hc, keepsStep, Bool.false_eq_true, if_false]
      rw [ih (isQuote_of_nextQuote hquote)]
    | true =>
      have hskip : nextQuote quote c = quote :=
        nextQuote_of_not_isQuote hquote (isQuote_of_isBlank hc)
      have hspace : nextQuote quote ' ' = quote := nextQuote_of_not_isQuote hquote (by decide)
      have hstep : inStep quote ' ' = true := inStep_of_isBlank (by decide)
      rw [keepsStep, inStep_of_isBlank hc, hskip]
      cases inside <;> simp [squeezeFrom, hc, keepsStep, hspace, hstep, ih hquote]

theorem keepsStep_normalize (h : keepsStep none s = true) : keepsStep none (normalize s) = true := by
  have hblank : ∀ c ∈ s.takeWhile isBlank, isQuote c = false := fun c hc =>
    isQuote_of_isBlank (List.mem_takeWhile_imp hc)
  have hsplit : s = s.takeWhile isBlank ++ trimStart s := List.takeWhile_append_dropWhile.symm
  obtain ⟨r, hr⟩ := trimEnd_isPrefix (s := trimStart s)
  rw [hsplit, keepsStep_append, quoteAfter_of_not_isQuote (by simp) hblank, Bool.and_eq_true, ← hr,
    keepsStep_append, Bool.and_eq_true] at h
  rw [normalize, squeeze, keepsStep_squeezeFrom (by simp), trim]
  exact h.2.1

theorem trailingWord_cons : trailingWord (c :: s) =
    if isLetterOrNumber c || c == '_' then c :: trailingWord s else [] :=
  List.takeWhile_cons

theorem trailingWord_of_isBlank (hc : isBlank c = true) : trailingWord (c :: s) = [] := by
  have hletter : (isLetterOrNumber c || c == '_') = false :=
    forall_isBlank (P := fun c => (isLetterOrNumber c || c == '_') = false) (by decide +kernel) hc
  rw [trailingWord_cons, hletter]
  rfl

theorem lastWord_concat : lastWord (s ++ [c]) =
    if isBlank c then lastWord s else (trailingWord (c :: s.reverse)).reverse := by
  unfold lastWord
  rw [List.reverse_append, List.reverse_singleton, List.singleton_append]
  cases hc : isBlank c <;> simp [trimStart, hc]

/-- The word that a text ends in, and the one before the blanks that it ends in. -/
theorem trailingWord_squeezeFrom (s : List Char) :
    trailingWord (squeezeFrom true s).reverse = trailingWord s.reverse ∧
      lastWord (squeezeFrom true s) = lastWord s := by
  induction s using List.reverseRecOn with
  | nil => exact ⟨rfl, rfl⟩
  | append_singleton s c ih =>
    obtain ⟨htrail, hlast⟩ := ih
    have hspace : isBlank ' ' = true := by decide
    have hrev : (s ++ [c]).reverse = c :: s.reverse := by simp
    rw [squeezeFrom_concat, lastWord_concat, hrev]
    cases hc : isBlank c with
    | false =>
      have hsame : trailingWord (c :: (squeezeFrom true s).reverse) =
          trailingWord (c :: s.reverse) := by
        rw [trailingWord_cons, trailingWord_cons, htrail]
      simp [lastWord_concat, hc, hsame]
    | true =>
      rw [trailingWord_of_isBlank hc]
      cases hin : insideAfter true s with
      | false => simp [lastWord_concat, hspace, trailingWord_of_isBlank hspace, hlast]
      | true =>
        have hnone : trailingWord s.reverse = [] := by
          rcases List.eq_nil_or_concat s with rfl | ⟨s, d, rfl⟩
          · rfl
          · have hd : isBlank d = true := by simpa [insideAfter] using hin
            simp [trailingWord_of_isBlank hd]
        simp [htrail, hnone, hlast]

theorem openFrom_singleton {opens : List (List Char)} {before : List Char} :
    openFrom opens quote before [c] =
      if quote.isSome then opens
      else if c == '(' then before :: opens
      else if c == ')' then opens.tail
      else opens := rfl

theorem openFrom_squeezeFrom (s : List Char) : openFrom [] none [] (squeezeFrom true s) =
    (openFrom [] none [] s).map fun x => (squeezeFrom true x.reverse).reverse := by
  induction s using List.reverseRecOn with
  | nil => rfl
  | append_singleton s c ih =>
    have hquote : quoteAfter none (squeezeFrom true s) = quoteAfter none s :=
      quoteAfter_squeezeFrom (by simp)
    rw [squeezeFrom_concat, openFrom_append, openFrom_append, ih, hquote, List.append_nil,
      List.append_nil]
    cases hc : isBlank c with
    | true =>
      rw [openFrom_blanks (List.forall_mem_singleton.2 hc)]
      cases insideAfter true s
      · exact openFrom_blanks (s := [' ']) (List.forall_mem_singleton.2 (by decide))
      · rfl
    | false =>
      simp only [Bool.false_eq_true, if_false]
      rw [openFrom_singleton, openFrom_singleton]
      split
      · rfl
      · split
        · simp
        · split <;> simp

/-- Squeezing blanks makes no difference to whether a FROM opens a clause. -/
theorem opensClause_squeezeFrom (s : List Char) :
    opensClause (squeezeFrom true s).reverse = opensClause s.reverse := by
  rw [Bool.eq_iff_iff, opensClause_eq_true, opensClause_eq_true, (trailingWord_squeezeFrom s).2]
  unfold innermostOpen
  rw [openFrom_squeezeFrom, List.head?_map]
  cases (openFrom [] none [] s).head? with
  | none => simp
  | some y => simp [(trailingWord_squeezeFrom y.reverse).2]

/-- Before a squeezed text ends a word ends in it where one ends in the text. -/
theorem isWordChar_getLast?_squeezeFrom :
    (∀ c ∈ (squeezeFrom true s).getLast?, isWordChar c = false) ↔
      ∀ c ∈ s.getLast?, isWordChar c = false := by
  have hspace : isWordChar ' ' = false := by decide
  constructor
  · intro h
    rcases List.eq_nil_or_concat s with rfl | ⟨s, d, rfl⟩
    · simp
    · cases hd : isBlank d with
      | true => simpa using isWordChar_of_isBlank hd
      | false =>
        rw [List.concat_eq_append, squeezeFrom_concat, hd] at h
        simpa using h
  · intro h c hc
    have hlast := getLast?_squeezeFrom c hc
    split at hlast
    · rwa [hlast]
    · exact h c hlast

/-! ### Texts around a run of other characters -/

theorem normalize_run (hn : n ≠ [] ∧ ∀ c ∈ n, isBlank c = false) :
    normalize (b ++ (n ++ a)) = squeezeFrom true b ++ (n ++ squeezeFrom false (trimEnd a)) := by
  have hfront : trimStart (b ++ (n ++ a)) = trimStart b ++ n ++ a := by
    obtain ⟨c, n, rfl⟩ := List.exists_cons_of_ne_nil hn.1
    rw [Text.trimStart_append (by simpa using hn.2 c (by simp))]
    simp
  have hback : trimEnd (trimStart b ++ n ++ a) = trimStart b ++ (n ++ trimEnd a) := by
    have hlast := List.getLast?_eq_some_getLast hn.1
    have hblank := hn.2 _ (List.getLast_mem hn.1)
    rw [Text.trimEnd_append (by simpa [List.getLast?_append, hlast] using hblank), List.append_assoc]
  unfold normalize trim squeeze
  rw [hfront, hback, Text.squeezeFrom_append, squeezeFrom_trimStart, Text.squeezeFrom_append,
    squeezeFrom_run hn.2, insideAfter_run hn.1 hn.2]

/-- Text as it is read, around a run of blanks between two words. -/
theorem normalize_append (hw : w ≠ [] ∧ ∀ c ∈ w, isBlank c = false)
    (hg : g ≠ [] ∧ ∀ c ∈ g, isBlank c = true) (hn : n ≠ [] ∧ ∀ c ∈ n, isBlank c = false) :
    normalize (b ++ (w ++ (g ++ (n ++ a)))) =
      squeezeFrom true b ++ (w ++ ' ' :: (n ++ squeezeFrom false (trimEnd a))) := by
  have hgap : squeezeFrom false g = [' '] := by
    obtain ⟨c, g, rfl⟩ := List.exists_cons_of_ne_nil hg.1
    obtain ⟨hc, hrest⟩ := List.forall_mem_cons.1 hg.2
    simp [squeezeFrom, hc, squeezeFrom_blanks hrest]
  have hlead : squeezeFrom true (b ++ (w ++ g)) = squeezeFrom true b ++ (w ++ [' ']) := by
    rw [Text.squeezeFrom_append, Text.squeezeFrom_append, squeezeFrom_run hw.2,
      insideAfter_run hw.1 hw.2, hgap]
  have hassoc : b ++ (w ++ (g ++ (n ++ a))) = (b ++ (w ++ g)) ++ (n ++ a) := by simp
  rw [hassoc, normalize_run hn, hlead]
  simp

/-- A character other than a blank that stands in a squeezed text stands in the text. -/
theorem exists_of_squeezeFrom (hc : isBlank c = false) (h : squeezeFrom inside s = t ++ c :: a) :
    ∃ b r, s = b ++ c :: r ∧ squeezeFrom inside b = t ∧ squeezeFrom false r = a := by
  induction s generalizing inside t with
  | nil => simp [squeezeFrom] at h
  | cons d s ih =>
    cases hd : isBlank d with
    | false =>
      cases t with
      | nil =>
        obtain ⟨rfl, rfl⟩ : d = c ∧ squeezeFrom false s = a := by simpa [squeezeFrom, hd] using h
        exact ⟨[], s, rfl, rfl, rfl⟩
      | cons e t =>
        obtain ⟨rfl, hrest⟩ : d = e ∧ squeezeFrom false s = t ++ c :: a := by
          simpa [squeezeFrom, hd] using h
        obtain ⟨b, r, rfl, rfl, rfl⟩ := ih hrest
        exact ⟨d :: b, r, rfl, by simp [squeezeFrom, hd], rfl⟩
    | true =>
      cases inside with
      | true =>
        have hrest : squeezeFrom true s = t ++ c :: a := by simpa [squeezeFrom, hd] using h
        obtain ⟨b, r, rfl, rfl, rfl⟩ := ih hrest
        exact ⟨d :: b, r, rfl, by simp [squeezeFrom, hd], rfl⟩
      | false =>
        cases t with
        | nil =>
          obtain ⟨rfl, -⟩ : ' ' = c ∧ squeezeFrom true s = a := by simpa [squeezeFrom, hd] using h
          exact absurd hc (by decide)
        | cons e t =>
          obtain ⟨rfl, hrest⟩ : ' ' = e ∧ squeezeFrom true s = t ++ c :: a := by
            simpa [squeezeFrom, hd] using h
          obtain ⟨b, r, rfl, rfl, rfl⟩ := ih hrest
          exact ⟨d :: b, r, rfl, by simp [squeezeFrom, hd], rfl⟩

/-- The same of a run of such characters. -/
theorem exists_run_of_squeezeFrom (hw : w ≠ [] ∧ ∀ c ∈ w, isBlank c = false)
    (h : squeezeFrom inside s = t ++ (w ++ a)) :
    ∃ b r, s = b ++ (w ++ r) ∧ squeezeFrom inside b = t ∧ squeezeFrom false r = a := by
  obtain ⟨hne, hw⟩ := hw
  induction w generalizing inside s t with
  | nil => contradiction
  | cons c w ih =>
    obtain ⟨hc, hw⟩ := List.forall_mem_cons.1 hw
    obtain ⟨b, r, rfl, rfl, hr⟩ := exists_of_squeezeFrom hc h
    cases w with
    | nil => exact ⟨b, r, rfl, rfl, hr⟩
    | cons d w =>
      obtain ⟨b', r', rfl, hb', rfl⟩ := ih (t := []) hr (by simp) hw
      have hnil : b' = [] := by
        cases b' with
        | nil => rfl
        | cons e b' => cases he : isBlank e <;> simp [squeezeFrom, he] at hb'
      subst hnil
      exact ⟨b, r', rfl, rfl, rfl⟩

end Querent.Sql
