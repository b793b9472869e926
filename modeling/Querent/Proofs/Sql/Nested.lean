import Mathlib.Data.List.Induction
import Querent.Proofs.Sql.Quoting

/-! Which parenthesis is open at a place, and the word that a text ends in: what decides whether a FROM
opens a clause, told without a scan. -/
namespace Querent.Sql

open Text

/-- Text whose quotes are closed and whose parentheses outside quotes close in order. -/
inductive Nested : List Char → Prop where
  | nil : Nested []
  | char {c : Char} (quote : isQuote c = false) (opens : c ≠ '(') (closes : c ≠ ')') : Nested [c]
  | quoted {m : Char} {s : List Char} (isMark : isQuote m = true) (free : m ∉ s) :
      Nested (m :: (s ++ [m]))
  | group {s : List Char} (inner : Nested s) : Nested ('(' :: (s ++ [')']))
  | append {s t : List Char} (left : Nested s) (right : Nested t) : Nested (s ++ t)

/-- Text that is nested but for the quotes it ends in. -/
def NestedUpTo (quote : Option Char) (s : List Char) : Prop :=
  match quote with
  | none => Nested s
  | some m => ∃ t u, s = t ++ m :: u ∧ Nested t ∧ isQuote m = true ∧ m ∉ u

variable {s t u x y before : List Char} {opens rest : List (List Char)} {quote : Option Char}
  {c m : Char} {k : String} {ks : List String}

theorem Nested.quoteAfter (hs : Nested s) : quoteAfter none s = none := by
  induction hs with
  | nil => rfl
  | char quote => simp [nextQuote_none quote]
  | quoted isMark free => exact quoteAfter_quoted isMark free
  | group inner ih =>
    rw [quoteAfter_cons, nextQuote_none (by decide), quoteAfter_append, ih]
    rfl
  | append left right ihl ihr => rw [quoteAfter_append, ihl, ihr]

/-- In quotes no parenthesis counts. -/
theorem openFrom_quoted (h : m ∉ s) : openFrom opens (some m) before s = opens := by
  induction s generalizing before with
  | nil => rfl
  | cons c s ih =>
    obtain ⟨hc, hs⟩ : m ≠ c ∧ m ∉ s := by simpa using h
    rw [openFrom, nextQuote_inside (Ne.symm hc)]
    exact ih hs

theorem openFrom_mark (hm : isQuote m = true) :
    openFrom opens none before (m :: t) = openFrom opens (some m) (m :: before) t := by
  simp [openFrom, ne_of_isQuote hm, nextQuote_open hm]

theorem Nested.openFrom (hs : Nested s) : openFrom opens none before s = opens := by
  induction hs generalizing opens before with
  | nil => rfl
  | char quote hopen hclose => simp [Sql.openFrom, hopen, hclose]
  | @quoted m s isMark free =>
    rw [openFrom_mark isMark, openFrom_append, openFrom_quoted free, quoteAfter_of_not_mem free]
    simp [Sql.openFrom]
  | group inner ih =>
    have hstep (t : List Char) : Sql.openFrom opens none before ('(' :: t) =
        Sql.openFrom (before :: opens) none ('(' :: before) t := rfl
    rw [hstep, openFrom_append, ih, inner.quoteAfter]
    simp [Sql.openFrom]
  | append left right ihl ihr => rw [openFrom_append, ihl, left.quoteAfter, ihr]

/-- What one more character does to a text that is nested but for its quotes. -/
theorem NestedUpTo.concat (h : NestedUpTo quote s)
    (hc : quote = none → c ≠ '(' ∧ c ≠ ')') : NestedUpTo (nextQuote quote c) (s ++ [c]) := by
  cases quote with
  | none =>
    by_cases hmark : isQuote c = true
    · rw [nextQuote_open hmark]
      exact ⟨s, [], rfl, h, hmark, by simp⟩
    · rw [Bool.not_eq_true] at hmark
      rw [nextQuote_none hmark]
      exact .append h (.char hmark (hc rfl).1 (hc rfl).2)
  | some m =>
    obtain ⟨t, u, rfl, ht, hm, hu⟩ := h
    by_cases hclose : c = m
    · subst hclose
      rw [nextQuote_close, List.append_assoc]
      exact ht.append (.quoted hm hu)
    · rw [nextQuote_inside hclose]
      exact ⟨t, u ++ [c], by simp, ht, hm, by simp [hu, Ne.symm hclose]⟩

/-- Behind such a text the same parentheses are open as before it. -/
theorem NestedUpTo.openFrom (hs : NestedUpTo quote s) : openFrom opens none before s = opens := by
  cases quote with
  | none => exact Nested.openFrom hs
  | some m =>
    obtain ⟨t, u, rfl, ht, hm, hu⟩ := hs
    rw [openFrom_append, ht.openFrom, ht.quoteAfter, openFrom_mark hm, openFrom_quoted hu]

/-! ### The parentheses that are open -/

/-- The texts before the parentheses that are open behind a text, innermost first. -/
inductive Opened : List Char → List (List Char) → Prop where
  | nil (s : List Char) : Opened s []
  | cons {x s : List Char} {rest : List (List Char)} (outside : quoteAfter none x = none)
      (inner : NestedUpTo (quoteAfter none (x ++ '(' :: s)) s) (outer : Opened x rest) :
      Opened (x ++ '(' :: s) (x.reverse :: rest)

theorem Opened.concat (h : Opened s opens) :
    Opened (s ++ [c]) (openFrom opens (quoteAfter none s) s.reverse [c]) := by
  have hquote : quoteAfter none (s ++ [c]) = nextQuote (quoteAfter none s) c := by
    rw [quoteAfter_append]
    rfl
  -- a character that opens and closes nothing
  have hkeep (hc : quoteAfter none s = none → c ≠ '(' ∧ c ≠ ')') : Opened (s ++ [c]) opens := by
    cases h with
    | nil => exact .nil _
    | @cons x t rest outside inner outer =>
      have hassoc : x ++ '(' :: t ++ [c] = x ++ '(' :: (t ++ [c]) := by simp
      rw [hassoc] at hquote ⊢
      refine .cons outside ?_ outer
      rw [hquote]
      exact inner.concat hc
  by_cases hout : quoteAfter none s = none
  · by_cases hopen : c = '('
    · subst hopen
      have hnew : openFrom opens (quoteAfter none s) s.reverse ['('] = s.reverse :: opens := by
        simp [openFrom, hout]
      rw [hnew]
      refine .cons hout ?_ h
      rw [quoteAfter_append, hout]
      exact .nil
    · by_cases hclose : c = ')'
      · subst hclose
        have hless : openFrom opens (quoteAfter none s) s.reverse [')'] = opens.tail := by
          simp [openFrom, hout]
        rw [hless]
        cases h with
        | nil => exact .nil _
        | @cons x t rest outside inner outer =>
          rw [hout] at inner
          cases outer with
          | nil => exact .nil _
          | @cons y u rest outside' inner' outer' =>
            -- the group that is closed becomes part of the text inside the next one
            rw [outside] at inner'
            have hassoc : y ++ '(' :: u ++ '(' :: t ++ [')'] =
                y ++ '(' :: (u ++ ('(' :: (t ++ [')']))) := by simp
            rw [hassoc] at hquote ⊢
            refine .cons outside' ?_ outer'
            rw [hquote, hout]
            exact inner'.append (.group inner)
      · have hsame : openFrom opens (quoteAfter none s) s.reverse [c] = opens := by
          simp [openFrom, hopen, hclose]
        rw [hsame]
        exact hkeep fun _ => ⟨hopen, hclose⟩
  · have hsame : openFrom opens (quoteAfter none s) s.reverse [c] = opens := by
      have hin : (quoteAfter none s).isSome = true := Option.isSome_iff_ne_none.2 hout
      simp [openFrom, hin]
    rw [hsame]
    exact hkeep fun hnone => absurd hnone hout

theorem opened_openFrom (s : List Char) : Opened s (openFrom [] none [] s) := by
  induction s using List.reverseRecOn with
  | nil => exact .nil []
  | append_singleton s c ih =>
    rw [openFrom_append, List.append_nil]
    exact ih.concat

/-- A parenthesis outside quotes leaves it to the text behind it which quotes are open. -/
theorem quoteAfter_opened (hx : quoteAfter none x = none) :
    quoteAfter none (x ++ '(' :: t) = quoteAfter none t := by
  rw [quoteAfter_append, hx, quoteAfter_cons, nextQuote_none (by decide)]

/-- The innermost open parenthesis is the one with a text behind it that is nested but for the quotes it
ends in. -/
theorem innermostOpen_iff : innermostOpen s = some y ↔ ∃ x t, s = x ++ '(' :: t ∧ y = x.reverse ∧
    quoteAfter none x = none ∧ NestedUpTo (quoteAfter none t) t := by
  constructor
  · intro h
    unfold innermostOpen at h
    have hopened := opened_openFrom s
    generalize openFrom [] none [] s = opens at h hopened
    cases hopened with
    | nil => cases h
    | @cons x t rest outside inner outer =>
      cases h
      rw [quoteAfter_opened outside] at inner
      exact ⟨x, t, rfl, rfl, outside, inner⟩
  · rintro ⟨x, t, rfl, rfl, hx, ht⟩
    have hstep : ∀ opens b, openFrom opens none b ('(' :: t) = openFrom (b :: opens) none ('(' :: b) t :=
      fun _ _ => rfl
    rw [innermostOpen, openFrom_append, hx, hstep, ht.openFrom]
    simp

/-- Outside quotes the text behind the innermost open parenthesis is nested. -/
theorem innermostOpen_eq_some (hs : quoteAfter none s = none) : innermostOpen s = some y ↔
    ∃ x t, s = x ++ '(' :: t ∧ y = x.reverse ∧ quoteAfter none x = none ∧ Nested t := by
  rw [innermostOpen_iff]
  refine exists_congr fun x => exists_congr fun t => and_congr_right ?_
  rintro rfl
  refine and_congr_right fun _ => and_congr_right fun hx => ?_
  rw [quoteAfter_opened hx] at hs
  rw [hs]
  rfl

/-! ### The word that a text ends in -/

/-- A text ends in some keywords, nearest first and with blanks between and behind them: each in either
case, and with no letter, no number and no underscore right before it. -/
def EndsIn : List String → List Char → Prop
  | [], _ => True
  | k :: ks, s => ∃ u w g, s = u ++ (w ++ g) ∧ sameLetters w k.toList = true ∧
      (∀ c ∈ g, isBlank c = true) ∧
      (∀ c ∈ u.getLast?, (isLetterOrNumber c || c == '_') = false) ∧ EndsIn ks u

/-- The word that decides, by a look back from the end of a text. -/
def lastWord (s : List Char) : List Char := (trailingWord (trimStart s.reverse)).reverse

/-- The text before that word. -/
def beforeWord (s : List Char) : List Char :=
  ((trimStart s.reverse).dropWhile fun c => isLetterOrNumber c || c == '_').reverse

theorem isAlpha_of_toLower {d : Char} (hd : d.isUpper = true) (h : c.toLower = d.toLower) :
    c.isAlpha = true := by
  by_cases hc : c.isUpper = true
  · exact Bool.or_eq_true_iff.2 (.inl hc)
  · have hkeep : c.toLower = c := by
      unfold Char.toLower
      rw [dif_neg]
      exact fun h => hc (decide_eq_true h)
    have hplain : isPlain d = true := by
      have halpha : d.isAlpha = true := Bool.or_eq_true_iff.2 (.inl hd)
      simp [isPlain, Char.isAlphanum, halpha]
    rw [← hkeep, h]
    exact forall_isPlain (P := fun d => d.isUpper = true → d.toLower.isAlpha = true)
      (by decide) hplain hd

/-- What is the same as a keyword is made of letters. -/
theorem isAlpha_of_sameLetters {w : List Char} (hk : k.toList.all Char.isUpper = true)
    (h : sameLetters w k.toList = true) : ∀ c ∈ w, c.isAlpha = true := by
  unfold sameLetters at h
  rw [beq_iff_eq] at h
  intro c hc
  have hmem : c.toLower ∈ k.toList.map Char.toLower := by
    rw [← h]
    exact List.mem_map_of_mem hc
  obtain ⟨d, hd, heq⟩ := List.mem_map.1 hmem
  exact isAlpha_of_toLower (List.all_eq_true.1 hk d hd) heq.symm

/-- A word of letters in front of blanks is the last one. -/
theorem lastWord_append {w g : List Char} (hne : w ≠ []) (hw : ∀ c ∈ w, isPlain c = true)
    (hg : ∀ c ∈ g, isBlank c = true)
    (hu : ∀ c ∈ u.getLast?, (isLetterOrNumber c || c == '_') = false) :
    lastWord (u ++ (w ++ g)) = w ∧ beforeWord (u ++ (w ++ g)) = u := by
  have hletter : ∀ c ∈ w.reverse, (isLetterOrNumber c || c == '_') = true := by
    intro c hc
    exact forall_isPlain (P := fun c => (isLetterOrNumber c || c == '_') = true)
      (by decide) (hw c (by simpa using hc))
  have htrim : trimStart (u ++ (w ++ g)).reverse = w.reverse ++ u.reverse := by
    have hrev : (u ++ (w ++ g)).reverse = g.reverse ++ (w.reverse ++ u.reverse) := by simp
    obtain ⟨cs, c, rfl⟩ := (List.eq_nil_or_concat w).resolve_left hne
    have hc : isBlank c = false := isBlank_of_isPlain (hw c (by simp))
    rw [hrev, trimStart, List.dropWhile_append_of_pos (by simpa using hg)]
    simp [hc]
  have hstop : ∀ c ∈ u.reverse.head?, (isLetterOrNumber c || c == '_') = false := by
    simpa using hu
  unfold lastWord beforeWord trailingWord
  rw [htrim, List.takeWhile_append_of_pos hletter, List.dropWhile_append_of_pos hletter]
  cases hrest : u.reverse with
  | nil => simpa using hrest
  | cons c cs =>
    have hc : (isLetterOrNumber c || c == '_') = false := hstop c (by simp [hrest])
    rw [List.takeWhile_cons_of_neg (by simp [hc]), List.dropWhile_cons_of_neg (by simp [hc]),
      List.append_nil, List.reverse_reverse, ← hrest, List.reverse_reverse]
    exact ⟨rfl, rfl⟩

theorem endsIn_cons (hk : k.toList ≠ [] ∧ k.toList.all Char.isUpper = true) :
    EndsIn (k :: ks) s ↔ sameLetters (lastWord s) k.toList = true ∧ EndsIn ks (beforeWord s) := by
  constructor
  · rintro ⟨u, w, g, rfl, hw, hg, hu, hks⟩
    have hplain : ∀ c ∈ w, isPlain c = true := fun c hc => by
      simp [isPlain, Char.isAlphanum, isAlpha_of_sameLetters hk.2 hw c hc]
    have hne : w ≠ [] := by
      rintro rfl
      have hnil : k.toList.map Char.toLower = [] := by simpa [sameLetters] using hw
      exact hk.1 (List.map_eq_nil_iff.1 hnil)
    obtain ⟨hlast, hbefore⟩ := lastWord_append hne hplain hg hu
    rw [hlast, hbefore]
    exact ⟨hw, hks⟩
  · rintro ⟨hw, hks⟩
    have htext : s = beforeWord s ++ (lastWord s ++ (s.reverse.takeWhile isBlank).reverse) := by
      rw [lastWord, trailingWord, beforeWord, ← List.append_assoc, ← List.reverse_append,
        List.takeWhile_append_dropWhile, trimStart, ← List.reverse_append,
        List.takeWhile_append_dropWhile, List.reverse_reverse]
    refine ⟨_, lastWord s, _, htext, hw, ?_, ?_, hks⟩
    · intro c hc
      rw [List.mem_reverse] at hc
      exact List.mem_takeWhile_imp hc
    · intro c hc
      unfold beforeWord at hc
      rw [List.getLast?_reverse] at hc
      have hstop := List.head?_dropWhile_not (fun c => isLetterOrNumber c || c == '_')
        (trimStart s.reverse)
      rw [Option.mem_def.1 hc] at hstop
      simpa using hstop

theorem endsIn_singleton (hk : k.toList ≠ [] ∧ k.toList.all Char.isUpper = true) :
    EndsIn [k] s ↔ sameLetters (lastWord s) k.toList = true := by
  rw [endsIn_cons hk]
  exact and_iff_left trivial

theorem openFrom_blanks (hs : ∀ c ∈ s, isBlank c = true) : openFrom opens quote before s = opens := by
  induction s generalizing quote before with
  | nil => rfl
  | cons c s ih =>
    obtain ⟨hc, hs⟩ := List.forall_mem_cons.1 hs
    have hne : c ≠ '(' ∧ c ≠ ')' := by
      constructor
      all_goals
        rintro rfl
        exact absurd hc (by decide)
    rw [openFrom]
    simpa [hne] using ih hs

/-- Behind blanks the same parentheses are open. -/
theorem innermostOpen_trimEnd (s : List Char) : innermostOpen (trimEnd s) = innermostOpen s := by
  have htext : s = trimEnd s ++ (s.reverse.takeWhile isBlank).reverse := by
    rw [trimEnd, ← List.reverse_append, List.takeWhile_append_dropWhile, List.reverse_reverse]
  conv_rhs => rw [htext, innermostOpen, openFrom_append]
  rw [openFrom_blanks]
  · rfl
  · intro c hc
    rw [List.mem_reverse] at hc
    exact List.mem_takeWhile_imp hc

theorem not_isOneOf_iff (hk : ∀ k ∈ ks, k.toList ≠ [] ∧ k.toList.all Char.isUpper = true) :
    isOneOf ks (lastWord s) = false ↔ ∀ k ∈ ks, ¬ EndsIn [k] s := by
  rw [isOneOf_eq_false]
  refine forall₂_congr fun k hmem => ?_
  rw [endsIn_singleton (hk k hmem), Bool.not_eq_true]
  simp only [sameLetters, Bool.beq_comm]

theorem opensClause_eq_true : opensClause s.reverse = true ↔
    sameLetters (lastWord s) "DISTINCT".toList = false ∧
      ∀ y ∈ innermostOpen s, isOneOf fromFunctions (lastWord y.reverse) = false := by
  have htrim : (trimStart s.reverse).reverse = trimEnd s := rfl
  unfold opensClause
  simp only [htrim, innermostOpen_trimEnd]
  change (if sameLetters (lastWord s) "DISTINCT".toList = true then false else _) = true ↔ _
  cases sameLetters (lastWord s) "DISTINCT".toList with
  | true => simp
  | false =>
    cases innermostOpen s with
    | none => simp
    | some y =>
      have hcallee : (trailingWord (trimStart y)).reverse = lastWord y.reverse := by
        rw [lastWord, List.reverse_reverse]
      simp [hcallee]

/-- A place directly in the parentheses of a call that takes a FROM. -/
def InCall (s : List Char) : Prop :=
  ∃ x t, s = x ++ '(' :: t ∧ quoteAfter none x = none ∧ Nested t ∧
    ∃ k ∈ fromFunctions, EndsIn [k] x

/-- A FROM opens a clause but behind the word DISTINCT and directly in the parentheses of a call that
takes a FROM. -/
theorem opensClause_iff (hs : quoteAfter none s = none) : opensClause s.reverse = true ↔
    ¬ EndsIn ["DISTINCT"] s ∧ ¬ InCall s := by
  rw [opensClause_eq_true, endsIn_singleton (by decide), Bool.not_eq_true]
  refine and_congr_right fun _ => ?_
  constructor
  · rintro h ⟨x, t, hsplit, hx, ht, k, hk, hends⟩
    have hcallee := h x.reverse ((innermostOpen_eq_some hs).2 ⟨x, t, hsplit, rfl, hx, ht⟩)
    rw [List.reverse_reverse] at hcallee
    exact (not_isOneOf_iff (by decide)).1 hcallee k hk hends
  · intro h y hy
    obtain ⟨x, t, hsplit, rfl, hx, ht⟩ := (innermostOpen_eq_some hs).1 hy
    rw [List.reverse_reverse]
    exact (not_isOneOf_iff (by decide)).2 fun k hk hends => h ⟨x, t, hsplit, hx, ht, k, hk, hends⟩

end Querent.Sql
