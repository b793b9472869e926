import Querent.Proofs.Sql.Ident
import Querent.Proofs.Sql.Lower

/-! White space before a quoted name. Where names, items and lists are read on the way to it, they are
read the same with it and without it. -/
namespace Querent.Sql

open Text

/-- A quoted name and the text behind it, with white space that stands before it. -/
structure Quoted where
  gap : List Char
  mark : Char
  rest : List Char
  blank : ∀ c ∈ gap, isBlank c = true
  isMark : isNameQuote mark = true

/-- A text that ends outside quotes, and not in the second letter of AS. -/
structure Ends (quote : Option Char) (u : List Char) : Prop where
  closed : quoteAfter quote u = none
  last : ∀ c ∈ u.getLast?, keyLetter c ≠ 'S'

variable {α β : Type} {q : Quoted} {u v s s' w word name : List Char} {c m : Char} {d : Dialect}
  {opens : Char → Bool} {quote : Option Char} {depth : Nat}

namespace Quoted

/-- The name without the white space. -/
def tight (q : Quoted) : List Char := q.mark :: q.rest

/-- The name behind the white space. -/
def spaced (q : Quoted) : List Char := q.gap ++ q.tight

theorem trimStart_tight (q : Quoted) : trimStart q.tight = q.tight :=
  trimStart_cons (isBlank_of_isNameQuote q.isMark)

theorem trimStart_spaced (q : Quoted) : trimStart q.spaced = q.tight := by
  rw [spaced, trimStart_blanks q.blank, q.trimStart_tight]

end Quoted

theorem Ends.append (h : Ends quote (u ++ v)) : Ends (quoteAfter quote u) v where
  closed := by rw [← quoteAfter_append, h.closed]
  last c hc := h.last c (by rw [List.getLast?_append, Option.mem_def.1 hc]; rfl)

theorem Ends.behind (h : Ends none (u ++ v)) (hu : quoteAfter none u = none) : Ends none v :=
  hu ▸ h.append

theorem Ends.tail (h : Ends quote (c :: u)) : Ends (nextQuote quote c) u := Ends.append (u := [c]) h

/-- Two texts that are one but for the white space before a quoted name, if they come to it at all. -/
inductive Near (q : Quoted) : List Char → List Char → Prop
  | same (s : List Char) : Near q s s
  | ahead {u : List Char} (ends : Ends none u) : Near q (u ++ q.spaced) (u ++ q.tight)

/-- The same of two texts that do not begin with the white space. -/
inductive Flush (q : Quoted) : List Char → List Char → Prop
  | same (s : List Char) : Flush q s s
  | ahead {c : Char} {u : List Char} (ends : Ends none (c :: u)) :
      Flush q (c :: (u ++ q.spaced)) (c :: (u ++ q.tight))

/-- What is read of two texts is the same, and what is left of them is one but for the white space. -/
def Alike (q : Quoted) (x y : α × List Char) : Prop := x.1 = y.1 ∧ Near q x.2 y.2

theorem Near.trimStart (h : Near q s s') : Flush q (trimStart s) (trimStart s') := by
  cases h with
  | same => exact .same _
  | @ahead u ends =>
    have hsplit : u = u.takeWhile isBlank ++ Text.trimStart u := List.takeWhile_append_dropWhile.symm
    have hblank : ∀ c ∈ u.takeWhile isBlank, isBlank c = true := fun _ => List.mem_takeWhile_imp
    have hfront (t : List Char) : Text.trimStart (u ++ t) = Text.trimStart (Text.trimStart u ++ t) := by
      conv_lhs => rw [hsplit, List.append_assoc, trimStart_blanks hblank]
    have hends : Ends none (Text.trimStart u) := by
      refine Ends.behind (u := u.takeWhile isBlank) (hsplit ▸ ends) ?_
      exact quoteAfter_of_not_isQuote (by simp) fun c hc => isQuote_of_isBlank (hblank c hc)
    rw [hfront, hfront]
    cases hu : Text.trimStart u with
    | nil =>
      rw [List.nil_append, List.nil_append, q.trimStart_spaced, q.trimStart_tight]
      exact .same _
    | cons c v =>
      have hc : isBlank c = false := by
        have hhead := List.head?_dropWhile_not isBlank u
        rw [show u.dropWhile isBlank = c :: v from hu] at hhead
        simpa using hhead
      rw [List.cons_append, List.cons_append, trimStart_cons hc, trimStart_cons hc]
      exact .ahead (hu ▸ hends)

/-! ### Names -/

/-- In front of the quoted name stands white space or its mark. -/
theorem Quoted.head?_cases (q : Quoted) (hs : ∀ c ∈ s, isBlank c = true) :
    ∀ c ∈ (s ++ q.tight).head?, isBlank c = true ∨ isNameQuote c = true := by
  intro c hc
  cases s with
  | nil =>
    obtain rfl : q.mark = c := by simpa [tight] using hc
    exact .inr q.isMark
  | cons d s =>
    obtain rfl : d = c := by simpa using hc
    exact .inl (hs d (by simp))

/-- No word goes on with the white space or with the quoted name. -/
theorem Quoted.isWordChar_head (q : Quoted) (hs : ∀ c ∈ s, isBlank c = true) :
    ∀ c ∈ (s ++ q.tight).head?, isWordChar c = false := by
  intro c hc
  rcases q.head?_cases hs c hc with hc | hc
  · exact isWordChar_of_isBlank hc
  · exact isWordChar_of_isBorder (isBorder_of_isNameQuote hc)

/-- A name does not go on at the white space or at the quoted name. -/
theorem Quoted.inName_head (q : Quoted) :
    (∀ c ∈ q.spaced.head?, inName c = false) ∧ ∀ c ∈ q.tight.head?, inName c = false := by
  have hhead {s : List Char} (hs : ∀ c ∈ s, isBlank c = true) :
      ∀ c ∈ (s ++ q.tight).head?, inName c = false := by
    intro c hc
    rcases q.head?_cases hs c hc with hc | hc
    · exact inName_of_isBlank hc
    · exact inName_of_isBorder (isBorder_of_isNameQuote hc)
  exact ⟨hhead q.blank, hhead (s := []) (by simp)⟩

theorem Flush.readName (hopens : ∀ c, opens c = true → inName c = true) (h : Flush q s s') :
    Option.Rel (Alike q) (readName opens s) (readName opens s') := by
  cases h with
  | same s =>
    cases readName opens s with
    | none => exact .none
    | some found => exact .some ⟨rfl, .same _⟩
  | @ahead c u ends =>
    have hclosed (hc : isNameQuote c = true) : c ∈ u :=
      mem_of_quoteAfter_cons (isQuote_of_isNameQuote hc) ends.closed
    have hwhole {t : List Char} (ht : ∀ d ∈ t.head?, inName d = false) :
        Sql.readName opens (c :: (u ++ t)) =
          (Sql.readName opens (c :: u)).map fun found => (found.1, found.2 ++ t) :=
      readName_append (hopens c) (fun _ _ d hd _ => ht d hd) hclosed
    rw [hwhole q.inName_head.1, hwhole q.inName_head.2]
    cases hread : Sql.readName opens (c :: u) with
    | none => exact .none
    | some found =>
      obtain ⟨front, hfront, hstate⟩ : ∃ front, c :: u = front ++ found.2 ∧
          quoteAfter none front = none :=
        exists_of_readName hopens (by simp) (fun _ => rfl) hread
      rw [hfront] at ends
      exact .some ⟨rfl, .ahead (ends.behind hstate)⟩

/-! ### Readers that go on -/

theorem Near.afterDot (h : Near q s s') : Option.Rel (Flush q) (afterDot s) (afterDot s') := by
  have hflush := h.trimStart
  unfold Sql.afterDot
  generalize Text.trimStart s = t at hflush
  generalize Text.trimStart s' = t' at hflush
  cases hflush with
  | same t =>
    split
    · exact .some (.same _)
    · exact .none
  | @ahead c u ends =>
    by_cases hdot : c = '.'
    · subst hdot
      have hends : Ends none u := Ends.behind (u := ['.']) ends rfl
      exact .some (Near.ahead hends).trimStart
    · simp only [List.cons.injEq, hdot, false_and, imp_self, implies_true]
      exact .none

theorem afterAs_cons_cons {b : Char} (hb : keyLetter b ≠ 'S') : afterAs (c :: b :: s) = none := by
  cases s with
  | nil => rfl
  | cons d s => simp [afterAs, spells, hb]

/-- No AS ends where the white space or the quoted name begins. -/
theorem Quoted.afterAs_cons (q : Quoted) (c : Char) :
    afterAs (c :: q.spaced) = none ∧ afterAs (c :: q.tight) = none := by
  have hmark : keyLetter q.mark ≠ 'S' :=
    forall_isBorder (P := fun c => keyLetter c ≠ 'S') (by decide) (isBorder_of_isNameQuote q.isMark)
  have htight : afterAs (c :: q.tight) = none := afterAs_cons_cons hmark
  refine ⟨?_, htight⟩
  cases hgap : q.gap with
  | nil => rwa [spaced, hgap]
  | cons b gap =>
    have hblank : keyLetter b ≠ 'S' :=
      forall_isBlank (P := fun c => keyLetter c ≠ 'S') (by decide) (q.blank b (by simp [hgap]))
    rw [spaced, hgap]
    exact afterAs_cons_cons hblank

/-- What stands for a capital is no quote mark. -/
theorem isQuote_of_keyLetter (h : (keyLetter c).isUpper = true) : isQuote c = false := by
  by_contra hquote
  simp only [isQuote, Bool.not_eq_false, Bool.or_eq_true, beq_iff_eq] at hquote
  rcases hquote with (rfl | rfl) | rfl <;> exact absurd h (by decide)

theorem inName_of_opensAlias (h : opensAlias c = true) : inName c = true := by
  simp only [opensAlias, Bool.or_eq_true, beq_iff_eq] at h
  rcases h with (h | rfl) | rfl
  · exact inName_of_opensName h
  · decide +kernel
  · decide +kernel

theorem Flush.afterAs (h : Flush q s s') : Option.Rel (Flush q) (afterAs s) (afterAs s') := by
  cases h with
  | same s =>
    cases Sql.afterAs s with
    | none => exact .none
    | some t => exact .some (.same t)
  | @ahead a u ends =>
    match u with
    | [] =>
      rw [List.nil_append, List.nil_append, (q.afterAs_cons a).1, (q.afterAs_cons a).2]
      exact .none
    | [b] =>
      have hb : keyLetter b ≠ 'S' := ends.last b (by simp)
      simp only [List.cons_append, List.nil_append, afterAs_cons_cons hb]
      exact .none
    | b :: c :: u =>
      simp only [List.cons_append, Sql.afterAs]
      cases has : spells "AS" [a, b] && isBlank c with
      | false => exact .none
      | true =>
        rw [Bool.and_eq_true] at has
        have hends : Ends none u := by
          refine Ends.behind (u := [a, b, c]) (by simpa using ends) ?_
          refine quoteAfter_of_not_isQuote (by simp) ?_
          have hspell : keyLetter a = 'A' ∧ keyLetter b = 'S' := by simpa [spells] using has.1
          have ha : isQuote a = false := isQuote_of_keyLetter (by simp [hspell.1])
          have hb : isQuote b = false := isQuote_of_keyLetter (by simp [hspell.2])
          simp [ha, hb, isQuote_of_isBlank has.2]
        exact .some (Near.ahead hends).trimStart

theorem Flush.readAliasName (h : Flush q s s') :
    Option.Rel (Alike q) (readAliasName s) (readAliasName s') := by
  have hname := h.readName fun _ => inName_of_opensAlias
  have has := rel_bind h.afterAs fun _ _ h => h.readName fun _ => inName_of_opensAlias
  unfold Sql.readAliasName
  generalize (Sql.afterAs s).bind (Sql.readName opensAlias) = x at has
  generalize (Sql.afterAs s').bind (Sql.readName opensAlias) = y at has
  cases has with
  | none => exact hname
  | some h => exact .some h

/-! ### Parentheses -/

theorem skipFrom_spaced (q : Quoted) : skipFrom depth none q.spaced = skipFrom depth none q.tight := by
  have hgap (gap t : List Char) (hgap : ∀ c ∈ gap, isBlank c = true) :
      skipFrom depth none (gap ++ t) = skipFrom depth none t := by
    induction gap with
    | nil => rfl
    | cons c gap ih =>
      obtain ⟨hc, hrest⟩ := List.forall_mem_cons.1 hgap
      have hne : c ≠ '(' ∧ c ≠ ')' :=
        forall_isBlank (P := fun c => c ≠ '(' ∧ c ≠ ')') (by decide) hc
      simp [skipFrom, hne, nextQuote_none (isQuote_of_isBlank hc), ih hrest]
  exact hgap q.gap q.tight q.blank

theorem Ends.skipFrom (h : Ends quote u) : Option.Rel (Near q)
    (skipFrom depth quote (u ++ q.spaced)) (skipFrom depth quote (u ++ q.tight)) := by
  induction u generalizing depth quote with
  | nil =>
    obtain rfl : quote = none := h.closed
    rw [List.nil_append, List.nil_append, skipFrom_spaced]
    cases Sql.skipFrom depth none q.tight with
    | none => exact .none
    | some t => exact .some (.same t)
  | cons c u ih =>
    have hrest := h.tail
    simp only [List.cons_append, Sql.skipFrom]
    split
    · next hopen =>
      simp only [Bool.and_eq_true, Option.isNone_iff_eq_none, beq_iff_eq] at hopen
      obtain ⟨rfl, rfl⟩ := hopen
      exact ih hrest
    · split
      · next hclose =>
        simp only [Bool.and_eq_true, Option.isNone_iff_eq_none, beq_iff_eq] at hclose
        obtain ⟨rfl, rfl⟩ := hclose
        cases depth with
        | zero => exact .none
        | succ depth =>
          cases depth with
          | zero => exact .some (.ahead hrest)
          | succ depth => exact ih hrest
      · exact ih hrest

theorem Near.skipGroup (h : Near q s s') : Option.Rel (Near q) (skipGroup s) (skipGroup s') := by
  cases h with
  | same s =>
    cases Sql.skipGroup s with
    | none => exact .none
    | some t => exact .some (.same t)
  | ahead ends => exact ends.skipFrom

/-- Neither the white space nor the quoted name opens a parenthesis. -/
theorem Quoted.head?_ne_paren (q : Quoted) :
    q.spaced.head? ≠ some '(' ∧ q.tight.head? ≠ some '(' := by
  have hhead {s : List Char} (hs : ∀ c ∈ s, isBlank c = true) : (s ++ q.tight).head? ≠ some '(' := by
    intro hparen
    rcases q.head?_cases hs '(' hparen with h | h <;> exact absurd h (by decide)
  exact ⟨hhead q.blank, hhead (s := []) (by simp)⟩

theorem Near.head?_eq_paren (h : Near q s s') : s.head? = some '(' ↔ s'.head? = some '(' := by
  cases h with
  | same => rfl
  | @ahead u ends =>
    cases u with
    | nil => exact iff_of_false q.head?_ne_paren.1 q.head?_ne_paren.2
    | cons c u => rfl

theorem Flush.near (h : Flush q s s') : Near q s s' := by
  cases h with
  | same s => exact .same s
  | ahead ends => exact .ahead ends

/-- What one text is left with and the other, where a reader may fail on both. -/
theorem near_getD {x y : Option (List Char)} (h : Option.Rel (Near q) x y) (hs : Near q s s') :
    Near q (x.getD s) (y.getD s') := by
  cases h with
  | none => exact hs
  | some h => exact h

/-! ### Aliases, tables and items -/

/-- What follows the column names that an alias may have behind it. -/
theorem readAlias_eq (s : List Char) : readAlias s = (readAliasName (trimStart s)).bind fun found =>
    if isReserved (unquote found.1) then none else some (unquote found.1,
      if found.2.head? = some '(' then (skipGroup found.2).getD found.2 else found.2) := by
  unfold readAlias
  cases readAliasName (trimStart s) with
  | none => rfl
  | some found =>
    obtain ⟨name, rest⟩ := found
    simp only [Option.bind_some]
    split
    · rfl
    · cases rest with
      | nil => rfl
      | cons c rest =>
        by_cases hc : c = '('
        · subst hc
          rfl
        · simp [hc]

theorem Near.readAlias (h : Near q s s') :
    Option.Rel (Alike q) (readAlias s) (readAlias s') := by
  rw [readAlias_eq, readAlias_eq]
  refine rel_bind h.trimStart.readAliasName fun x y hxy => ?_
  obtain ⟨name, rest⟩ := x
  obtain ⟨name', rest'⟩ := y
  obtain ⟨rfl, hrest⟩ : name = name' ∧ Near q rest rest' := hxy
  simp only
  split
  · exact .none
  · refine .some ⟨rfl, ?_⟩
    simp only [hrest.head?_eq_paren]
    split
    · exact near_getD hrest.skipGroup hrest
    · exact hrest

theorem skipArguments_eq (s : List Char) : skipArguments s =
    if (trimStart s).head? = some '(' then (skipGroup (trimStart s)).getD [] else s := by
  unfold skipArguments
  cases trimStart s with
  | nil => rfl
  | cons c t =>
    by_cases hc : c = '('
    · subst hc
      rfl
    · simp [hc]

theorem Near.skipArguments (h : Near q s s') : Near q (skipArguments s) (skipArguments s') := by
  have htrim := h.trimStart.near
  rw [skipArguments_eq, skipArguments_eq]
  simp only [htrim.head?_eq_paren]
  split
  · exact near_getD htrim.skipGroup (.same [])
  · exact h

theorem Near.aliased (h : Near q s s') (schema : Option String) (table : List Char) :
    Alike q (aliased schema table s) (aliased schema table s') := by
  have halias := h.readAlias
  unfold Sql.aliased
  generalize Sql.readAlias s = x at halias
  generalize Sql.readAlias s' = y at halias
  cases halias with
  | none => exact ⟨rfl, h⟩
  | @some x y hxy =>
    obtain ⟨word, rest⟩ := x
    obtain ⟨word', rest'⟩ := y
    obtain ⟨rfl, hrest⟩ : word = word' ∧ Near q rest rest' := hxy
    exact ⟨rfl, hrest⟩

theorem Flush.afterModifier (h : Flush q s s') :
    Option.Rel (Flush q) (afterModifier s) (afterModifier s') := by
  cases h with
  | same s =>
    cases Sql.afterModifier s with
    | none => exact .none
    | some t => exact .some (.same t)
  | @ahead c u ends =>
    have hends : Ends none ((c :: u).dropWhile isWordChar) := by
      refine Ends.behind (u := (c :: u).takeWhile isWordChar) ?_ ?_
      · rwa [List.takeWhile_append_dropWhile]
      · exact quoteAfter_of_not_isQuote (by simp) fun d hd =>
          isQuote_of_inName (inName_of_isWordChar (List.mem_takeWhile_imp hd))
    have hspaced : ∀ d ∈ q.spaced.head?, isWordChar d = false := q.isWordChar_head q.blank
    have htight : ∀ d ∈ q.tight.head?, isWordChar d = false := q.isWordChar_head (s := []) (by simp)
    obtain ⟨htake, hdrop⟩ := span_append (s := c :: u) fun _ => hspaced
    obtain ⟨htake', hdrop'⟩ := span_append (s := c :: u) fun _ => htight
    rw [← List.cons_append, ← List.cons_append]
    simp only [Sql.afterModifier, htake, hdrop, htake', hdrop']
    split
    · exact .some (Near.ahead hends).trimStart
    · exact .none

theorem Flush.skipModifiers (h : Flush q s s') : Flush q (skipModifiers s) (skipModifiers s') := by
  induction s using skipModifiers.induct generalizing s' with
  | case1 s rest hrest ih =>
    have hmodifier := h.afterModifier
    rw [hrest] at hmodifier
    generalize hrest' : Sql.afterModifier s' = x at hmodifier
    cases hmodifier with
    | some hflush =>
      rw [skipModifiers_of_some hrest, skipModifiers_of_some hrest']
      exact ih hflush
  | case2 s hnone =>
    have hmodifier := h.afterModifier
    rw [hnone] at hmodifier
    generalize hnone' : Sql.afterModifier s' = x at hmodifier
    cases hmodifier with
    | none => rwa [skipModifiers_of_none hnone, skipModifiers_of_none hnone']

theorem Flush.readTable (h : Flush q s s') :
    Option.Rel (Alike q) (readTable d s) (readTable d s') := by
  have hopens : ∀ c, opensName c = true → inName c = true := fun _ => inName_of_opensName
  have hfirst := h.readName hopens
  unfold Sql.readTable
  generalize Sql.readName opensName s = x at hfirst
  generalize Sql.readName opensName s' = y at hfirst
  cases hfirst with
  | none => exact .none
  | @some x y hxy =>
    obtain ⟨first, rest⟩ := x
    obtain ⟨first', rest'⟩ := y
    obtain ⟨rfl, hrest⟩ : first = first' ∧ Near q rest rest' := hxy
    have hsecond := rel_bind hrest.afterDot fun _ _ h => h.readName hopens
    simp only
    generalize (Sql.afterDot rest).bind (Sql.readName opensName) = x at hsecond
    generalize (Sql.afterDot rest').bind (Sql.readName opensName) = y at hsecond
    cases hsecond with
    | none =>
      simp only
      split
      · exact .none
      · exact .some (hrest.skipArguments.aliased _ _)
    | @some x y hxy =>
      obtain ⟨second, rest⟩ := x
      obtain ⟨second', rest'⟩ := y
      obtain ⟨rfl, hrest⟩ : second = second' ∧ Near q rest rest' := hxy
      exact .some (hrest.skipArguments.aliased _ _)

theorem readItem_eq (s : List Char) : readItem d s =
    if (skipModifiers s).head? = some '(' then
      (skipGroup (skipModifiers s)).map fun rest => (none, ((readAlias rest).map (·.2)).getD rest)
    else (readTable d (skipModifiers s)).map fun found => (some found.1, found.2) := by
  unfold readItem
  cases skipModifiers s with
  | nil => rfl
  | cons c t =>
    by_cases hc : c = '('
    · subst hc
      rfl
    · simp [hc]

theorem Flush.readItem (h : Flush q s s') :
    Option.Rel (Alike q) (readItem d s) (readItem d s') := by
  have hskip := h.skipModifiers
  rw [readItem_eq, readItem_eq]
  simp only [hskip.near.head?_eq_paren]
  split
  · refine rel_map hskip.near.skipGroup fun rest rest' hrest => ⟨rfl, ?_⟩
    exact near_getD (rel_map hrest.readAlias fun _ _ h => h.2) hrest
  · exact rel_map hskip.readTable fun x y hxy => ⟨congrArg some hxy.1, hxy.2⟩

/-! ### Lists -/

/-- A character that belongs to no word, is no comma and no parenthesis, ends a word in a list. -/
theorem nextFrom_cons (hc : (isLetterOrNumber c || c == '_' || c == '$') = false)
    (hmark : c ≠ '(' ∧ c ≠ ')' ∧ c ≠ ',') : nextFrom depth none word (c :: s) =
      if depth == 0 && !word.isEmpty && isOneOf listEnds word.reverse then none
      else nextFrom depth (nextQuote none c) [] s := by
  obtain ⟨hopen, hclose, hcomma⟩ := hmark
  simp [nextFrom, hc, hopen, hclose, hcomma]

theorem nextFrom_spaced (q : Quoted) :
    nextFrom depth none word q.spaced = nextFrom depth none word q.tight := by
  have htight (word : List Char) : nextFrom depth none word q.tight =
      if depth == 0 && !word.isEmpty && isOneOf listEnds word.reverse then none
      else nextFrom depth (nextQuote none q.mark) [] q.rest := by
    have hborder := isBorder_of_isNameQuote q.isMark
    refine nextFrom_cons ?_ ?_
    · exact forall_isBorder (P := fun c => (isLetterOrNumber c || c == '_' || c == '$') = false)
        (by decide) hborder
    · refine ⟨?_, ?_, ?_⟩ <;>
        (intro h; exact absurd (h ▸ q.isMark) (by decide))
  have hgap (gap : List Char) (hblank : ∀ c ∈ gap, isBlank c = true) (word : List Char) :
      nextFrom depth none word (gap ++ q.tight) = nextFrom depth none word q.tight := by
    induction gap generalizing word with
    | nil => rfl
    | cons c gap ih =>
      obtain ⟨hc, hrest⟩ := List.forall_mem_cons.1 hblank
      have hend : nextFrom depth none word (c :: (gap ++ q.tight)) =
          if depth == 0 && !word.isEmpty && isOneOf listEnds word.reverse then none
          else nextFrom depth (nextQuote none c) [] (gap ++ q.tight) :=
        nextFrom_cons (forall_isBlank (P := fun c => (isLetterOrNumber c || c == '_' || c == '$') = false)
          (by decide +kernel) hc)
          (forall_isBlank (P := fun c => c ≠ '(' ∧ c ≠ ')' ∧ c ≠ ',') (by decide) hc)
      rw [List.cons_append, hend, nextQuote_none (isQuote_of_isBlank hc), ih hrest [], htight,
        htight word]
      simp
  exact hgap q.gap q.blank word

theorem Ends.nextFrom (h : Ends quote u) : Option.Rel (Flush q)
    (nextFrom depth quote word (u ++ q.spaced)) (nextFrom depth quote word (u ++ q.tight)) := by
  induction u generalizing depth quote word with
  | nil =>
    obtain rfl : quote = none := h.closed
    rw [List.nil_append, List.nil_append, nextFrom_spaced]
    cases Sql.nextFrom depth none word q.tight with
    | none => exact .none
    | some t => exact .some (.same t)
  | cons c u ih =>
    have hrest := h.tail
    simp only [List.cons_append, Sql.nextFrom]
    cases quote with
    | some m => exact ih hrest
    | none =>
      simp only [Option.isSome_none, Bool.false_eq_true, if_false]
      split
      · next hword =>
        have hplain : isQuote c = false := by
          by_contra hquote
          simp only [isQuote, Bool.not_eq_false, Bool.or_eq_true, beq_iff_eq] at hquote
          rcases hquote with (rfl | rfl) | rfl <;> exact absurd hword (by decide)
        rw [nextQuote_none hplain] at hrest
        exact ih hrest
      split
      · exact .none
      split
      · next hopen =>
        obtain rfl := beq_iff_eq.1 hopen
        exact ih hrest
      split
      · next hclose =>
        obtain rfl := beq_iff_eq.1 hclose
        cases depth with
        | zero => exact .none
        | succ depth => exact ih hrest
      split
      · next hcomma =>
        rw [Bool.and_eq_true, beq_iff_eq] at hcomma
        obtain ⟨rfl, -⟩ := hcomma
        exact .some (Near.ahead hrest).trimStart
      · exact ih hrest

theorem Near.nextItem (h : Near q s s') : Option.Rel (Flush q) (nextItem s) (nextItem s') := by
  cases h with
  | same s =>
    cases Sql.nextItem s with
    | none => exact .none
    | some t => exact .some (.same t)
  | ahead ends => exact ends.nextFrom

/-- The same tables are read off a list with the white space and without it. -/
theorem Flush.readItems {more : Bool} (h : Flush q s s') :
    readItems d more s = readItems d more s' := by
  induction s using readItems.induct d generalizing s' more with
  | case1 s hx =>
    have hitem := h.readItem (d := d)
    rw [hx] at hitem
    generalize hy : Sql.readItem d s' = y at hitem
    cases hitem with
    | none => rw [readItems_of_none hx, readItems_of_none hy]
  | case2 s ref rest hx ih =>
    have hitem := h.readItem (d := d)
    rw [hx] at hitem
    generalize hy : Sql.readItem d s' = y at hitem
    cases hitem with
    | @some _ y hxy =>
      obtain ⟨ref', rest'⟩ := y
      obtain ⟨rfl, hrest⟩ : ref = ref' ∧ Near q rest rest' := hxy
      rw [readItems_of_readItem hx, readItems_of_readItem hy]
      congr 1
      cases more with
      | false => rfl
      | true =>
        have hnext := hrest.nextItem
        cases ht : Sql.nextItem rest with
        | none =>
          rw [ht] at hnext
          generalize Sql.nextItem rest' = y at hnext
          cases hnext with
          | none => rfl
        | some t =>
          rw [ht] at hnext
          generalize Sql.nextItem rest' = y at hnext
          cases hnext with
          | some hflush => exact ih t ht hflush

end Querent.Sql
