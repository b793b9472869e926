import Querent.Proofs.Sql.Quoting
import Querent.Proofs.Text.Blank

/-! Up to a place where no name and no equality goes on: the equality reader takes what stands before
it for what it is without what follows, so the equalities of both parts are found. -/
namespace Querent.Sql

open Text

variable {α β : Type} {quote : Option Char} {b t s name rest left right : List Char} {c m : Char}

theorem equalitiesIn_of_some (h : readEquality s = some (left, right, rest)) :
    equalitiesIn s = (keepEquality left right rest).toList ++ equalitiesIn rest := by
  cases s with
  | nil => simp [readEquality, Sql.readDotted, readName] at h
  | cons c s =>
    rw [equalitiesIn]
    split
    · rename_i heq
      obtain ⟨rfl, rfl, rfl⟩ : left = _ ∧ right = _ ∧ rest = _ := by simpa using h.symm.trans heq
      rfl
    · rename_i heq
      exact absurd (heq.symm.trans h) (by simp)

theorem equalitiesIn_of_none (h : readEquality (c :: s) = none) :
    equalitiesIn (c :: s) = equalitiesIn s := by
  rw [equalitiesIn]
  split
  · rename_i heq
    exact absurd (heq.symm.trans h) (by simp)
  · rfl

theorem equalitiesIn_blanks (hs : ∀ c ∈ s, isBlank c = true) :
    equalitiesIn (s ++ t) = equalitiesIn t := by
  induction s with
  | nil => rfl
  | cons c s ih =>
    obtain ⟨hc, hs⟩ := List.forall_mem_cons.1 hs
    have hname : readName opensName (c :: (s ++ t)) = none := by
      simp [readName, opensName_of_isBlank hc, isNameQuote_of_isBlank hc]
    rw [List.cons_append, equalitiesIn_of_none (readEquality_of_readName hname), ih hs]

/-- Around a character that is no blank, trimming makes a difference only to what stands behind it. -/
theorem equalitiesIn_trim (hm : isBlank m = false) :
    equalitiesIn (trim (s ++ m :: t)) = equalitiesIn (s ++ m :: trimEnd t) := by
  have hfront : trimStart (s ++ m :: t) = trimStart s ++ [m] ++ t := by
    rw [trimStart_append (by simpa using hm)]
    simp
  have hback : trimEnd (trimStart s ++ [m] ++ t) = trimStart s ++ m :: trimEnd t := by
    rw [trimEnd_append (by simpa using hm)]
    simp
  have hblank : ∀ c ∈ s.takeWhile isBlank, isBlank c = true := fun _ => List.mem_takeWhile_imp
  have hsplit : s = s.takeWhile isBlank ++ trimStart s := List.takeWhile_append_dropWhile.symm
  rw [trim, hfront, hback]
  conv_rhs => rw [hsplit, List.append_assoc, equalitiesIn_blanks hblank]

/-- A text that ends where a name may begin, with the reader in step up to there and beyond. -/
structure Leads (quote : Option Char) (b t : List Char) : Prop where
  mark : ∀ m ∈ quote, isQuote m = true
  inStep : keepsStep quote (b ++ t) = true
  closed : quoteAfter quote b = none
  apart : Apart inName b t
  last : ∀ c s, c :: s <:+ b → (∀ d ∈ s, isBlank d = true) → c ≠ '.' ∧ c ≠ '='
  next : ∀ c ∈ (trimStart t).head?, c ≠ '.' ∧ c ≠ '=' ∧ c ≠ '('

/-- The last character of a text that is no blank. -/
theorem last_of_trimEnd (h : (trimEnd t).getLast?.all (fun c => c != '.' && c != '=') = true)
    (hsuffix : c :: s <:+ t) (hs : ∀ d ∈ s, isBlank d = true) : c ≠ '.' ∧ c ≠ '=' := by
  obtain ⟨r, rfl⟩ := hsuffix
  by_cases hc : isBlank c = true
  · constructor <;> (rintro rfl; exact absurd hc (by decide))
  · rw [Bool.not_eq_true] at hc
    have hblank : trimEnd s = [] := by
      rw [trimEnd, List.dropWhile_eq_nil_iff.2 (by simpa using hs), List.reverse_nil]
    have hend : trimEnd (r ++ c :: s) = r ++ [c] := by
      have hcut : trimEnd (r ++ [c] ++ s) = r ++ [c] ++ trimEnd s :=
        trimEnd_append (by simpa using hc)
      rw [hblank, List.append_nil] at hcut
      rw [← hcut]
      simp
    simpa [hend] using h

/-- A name goes on with nothing before it. -/
theorem next_of_name (h : opensName c = true ∨ isNameQuote c = true) :
    ∀ d ∈ (trimStart (c :: s)).head?, d ≠ '.' ∧ d ≠ '=' ∧ d ≠ '(' := by
  have hblank : isBlank c = false := by
    rcases h with h | h
    · exact isBlank_of_isPlain (isPlain_of_opensName h)
    · exact isBlank_of_isNameQuote h
  intro d hd
  obtain rfl : c = d := by simpa [trimStart, hblank] using hd
  refine ⟨?_, ?_, ?_⟩ <;>
    (rintro rfl; exact absurd h (by decide))

/-! ### Two readers side by side -/

theorem rel_bind {R : α → α → Prop} {R' : β → β → Prop} {x y : Option α} {f g : α → Option β}
    (h : Option.Rel R x y) (hf : ∀ a b, R a b → Option.Rel R' (f a) (g b)) :
    Option.Rel R' (x.bind f) (y.bind g) := by
  cases h with
  | none => exact .none
  | some h => exact hf _ _ h

theorem rel_map {R : α → α → Prop} {R' : β → β → Prop} {x y : Option α} {f g : α → β}
    (h : Option.Rel R x y) (hf : ∀ a b, R a b → R' (f a) (g b)) :
    Option.Rel R' (x.map f) (y.map g) := by
  cases h with
  | none => exact .none
  | some h => exact .some (hf _ _ h)

/-- Read alone and before another text, a text gives the same, and what is left of it leads up to the
other. -/
def Whole (quote : Option Char) (t : List Char) (x y : α × List Char) : Prop :=
  y = (x.1, x.2 ++ t) ∧ Leads quote x.2 t

/-- The text after a mark, blanks around the mark apart. -/
def afterMark (m : Char) (s : List Char) : Option (List Char) :=
  match trimStart s with
  | [] => none
  | c :: rest => if c = m then some (trimStart rest) else none

theorem afterMark_eq_none (hs : trimStart s = []) : afterMark m s = none := by
  rw [afterMark, hs]

theorem afterMark_eq (hs : trimStart s = c :: t) :
    afterMark m s = if c = m then some (trimStart t) else none := by
  rw [afterMark, hs]

theorem afterDot_eq (s : List Char) : afterDot s = afterMark '.' s := by
  unfold afterDot
  cases hs : trimStart s with
  | nil => rw [afterMark_eq_none hs]
  | cons c rest =>
    rw [afterMark_eq hs]
    by_cases hc : c = '.'
    · subst hc
      rfl
    · simp [hc]

theorem readEquality_eq (s : List Char) : readEquality s = (readDotted 2 s).bind fun l =>
    (afterMark '=' l.2).bind fun behind => (readDotted 2 behind).map fun r => (l.1, r.1, r.2) := by
  unfold readEquality
  rw [Option.bind_eq_bind]
  congr 1
  funext l
  obtain ⟨l, behind⟩ := l
  simp only
  cases hs : trimStart behind with
  | nil => rw [afterMark_eq_none hs, Option.bind_none]
  | cons c rest =>
    rw [afterMark_eq hs]
    by_cases hc : c = '='
    · subst hc
      rw [if_pos rfl, Option.bind_some, Option.map_eq_bind]
      rfl
    · simp [hc]

/-! ### Without an equals sign -/

theorem mem_of_afterMark (h : afterMark m s = some t) : m ∈ s ∧ t <:+ s := by
  have hstart : trimStart s <:+ s := List.dropWhile_suffix _
  cases hs : trimStart s with
  | nil => simp [afterMark_eq_none hs] at h
  | cons c rest =>
    rw [afterMark_eq hs] at h
    split at h
    next hc =>
      subst hc
      obtain rfl := Option.some.inj h
      rw [hs] at hstart
      have hrest : trimStart rest <:+ rest := List.dropWhile_suffix _
      exact ⟨hstart.subset (by simp), hrest.trans ((List.suffix_cons c rest).trans hstart)⟩
    next => cases h

theorem suffix_of_readName {opens : Char → Bool} (h : readName opens s = some (name, rest)) :
    rest <:+ s := by
  cases s with
  | nil => cases h
  | cons c s =>
    simp only [readName] at h
    split at h
    · obtain rfl : s.dropWhile inName = rest := congrArg Prod.snd (Option.some.inj h)
      exact (List.dropWhile_suffix _).trans (List.suffix_cons c s)
    split at h
    · have hinner : s.dropWhile (· != c) <:+ s := List.dropWhile_suffix _
      split at h
      next q behind heq =>
        split at h
        · cases h
        · obtain rfl : behind = rest := congrArg Prod.snd (Option.some.inj h)
          rw [heq] at hinner
          exact (List.suffix_cons q behind).trans (hinner.trans (List.suffix_cons c s))
      next => cases h
    · cases h

theorem suffix_of_readDotted {more : Nat} (h : readDotted more s = some (name, rest)) :
    rest <:+ s := by
  induction more generalizing s name rest with
  | zero =>
    unfold readDotted at h
    split at h
    next => cases h
    next hname =>
      cases h
      exact suffix_of_readName hname
  | succ more ih =>
    unfold readDotted at h
    split at h
    next => cases h
    next first behind hname =>
      have hbehind := suffix_of_readName hname
      rw [afterDot_eq] at h
      cases hdot : afterMark '.' behind with
      | none =>
        simp only [hdot, Option.bind_none] at h
        cases h
        exact hbehind
      | some next =>
        have hnext := (mem_of_afterMark hdot).2.trans hbehind
        cases htail : readDotted more next with
        | none =>
          simp only [hdot, Option.bind_some, htail] at h
          cases h
          exact hbehind
        | some found =>
          simp only [hdot, Option.bind_some, htail] at h
          cases h
          exact (ih htail).trans hnext

/-- A text without an equals sign compares nothing. -/
theorem equalitiesIn_eq_nil (h : '=' ∉ s) : equalitiesIn s = [] := by
  have hnone {t : List Char} (ht : '=' ∉ t) : readEquality t = none := by
    rw [readEquality_eq]
    cases hread : readDotted 2 t with
    | none => rfl
    | some found =>
      have hmark : afterMark '=' found.2 = none := by
        by_contra hsome
        obtain ⟨behind, hbehind⟩ := Option.ne_none_iff_exists'.1 hsome
        exact ht ((suffix_of_readDotted hread).subset (mem_of_afterMark hbehind).1)
      rw [Option.bind_some, hmark, Option.bind_none]
  induction s with
  | nil => rw [equalitiesIn]
  | cons c s ih =>
    rw [equalitiesIn_of_none (hnone h)]
    exact ih fun hmem => h (List.mem_cons_of_mem c hmem)

namespace Leads

theorem suffix (h : Leads quote (s ++ b) t) : Leads (quoteAfter quote s) b t where
  mark := by
    have hmark := h.mark
    clear h
    induction s generalizing quote with
    | nil => exact hmark
    | cons c s ih => exact ih (isQuote_of_nextQuote hmark)
  inStep := by
    have hstep := h.inStep
    rw [List.append_assoc, keepsStep_append, Bool.and_eq_true] at hstep
    exact hstep.2
  closed := by
    rw [← quoteAfter_append]
    exact h.closed
  apart := h.apart.of_suffix (List.suffix_append s b)
  last := fun c s' hs => h.last c s' (hs.trans (List.suffix_append s b))
  next := h.next

theorem skip (h : Leads quote (s ++ b) t) (hs : ∀ c ∈ s, isQuote c = false) : Leads quote b t := by
  have hrest := h.suffix
  rwa [quoteAfter_of_not_isQuote h.mark hs] at hrest

theorem of_isPrefix (h : Leads quote b t) (ht : s <+: t) : Leads quote b s where
  mark := h.mark
  inStep := by
    obtain ⟨r, rfl⟩ := ht
    have hstep := h.inStep
    rw [← List.append_assoc, keepsStep_append, Bool.and_eq_true] at hstep
    exact hstep.1
  closed := h.closed
  apart := h.apart.of_isPrefix ht
  last := h.last
  next := fun _ hc => h.next _ (mem_head?_trimStart ht hc)

/-- The blanks that a text opens with make no difference. -/
theorem trimStart (h : Leads quote b t) : Leads quote (trimStart b) t := by
  rw [← List.takeWhile_append_dropWhile (p := isBlank) (l := b)] at h
  exact h.skip fun c hc => isQuote_of_isBlank (List.mem_takeWhile_imp hc)

/-- A dot or an equals sign that comes next does so before the end, and does not end the text. -/
theorem afterMark (h : Leads quote b t) (hm : m = '.' ∨ m = '=') :
    Option.Rel (fun r r' => r' = r ++ t ∧ r ≠ [] ∧ Leads quote r t)
      (afterMark m b) (afterMark m (b ++ t)) := by
  cases hb : Text.trimStart b with
  | nil =>
    have hbt := trimStart_append_of_eq_nil (t := t) hb
    rw [afterMark_eq_none hb]
    cases ht : Text.trimStart t with
    | nil =>
      rw [afterMark_eq_none (hbt.trans ht)]
      exact .none
    | cons c rest =>
      have hnext := h.next c (by simp [ht])
      have hc : c ≠ m := by
        rcases hm with rfl | rfl
        · exact hnext.1
        · exact hnext.2.1
      rw [afterMark_eq (hbt.trans ht), if_neg hc]
      exact .none
  | cons d b₁ =>
    have hbt : Text.trimStart (b ++ t) = d :: (b₁ ++ t) := by
      rw [trimStart_append_of_ne_nil (by simp [hb]), hb, List.cons_append]
    rw [afterMark_eq hb, afterMark_eq hbt]
    by_cases hd : d = m
    · subst hd
      have hplain : isQuote d = false := by
        rcases hm with rfl | rfl <;> decide
      have hsplit : b = b.takeWhile isBlank ++ d :: b₁ := by
        rw [← hb, Text.trimStart, List.takeWhile_append_dropWhile]
      have hrest : Leads quote b₁ t := by
        have htrim := h.trimStart
        rw [hb] at htrim
        exact htrim.skip (s := [d]) (List.forall_mem_singleton.2 hplain)
      have hne : Text.trimStart b₁ ≠ [] := by
        intro hnil
        rw [Text.trimStart, List.dropWhile_eq_nil_iff] at hnil
        have hlast := h.last d b₁ ⟨_, hsplit.symm⟩ hnil
        exact hm.elim hlast.1 hlast.2
      rw [if_pos rfl, if_pos rfl, trimStart_append_of_ne_nil hne]
      exact .some ⟨rfl, hne, hrest.trimStart⟩
    · rw [if_neg hd, if_neg hd]
      exact .none

/-- A name that begins before the end ends there. -/
theorem readName (h : Leads quote b t) (hne : b ≠ []) (hquote : ∀ m ∈ quote, isNameQuote m = false) :
    Option.Rel (Whole quote t) (readName opensName b) (readName opensName (b ++ t)) := by
  obtain ⟨c, b, rfl⟩ := List.exists_cons_of_ne_nil hne
  have hmark (hc : isNameQuote c = true) : quote = none := by
    have hstep := h.inStep
    rw [List.cons_append, keepsStep, Bool.and_eq_true] at hstep
    refine (eq_none_or_eq_some_of_inStep hc hstep.1).resolve_right ?_
    rintro rfl
    exact absurd (hquote c rfl) (by simp [hc])
  have hclosed (hc : isNameQuote c = true) : c ∈ b := by
    have hend := h.closed
    rw [hmark hc] at hend
    exact mem_of_quoteAfter_cons (isQuote_of_isNameQuote hc) hend
  rw [List.cons_append, readName_append inName_of_opensName h.apart hclosed]
  cases hread : Sql.readName opensName (c :: b) with
  | none => exact .none
  | some found =>
    obtain ⟨front, hfront, hstate⟩ :=
      exists_of_readName (fun _ => inName_of_opensName) h.mark hmark hread
    rw [hfront] at h
    have hrest := h.suffix
    rw [hstate] at hrest
    exact .some ⟨rfl, hrest⟩

theorem readDotted (h : Leads quote b t) (hne : b ≠ [])
    (hquote : ∀ m ∈ quote, isNameQuote m = false) (more : Nat) :
    Option.Rel (Whole quote t) (readDotted more b) (readDotted more (b ++ t)) := by
  induction more generalizing b with
  | zero =>
    have hname := h.readName hne hquote
    unfold Sql.readDotted
    generalize Sql.readName opensName b = x at hname
    generalize Sql.readName opensName (b ++ t) = y at hname
    cases hname with
    | none => exact .none
    | some hxy => exact .some hxy
  | succ more ih =>
    have hname := h.readName hne hquote
    unfold Sql.readDotted
    generalize Sql.readName opensName b = x at hname
    generalize Sql.readName opensName (b ++ t) = y at hname
    cases hname with
    | none => exact .none
    | @some x y hxy =>
      obtain ⟨name, rest⟩ := x
      obtain ⟨rfl, hrest⟩ : y = (name, rest ++ t) ∧ Leads quote rest t := hxy
      have hmore : Option.Rel (Whole quote t) ((afterDot rest).bind (Sql.readDotted more))
          ((afterDot (rest ++ t)).bind (Sql.readDotted more)) := by
        rw [afterDot_eq, afterDot_eq]
        refine rel_bind (hrest.afterMark (.inl rfl)) fun r r' hr => ?_
        obtain ⟨rfl, hr, hleads⟩ := hr
        exact ih hleads hr
      simp only
      generalize (afterDot rest).bind (Sql.readDotted more) = x at hmore
      generalize (afterDot (rest ++ t)).bind (Sql.readDotted more) = y at hmore
      cases hmore with
      | none => exact .some ⟨rfl, hrest⟩
      | @some x y hxy =>
        obtain ⟨rfl, hleads⟩ := hxy
        exact .some ⟨rfl, hleads⟩

/-- An equality that begins before the end ends there. -/
theorem readEquality (h : Leads quote b t) (hne : b ≠ []) :
    Option.Rel (fun x y => y.1 = x.1 ∧ Whole quote t x.2 y.2)
      (readEquality b) (readEquality (b ++ t)) := by
  by_cases hquote : ∀ m ∈ quote, isNameQuote m = false
  · rw [readEquality_eq, readEquality_eq]
    refine rel_bind (h.readDotted hne hquote 2) fun l l' hl => ?_
    obtain ⟨rfl, hleft⟩ := hl
    refine rel_bind (hleft.afterMark (.inr rfl)) fun r r' hr => ?_
    obtain ⟨rfl, hr, hbehind⟩ := hr
    refine rel_map (hbehind.readDotted hr hquote 2) fun x y hxy => ?_
    obtain ⟨rfl, hright⟩ := hxy
    exact ⟨rfl, rfl, hright⟩
  · push Not at hquote
    obtain ⟨m, hquote, hm⟩ := hquote
    obtain rfl : quote = some m := hquote
    rw [ne_eq, Bool.not_eq_false] at hm
    have hstep := h.inStep
    have hfront := hstep
    rw [keepsStep_append, Bool.and_eq_true] at hfront
    rw [readEquality_of_name hm hfront.1, readEquality_of_name hm hstep]
    exact .none

theorem keepEquality (h : Leads quote b t) :
    keepEquality left right (b ++ t) = keepEquality left right b := by
  have hcall : ((Text.trimStart (b ++ t)).head? == some '(') =
      ((Text.trimStart b).head? == some '(') := by
    cases hb : Text.trimStart b with
    | nil =>
      rw [trimStart_append_of_eq_nil hb]
      cases ht : Text.trimStart t with
      | nil => rfl
      | cons c rest =>
        have hc : c ≠ '(' := (h.next c (by simp [ht])).2.2
        simp [hc]
    | cons d b₁ => rw [trimStart_append_of_ne_nil (by simp [hb]), hb, List.cons_append,
        List.head?_cons, List.head?_cons]
  unfold Sql.keepEquality
  simp only [hcall]

/-- Every equality lies before the end or behind it. -/
theorem equalitiesIn_append (h : Leads quote b t) :
    equalitiesIn (b ++ t) = equalitiesIn b ++ equalitiesIn t := by
  induction b using equalitiesIn.induct generalizing quote with
  | case1 => simp [equalitiesIn]
  | case2 c b l r rest hfirst ih =>
    have hread := h.readEquality (List.cons_ne_nil c b)
    rw [hfirst] at hread
    generalize hbefore : Sql.readEquality (c :: b ++ t) = y at hread
    cases hread with
    | @some _ y hxy =>
      obtain ⟨l', r', rest'⟩ := y
      obtain ⟨rfl, hwhole, hrest⟩ : l' = l ∧ (r', rest') = (r, rest ++ t) ∧ Leads quote rest t := hxy
      obtain ⟨rfl, rfl⟩ := Prod.mk.inj hwhole
      rw [equalitiesIn_of_some hfirst, equalitiesIn_of_some hbefore, hrest.keepEquality, ih hrest,
        List.append_assoc]
  | case3 c b hfirst ih =>
    have hread := h.readEquality (List.cons_ne_nil c b)
    rw [hfirst] at hread
    generalize hbefore : Sql.readEquality (c :: b ++ t) = y at hread
    cases hread with
    | none =>
      rw [equalitiesIn_of_none hfirst]
      rw [List.cons_append] at hbefore
      rw [List.cons_append, equalitiesIn_of_none hbefore]
      exact ih (h.suffix (s := [c]))

end Leads

/-- The equality ahead is among those found. -/
theorem Leads.mem_equalitiesIn {e : Equality} (h : Leads quote b t)
    (hread : Sql.readEquality t = some (left, right, rest))
    (hkeep : Sql.keepEquality left right rest = some e) : e ∈ equalitiesIn (b ++ t) := by
  rw [h.equalitiesIn_append, equalitiesIn_of_some hread, hkeep]
  simp

end Querent.Sql
