import Mathlib.Data.List.TakeWhile
import Querent.Proofs.Sql.Comments
import Querent.Proofs.Sql.Normalized

/-! A block comment put into a text, and what is left when the comments of the whole are taken out. The
line comments go first, so that two hyphens in the block count as one, and unless a line break in the
block ends it, it takes the block's close away. -/
namespace Querent.Sql

open Text

variable {a b before after s t v : List Char} {x y c d : Char}

/-- The text of a block comment. -/
def blockComment (a : List Char) : List Char := '/' :: '*' :: (a ++ ['*', '/'])

/-- A line comment is open at the end of a text. -/
def OpenLine (s : List Char) : Prop := ∃ v, '-' :: '-' :: v <:+ s ∧ '\n' ∉ v

/-- A block comment opens in a text, whether or not it is closed. -/
def OpensBlock (s : List Char) : Prop := ['/', '*'] <:+: s

instance (s : List Char) : Decidable (OpenLine s) :=
  decidable_of_iff (∃ t ∈ s.tails, ['-', '-'] <+: t ∧ '\n' ∉ t) <| by
    constructor
    · rintro ⟨t, ht, ⟨v, rfl⟩, hline⟩
      exact ⟨v, (List.mem_tails _ _).1 ht, by simpa using hline⟩
    · rintro ⟨v, hv, hline⟩
      exact ⟨_, (List.mem_tails _ _).2 hv, ⟨v, rfl⟩, by simpa using hline⟩

instance (s : List Char) : Decidable (OpensBlock s) :=
  inferInstanceAs (Decidable (['/', '*'] <:+: s))

/-! ### Line comments -/

theorem exists_dropWhile_break (h : '\n' ∈ s) : ∃ r, s.dropWhile (· != '\n') = '\n' :: r := by
  induction s with
  | nil => simp at h
  | cons c s ih =>
    by_cases hc : c = '\n'
    · exact ⟨s, by simp [hc]⟩
    · obtain ⟨r, hr⟩ := ih (by simpa [Ne.symm hc] using h)
      exact ⟨r, by simpa [hc] using hr⟩

theorem dropWhile_break_append (h : '\n' ∈ s) (t : List Char) :
    (s ++ t).dropWhile (· != '\n') = s.dropWhile (· != '\n') ++ t := by
  obtain ⟨r, hr⟩ := exists_dropWhile_break h
  rw [List.dropWhile_append, if_neg (by simp [hr])]

theorem OpenLine.of_suffix (h : OpenLine s) (hs : s <:+ t) : OpenLine t := by
  obtain ⟨v, hv, hline⟩ := h
  exact ⟨v, hv.trans hs, hline⟩

theorem OpenLine.hasLineComment (h : OpenLine s) : HasLineComment s := by
  obtain ⟨v, hv, -⟩ := h
  exact (List.prefix_append ['-', '-'] v).isInfix.trans hv.isInfix

theorem openLine_cons (hcd : ¬ (c = '-' ∧ d = '-')) (h : OpenLine (c :: d :: s)) :
    OpenLine (d :: s) := by
  obtain ⟨v, hv, hline⟩ := h
  rcases List.suffix_cons_iff.1 hv with hwhole | hv
  · exact absurd ⟨(List.cons.inj hwhole).1.symm, (List.cons.inj (List.cons.inj hwhole).2).1.symm⟩ hcd
  · exact ⟨v, hv, hline⟩

/-- A comment that is open at the end began behind every line break. -/
theorem OpenLine.dropWhile (h : OpenLine (c :: d :: s)) (hbreak : '\n' ∈ s) :
    OpenLine (s.dropWhile (· != '\n')) := by
  obtain ⟨v, hv, hline⟩ := h
  refine ⟨v, ?_, hline⟩
  obtain ⟨r, hr⟩ := exists_dropWhile_break hbreak
  have hsuffix : '\n' :: r <:+ c :: d :: s := by
    rw [← hr]
    exact (List.dropWhile_suffix _).trans ⟨[c, d], rfl⟩
  rw [hr]
  rcases List.suffix_or_suffix_of_suffix hv hsuffix with hle | hge
  · exact hle
  · have hback : '\n' ∈ '-' :: '-' :: v := hge.subset (by simp)
    exact absurd (by simpa using hback) hline

/-- Where no line comment is open the two parts of a text lose their line comments apart. -/
theorem dropLineComments_append (h : ¬ OpenLine s) (hmeet : ¬ MeetInLine s t) :
    dropLineComments (s ++ t) = dropLineComments s ++ dropLineComments t := by
  fun_induction dropLineComments s with
  | case1 => rfl
  | case2 c =>
    cases t with
    | nil => simp [dropLineComments]
    | cons d t =>
      have hcd : ¬ (c == '-' && d == '-') = true := by
        intro hcd
        obtain ⟨rfl, rfl⟩ : c = '-' ∧ d = '-' := by simpa using hcd
        exact hmeet ⟨[], t, rfl, rfl⟩
      simp only [List.singleton_append]
      rw [dropLineComments, if_neg hcd]
  | case3 c d s hcd ih =>
    obtain ⟨rfl, rfl⟩ : c = '-' ∧ d = '-' := by simpa using hcd
    have hbreak : '\n' ∈ s := by
      by_contra hline
      exact h ⟨s, List.suffix_refl _, hline⟩
    have hsuffix : s.dropWhile (· != '\n') <:+ '-' :: '-' :: s :=
      (List.dropWhile_suffix _).trans ⟨['-', '-'], rfl⟩
    rw [List.cons_append, List.cons_append, dropLineComments, if_pos hcd,
      dropWhile_break_append hbreak]
    refine ih (fun hopen => h (hopen.of_suffix hsuffix)) ?_
    rintro ⟨u, v, hu, rfl⟩
    obtain ⟨r, hr⟩ := hsuffix
    exact hmeet ⟨r ++ u, v, by rw [List.append_assoc, ← hu, hr], rfl⟩
  | case4 c d s hcd ih =>
    have hrest : ¬ MeetInLine (d :: s) t := by
      rintro ⟨u, v, hu, rfl⟩
      exact hmeet ⟨c :: u, v, by rw [hu]; rfl, rfl⟩
    rw [List.cons_append, List.cons_append, dropLineComments, if_neg hcd, ← List.cons_append,
      ih (fun hopen => h (hopen.of_suffix (List.suffix_cons c _))) hrest]
    rfl

/-- A line comment that is open takes the rest of the line with it. -/
theorem dropLineComments_append_of_open (h : OpenLine s) : dropLineComments (s ++ t) =
    dropLineComments s ++ dropLineComments (t.dropWhile (· != '\n')) := by
  fun_induction dropLineComments s with
  | case1 =>
    obtain ⟨v, hv, -⟩ := h
    simp at hv
  | case2 c =>
    obtain ⟨v, hv, -⟩ := h
    have hlen := hv.length_le
    simp at hlen
  | case3 c d s hcd ih =>
    rw [List.cons_append, List.cons_append, dropLineComments, if_pos hcd]
    by_cases hbreak : '\n' ∈ s
    · rw [dropWhile_break_append hbreak]
      exact ih (h.dropWhile hbreak)
    · have hall : ∀ e ∈ s, (e != '\n') = true := by
        intro e he
        simpa using ne_of_mem_of_not_mem he hbreak
      rw [List.dropWhile_append_of_pos hall, List.dropWhile_eq_nil_iff.2 hall]
      simp [dropLineComments]
  | case4 c d s hcd ih =>
    have hmark : ¬ (c = '-' ∧ d = '-') := by simpa using hcd
    rw [List.cons_append, List.cons_append, dropLineComments, if_neg hcd, ← List.cons_append,
      ih (openLine_cons hmark h)]
    rfl

/-- Without line comments a text begins as before, or with the line break that ended one. -/
theorem head?_dropLineComments_or (s : List Char) :
    dropLineComments s = [] ∨ (dropLineComments s).head? = some '\n' ∨
      (dropLineComments s).head? = s.head? := by
  fun_induction dropLineComments s with
  | case1 => exact .inl rfl
  | case2 => exact .inr (.inr rfl)
  | case3 c d s _ ih =>
    cases hs : s.dropWhile (· != '\n') with
    | nil => exact .inl (by simp [dropLineComments])
    | cons e r =>
      have he := List.head?_dropWhile_not (· != '\n') s
      rw [hs] at he ih
      have he : e = '\n' := by simpa using he
      subst he
      exact .inr (.inl (head?_dropLineComments (by decide)))
  | case4 => exact .inr (.inr rfl)

/-- A close comes together in no text from which line comments are taken. -/
theorem close_infix_dropLineComments (h : ['*', '/'] <:+: dropLineComments s) :
    ['*', '/'] <:+: s := by
  fun_induction dropLineComments s with
  | case1 => exact h
  | case2 => exact h
  | case3 c d s _ ih =>
    exact (ih h).trans ((List.dropWhile_suffix _).trans ⟨[c, d], rfl⟩).isInfix
  | case4 c d s _ ih =>
    rcases List.infix_cons_iff.1 h with hfront | hrest
    · obtain ⟨hc, r, hr⟩ := List.cons_prefix_cons.1 hfront
      have hslash : (dropLineComments (d :: s)).head? = some '/' := by simp [← hr]
      rcases head?_dropLineComments_or (d :: s) with hnil | hbreak | hsame
      · simp [hnil] at hslash
      · simp [hbreak] at hslash
      · rw [hslash] at hsame
        exact pair_infix_cons.2 (.inl ⟨hc.symm, by simpa using hsame.symm⟩)
    · exact (ih hrest).trans (List.suffix_cons c _).isInfix

/-! ### Block comments -/

theorem afterClose_append (h : ¬ ['*', '/'] <:+: a) :
    afterClose (a ++ '*' :: '/' :: t) = some t := by
  induction a with
  | nil => simp [afterClose]
  | cons c a ih =>
    have hrest : ¬ ['*', '/'] <:+: a := fun hin => h (hin.trans (List.suffix_cons c a).isInfix)
    cases a with
    | nil => simp [afterClose]
    | cons d a =>
      have hcd : ¬ (c == '*' && d == '/') = true := by
        intro hcd
        exact h (pair_infix_cons.2 (.inl (by simpa using hcd)))
      rw [List.cons_append, List.cons_append, afterClose, if_neg hcd]
      exact ih hrest

/-- In front of a block that opens nothing changes if nothing opens there. -/
theorem dropBlockComments_append (h : ¬ OpensBlock s) :
    dropBlockComments (s ++ '/' :: t) = s ++ dropBlockComments ('/' :: t) := by
  induction s with
  | nil => rfl
  | cons c s ih =>
    have hrest : ¬ OpensBlock s := fun hin => h (hin.trans (List.suffix_cons c s).isInfix)
    cases s with
    | nil => simp [dropBlockComments]
    | cons d s =>
      have hcd : ¬ (c == '/' && d == '*') = true := by
        intro hcd
        exact h (pair_infix_cons.2 (.inl (by simpa using hcd)))
      rw [List.cons_append, List.cons_append, dropBlockComments, if_neg hcd, ← List.cons_append,
        ih hrest]
      rfl

theorem dropBlockComments_open : dropBlockComments ('/' :: '*' :: s) =
    match afterClose s with
    | some rest => dropBlockComments rest
    | none => '/' :: '*' :: s := by
  rw [dropBlockComments, if_pos (by decide)]
  split <;> simp_all

theorem dropBlockComments_of_not_opensBlock (h : ¬ OpensBlock s) : dropBlockComments s = s := by
  refine dropBlockComments_eq_self_iff.2 ?_
  rintro ⟨u, v, rfl, -⟩
  exact h ⟨u, v, by simp⟩

/-- What a close ends, and what follows it. -/
theorem exists_of_afterClose (h : afterClose s = some t) : ∃ u, s = u ++ '*' :: '/' :: t := by
  fun_induction afterClose s with
  | case1 => simp at h
  | case2 => simp at h
  | case3 c d s hcd =>
    obtain ⟨rfl, rfl⟩ : c = '*' ∧ d = '/' := by simpa using hcd
    exact ⟨[], by rw [Option.some.inj h]; rfl⟩
  | case4 c d s _ ih =>
    obtain ⟨u, hu⟩ := ih h
    exact ⟨c :: u, by rw [hu]; rfl⟩

/-- A close behind a text that has none lies in what follows, if that begins with another character. -/
theorem exists_of_afterClose_append (hs : ¬ ['*', '/'] <:+: s) (ht : t.head? ≠ some '/')
    (h : afterClose (s ++ t) = some v) : ∃ u, t = u ++ '*' :: '/' :: v := by
  obtain ⟨u, hu⟩ := exists_of_afterClose h
  rcases List.append_eq_append_iff.1 hu with ⟨w, rfl, hw⟩ | ⟨w, rfl, hw⟩
  · exact ⟨w, hw⟩
  · match w, hw with
    | [], hw => exact ⟨[], hw.symm⟩
    | [e], hw =>
      have htail : '/' :: v = t := (List.cons.inj hw).2
      exact absurd (congrArg List.head? htail.symm) ht
    | e :: f :: w, hw =>
      simp only [List.cons_append, List.cons.injEq] at hw
      obtain ⟨rfl, rfl, -⟩ := hw
      exact absurd ⟨u, w, by simp⟩ hs

/-! ### Insertion -/

theorem Uncommented.left (h : Uncommented (s ++ t)) : ¬ HasLineComment s :=
  fun hs => h.noLine (hs.trans (List.prefix_append s t).isInfix)

theorem Uncommented.right (h : Uncommented (s ++ t)) : Uncommented t where
  noLine ht := h.noLine (ht.trans (List.suffix_append s t).isInfix)
  noBlock := by
    rintro ⟨u, v, rfl, hv⟩
    exact h.noBlock ⟨s ++ u, v, by simp, hv⟩

/-- The line comments of a text with a block put into it lie in the block, and perhaps behind it. -/
theorem dropLineComments_insert (h : ¬ HasLineComment before) :
    dropLineComments (before ++ blockComment a ++ after) =
      before ++ '/' :: '*' :: dropLineComments (a ++ '*' :: '/' :: after) := by
  have hclosed {s : List Char} (hs : ¬ HasLineComment s) : ¬ OpenLine s :=
    fun hopen => hs hopen.hasLineComment
  have hopening : ¬ HasLineComment ['/', '*'] := by simp [HasLineComment, List.infix_cons_iff]
  have hfront : ¬ MeetInLine before (['/', '*'] ++ (a ++ '*' :: '/' :: after)) := by
    rintro ⟨u, v, -, hv⟩
    exact absurd (List.cons.inj hv).1 (by decide)
  have hback : ¬ MeetInLine ['/', '*'] (a ++ '*' :: '/' :: after) := by
    rintro ⟨u, v, hu, -⟩
    have hlast := congrArg List.getLast? hu
    simp at hlast
  have hparts : before ++ blockComment a ++ after =
      before ++ (['/', '*'] ++ (a ++ '*' :: '/' :: after)) := by simp [blockComment]
  rw [hparts, dropLineComments_append (hclosed h) hfront,
    dropLineComments_append (hclosed hopening) hback, dropLineComments_eq_self_iff.2 h,
    dropLineComments_eq_self_iff.2 hopening]
  rfl

/-- Two hyphens that a line break in the block follows are gone with it. -/
theorem stripComments_insert (h : Uncommented (before ++ after)) (hbefore : ¬ OpensBlock before)
    (hclose : ¬ ['*', '/'] <:+: a) (hline : ¬ OpenLine a) :
    stripComments (before ++ blockComment a ++ after) = before ++ after := by
  have hmeet : ¬ MeetInLine a ('*' :: '/' :: after) := by
    rintro ⟨u, v, -, hv⟩
    exact absurd (List.cons.inj hv).1 (by decide)
  have hafter : dropLineComments ('*' :: '/' :: after) = '*' :: '/' :: after := by
    refine dropLineComments_eq_self_iff.2 ?_
    rw [hasLineComment_cons (by decide), hasLineComment_cons (by decide)]
    exact h.right.noLine
  rw [stripComments, dropLineComments_insert h.left, dropLineComments_append hline hmeet, hafter,
    dropBlockComments_append hbefore, dropBlockComments_open,
    afterClose_append fun hin => hclose (close_infix_dropLineComments hin)]
  exact congrArg _ (dropBlockComments_eq_self_iff.2 h.right.noBlock)

/-- A line comment that is open at the end of the block takes the close away. Either the block stays
open in what is left, or a later close ends it and what stands before that is lost. -/
theorem stripComments_insert_of_open (h : ¬ HasLineComment (before ++ after))
    (hblock : ¬ OpensBlock (before ++ after)) (hclose : ¬ ['*', '/'] <:+: a) (hline : OpenLine a) :
    OpensBlock (stripComments (before ++ blockComment a ++ after)) ∨
      ∃ lost rest, after = lost ++ rest ∧ '*' ∈ lost ∧
        stripComments (before ++ blockComment a ++ after) = before ++ rest := by
  have hbefore : ¬ HasLineComment before :=
    fun hb => h (hb.trans (List.prefix_append before after).isInfix)
  have hopens : ¬ OpensBlock before :=
    fun hb => hblock (hb.trans (List.prefix_append before after).isInfix)
  have hsuffix {s : List Char} (hs : s <:+ after) : s <:+: before ++ after :=
    (hs.trans (List.suffix_append before after)).isInfix
  -- the rest of the line goes, and what follows it has no comment of either kind
  have hkept : after.dropWhile (· != '\n') <:+ after := List.dropWhile_suffix _
  have hskip : ('*' :: '/' :: after).dropWhile (· != '\n') = after.dropWhile (· != '\n') := by
    simp
  have hlines : dropLineComments (after.dropWhile (· != '\n')) = after.dropWhile (· != '\n') :=
    dropLineComments_eq_self_iff.2 fun hl => h (hl.trans (hsuffix hkept))
  rw [stripComments, dropLineComments_insert hbefore, dropLineComments_append_of_open hline, hskip,
    hlines, dropBlockComments_append hopens, dropBlockComments_open]
  cases hc : afterClose (dropLineComments a ++ after.dropWhile (· != '\n')) with
  | none =>
    refine .inl ⟨before, dropLineComments a ++ after.dropWhile (· != '\n'), ?_⟩
    simp
  | some rest =>
    have hhead : (after.dropWhile (· != '\n')).head? ≠ some '/' := by
      intro hslash
      have hbreak := List.head?_dropWhile_not (· != '\n') after
      rw [hslash] at hbreak
      simp at hbreak
    obtain ⟨u, hu⟩ := exists_of_afterClose_append
      (fun hin => hclose (close_infix_dropLineComments hin)) hhead hc
    obtain ⟨w, hw⟩ := hkept
    have hrest : rest <:+ after := ⟨w ++ u ++ ['*', '/'], by rw [← hw, hu]; simp⟩
    refine .inr ⟨w ++ u ++ ['*', '/'], rest, by rw [← hw, hu]; simp, by simp, ?_⟩
    exact congrArg _ (dropBlockComments_of_not_opensBlock fun ho => hblock (ho.trans (hsuffix hrest)))

/-! ### With single blanks -/

theorem pair_infix_between (ha : ∀ c ∈ a, c ≠ x) (ht : ∀ c ∈ t, c ≠ y) :
    [x, y] <:+: a ++ (s ++ t) ↔ [x, y] <:+: s := by
  have hback : [x, y] <:+: s ++ t ↔ [x, y] <:+: s := by
    induction t using List.reverseRecOn with
    | nil => rw [List.append_nil]
    | append_singleton t c ih =>
      rw [← List.append_assoc, pair_infix_concat (ht c (by simp))]
      exact ih fun d hd => ht d (by simp [hd])
  induction a with
  | nil => exact hback
  | cons c a ih =>
    have hc : ¬ x = c := fun heq => ha c (by simp) heq.symm
    rw [List.cons_append, List.infix_cons_iff, List.cons_prefix_cons]
    simp only [hc, false_and, false_or]
    exact ih fun d hd => ha d (by simp [hd])

theorem exists_trim_between (s : List Char) :
    ∃ lead tail, s = lead ++ (trim s ++ tail) ∧ ∀ c ∈ lead ++ tail, isBlank c = true := by
  refine ⟨s.takeWhile isBlank, (trimStart s).rtakeWhile isBlank, ?_, ?_⟩
  · rw [trim, trimEnd_eq, List.rdropWhile_append_rtakeWhile]
    exact List.takeWhile_append_dropWhile.symm
  · intro c hc
    rcases List.mem_append.1 hc with hc | hc
    · exact List.mem_takeWhile_imp hc
    · exact List.mem_rtakeWhile_imp hc

theorem ne_of_isBlank (hc : isBlank c = true) (hd : isBlank d = false) : c ≠ d := by
  rintro rfl
  rw [hd] at hc
  cases hc

theorem count_squeezeFrom {inside : Bool} (hc : isBlank c = false) (s : List Char) :
    (squeezeFrom inside s).count c = s.count c := by
  have hspace : ' ' ≠ c := ne_of_isBlank (by decide) hc
  induction s generalizing inside with
  | nil => rfl
  | cons d s ih =>
    cases hd : isBlank d with
    | false => simp [squeezeFrom, hd, List.count_cons, ih]
    | true => cases inside <;> simp [squeezeFrom, hd, ih, ne_of_isBlank hd hc, hspace]

theorem count_normalize (hc : isBlank c = false) (s : List Char) :
    (normalize s).count c = s.count c := by
  obtain ⟨lead, tail, hs, hblank⟩ := exists_trim_between s
  have hnone : (lead ++ tail).count c = 0 :=
    List.count_eq_zero.2 fun hmem => ne_of_isBlank (hblank c hmem) hc rfl
  rw [normalize_eq, count_squeezeFrom hc]
  conv_rhs => rw [hs]
  simp only [List.count_append] at hnone ⊢
  omega

theorem pair_infix_squeezeFrom {inside : Bool} (hx : isBlank x = false) (hy : isBlank y = false)
    (s : List Char) : [x, y] <:+: squeezeFrom inside s ↔ [x, y] <:+: s := by
  have hspace : isBlank ' ' = true := by decide
  induction s generalizing inside with
  | nil => rfl
  | cons d s ih =>
    cases hd : isBlank d with
    | true =>
      have hfront : ¬ [x, y] <+: d :: s := fun h =>
        ne_of_isBlank hd hx (List.cons_prefix_cons.1 h).1.symm
      have hfront' : ¬ [x, y] <+: ' ' :: squeezeFrom true s := fun h =>
        ne_of_isBlank hspace hx (List.cons_prefix_cons.1 h).1.symm
      rw [List.infix_cons_iff, or_iff_right hfront]
      cases inside with
      | true => simpa [squeezeFrom, hd] using ih
      | false =>
        simp only [squeezeFrom, hd, if_true, Bool.false_eq_true, if_false]
        exact List.infix_cons_iff.trans ((or_iff_right hfront').trans ih)
    | false =>
      -- a pair that begins here ends at the next character, which is a blank on both sides or on none
      have hhead : [y] <+: squeezeFrom false s ↔ [y] <+: s := by
        cases s with
        | nil => rfl
        | cons e s =>
          cases he : isBlank e with
          | true =>
            simp [squeezeFrom, he, (ne_of_isBlank he hy).symm, (ne_of_isBlank hspace hy).symm]
          | false => simp [squeezeFrom, he]
      simp only [squeezeFrom, hd, Bool.false_eq_true, if_false]
      rw [List.infix_cons_iff, List.infix_cons_iff, List.cons_prefix_cons, List.cons_prefix_cons,
        hhead]
      exact or_congr_right ih

/-- Two characters that are no blanks stand side by side in a text with single blanks as they do in the
text as it was. -/
theorem pair_infix_normalize (hx : isBlank x = false) (hy : isBlank y = false) (s : List Char) :
    [x, y] <:+: normalize s ↔ [x, y] <:+: s := by
  obtain ⟨lead, tail, hs, hblank⟩ := exists_trim_between s
  rw [normalize_eq, pair_infix_squeezeFrom hx hy]
  conv_rhs => rw [hs]
  refine (pair_infix_between (fun c hc => ?_) fun c hc => ?_).symm
  · exact ne_of_isBlank (hblank c (by simp [hc])) hx
  · exact ne_of_isBlank (hblank c (by simp [hc])) hy

end Querent.Sql
