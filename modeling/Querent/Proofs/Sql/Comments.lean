import Mathlib.Data.List.Basic
import Mathlib.Data.List.Infix
import Mathlib.Tactic.Common
import Querent.Sql.Statement

/-! Texts without comments, and how near to one comes what is left of a statement when its comments
are taken out. Without its line comments a text has none. Without its blocks it falls into parts that
hold neither kind; but where a block went, two parts come to stand side by side, and what the one ends
with and the other begins with can make a comment that was not there before. -/
namespace Querent.Sql

open List (Sublist)

variable {a s t u v : List Char} {c d : Char} {l m : List (List Char)}

def HasLineComment (s : List Char) : Prop := ['-', '-'] <:+: s

/-- A block comment opens somewhere and is closed behind that. -/
def HasBlockComment (s : List Char) : Prop :=
  ∃ u v, s = u ++ '/' :: '*' :: v ∧ ['*', '/'] <:+: v

structure Uncommented (s : List Char) : Prop where
  noLine : ¬ HasLineComment s
  noBlock : ¬ HasBlockComment s

theorem pair_infix_cons {x y : Char} :
    [x, y] <:+: c :: d :: s ↔ (c = x ∧ d = y) ∨ [x, y] <:+: d :: s := by
  rw [List.infix_cons_iff]
  simp [List.cons_prefix_cons, eq_comm]

/-- What follows two characters of a text lies behind its first two. -/
private theorem suffix_of_pair {e f : Char} (h : c :: d :: s = u ++ e :: f :: v) : v <:+ s := by
  have hlen : v.length ≤ s.length := by
    have := congrArg List.length h
    simp at this
    omega
  have hleft : v <:+ c :: d :: s := ⟨u ++ [e, f], by simp [h]⟩
  have hright : s <:+ c :: d :: s := ⟨[c, d], rfl⟩
  exact List.suffix_of_suffix_length_le hleft hright hlen

theorem afterClose_eq_none : afterClose s = none ↔ ¬ ['*', '/'] <:+: s := by
  fun_induction afterClose s with
  | case1 => simp
  | case2 => simp [List.infix_cons_iff]
  | case3 c d cs h =>
    have hcd : c = '*' ∧ d = '/' := by simpa using h
    simp [pair_infix_cons, hcd]
  | case4 c d cs h ih =>
    have hcd : ¬ (c = '*' ∧ d = '/') := by simpa using h
    rw [pair_infix_cons, ih]
    simp [hcd]

theorem suffix_of_afterClose (h : afterClose s = some t) : t <:+ s := by
  fun_induction afterClose s with
  | case1 => simp at h
  | case2 => simp at h
  | case3 c d cs _ => exact ⟨[c, d], by simpa using h.symm⟩
  | case4 c d cs _ ih => exact (ih h).trans (List.suffix_cons c _)

/-! ### Line comments -/

theorem dropLineComments_sublist (s : List Char) : Sublist (dropLineComments s) s := by
  fun_induction dropLineComments s with
  | case1 => exact List.Sublist.refl _
  | case2 => exact List.Sublist.refl _
  | case3 c d cs _ ih =>
    have hrest : Sublist (cs.dropWhile (· != '\n')) cs := List.dropWhile_sublist _
    exact ((ih.trans hrest).cons d).cons c
  | case4 c d cs _ ih => exact ih.cons_cons c

theorem head?_dropLineComments (hc : c ≠ '-') : (dropLineComments (c :: s)).head? = some c := by
  cases s with
  | nil => simp [dropLineComments]
  | cons d s => simp [dropLineComments, hc]

/-- The line break that ends a line comment keeps what stands on its two sides apart. -/
theorem not_hasLineComment_dropLineComments (s : List Char) :
    ¬ HasLineComment (dropLineComments s) := by
  fun_induction dropLineComments s with
  | case1 => simp [HasLineComment]
  | case2 => simp [HasLineComment, List.infix_cons_iff]
  | case3 c d cs _ ih => exact ih
  | case4 c d cs h ih =>
    rw [HasLineComment, List.infix_cons_iff, not_or]
    refine ⟨?_, ih⟩
    intro hprefix
    obtain ⟨hc, r, hr⟩ := List.cons_prefix_cons.1 hprefix
    have hd : d ≠ '-' := by
      rintro rfl
      simp [← hc] at h
    have hhead := head?_dropLineComments (s := cs) hd
    rw [← hr] at hhead
    exact hd (by simpa using hhead.symm)

theorem dropLineComments_eq_self_iff : dropLineComments s = s ↔ ¬ HasLineComment s := by
  constructor
  · intro h
    rw [← h]
    exact not_hasLineComment_dropLineComments s
  · intro h
    fun_induction dropLineComments s with
    | case1 => rfl
    | case2 => rfl
    | case3 c d cs hcd _ =>
      have hmark : c = '-' ∧ d = '-' := by simpa using hcd
      exact absurd (pair_infix_cons.2 (.inl hmark)) h
    | case4 c d cs _ ih => rw [ih fun hin => h (pair_infix_cons.2 (.inr hin))]

/-! ### Block comments -/

theorem dropBlockComments_sublist (s : List Char) : Sublist (dropBlockComments s) s := by
  fun_induction dropBlockComments s with
  | case1 => exact List.Sublist.refl _
  | case2 => exact List.Sublist.refl _
  | case3 c d cs _ rest h ih =>
    exact ((ih.trans (suffix_of_afterClose h).sublist).cons d).cons c
  | case4 => exact List.Sublist.refl _
  | case5 c d cs _ ih => exact ih.cons_cons c

theorem dropBlockComments_eq_self_iff : dropBlockComments s = s ↔ ¬ HasBlockComment s := by
  constructor
  · intro h
    fun_induction dropBlockComments s with
    | case1 => simp [HasBlockComment]
    | case2 c =>
      rintro ⟨u, v, hs, -⟩
      have hlen := congrArg List.length hs
      simp at hlen
      omega
    | case3 c d cs _ rest hclose _ =>
      have hle := (dropBlockComments_sublist rest).length_le
      have hlt := afterClose_length hclose
      have hlen := congrArg List.length h
      simp at hlen
      omega
    | case4 c d cs _ hclose =>
      rintro ⟨u, v, hs, hv⟩
      exact afterClose_eq_none.1 hclose (hv.trans (suffix_of_pair hs).isInfix)
    | case5 c d cs hcd ih =>
      rintro ⟨u, v, hs, hv⟩
      cases u with
      | nil => simp_all
      | cons e u => exact ih (List.cons.inj h).2 ⟨u, v, (List.cons.inj hs).2, hv⟩
  · intro h
    fun_induction dropBlockComments s with
    | case1 => rfl
    | case2 => rfl
    | case3 c d cs hcd rest hclose _ =>
      have hmark : c = '/' ∧ d = '*' := by simpa using hcd
      obtain ⟨rfl, rfl⟩ := hmark
      have hnone := afterClose_eq_none.2 fun hv => h ⟨[], cs, rfl, hv⟩
      simp [hnone] at hclose
    | case4 => rfl
    | case5 c d cs _ ih =>
      rw [ih]
      rintro ⟨u, v, hs, hv⟩
      exact h ⟨c :: u, v, by rw [hs]; rfl, hv⟩

/-- Taking comments out changes nothing exactly in a text that has none. -/
theorem stripComments_eq_self_iff : stripComments s = s ↔ Uncommented s := by
  constructor
  · intro h
    have hblocks := (dropBlockComments_sublist (dropLineComments s)).length_le
    have hlines := dropLineComments_sublist s
    have hlen : (dropLineComments s).length = s.length := by
      have := congrArg List.length h
      have := hlines.length_le
      unfold stripComments at *
      omega
    have hsame : dropLineComments s = s := hlines.eq_of_length hlen
    rw [stripComments, hsame] at h
    exact ⟨dropLineComments_eq_self_iff.1 hsame, dropBlockComments_eq_self_iff.1 h⟩
  · intro h
    rw [stripComments, dropLineComments_eq_self_iff.2 h.noLine,
      dropBlockComments_eq_self_iff.2 h.noBlock]

/-! ### The parts that stay -/

/-- The parts of a text that stay when its block comments are taken out. -/
def remains : List Char → List (List Char)
  | [] => [[]]
  | [c] => [[c]]
  | c :: d :: cs =>
    if c == '/' && d == '*' then
      match _h : afterClose cs with
      | some rest => [] :: remains rest
      | none => [c :: d :: cs]
    else (remains (d :: cs)).modifyHead (c :: ·)
termination_by cs => cs.length
decreasing_by
  · have := afterClose_length ‹_›
    simp only [List.length_cons]
    omega
  · simp

theorem exists_remains_cons (s : List Char) : ∃ p ps, remains s = p :: ps ∧ p <+: s := by
  fun_induction remains s with
  | case1 => exact ⟨[], [], rfl, List.nil_prefix⟩
  | case2 c => exact ⟨[c], [], rfl, List.prefix_refl _⟩
  | case3 c d cs _ rest _ _ => exact ⟨[], remains rest, rfl, List.nil_prefix⟩
  | case4 c d cs _ _ => exact ⟨_, [], rfl, List.prefix_refl _⟩
  | case5 c d cs _ ih =>
    obtain ⟨p, ps, h, hp⟩ := ih
    refine ⟨c :: p, ps, by rw [h]; rfl, ?_⟩
    exact List.cons_prefix_cons.2 ⟨rfl, hp⟩

theorem flatten_remains (s : List Char) : (remains s).flatten = dropBlockComments s := by
  fun_induction remains s with
  | case1 => simp [dropBlockComments]
  | case2 => simp [dropBlockComments]
  | case3 c d cs hcd rest hclose ih =>
    rw [List.flatten_cons, ih, List.nil_append, dropBlockComments, if_pos hcd]
    split <;> simp_all
  | case4 c d cs hcd hclose =>
    rw [dropBlockComments, if_pos hcd]
    split <;> simp_all
  | case5 c d cs hcd ih =>
    obtain ⟨p, ps, h, -⟩ := exists_remains_cons (d :: cs)
    rw [h] at ih ⊢
    rw [dropBlockComments, if_neg hcd, ← ih]
    rfl

/-- Each part lies in the text, and a block that opens in one is the last that opens and is not
closed. -/
theorem remains_part (h : remains s = l ++ t :: m) :
    t <:+: s ∧ ∀ u v, t = u ++ '/' :: '*' :: v → m = [] ∧ ¬ ['*', '/'] <:+: v := by
  fun_induction remains s generalizing l t m with
  | case1 =>
    obtain ⟨rfl, rfl, rfl⟩ : l = [] ∧ t = [] ∧ m = [] := by
      cases l <;> simp_all
    simp
  | case2 c =>
    obtain ⟨rfl, rfl, rfl⟩ : l = [] ∧ t = [c] ∧ m = [] := by
      cases l <;> simp_all
    refine ⟨List.infix_refl _, ?_⟩
    intro u v hs
    have hlen := congrArg List.length hs
    simp at hlen
    omega
  | case3 c d cs _ rest hclose ih =>
    cases l with
    | nil =>
      obtain ⟨rfl, rfl⟩ := List.cons.inj h
      simp
    | cons p l =>
      have hpart := ih (List.cons.inj h).2
      have hrest : rest <:+ c :: d :: cs :=
        ((suffix_of_afterClose hclose).trans (List.suffix_cons d _)).trans (List.suffix_cons c _)
      exact ⟨hpart.1.trans hrest.isInfix, hpart.2⟩
  | case4 c d cs _ hclose =>
    obtain ⟨rfl, rfl, rfl⟩ : l = [] ∧ t = c :: d :: cs ∧ m = [] := by
      cases l <;> simp_all
    refine ⟨List.infix_refl _, fun u v hs => ⟨rfl, fun hv => ?_⟩⟩
    exact afterClose_eq_none.1 hclose (hv.trans (suffix_of_pair hs).isInfix)
  | case5 c d cs hcd ih =>
    obtain ⟨p, ps, hps, hp⟩ := exists_remains_cons (d :: cs)
    rw [hps] at h ih
    have hcons : (c :: p) :: ps = l ++ t :: m := h
    cases l with
    | nil =>
      obtain ⟨rfl, rfl⟩ := List.cons.inj hcons
      have hpart := ih (l := []) rfl
      refine ⟨(List.cons_prefix_cons.2 ⟨rfl, hp⟩).isInfix, ?_⟩
      intro u v hs
      cases u with
      | nil =>
        obtain ⟨rfl, rfl⟩ := List.cons.inj hs
        have hd : '*' = d := (List.cons_prefix_cons.1 hp).1
        simp [← hd] at hcd
      | cons e u => exact hpart.2 u v (List.cons.inj hs).2
    | cons q l =>
      have hpart := ih (l := p :: l) (by rw [(List.cons.inj hcons).2]; rfl)
      exact ⟨hpart.1.trans (List.suffix_cons c _).isInfix, hpart.2⟩

/-- Two neighbours in a text of parts stand in one part or where two parts meet. -/
theorem flatten_eq_append_pair {ps : List (List Char)} (h : ps.flatten = a ++ c :: d :: v) :
    (∃ l u w m, ps = l ++ (u ++ c :: d :: w) :: m ∧ v = w ++ m.flatten) ∨
      ∃ l m, ps = l ++ m ∧ l.flatten = a ++ [c] ∧ m.flatten = d :: v := by
  induction ps generalizing a with
  | nil => simp at h
  | cons p ps ih =>
    have later : ∀ b, a = p ++ b → ps.flatten = b ++ c :: d :: v →
        (∃ l u w m, p :: ps = l ++ (u ++ c :: d :: w) :: m ∧ v = w ++ m.flatten) ∨
          ∃ l m, p :: ps = l ++ m ∧ l.flatten = a ++ [c] ∧ m.flatten = d :: v := by
      intro b hb hps
      rcases ih hps with ⟨l, u, w, m, hl, hv⟩ | ⟨l, m, hl, hleft, hright⟩
      · exact .inl ⟨p :: l, u, w, m, by rw [hl]; rfl, hv⟩
      · exact .inr ⟨p :: l, m, by rw [hl]; rfl, by simp [hleft, hb], hright⟩
    rw [List.flatten_cons] at h
    rcases List.append_eq_append_iff.1 h with ⟨b, hb, hps⟩ | ⟨b, hp, hb⟩
    · exact later b hb hps
    · match b, hb with
      | [], hb => exact later [] (by simpa using hp.symm) hb.symm
      | [e], hb =>
        obtain ⟨rfl, hps⟩ := List.cons.inj hb
        exact .inr ⟨[p], ps, rfl, by simpa using hp, hps.symm⟩
      | e :: f :: w, hb =>
        simp only [List.cons_append, List.cons.injEq] at hb
        obtain ⟨rfl, rfl, hv⟩ := hb
        exact .inl ⟨[], a, w, ps, by rw [hp]; rfl, hv⟩

/-- Two hyphens meet. -/
def MeetInLine (s t : List Char) : Prop := ∃ u v, s = u ++ ['-'] ∧ t = '-' :: v

/-- A slash and a star meet, and what follows closes the block. -/
def MeetInBlock (s t : List Char) : Prop :=
  ∃ u v, s = u ++ ['/'] ∧ t = '*' :: v ∧ ['*', '/'] <:+: v

/-- Of a text without line comments there is one left exactly where two parts meet in one. -/
theorem hasLineComment_dropBlockComments_iff (hs : ¬ HasLineComment s) :
    HasLineComment (dropBlockComments s) ↔
      ∃ l m, remains s = l ++ m ∧ MeetInLine l.flatten m.flatten := by
  rw [← flatten_remains]
  constructor
  · rintro ⟨a, v, h⟩
    have hpair : (remains s).flatten = a ++ '-' :: '-' :: v := by simp [← h]
    rcases flatten_eq_append_pair hpair with ⟨l, u, w, m, hl, -⟩ | ⟨l, m, hl, hleft, hright⟩
    · have hpart : HasLineComment (u ++ '-' :: '-' :: w) := ⟨u, w, by simp⟩
      exact absurd (hpart.trans (remains_part hl).1) hs
    · exact ⟨l, m, hl, a, v, hleft, hright⟩
  · rintro ⟨l, m, hl, u, v, hleft, hright⟩
    exact ⟨u, v, by simp [hl, hleft, hright]⟩

/-- Of block comments there is one left exactly where two parts meet in one. -/
theorem hasBlockComment_dropBlockComments_iff :
    HasBlockComment (dropBlockComments s) ↔
      ∃ l m, remains s = l ++ m ∧ MeetInBlock l.flatten m.flatten := by
  rw [← flatten_remains]
  constructor
  · rintro ⟨a, v, h, hclose⟩
    rcases flatten_eq_append_pair h with ⟨l, u, w, m, hl, hv⟩ | ⟨l, m, hl, hleft, hright⟩
    · obtain ⟨rfl, hopen⟩ := (remains_part hl).2 u w rfl
      rw [hv, List.flatten_nil, List.append_nil] at hclose
      exact absurd hclose hopen
    · exact ⟨l, m, hl, a, v, hleft, hright, hclose⟩
  · rintro ⟨l, m, hl, u, v, hleft, hright, hclose⟩
    exact ⟨u, v, by simp [hl, hleft, hright], hclose⟩

/-! ### Around a text -/

theorem hasLineComment_cons (hc : c ≠ '-') : HasLineComment (c :: s) ↔ HasLineComment s := by
  simp [HasLineComment, List.infix_cons_iff, List.cons_prefix_cons, hc.symm]

theorem pair_infix_concat {x y : Char} (hc : c ≠ y) : [x, y] <:+: s ++ [c] ↔ [x, y] <:+: s := by
  have hsuffix : ¬ [x, y] <:+ s ++ [c] := by
    rintro ⟨u, hu⟩
    have hlast := congrArg List.getLast? hu
    simp at hlast
    exact hc hlast.symm
  simp [List.infix_concat_iff, hsuffix]

theorem hasLineComment_concat (hc : c ≠ '-') :
    HasLineComment (s ++ [c]) ↔ HasLineComment s := pair_infix_concat hc

theorem hasBlockComment_cons (hc : c ≠ '/') : HasBlockComment (c :: s) ↔ HasBlockComment s := by
  constructor
  · rintro ⟨u, v, hs, hv⟩
    cases u with
    | nil => exact absurd (List.cons.inj hs).1 hc
    | cons e u => exact ⟨u, v, (List.cons.inj hs).2, hv⟩
  · rintro ⟨u, v, rfl, hv⟩
    exact ⟨c :: u, v, rfl, hv⟩

theorem hasBlockComment_concat (hc : c ≠ '/') :
    HasBlockComment (s ++ [c]) ↔ HasBlockComment s := by
  constructor
  · rintro ⟨u, v, hs, hv⟩
    rcases List.eq_nil_or_concat v with rfl | ⟨w, e, rfl⟩
    · simp at hv
    · rw [List.concat_eq_append] at hs hv
      have hparts : s ++ [c] = (u ++ '/' :: '*' :: w) ++ [e] := by simp [hs]
      obtain ⟨rfl, he⟩ := List.append_inj' hparts rfl
      obtain rfl : c = e := by simpa using he
      exact ⟨u, w, rfl, (pair_infix_concat hc).1 hv⟩
  · rintro ⟨u, v, rfl, hv⟩
    exact ⟨u, v ++ [c], by simp, hv.trans (List.prefix_append v [c]).isInfix⟩

/-- What stands around a text without hyphens and slashes opens and closes no comment in it. -/
theorem hasComment_between {t : List Char} (ha : ∀ c ∈ a, c ≠ '-' ∧ c ≠ '/')
    (ht : ∀ c ∈ t, c ≠ '-' ∧ c ≠ '/') :
    (HasLineComment (a ++ (s ++ t)) ↔ HasLineComment s) ∧
      (HasBlockComment (a ++ (s ++ t)) ↔ HasBlockComment s) := by
  have hback : (HasLineComment (s ++ t) ↔ HasLineComment s) ∧
      (HasBlockComment (s ++ t) ↔ HasBlockComment s) := by
    induction t using List.reverseRecOn with
    | nil => simp
    | append_singleton t c ih =>
      have hc := ht c (by simp)
      have hrest := ih fun d hd => ht d (by simp [hd])
      rw [← List.append_assoc, hasLineComment_concat hc.1, hasBlockComment_concat hc.2]
      exact hrest
  induction a with
  | nil => exact hback
  | cons c a ih =>
    have hc := ha c (by simp)
    rw [List.cons_append, hasLineComment_cons hc.1, hasBlockComment_cons hc.2]
    exact ih fun d hd => ha d (by simp [hd])

end Querent.Sql
