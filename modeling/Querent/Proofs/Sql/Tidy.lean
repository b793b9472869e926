import Querent.Proofs.Sql.Comments
import Querent.Proofs.Sql.Scan
import Querent.Sql.Statement

/-! Tidy statements, of flat text with single blanks: what is done to a statement before it is read
leaves them as they are. -/
namespace Querent.Sql

open Text

variable {s t w : List Char}

/-! ### Comments -/

/-- Without hyphens and slashes a text has no comments. -/
theorem stripComments_of_not_mem (hdash : '-' ∉ s) (hslash : '/' ∉ s) : stripComments s = s := by
  refine stripComments_eq_self_iff.2 ⟨?_, ?_⟩
  · intro hline
    exact hdash (hline.subset (by simp))
  · rintro ⟨u, v, rfl, -⟩
    exact hslash (by simp)

theorem Flat.stripComments (h : Flat s) : stripComments s = s :=
  stripComments_of_not_mem (fun hmem => absurd (h _ hmem) (by decide))
    fun hmem => absurd (h _ hmem) (by decide)

/-! ### Blanks -/

/-- Runs of characters other than blanks, with one space between them. -/
inductive Spaced : List Char → Prop where
  | run {w : List Char} (ne_nil : w ≠ []) (full : ∀ c ∈ w, isBlank c = false) : Spaced w
  | append {s t : List Char} (left : Spaced s) (right : Spaced t) : Spaced (s ++ ' ' :: t)

namespace Spaced

theorem ofPlain (h : w ≠ [] ∧ w.all isPlain = true) : Spaced w :=
  .run h.1 fun c hc => isBlank_of_isPlain (List.all_eq_true.1 h.2 c hc)

theorem reverse (h : Spaced s) : Spaced s.reverse := by
  induction h with
  | run ne_nil full => exact .run (by simpa using ne_nil) (by simpa using full)
  | append left right ihl ihr => simpa using ihr.append ihl

theorem exists_cons (h : Spaced s) : ∃ c cs, s = c :: cs ∧ isBlank c = false := by
  induction h with
  | @run w ne_nil full =>
    obtain ⟨c, cs, rfl⟩ := List.exists_cons_of_ne_nil ne_nil
    exact ⟨c, cs, rfl, full c (by simp)⟩
  | append left right ihl ihr =>
    obtain ⟨c, cs, rfl, hc⟩ := ihl
    exact ⟨c, _, List.cons_append, hc⟩

theorem trimStart (h : Spaced s) : trimStart (s ++ t) = s ++ t := by
  obtain ⟨c, cs, rfl, hc⟩ := h.exists_cons
  simp [Text.trimStart, hc]

theorem trimEnd (h : Spaced s) : trimEnd s = s := by
  have hback := h.reverse.trimStart (t := [])
  simp only [List.append_nil, Text.trimStart] at hback
  rw [Text.trimEnd, hback, List.reverse_reverse]

theorem trim (h : Spaced s) : trim s = s := by
  have hfront := h.trimStart (t := [])
  rw [List.append_nil] at hfront
  rw [Text.trim, hfront, h.trimEnd]

/-- Blanks around such a text are all that is trimmed off. -/
theorem trim_blank (h : Spaced s) : Text.trim (' ' :: s) = s := by
  have hstart : Text.trimStart (' ' :: s) = Text.trimStart s := rfl
  rw [Text.trim, hstart]
  exact h.trim

theorem trim_blanks (h : Spaced s) : Text.trim (' ' :: (s ++ [' '])) = s := by
  have hstart : Text.trimStart (' ' :: (s ++ [' '])) = s ++ [' '] := h.trimStart
  have hend : Text.trimEnd (s ++ [' ']) = Text.trimEnd s := by
    rw [Text.trimEnd, Text.trimEnd, List.reverse_append]
    rfl
  rw [Text.trim, hstart, hend, h.trimEnd]

private theorem squeezeFrom_append {inside : Bool} (h : Spaced s) :
    squeezeFrom inside (s ++ t) = s ++ squeezeFrom false t := by
  induction h generalizing inside t with
  | @run w ne_nil full =>
    induction w generalizing inside with
    | nil => contradiction
    | cons c w ih =>
      have hc : isBlank c = false := full c (by simp)
      cases w with
      | nil => simp [squeezeFrom, hc]
      | cons d w =>
        have htail : squeezeFrom false (d :: w ++ t) = d :: w ++ squeezeFrom false t :=
          ih (by simp) fun e he => full e (by simp [he])
        simp only [List.cons_append] at htail ⊢
        rw [squeezeFrom]
        simp [hc, htail]
  | append left right ihl ihr =>
    have hblank : ∀ u, squeezeFrom false (' ' :: u) = ' ' :: squeezeFrom true u := fun u => rfl
    rw [List.append_assoc, ihl, List.cons_append, hblank, ihr, List.append_assoc, List.cons_append]

/-- Such a text is the same with single blanks. -/
theorem normalize (h : Spaced s) : normalize s = s := by
  have hall : squeezeFrom false (s ++ []) = s ++ squeezeFrom false [] := h.squeezeFrom_append
  rw [List.append_nil, squeezeFrom, List.append_nil] at hall
  rw [Sql.normalize, h.trim]
  exact hall

/-- Without a semicolon nothing is cut off the end of such a text. -/
theorem body (h : Spaced s) (hsemi : ';' ∉ s) : body s = s := by
  obtain ⟨c, cs, hcs, hc⟩ := h.reverse.exists_cons
  have hmem : c ∈ s := by
    have : c ∈ s.reverse := by simp [hcs]
    simpa using this
  have hne : c ≠ ';' := by
    rintro rfl
    exact hsemi hmem
  have hfront := h.trimStart (t := [])
  rw [List.append_nil] at hfront
  rw [Sql.body, hfront, hcs, List.dropWhile_cons_of_neg (by simp [hc, hne]), ← hcs,
    List.reverse_reverse]

theorem isSingle (h : Spaced s) (hsemi : ';' ∉ s) : isSingle s = true := by
  simp [Sql.isSingle, h.body hsemi, hsemi]

end Spaced

/-! ### Statements -/

/-- A flat text with single blanks. -/
structure Tidy (s : List Char) : Prop where
  flat : Flat s
  spaced : Spaced s

namespace Tidy

theorem not_mem_semicolon (h : Tidy s) : ';' ∉ s := fun hmem => absurd (h.flat _ hmem) (by decide)

theorem body (h : Tidy s) : body s = s := h.spaced.body h.not_mem_semicolon

theorem isSingle (h : Tidy s) : isSingle s = true := h.spaced.isSingle h.not_mem_semicolon

end Tidy

/-- A keyword that a flat text lacks is not found in it. -/
theorem Flat.hasWord_eq_false {k : String} (hs : Flat s) (hfree : Free [k] s)
    (hk : k.toList.all (fun c => c.isUpper || c == '_') = true) : hasWord k s = false := by
  rw [hasWord, findWord, (seeks_spells hk).findFrom_eq_none hs hfree]
  rfl

end Querent.Sql
