import Mathlib.Data.List.Induction
import Mathlib.Data.List.TakeWhile
import Mathlib.Tactic.Common
import Querent.Text.Blank

/-! What trimming and squeezing make of a text put together from two. -/
namespace Querent.Text

variable {s t w : List Char} {c : Char} {inside : Bool}

/-- Whether a run of blanks is open behind a text. -/
def insideAfter (inside : Bool) (s : List Char) : Bool := (s.getLast?.map isBlank).getD inside

theorem squeezeFrom_append : squeezeFrom inside (s ++ t) =
    squeezeFrom inside s ++ squeezeFrom (insideAfter inside s) t := by
  induction s generalizing inside with
  | nil => rfl
  | cons c s ih =>
    have hafter : insideAfter inside (c :: s) = insideAfter (isBlank c) s := by
      cases hs : s.getLast? <;> simp [insideAfter, List.getLast?_cons, hs]
    rw [hafter, List.cons_append]
    cases hc : isBlank c
    · simp [squeezeFrom, hc, ih]
    · cases inside <;> simp [squeezeFrom, hc, ih]

theorem squeezeFrom_concat : squeezeFrom inside (s ++ [c]) = squeezeFrom inside s ++
    if isBlank c then (if insideAfter inside s then [] else [' ']) else [c] := by
  rw [squeezeFrom_append]
  cases hc : isBlank c <;> cases insideAfter inside s <;> simp [squeezeFrom, hc]

theorem squeezeFrom_run (hw : ∀ c ∈ w, isBlank c = false) : squeezeFrom inside w = w := by
  induction w generalizing inside with
  | nil => rfl
  | cons c w ih =>
    obtain ⟨hc, hw⟩ := List.forall_mem_cons.1 hw
    simp [squeezeFrom, hc, ih hw]

theorem squeezeFrom_blanks (hs : ∀ c ∈ s, isBlank c = true) : squeezeFrom true s = [] := by
  induction s with
  | nil => rfl
  | cons c s ih =>
    obtain ⟨hc, hs⟩ := List.forall_mem_cons.1 hs
    simp [squeezeFrom, hc, ih hs]

theorem squeezeFrom_trimStart (s : List Char) :
    squeezeFrom false (trimStart s) = squeezeFrom true s := by
  induction s with
  | nil => rfl
  | cons c s ih =>
    cases hc : isBlank c with
    | true => simpa [trimStart, squeezeFrom, hc] using ih
    | false => simp [trimStart, squeezeFrom, hc]

theorem trimStart_append (ht : ∀ c ∈ t.head?, isBlank c = false) :
    trimStart (s ++ t) = trimStart s ++ t := by
  unfold trimStart
  induction s with
  | nil =>
    cases t with
    | nil => rfl
    | cons c t => simp [ht c (by simp)]
  | cons c s ih => cases hc : isBlank c <;> simp [hc, ih]

theorem trimStart_append_of_ne_nil (hs : trimStart s ≠ []) :
    trimStart (s ++ t) = trimStart s ++ t := by
  have hempty : ¬ (s.dropWhile isBlank).isEmpty = true := mt List.isEmpty_iff.1 hs
  rw [trimStart, List.dropWhile_append, if_neg hempty]
  rfl

theorem trimStart_append_of_eq_nil (hs : trimStart s = []) : trimStart (s ++ t) = trimStart t := by
  have hempty : (s.dropWhile isBlank).isEmpty = true := List.isEmpty_iff.2 hs
  rw [trimStart, List.dropWhile_append, if_pos hempty]
  rfl

theorem trimEnd_append (hs : ∀ c ∈ s.getLast?, isBlank c = false) :
    trimEnd (s ++ t) = s ++ trimEnd t := by
  have hback : trimStart (t.reverse ++ s.reverse) = trimStart t.reverse ++ s.reverse :=
    trimStart_append (by simpa using hs)
  unfold trimStart at hback
  unfold trimEnd
  rw [List.reverse_append, hback, List.reverse_append, List.reverse_reverse]

/-- A text without white space at its ends stays as it is. -/
theorem trim_eq_self (hstart : ∀ c ∈ s.head?, isBlank c = false)
    (hend : ∀ c ∈ s.getLast?, isBlank c = false) : trim s = s := by
  have hopen : trimStart s = s := trimStart_append (s := []) hstart
  have hclose : trimEnd (s ++ []) = s ++ trimEnd [] := trimEnd_append hend
  rw [trim, hopen, ← List.append_nil s, hclose, List.append_nil]
  exact List.append_nil s

theorem trimEnd_isPrefix : trimEnd s <+: s := by
  have hsuffix : s.reverse.dropWhile isBlank <:+ s.reverse := List.dropWhile_suffix _
  have hstart := List.reverse_prefix.2 hsuffix
  rwa [List.reverse_reverse] at hstart

theorem isBlank_head?_trim : ∀ c ∈ (trim s).head?, isBlank c = false := by
  obtain ⟨rest, hrest⟩ : trim s <+: trimStart s := trimEnd_isPrefix
  have hstart := List.head?_dropWhile_not isBlank s
  intro c hc
  rw [show s.dropWhile isBlank = trim s ++ rest from hrest.symm, List.head?_append,
    Option.mem_def.1 hc] at hstart
  exact hstart

theorem isBlank_getLast?_trim : ∀ c ∈ (trim s).getLast?, isBlank c = false := by
  have hend := List.head?_dropWhile_not isBlank (trimStart s).reverse
  intro c hc
  rw [trim, trimEnd, List.getLast?_reverse] at hc
  rw [Option.mem_def.1 hc] at hend
  exact hend

theorem trim_trim (s : List Char) : trim (trim s) = trim s :=
  trim_eq_self isBlank_head?_trim isBlank_getLast?_trim

theorem trim_eq_nil_iff : trim s = [] ↔ ∀ c ∈ s, isBlank c = true := by
  rw [trim, trimEnd, List.reverse_eq_nil_iff, List.dropWhile_eq_nil_iff]
  constructor
  · intro h
    have hstart := List.head?_dropWhile_not isBlank s
    cases hs : s.dropWhile isBlank with
    | nil => exact List.dropWhile_eq_nil_iff.1 hs
    | cons c rest =>
      have hc : isBlank c = true := h c (by simp [trimStart, hs])
      simp [hs, hc] at hstart
  · intro h
    simp [trimStart, List.dropWhile_eq_nil_iff.2 h]

/-- White space around a text is trimmed off with the text's own. -/
theorem trim_between {front back : List Char} (hfront : ∀ c ∈ front, isBlank c = true)
    (hback : ∀ c ∈ back, isBlank c = true) : trim (front ++ (s ++ back)) = trim s := by
  have hopen : trimStart (front ++ (s ++ back)) = trimStart (s ++ back) :=
    List.dropWhile_append_of_pos hfront
  have hclose (u : List Char) : trimEnd (u ++ back) = trimEnd u := by
    rw [trimEnd, List.reverse_append, List.dropWhile_append_of_pos (by simpa using hback), trimEnd]
  rw [trim, hopen, trim]
  by_cases hs : trimStart s = []
  · have hnone : trimStart back = [] := List.dropWhile_eq_nil_iff.2 hback
    rw [trimStart_append_of_eq_nil hs, hnone, hs]
  · rw [trimStart_append_of_ne_nil hs, hclose]

theorem mem_head?_trimStart (h : s <+: t) (hc : c ∈ (trimStart s).head?) :
    c ∈ (trimStart t).head? := by
  obtain ⟨r, rfl⟩ := h
  have hne : trimStart s ≠ [] := by
    intro hnil
    simp [hnil] at hc
  rw [trimStart_append_of_ne_nil hne, List.head?_append, Option.mem_def.1 hc]
  rfl

theorem insideAfter_run (hne : w ≠ []) (hw : ∀ c ∈ w, isBlank c = false) :
    insideAfter inside w = false := by
  have hlast := List.getLast?_eq_some_getLast hne
  simp [insideAfter, hlast, hw _ (List.getLast_mem hne)]

/-- Squeezed from its start on, a text is empty or ends in the same character or in a space. -/
theorem getLast?_squeezeFrom : ∀ c ∈ (squeezeFrom true s).getLast?,
    if insideAfter true s then c = ' ' else s.getLast? = some c := by
  induction s using List.reverseRecOn with
  | nil => simp [squeezeFrom]
  | append_singleton s d ih =>
    have hafter : insideAfter true (s ++ [d]) = isBlank d := by simp [insideAfter]
    rw [hafter, squeezeFrom_concat]
    cases hd : isBlank d with
    | false => simp
    | true =>
      cases hs : insideAfter true s with
      | false => simp
      | true =>
        rw [hs] at ih
        simpa using ih

end Querent.Text
