import Mathlib.Data.List.DropRight
import Querent.Proofs.Text.Blank
import Querent.Proofs.Text.Lower
import Querent.Proofs.Text.Words
import Querent.Sql.Statement

/-! A statement with single blanks. Its first word, its words, its end and its body are those of the
statement as it was written. -/
namespace Querent.Sql

open Text

variable {s t u word : List Char} {c : Char} {inside : Bool} {p : Char → Bool}

/-! ### Trimming and squeezing -/

theorem trimStart_of_prefix (h : u <+: trimStart s) : trimStart u = u := by
  cases u with
  | nil => rfl
  | cons c u =>
    obtain ⟨v, hv⟩ := h
    have hhead : (s.dropWhile isBlank).head? = some c := congrArg List.head? hv.symm
    have hc := List.head?_dropWhile_not isBlank s
    rw [hhead] at hc
    simp [trimStart, hc]

theorem trimStart_squeezeFrom (s : List Char) :
    trimStart (squeezeFrom inside s) = squeezeFrom true s := by
  induction s generalizing inside with
  | nil => rfl
  | cons c s ih =>
    cases hc : isBlank c with
    | false => simp [squeezeFrom, trimStart, hc]
    | true =>
      cases inside with
      | true => simpa [squeezeFrom, hc] using ih
      | false =>
        have hspace : trimStart (' ' :: squeezeFrom true s) = trimStart (squeezeFrom true s) := by
          simp [trimStart, isBlank]
        simp only [squeezeFrom, hc, if_true, Bool.false_eq_true, if_false]
        rw [hspace, ih]

/-- What is cut off an end and includes all blanks may be cut off before or after squeezing. -/
theorem rdropWhile_squeezeFrom (hp : ∀ c, isBlank c = true → p c = true) (s : List Char) :
    (squeezeFrom inside s).rdropWhile p = squeezeFrom inside (s.rdropWhile p) := by
  induction s using List.reverseRecOn with
  | nil => simp [squeezeFrom]
  | append_singleton s c ih =>
    rw [squeezeFrom_concat]
    by_cases hc : p c = true
    · rw [List.rdropWhile_concat_pos _ _ _ hc, ← ih]
      split
      · split
        · rw [List.append_nil]
        · exact List.rdropWhile_concat_pos _ _ _ (hp ' ' (by decide))
      · exact List.rdropWhile_concat_pos _ _ _ hc
    · have hblank : ¬ isBlank c = true := fun h => hc (hp c h)
      rw [if_neg hblank, List.rdropWhile_concat_neg _ _ _ hc, List.rdropWhile_concat_neg _ _ _ hc,
        squeezeFrom_concat, if_neg hblank]

/-- What is cut off an end stands behind every character that is kept. -/
theorem rdropWhile_append_cons (hc : p c = false) (s t : List Char) :
    (s ++ c :: t).rdropWhile p = s ++ c :: t.rdropWhile p := by
  induction t using List.reverseRecOn with
  | nil => simp [List.rdropWhile_concat_neg, hc]
  | append_singleton t d ih =>
    have hassoc : s ++ c :: (t ++ [d]) = (s ++ c :: t) ++ [d] := by simp
    by_cases hd : p d = true
    · rw [hassoc, List.rdropWhile_concat_pos _ _ _ hd, List.rdropWhile_concat_pos _ _ _ hd, ih]
    · rw [List.rdropWhile_concat_neg _ _ _ hd, hassoc, List.rdropWhile_concat_neg _ _ _ hd]

theorem trimEnd_eq (s : List Char) : trimEnd s = s.rdropWhile isBlank := rfl

/-- Cutting off blanks before more is cut off at the same end changes nothing. -/
theorem rdropWhile_trimEnd (hp : ∀ c, isBlank c = true → p c = true) (s : List Char) :
    (trimEnd s).rdropWhile p = s.rdropWhile p := by
  rw [trimEnd_eq]
  induction s using List.reverseRecOn with
  | nil => rfl
  | append_singleton s c ih =>
    by_cases hc : isBlank c = true
    · rw [List.rdropWhile_concat_pos _ _ _ hc, List.rdropWhile_concat_pos _ _ _ (hp c hc), ih]
    · rw [List.rdropWhile_concat_neg _ _ _ hc]

theorem trimStart_trim (s : List Char) : trimStart (trim s) = trim s :=
  trimStart_of_prefix (List.rdropWhile_prefix _ _)

theorem normalize_eq (s : List Char) : normalize s = squeezeFrom false (trim s) := rfl

/-- Squeezing first and trimming then comes to the same. -/
theorem normalize_eq_trim (s : List Char) : normalize s = trim (squeezeFrom false s) := by
  have hfront : trimStart (squeezeFrom false s) = squeezeFrom false (trimStart s) := by
    rw [trimStart_squeezeFrom, squeezeFrom_trimStart]
  rw [normalize_eq, trim, trim, hfront, trimEnd_eq, trimEnd_eq, rdropWhile_squeezeFrom fun _ h => h]

theorem trimStart_normalize (s : List Char) : trimStart (normalize s) = normalize s := by
  rw [normalize_eq, trimStart_squeezeFrom, ← squeezeFrom_trimStart, trimStart_trim]

theorem mem_squeezeFrom (hc : isBlank c = false) : c ∈ squeezeFrom inside s ↔ c ∈ s := by
  induction s generalizing inside with
  | nil => simp [squeezeFrom]
  | cons d s ih =>
    cases hd : isBlank d with
    | false => simp [squeezeFrom, hd, ih]
    | true =>
      have hne : c ≠ d := by
        rintro rfl
        simp [hc] at hd
      have hspace : c ≠ ' ' := by
        rintro rfl
        simp [isBlank] at hc
      cases inside <;> simp [squeezeFrom, hd, ih, hne, hspace]

theorem mem_trim (hc : isBlank c = false) : c ∈ trim s ↔ c ∈ s := by
  have hblank : ∀ {t : List Char}, (∀ d ∈ t, isBlank d = true) → c ∉ t := fun h hmem => by
    simp [h c hmem] at hc
  have hfront : c ∈ trimStart s ↔ c ∈ s := by
    conv_rhs => rw [← List.takeWhile_append_dropWhile (p := isBlank) (l := s)]
    rw [List.mem_append, or_iff_right (hblank fun _ => List.mem_takeWhile_imp)]
    rfl
  rw [← hfront, trim, trimEnd_eq]
  conv_rhs => rw [← List.rdropWhile_append_rtakeWhile (p := isBlank) (l := trimStart s)]
  rw [List.mem_append, or_iff_left (hblank fun _ => List.mem_rtakeWhile_imp)]

theorem mem_normalize (hc : isBlank c = false) : c ∈ normalize s ↔ c ∈ s := by
  rw [normalize_eq, mem_squeezeFrom hc, mem_trim hc]

/-! ### The body of a statement -/

/-- What is cut off the end of a statement. -/
def atEnd (c : Char) : Bool := isBlank c || c == ';'

theorem atEnd_of_isBlank (c : Char) (h : isBlank c = true) : atEnd c = true := by simp [atEnd, h]

theorem body_eq (s : List Char) : body s = (trimStart s).rdropWhile atEnd := rfl

/-- No run of blanks is open behind a body. -/
theorem insideAfter_body (s : List Char) : insideAfter false (body s) = false := by
  rw [body_eq]
  by_cases hnil : (trimStart s).rdropWhile atEnd = []
  · rw [hnil]
    rfl
  · have hlast := List.rdropWhile_last_not atEnd (trimStart s) hnil
    have hblank : isBlank (((trimStart s).rdropWhile atEnd).getLast hnil) = false := by
      rw [Bool.eq_false_iff]
      exact fun h => hlast (atEnd_of_isBlank _ h)
    simp [insideAfter, List.getLast?_eq_some_getLast hnil, hblank]

/-- Blanks may be squeezed before the end is cut off or after. -/
theorem body_normalize (s : List Char) : body (normalize s) = squeezeFrom false (body s) := by
  rw [body_eq, trimStart_normalize, normalize_eq, rdropWhile_squeezeFrom atEnd_of_isBlank, trim,
    rdropWhile_trimEnd atEnd_of_isBlank, body_eq]

theorem isSingle_normalize (s : List Char) : isSingle (normalize s) = isSingle s := by
  have hsemicolon : ';' ∈ body (normalize s) ↔ ';' ∈ body s := by
    rw [body_normalize, mem_squeezeFrom (by decide)]
  unfold isSingle
  rw [Bool.eq_iff_iff]
  simp [hsemicolon]

/-! ### The words of a statement -/

theorem wordsFrom_squeezeFrom (h : inside = true → word = []) (s : List Char) :
    wordsFrom word (squeezeFrom inside s) = wordsFrom word s := by
  induction s generalizing inside word with
  | nil => rfl
  | cons c s ih =>
    cases hc : isBlank c with
    | false =>
      have hword : wordsFrom (c :: word) (squeezeFrom false s) = wordsFrom (c :: word) s :=
        ih (by simp)
      have hnil : wordsFrom [] (squeezeFrom false s) = wordsFrom [] s := ih (by simp)
      simp only [squeezeFrom, hc, wordsFrom, hword, hnil, Bool.false_eq_true, if_false]
    | true =>
      have hborder : isWordChar c = false := isWordChar_of_isBlank hc
      have hspace : isWordChar ' ' = false := by decide
      have hnil : wordsFrom [] (squeezeFrom true s) = wordsFrom [] s := ih fun _ => rfl
      cases inside with
      | true =>
        obtain rfl := h rfl
        simpa [squeezeFrom, hc, wordsFrom, hborder] using hnil
      | false => simp [squeezeFrom, hc, wordsFrom, hborder, hspace, hnil]

theorem words_trim (s : List Char) : words (trim s) = words s := by
  have hfront : words (trimStart s) = words s := by
    conv_rhs => rw [← List.takeWhile_append_dropWhile (p := isBlank) (l := s)]
    exact (words_append_left fun c hc => isWordChar_of_isBlank (List.mem_takeWhile_imp hc)).symm
  rw [← hfront, trim, trimEnd_eq]
  conv_rhs => rw [← List.rdropWhile_append_rtakeWhile (p := isBlank) (l := trimStart s)]
  exact (words_append_right fun c hc => isWordChar_of_isBlank (List.mem_rtakeWhile_imp hc)).symm

theorem words_normalize (s : List Char) : words (normalize s) = words s := by
  rw [normalize_eq, words, wordsFrom_squeezeFrom (by simp)]
  exact words_trim s

theorem hasWord_normalize (k : String) (s : List Char) : hasWord k (normalize s) = hasWord k s := by
  rw [hasWord_eq_any, hasWord_eq_any, words_normalize]

/-! ### The first word of a statement -/

theorem takeWhile_squeezeFrom (hp : ∀ c, isBlank c = true → p c = false) (s : List Char) :
    (squeezeFrom false s).takeWhile p = s.takeWhile p := by
  induction s with
  | nil => rfl
  | cons c s ih =>
    cases hc : isBlank c with
    | false => simp only [squeezeFrom, hc, List.takeWhile_cons, ih, Bool.false_eq_true, if_false]
    | true =>
      have hspace : p ' ' = false := hp ' ' (by decide)
      simp [squeezeFrom, hc, hp c hc, hspace]

theorem takeWhile_trimEnd (hp : ∀ c, isBlank c = true → p c = false) (s : List Char) :
    (trimEnd s).takeWhile p = s.takeWhile p := by
  rw [trimEnd_eq]
  induction s using List.reverseRecOn with
  | nil => rfl
  | append_singleton s c ih =>
    by_cases hc : isBlank c = true
    · have hlast : [c].takeWhile p = [] := by simp [hp c hc]
      rw [List.rdropWhile_concat_pos _ _ _ hc, ih, List.takeWhile_append, hlast, List.append_nil]
      split
      next hall => exact (List.takeWhile_prefix p).eq_of_length hall
      next => rfl
    · rw [List.rdropWhile_concat_neg _ _ _ hc]

theorem leadingWord_normalize (s : List Char) : leadingWord (normalize s) = leadingWord s := by
  have hp (c : Char) (hc : isBlank c = true) : (c.isAlpha || c == '_') = false :=
    forall_isBlank (P := fun c => (c.isAlpha || c == '_') = false) (by decide) hc
  unfold leadingWord
  rw [trimStart_normalize, normalize_eq, takeWhile_squeezeFrom hp, trim, takeWhile_trimEnd hp]

/-! ### Small letters -/

theorem leadingWord_lower (s : List Char) : leadingWord (lower s) = leadingWord s := by
  have hp (c : Char) : (c.toLower.isAlpha || c.toLower == '_') = (c.isAlpha || c == '_') := by
    rw [isAlpha_toLower, toLower_beq (by decide)]
  unfold leadingWord
  rw [trimStart_lower, takeWhile_lower hp]
  simp [lower, Function.comp_def]

theorem body_lower (s : List Char) : body (lower s) = lower (body s) := by
  have hp (c : Char) : (isBlank c.toLower || c.toLower == ';') = (isBlank c || c == ';') := by
    rw [isBlank_toLower, toLower_beq (by decide)]
  unfold body
  rw [trimStart_lower, ← lower_reverse, dropWhile_lower hp, lower_reverse]

theorem isSingle_lower (s : List Char) : isSingle (lower s) = isSingle s := by
  have hmem (s : List Char) : ';' ∈ lower s ↔ ';' ∈ s := by
    simp [lower, toLower_eq_iff (show ';'.isAlpha = false by decide)]
  unfold isSingle
  rw [body_lower, Bool.eq_iff_iff]
  simp [hmem]

end Querent.Sql
