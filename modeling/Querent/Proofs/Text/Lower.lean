import Querent.Proofs.Text.Plain
import Querent.Text.Parts

/-! Texts in small letters. Every class of characters that a statement is read by holds a letter in
either case or in neither, so that a text is taken apart where it is in small letters. -/
namespace Querent.Text

/-- A text with its letters A to Z in small. -/
def lower (cs : List Char) : List Char := cs.map Char.toLower

/-- The same with a found word and what stands around it. -/
def Found.lower (f : Found) : Found := ⟨Text.lower f.before, Text.lower f.word, Text.lower f.after⟩

variable {α : Type} {p : Char → Bool} {s t a b before word : List Char} {c : Char}

/-! ### Characters -/

/-- What does not tell the capitals from A to Z from their small letters tells no letter from its
small one. -/
theorem apply_toLower {f : Char → α} (h : ∀ n < 128, f (Char.ofNat n).toLower = f (Char.ofNat n))
    (c : Char) : f c.toLower = f c := by
  by_cases hc : c.toNat < 128
  · exact forall_ascii (P := fun c => f c.toLower = f c) h hc
  · have hupper : ¬ (c.val ≥ 65 ∧ c.val ≤ 90) := by
      rintro ⟨-, hle⟩
      have := UInt32.le_iff_toNat_le.1 hle
      exact hc (Nat.lt_of_le_of_lt this (by decide))
    have hkeep : c.toLower = c := by
      unfold Char.toLower
      exact dif_neg hupper
    rw [hkeep]

/-- All that a character is read by, and the letters it is compared as. -/
def readAs (c : Char) : (Bool × Bool × Bool × Bool) × Char × Char × Char :=
  ((isBlank c, isWordChar c, isLetterOrNumber c, c.isAlpha), c.toUpper, keyLetter c, c.toLower)

theorem readAs_toLower (c : Char) : readAs c.toLower = readAs c :=
  apply_toLower (by decide +kernel) c

@[simp] theorem isBlank_toLower (c : Char) : isBlank c.toLower = isBlank c :=
  congrArg (·.1.1) (readAs_toLower c)

@[simp] theorem isWordChar_toLower (c : Char) : isWordChar c.toLower = isWordChar c :=
  congrArg (·.1.2.1) (readAs_toLower c)

@[simp] theorem isLetterOrNumber_toLower (c : Char) :
    isLetterOrNumber c.toLower = isLetterOrNumber c := congrArg (·.1.2.2.1) (readAs_toLower c)

@[simp] theorem isAlpha_toLower (c : Char) : c.toLower.isAlpha = c.isAlpha :=
  congrArg (·.1.2.2.2) (readAs_toLower c)

@[simp] theorem toUpper_toLower (c : Char) : c.toLower.toUpper = c.toUpper :=
  congrArg (·.2.1) (readAs_toLower c)

@[simp] theorem keyLetter_toLower (c : Char) : keyLetter c.toLower = keyLetter c :=
  congrArg (·.2.2.1) (readAs_toLower c)

@[simp] theorem toLower_toLower (c : Char) : c.toLower.toLower = c.toLower :=
  congrArg (·.2.2.2) (readAs_toLower c)

theorem toLower_of_isAlpha (h : c.isAlpha = false) : c.toLower = c := by
  unfold Char.toLower
  refine dif_neg fun hrange => ?_
  have hupper : c.isUpper = true := decide_eq_true hrange
  have halpha : c.isAlpha = true := Bool.or_eq_true_iff.2 (.inl hupper)
  simp [halpha] at h

/-- A mark that is no letter is nothing else's small letter. -/
theorem toLower_eq_iff {m : Char} (hm : m.isAlpha = false) : c.toLower = m ↔ c = m := by
  constructor
  · rintro rfl
    rw [isAlpha_toLower] at hm
    exact (toLower_of_isAlpha hm).symm
  · rintro rfl
    exact toLower_of_isAlpha hm

theorem toLower_beq {m : Char} (hm : m.isAlpha = false) : (c.toLower == m) = (c == m) := by
  rw [Bool.eq_iff_iff, beq_iff_eq, beq_iff_eq, toLower_eq_iff hm]

/-! ### Texts -/

@[simp] theorem lower_nil : lower [] = [] := rfl

@[simp] theorem lower_cons (c : Char) (cs : List Char) :
    lower (c :: cs) = c.toLower :: lower cs := rfl

@[simp] theorem lower_append (s t : List Char) : lower (s ++ t) = lower s ++ lower t :=
  List.map_append

@[simp] theorem lower_reverse (s : List Char) : lower s.reverse = (lower s).reverse :=
  List.map_reverse

@[simp] theorem lower_lower (s : List Char) : lower (lower s) = lower s := by
  simp [lower, Function.comp_def]

@[simp] theorem isEmpty_lower (s : List Char) : (lower s).isEmpty = s.isEmpty := by
  cases s <;> rfl

theorem takeWhile_lower (hp : ∀ c, p c.toLower = p c) (s : List Char) :
    (lower s).takeWhile p = lower (s.takeWhile p) := by
  have hcomp : p ∘ Char.toLower = p := funext hp
  rw [lower, List.takeWhile_map, hcomp]
  rfl

theorem dropWhile_lower (hp : ∀ c, p c.toLower = p c) (s : List Char) :
    (lower s).dropWhile p = lower (s.dropWhile p) := by
  have hcomp : p ∘ Char.toLower = p := funext hp
  rw [lower, List.dropWhile_map, hcomp]
  rfl

@[simp] theorem trimStart_lower (s : List Char) : trimStart (lower s) = lower (trimStart s) :=
  dropWhile_lower isBlank_toLower s

@[simp] theorem trimEnd_lower (s : List Char) : trimEnd (lower s) = lower (trimEnd s) := by
  unfold trimEnd
  rw [← lower_reverse, dropWhile_lower isBlank_toLower, lower_reverse]

@[simp] theorem trim_lower (s : List Char) : trim (lower s) = lower (trim s) := by
  unfold trim
  rw [trimStart_lower, trimEnd_lower]

/-- A text is cut where it is cut in small letters. -/
theorem splitAt_lower {m : Char} (hm : m.isAlpha = false) (s : List Char) :
    splitAt m (lower s) = (splitAt m s).map lower := by
  induction s with
  | nil => rfl
  | cons c s ih =>
    simp only [lower_cons, splitAt, toLower_beq hm, ih]
    split
    · rfl
    · cases splitAt m s <;> rfl

/-! ### Words -/

theorem sameLetters_iff : sameLetters a b = true ↔ lower a = lower b := beq_iff_eq

@[simp] theorem sameLetters_lower_left (a b : List Char) :
    sameLetters (lower a) b = sameLetters a b := by
  rw [Bool.eq_iff_iff, sameLetters_iff, sameLetters_iff, lower_lower]

@[simp] theorem sameLetters_lower_right (a b : List Char) :
    sameLetters a (lower b) = sameLetters a b := by
  rw [Bool.eq_iff_iff, sameLetters_iff, sameLetters_iff, lower_lower]

@[simp] theorem spells_lower (k : String) (w : List Char) : spells k (lower w) = spells k w := by
  have hletters : (lower w).map keyLetter = w.map keyLetter := by
    simp [lower, Function.comp_def]
  unfold spells
  rw [hletters]

/-- A word is found where it is found in small letters. -/
theorem findFrom_lower {p : List Char → Bool} (hp : ∀ w, p (lower w) = p w)
    (before word s : List Char) : findFrom p (lower before) (lower word) (lower s) =
      (findFrom p before word s).map Found.lower := by
  have hword (word : List Char) :
      (!(lower word).isEmpty && p (lower word).reverse) = (!word.isEmpty && p word.reverse) := by
    rw [isEmpty_lower, ← lower_reverse, hp]
  induction s generalizing before word with
  | nil =>
    simp only [lower_nil, findFrom, hword]
    split
    · simp [Found.lower]
    · rfl
  | cons c s ih =>
    simp only [lower_cons, findFrom, isWordChar_toLower, hword]
    split
    · exact ih before (c :: word)
    · split
      · simp [Found.lower]
      · have hnext := ih (c :: (word ++ before)) []
        rwa [lower_cons, lower_append] at hnext

theorem findWord_lower {p : List Char → Bool} (hp : ∀ w, p (lower w) = p w) (s : List Char) :
    findWord p (lower s) = (findWord p s).map Found.lower := findFrom_lower hp [] [] s

@[simp] theorem hasWord_lower (k : String) (s : List Char) : hasWord k (lower s) = hasWord k s := by
  unfold hasWord
  rw [findWord_lower (spells_lower k), Option.isSome_map]

end Querent.Text
