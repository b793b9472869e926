import Mathlib.Data.List.TakeWhile
import Mathlib.Tactic.Common
import Querent.Text.Blank
import Querent.Text.Word

/-! Plain characters, the letters A to Z, digits and underscores of ASCII: every class of
characters that the readers of a statement use sorts them alike. -/
namespace Querent.Text

/-- A letter from A to Z in either case, a digit or an underscore. -/
def isPlain (c : Char) : Bool := c.isAlphanum || c == '_'

variable {c : Char}

/-- What holds of the first 128 characters holds of a character among them. -/
theorem forall_ascii {P : Char → Prop} (h : ∀ n < 128, P (Char.ofNat n)) (hc : c.toNat < 128) :
    P c := by
  simpa using h c.toNat hc

theorem toNat_lt_of_isPlain (h : isPlain c = true) : c.toNat < 128 := by
  have hranges : ((decide (c.val ≥ 65 ∧ c.val ≤ 90) || (c.val ≥ 97 && c.val ≤ 122)) ||
      (c.val ≥ 48 && c.val ≤ 57) || c == '_') = true := h
  simp only [Bool.or_eq_true, Bool.and_eq_true, decide_eq_true_eq, UInt32.le_iff_toNat_le,
    beq_iff_eq, ge_iff_le] at hranges
  rcases hranges with ((h | h) | h) | rfl
  · exact Nat.lt_of_le_of_lt h.2 (by decide)
  · exact Nat.lt_of_le_of_lt h.2 (by decide)
  · exact Nat.lt_of_le_of_lt h.2 (by decide)
  · decide

/-- What a decision on the first 128 characters shows of the plain ones holds of each of them. -/
theorem forall_isPlain {P : Char → Prop} (h : ∀ n < 128, isPlain (Char.ofNat n) = true →
    P (Char.ofNat n)) (hc : isPlain c = true) : P c :=
  forall_ascii (P := fun c => isPlain c = true → P c) h (toNat_lt_of_isPlain hc) hc

theorem isWordChar_of_isPlain (h : isPlain c = true) : isWordChar c = true :=
  forall_isPlain (P := fun c => isWordChar c = true) (by decide) h

theorem isBlank_of_isPlain (h : isPlain c = true) : isBlank c = false :=
  forall_isPlain (P := fun c => isBlank c = false) (by decide) h

theorem isPlain_of_isDigit (h : c.isDigit = true) : isPlain c = true := by
  simp [isPlain, Char.isAlphanum, h]

/-- A plain character stands in a keyword for the capital that it is the small letter of. -/
private theorem keyLetter_eq_iff {k : Char} (hk : (k.isUpper || k == '_') = true)
    (h : isPlain c = true) : keyLetter c = k ↔ k.toLower = c.toLower := by
  have hplain : isPlain k = true := by
    rcases Bool.or_eq_true_iff.1 hk with hk | hk
    · have halpha : k.isAlpha = true := Bool.or_eq_true_iff.2 (.inl hk)
      simp [isPlain, Char.isAlphanum, halpha]
    · simp [isPlain, hk]
  have hsmall : (keyLetter c).toLower = c.toLower :=
    forall_isPlain (P := fun c => (keyLetter c).toLower = c.toLower) (by decide) h
  have hcapital : keyLetter c = c.toLower.toUpper :=
    forall_isPlain (P := fun c => keyLetter c = c.toLower.toUpper) (by decide) h
  have hback : (k.isUpper || k == '_') = true → k.toLower.toUpper = k :=
    forall_isPlain (P := fun k => (k.isUpper || k == '_') = true → k.toLower.toUpper = k)
      (by decide) hplain
  constructor
  · rintro rfl
    exact hsmall
  · intro heq
    rw [hcapital, ← heq, hback hk]

/-- Among plain words a keyword in capitals is spelled by itself in either case and by nothing
else. -/
theorem spells_eq_sameLetters {k : String} {w : List Char}
    (hk : k.toList.all (fun c => c.isUpper || c == '_') = true) (hw : ∀ c ∈ w, isPlain c = true) :
    spells k w = sameLetters k.toList w := by
  unfold spells sameLetters
  rw [Bool.eq_iff_iff, beq_iff_eq, beq_iff_eq]
  generalize k.toList = ks at hk
  induction w generalizing ks with
  | nil => cases ks <;> simp
  | cons c w ih =>
    cases ks with
    | nil => simp
    | cons d ks =>
      rw [List.all_cons, Bool.and_eq_true] at hk
      have htail := ih (fun e he => hw e (by simp [he])) ks hk.2
      have hhead := keyLetter_eq_iff hk.1 (hw c (by simp))
      simp only [List.map_cons, List.cons.injEq, hhead, htail]

theorem isDigit_of_mem_toString {n : Nat} (h : c ∈ (toString n).toList) :
    c.isDigit = true := by
  rw [Nat.toString_eq_repr, Nat.toList_repr] at h
  exact Nat.isDigit_of_mem_toDigits (by decide) (by decide) h

theorem toString_toList_ne_nil (n : Nat) : (toString n).toList ≠ [] := by
  rw [Nat.toString_eq_repr, Nat.toList_repr]
  exact Nat.toDigits_ne_nil

/-- A number spells no keyword. -/
theorem not_spells_toString {k : String} (hk : k.toList.all Char.isAlpha = true) (n : Nat) :
    spells k (toString n).toList = false := by
  by_contra h
  rw [Bool.not_eq_false, spells, beq_iff_eq] at h
  obtain ⟨c, hc⟩ := List.exists_mem_of_ne_nil _ (toString_toList_ne_nil n)
  have hdigit : c.isDigit = true := isDigit_of_mem_toString hc
  have hkeep : c.isDigit = true → (keyLetter c).isAlpha = false :=
    forall_isPlain (P := fun c => c.isDigit = true → (keyLetter c).isAlpha = false)
      (by decide) (isPlain_of_isDigit hdigit)
  have hmem : keyLetter c ∈ k.toList := by
    rw [← h]
    exact List.mem_map_of_mem hc
  have halpha : (keyLetter c).isAlpha = true := List.all_eq_true.1 hk _ hmem
  rw [hkeep hdigit] at halpha
  contradiction

/-- A character of ASCII that no name, no number and no keyword goes on with. -/
def isBorder (c : Char) : Bool := c.toNat < 128 && !isPlain c && c != '$'

/-- A text at whose front a word ends: it is over or goes on with a border. -/
def Border (t : List Char) : Prop := ∀ c ∈ t.head?, isBorder c = true

@[simp] theorem border_nil : Border [] := by simp [Border]

@[simp] theorem border_cons {t : List Char} : Border (c :: t) ↔ isBorder c = true := by
  simp [Border]

theorem Border.append {s t : List Char} (hs : Border s) (ht : Border t) : Border (s ++ t) := by
  cases s with
  | nil => exact ht
  | cons c s => exact hs

/-- What a decision on the first 128 characters shows of the borders holds of each of them. -/
theorem forall_isBorder {P : Char → Prop} (h : ∀ n < 128, isBorder (Char.ofNat n) = true →
    P (Char.ofNat n)) (hc : isBorder c = true) : P c := by
  have hascii : c.toNat < 128 := by
    simp only [isBorder, Bool.and_eq_true, decide_eq_true_eq] at hc
    exact hc.1.1
  exact forall_ascii (P := fun c => isBorder c = true → P c) h hascii hc

theorem isWordChar_of_isBorder (h : isBorder c = true) : isWordChar c = false :=
  forall_isBorder (P := fun c => isWordChar c = false) (by decide) h

/-- A run of plain characters is what a reader takes from the front of a text, if a border follows
and the reader goes on at plain characters and stops at borders. -/
theorem takeWhile_plain {p : Char → Bool} {w t : List Char} (hp : ∀ c, isPlain c = true → p c = true)
    (hb : ∀ c, isBorder c = true → p c = false) (hw : ∀ c ∈ w, isPlain c = true) (ht : Border t) :
    (w ++ t).takeWhile p = w := by
  rw [List.takeWhile_append_of_pos fun c hc => hp c (hw c hc)]
  cases t with
  | nil => simp
  | cons c t => simp [hb c (border_cons.1 ht)]

theorem dropWhile_plain {p : Char → Bool} {w t : List Char} (hp : ∀ c, isPlain c = true → p c = true)
    (hb : ∀ c, isBorder c = true → p c = false) (hw : ∀ c ∈ w, isPlain c = true) (ht : Border t) :
    (w ++ t).dropWhile p = t := by
  rw [List.dropWhile_append_of_pos fun c hc => hp c (hw c hc)]
  cases t with
  | nil => simp
  | cons c t => simp [hb c (border_cons.1 ht)]

end Querent.Text
