import Querent.Proofs.Text.Plain

/-! The words of a text as a list, and what a keyword scan finds: a keyword that stands between
two word borders. -/
namespace Querent.Text

/-- The maximal runs of word characters, in order. `word` is the part of the current word already
read, nearest first. -/
def wordsFrom (word : List Char) : List Char → List (List Char)
  | [] => if word.isEmpty then [] else [word.reverse]
  | c :: cs =>
    if isWordChar c then wordsFrom (c :: word) cs
    else if word.isEmpty then wordsFrom [] cs
    else word.reverse :: wordsFrom [] cs

/-- The maximal runs of word characters of a text, in order. -/
def words (text : List Char) : List (List Char) := wordsFrom [] text

/-- A run of word characters with no word character directly before or after it. -/
structure WholeWord (before word after : List Char) : Prop where
  ne_nil : word ≠ []
  chars : ∀ c ∈ word, isWordChar c = true
  left : ∀ c ∈ before.getLast?, isWordChar c = false
  right : ∀ c ∈ after.head?, isWordChar c = false

/-- A keyword stands in a text as a whole word, in any letter case. -/
def Occurs (keyword : String) (text : List Char) : Prop :=
  ∃ before word after, text = before ++ (word ++ after) ∧ WholeWord before word after ∧
    spells keyword word = true

variable {p : List Char → Bool} {before word w s t : List Char} {c : Char}

theorem wordsFrom_append_word (hw : ∀ c ∈ w, isWordChar c = true) :
    wordsFrom word (w ++ t) = wordsFrom (w.reverse ++ word) t := by
  induction w generalizing word with
  | nil => rfl
  | cons c w ih =>
    have hc : isWordChar c = true := hw c (by simp)
    have hcs : ∀ d ∈ w, isWordChar d = true := fun d hd => hw d (by simp [hd])
    simp only [List.cons_append, wordsFrom, hc, if_true, ih hcs]
    simp

/-- A text falls apart at every character that belongs to no word. -/
theorem wordsFrom_append_cons (hc : isWordChar c = false) :
    wordsFrom word (s ++ c :: t) = wordsFrom word s ++ words t := by
  induction s generalizing word with
  | nil =>
    by_cases hw : word.isEmpty <;> simp [wordsFrom, words, hc, hw]
  | cons d s ih =>
    simp only [List.cons_append, wordsFrom]
    split
    · exact ih
    · split
      · exact ih
      · simp [ih]

theorem words_append_cons (hc : isWordChar c = false) :
    words (s ++ c :: t) = words s ++ words t := wordsFrom_append_cons hc

@[simp] theorem words_nil : words [] = [] := rfl

theorem words_cons (hc : isWordChar c = false) : words (c :: t) = words t := by
  simpa using words_append_cons (s := []) (t := t) hc

/-- So it does where one part ends a word. -/
theorem words_append (ht : ∀ c ∈ t.head?, isWordChar c = false) :
    words (s ++ t) = words s ++ words t := by
  cases t with
  | nil => simp
  | cons c t => rw [words_append_cons (ht c (by simp)), words_cons (ht c (by simp))]

/-- Characters of no word at the front of a text change nothing. -/
theorem words_append_left (hs : ∀ c ∈ s, isWordChar c = false) : words (s ++ t) = words t := by
  induction s with
  | nil => rfl
  | cons c s ih =>
    rw [List.cons_append, words_cons (hs c (by simp))]
    exact ih fun d hd => hs d (by simp [hd])

/-- Characters of no word at the end of a text change nothing. -/
theorem words_append_right (ht : ∀ c ∈ t, isWordChar c = false) : words (s ++ t) = words s := by
  cases t with
  | nil => simp
  | cons c t =>
    have hrest : words t = [] := by
      simpa using words_append_left (t := []) fun d hd => ht d (by simp [hd])
    rw [words_append_cons (ht c (by simp)), hrest, List.append_nil]

theorem words_word (hne : w ≠ []) (hw : ∀ c ∈ w, isWordChar c = true) : words w = [w] := by
  have h : wordsFrom [] (w ++ []) = wordsFrom (w.reverse ++ []) [] := wordsFrom_append_word hw
  simpa [words, wordsFrom, hne] using h

/-- A search for a word goes through the words of the text. -/
theorem findFrom_isSome : (findFrom p before word t).isSome = (wordsFrom word t).any p := by
  induction t generalizing before word with
  | nil =>
    simp only [findFrom, wordsFrom]
    by_cases hw : word.isEmpty <;> by_cases hp : p word.reverse <;> simp [hw, hp]
  | cons c t ih =>
    simp only [findFrom, wordsFrom]
    split
    · exact ih
    · by_cases hw : word.isEmpty
      · simp [hw, ih]
      · by_cases hp : p word.reverse <;> simp [hw, hp, ih]

theorem hasWord_eq_any (k : String) (t : List Char) : hasWord k t = (words t).any (spells k) :=
  findFrom_isSome

/-- A search passes over a text none of whose words it looks for. -/
theorem findFrom_append (hs : ∀ w ∈ wordsFrom word s, p w = false)
    (ht : ∀ c ∈ t.head?, isWordChar c = false) :
    findFrom p before word (s ++ t) = findFrom p (s.reverse ++ (word ++ before)) [] t := by
  induction s generalizing before word with
  | nil =>
    have hword : (!word.isEmpty && p word.reverse) = false := by
      by_cases hw : word.isEmpty <;> simp_all [wordsFrom]
    cases t with
    | nil => simp [findFrom, hword]
    | cons c t => simp [findFrom, hword, ht c (by simp)]
  | cons c s ih =>
    simp only [List.cons_append, findFrom]
    by_cases hc : isWordChar c = true
    · simp only [wordsFrom, hc, if_true] at hs ⊢
      rw [ih hs]
      simp
    · have hword : (!word.isEmpty && p word.reverse) = false := by
        by_cases hw : word.isEmpty <;> simp_all [wordsFrom]
      have hrest : ∀ w ∈ wordsFrom [] s, p w = false := by
        by_cases hw : word.isEmpty <;> simp_all [wordsFrom]
      simp only [hc, hword, if_false, Bool.false_eq_true]
      rw [ih hrest]
      simp

theorem findFrom_cons (hc : isWordChar c = false) :
    findFrom p before [] (c :: t) = findFrom p (c :: before) [] t := by
  simp [findFrom, hc]

/-- A search stops at the first word it looks for. -/
theorem findFrom_word (hne : w ≠ []) (hw : ∀ c ∈ w, isWordChar c = true) (hp : p w = true)
    (ht : ∀ c ∈ t.head?, isWordChar c = false) :
    findFrom p before [] (w ++ t) = some ⟨before, w, t⟩ := by
  have hgo : ∀ word : List Char, (∀ c ∈ w, isWordChar c = true) → word.reverse ++ w ≠ [] →
      p (word.reverse ++ w) = true →
        findFrom p before word (w ++ t) = some ⟨before, word.reverse ++ w, t⟩ := by
    clear hne hw hp
    induction w with
    | nil =>
      intro word _ hne hp
      rw [List.append_nil] at hne hp ⊢
      have hword : word ≠ [] := by simpa using hne
      cases t with
      | nil => simp [findFrom, hword, hp]
      | cons c t => simp [findFrom, hword, hp, ht c (by simp)]
    | cons c w ih =>
      intro word hw hne hp
      have hc : isWordChar c = true := hw c (by simp)
      have hnext := ih (c :: word) (fun d hd => hw d (by simp [hd])) (by simp) (by simpa using hp)
      simp only [List.cons_append, findFrom, hc, if_true, hnext]
      simp
  simpa using hgo [] hw (by simpa using hne) (by simpa using hp)

theorem WholeWord.words_eq (h : WholeWord before w t) :
    words (before ++ (w ++ t)) = words before ++ w :: words t := by
  have hmid : words (w ++ t) = w :: words t := by
    cases t with
    | nil => simpa using words_word h.ne_nil h.chars
    | cons c t =>
      have hc : isWordChar c = false := h.right c (by simp)
      rw [words_append_cons hc, words_word h.ne_nil h.chars, words_cons hc]
      rfl
  rcases List.eq_nil_or_concat before with rfl | ⟨b, c, rfl⟩
  · simpa using hmid
  · have hc : isWordChar c = false := h.left c (by simp)
    rw [List.concat_eq_append, List.append_assoc, List.singleton_append, words_append_cons hc,
      hmid, words_append_cons (t := []) hc]
    simp

/-- Every word of a text lies in it between two borders. `word` may be an unfinished word that
the text goes on with. -/
theorem exists_of_mem_wordsFrom (h : w ∈ wordsFrom word t)
    (hword : ∀ c ∈ word, isWordChar c = true) :
    ∃ b a, word.reverse ++ t = b ++ (w ++ a) ∧ WholeWord b w a := by
  induction t generalizing word with
  | nil =>
    simp only [wordsFrom] at h
    split at h
    · simp at h
    · rename_i hne
      obtain rfl := List.mem_singleton.1 h
      exact ⟨[], [], by simp, ⟨by simpa using hne, by simpa using hword, by simp, by simp⟩⟩
  | cons c t ih =>
    -- A word that starts behind `c` is found in `t` and moves by what stands before it.
    have later : isWordChar c = false → w ∈ wordsFrom [] t →
        ∃ b a, word.reverse ++ c :: t = b ++ (w ++ a) ∧ WholeWord b w a := by
      intro hc hmem
      obtain ⟨b, a, he, hb⟩ := ih hmem (by simp)
      rw [List.reverse_nil, List.nil_append] at he
      refine ⟨word.reverse ++ c :: b, a, by simp [he], hb.ne_nil, hb.chars, ?_, hb.right⟩
      intro d hd
      cases b with
      | nil => simp at hd; exact hd ▸ hc
      | cons e b => exact hb.left d (by simpa using hd)
    simp only [wordsFrom] at h
    split at h
    · rename_i hc
      obtain ⟨b, a, he, hb⟩ := ih h (by simpa [hc] using hword)
      exact ⟨b, a, by simpa using he, hb⟩
    · rename_i hc
      rw [Bool.not_eq_true] at hc
      split at h
      · exact later hc h
      · rename_i hne
        rcases List.mem_cons.1 h with rfl | h
        · refine ⟨[], c :: t, by simp, by simpa using hne, by simpa using hword, by simp, ?_⟩
          simpa using hc
        · exact later hc h

theorem mem_words_iff :
    w ∈ words t ↔ ∃ before after, t = before ++ (w ++ after) ∧ WholeWord before w after := by
  constructor
  · intro h
    simpa using exists_of_mem_wordsFrom h (by simp)
  · rintro ⟨b, a, rfl, h⟩
    rw [h.words_eq]
    simp

/-- The keyword scan is true exactly where the keyword stands between two word borders. -/
theorem hasWord_iff_occurs {k : String} : hasWord k t = true ↔ Occurs k t := by
  rw [hasWord_eq_any, List.any_eq_true]
  constructor
  · rintro ⟨w, hw, hk⟩
    obtain ⟨b, a, he, hb⟩ := mem_words_iff.1 hw
    exact ⟨b, w, a, he, hb, hk⟩
  · rintro ⟨b, w, a, he, hb, hk⟩
    exact ⟨w, mem_words_iff.2 ⟨b, a, he, hb⟩, hk⟩

/-- What a decision on the characters of white space shows holds of each of them. -/
theorem forall_isBlank {P : Char → Prop} (h : ∀ n ∈ [9, 10, 11, 12, 13, 0x20, 0x85, 0xa0, 0x1680,
    0x2000, 0x2001, 0x2002, 0x2003, 0x2004, 0x2005, 0x2006, 0x2007, 0x2008, 0x2009, 0x200a, 0x2028,
    0x2029, 0x202f, 0x205f, 0x3000], P (Char.ofNat n)) (hc : isBlank c = true) : P c := by
  have hval : c.toNat ∈ [9, 10, 11, 12, 13, 0x20, 0x85, 0xa0, 0x1680, 0x2000, 0x2001, 0x2002,
      0x2003, 0x2004, 0x2005, 0x2006, 0x2007, 0x2008, 0x2009, 0x200a, 0x2028, 0x2029, 0x202f,
      0x205f, 0x3000] := by
    simp only [isBlank, Bool.or_eq_true, Bool.and_eq_true, decide_eq_true_eq, beq_iff_eq,
      UInt32.le_iff_toNat_le, ← UInt32.toNat_inj, UInt32.reduceToNat] at hc
    simp only [List.mem_cons, List.not_mem_nil, or_false, Char.toNat]
    omega
  simpa using h c.toNat hval

/-- White space belongs to no word. -/
theorem isWordChar_of_isBlank (h : isBlank c = true) : isWordChar c = false :=
  forall_isBlank (P := fun c => isWordChar c = false) (by decide +kernel) h

end Querent.Text
