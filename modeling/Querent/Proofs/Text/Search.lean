import Querent.Proofs.Text.Words

/-! What a search for a word finds in a text put together from two. -/
namespace Querent.Text

/-- No run of such characters goes from one text on into the next. -/
def Apart (p : Char → Bool) (s t : List Char) : Prop :=
  ∀ c ∈ s.getLast?, ∀ d ∈ t.head?, p c = true → p d = false

theorem apart_iff_all {p : Char → Bool} {s t : List Char} : Apart p s t ↔
    (s.getLast?.all fun c => t.head?.all fun d => !p c || !p d) = true := by
  unfold Apart
  cases s.getLast? with
  | none => simp
  | some c =>
    cases t.head? with
    | none => simp
    | some d => cases hc : p c <;> simp [hc]

instance (p : Char → Bool) (s t : List Char) : Decidable (Apart p s t) :=
  decidable_of_iff _ apart_iff_all.symm

variable {p : List Char → Bool} {q q' : Char → Bool} {s t w b a : List Char}

namespace Apart

theorem nil_left : Apart q [] t := by simp [Apart]

theorem mono (hq : ∀ c, q' c = true → q c = true) (h : Apart q s t) : Apart q' s t := by
  intro c hc d hd hrun
  have hstop : q d = false := h c hc d hd (hq c hrun)
  by_contra hgo
  rw [Bool.not_eq_false] at hgo
  exact absurd (hq d hgo) (by simp [hstop])

/-- Only the last character of the one and the first of the other count. -/
theorem of_ends {s' t' : List Char} (h : Apart q s t) (hs : s' <:+ s) (ht : t' <+: t) :
    Apart q s' t' := by
  intro c hc d hd
  obtain ⟨s₀, rfl⟩ := hs
  obtain ⟨t₀, rfl⟩ := ht
  refine h c ?_ d ?_
  · cases s' with
    | nil => simp at hc
    | cons e s' => simpa [List.getLast?_append] using hc
  · cases t' with
    | nil => simp at hd
    | cons e t' => simpa using hd

theorem of_suffix {s' : List Char} (h : Apart q s t) (hs : s' <:+ s) : Apart q s' t :=
  h.of_ends hs (List.prefix_refl t)

theorem of_isPrefix {t' : List Char} (h : Apart q s t) (ht : t' <+: t) : Apart q s t' :=
  h.of_ends (List.suffix_refl s) ht

theorem append_left (h : Apart q s t) (hne : s ≠ []) : Apart q (b ++ s) t := by
  obtain ⟨s, c, rfl⟩ := (List.eq_nil_or_concat s).resolve_left hne
  intro d hd
  exact h d (by simpa using hd)

theorem append_right (h : Apart q s t) (hne : t ≠ []) : Apart q s (t ++ a) := by
  obtain ⟨d, t, rfl⟩ := List.exists_cons_of_ne_nil hne
  exact h

theorem words_append (h : Apart isWordChar s t) : words (s ++ t) = words s ++ words t := by
  rcases List.eq_nil_or_concat s with rfl | ⟨s, c, rfl⟩
  · rfl
  · rw [List.concat_eq_append] at h ⊢
    by_cases hc : isWordChar c = true
    · exact Text.words_append fun d hd => h c (by simp) d hd hc
    · rw [Bool.not_eq_true] at hc
      have hlast : words (s ++ [c]) = words s ++ words [] := words_append_cons hc
      rw [List.append_assoc, List.singleton_append, words_append_cons hc, hlast, words_nil,
        List.append_nil]

end Apart

/-- A run that a text does not end in, or that the next one does not go on with, is one of the first. -/
theorem span_append (h : (∀ c ∈ s, q c = true) → ∀ c ∈ t.head?, q c = false) :
    (s ++ t).takeWhile q = s.takeWhile q ∧ (s ++ t).dropWhile q = s.dropWhile q ++ t := by
  induction s with
  | nil =>
    cases t with
    | nil => simp
    | cons c t => simp [h (by simp) c (by simp)]
  | cons c s ih =>
    cases hc : q c with
    | false => simp [hc]
    | true =>
      have hrest := ih fun hs => h (List.forall_mem_cons.2 ⟨hc, hs⟩)
      simp [hc, hrest]

theorem findFrom_before {b₀ : List Char} : findFrom p (b ++ b₀) w t =
    (findFrom p b w t).map fun f => { f with before := f.before ++ b₀ } := by
  induction t generalizing b w with
  | nil =>
    simp only [findFrom]
    split <;> rfl
  | cons c t ih =>
    simp only [findFrom]
    split
    · exact ih
    · split
      · rfl
      · have hnext := ih (b := c :: (w ++ b)) (w := [])
        simpa using hnext

/-- A search passes over a text none of whose words it looks for. -/
theorem findWord_append (hs : ∀ w ∈ words s, p w = false) (h : Apart isWordChar s t) :
    findWord p (s ++ t) =
      (findWord p t).map fun f => { f with before := f.before ++ s.reverse } := by
  have hpass : ∀ {s t : List Char}, (∀ w ∈ words s, p w = false) →
      (∀ c ∈ t.head?, isWordChar c = false) →
        findFrom p [] [] (s ++ t) = findFrom p s.reverse [] t := by
    intro s t hs ht
    rw [findFrom_append hs ht, List.append_nil, List.append_nil]
  have hall : findFrom p [] [] (s ++ t) = findFrom p s.reverse [] t := by
    rcases List.eq_nil_or_concat s with rfl | ⟨s, c, rfl⟩
    · rfl
    · rw [List.concat_eq_append] at hs h ⊢
      by_cases hc : isWordChar c = true
      · exact hpass hs fun d hd => h c (by simp) d hd hc
      · rw [Bool.not_eq_true] at hc
        have hlast : words (s ++ [c]) = words s ++ words [] := words_append_cons hc
        have hfront : ∀ w ∈ words s, p w = false := fun w hw => hs w (by simp [hlast, hw])
        rw [List.append_assoc, List.singleton_append, hpass hfront (by simpa using hc),
          findFrom_cons hc, List.reverse_append, List.reverse_singleton, List.singleton_append]
  rw [findWord, hall, findWord, ← findFrom_before, List.nil_append]

theorem WholeWord.apart_left (h : WholeWord b w a) : Apart isWordChar b (w ++ a) := by
  intro c hc d _ hrun
  rw [h.left c hc] at hrun
  contradiction

theorem WholeWord.apart_right (h : WholeWord b w a) : Apart isWordChar (b ++ w) a :=
  fun _ _ d hd _ => h.right d hd

/-- A whole word that no other follows on stays one before another text. -/
theorem WholeWord.congr_right {a' : List Char} (h : WholeWord b w a)
    (ha : ∀ c ∈ a'.head?, isWordChar c = false) : WholeWord b w a' :=
  ⟨h.ne_nil, h.chars, h.left, ha⟩

/-- A whole word that the first of two texts ends with or goes on behind stays one. -/
theorem WholeWord.append_right (h : WholeWord b w a) (ht : Apart isWordChar (b ++ (w ++ a)) t) :
    WholeWord b w (a ++ t) := by
  refine h.congr_right ?_
  intro c hc
  cases a with
  | nil =>
    obtain ⟨w, d, rfl⟩ := (List.eq_nil_or_concat w).resolve_left h.ne_nil
    have hd : isWordChar d = true := h.chars d (by simp)
    exact ht d (by simp) c (by simpa using hc) hd
  | cons e a => exact h.right c (by simpa using hc)

/-- A whole word stays one when text is taken away before it. -/
theorem WholeWord.behind {u : List Char} (h : WholeWord (u ++ b) w a) : WholeWord b w a := by
  refine ⟨h.ne_nil, h.chars, fun c hc => h.left c ?_, h.right⟩
  rw [List.getLast?_append, Option.mem_def.1 hc]
  rfl

/-- A whole word stays one when a text is put before it that ends in another. -/
theorem WholeWord.behind_word {u v : List Char} (h : WholeWord b w a)
    (hv : WholeWord u v (b ++ (w ++ a))) : WholeWord (u ++ (v ++ b)) w a := by
  refine ⟨h.ne_nil, h.chars, fun c hc => ?_, h.right⟩
  rcases List.eq_nil_or_concat b with rfl | ⟨b, d, rfl⟩
  · -- the two words would be one
    obtain ⟨d, w, rfl⟩ := List.exists_cons_of_ne_nil h.ne_nil
    have hin : isWordChar d = true := h.chars d (by simp)
    rw [hv.right d (by simp)] at hin
    contradiction
  · exact h.left c (by simpa using hc)

theorem WholeWord.at_front (h : WholeWord b w a) : WholeWord [] w a :=
  ⟨h.ne_nil, h.chars, by simp, h.right⟩

/-- A search stops at the first word it looks for. -/
theorem WholeWord.findWord (h : WholeWord b w a) (hp : p w = true)
    (hb : ∀ v ∈ words b, p v = false) :
    findWord p (b ++ (w ++ a)) = some ⟨b.reverse, w, a⟩ := by
  have hhere : Text.findWord p (w ++ a) = some ⟨[], w, a⟩ :=
    findFrom_word h.ne_nil h.chars hp h.right
  rw [findWord_append hb h.apart_left, hhere]
  rfl

theorem WholeWord.findFrom {b₀ : List Char} (h : WholeWord b w a) (hp : p w = true)
    (hb : ∀ v ∈ words b, p v = false) :
    findFrom p b₀ [] (b ++ (w ++ a)) = some ⟨b.reverse ++ b₀, w, a⟩ := by
  have hshift : Text.findFrom p b₀ [] (b ++ (w ++ a)) =
      (Text.findWord p (b ++ (w ++ a))).map fun f => { f with before := f.before ++ b₀ } := by
    rw [Text.findWord, ← findFrom_before, List.nil_append]
  rw [hshift, h.findWord hp hb]
  rfl

theorem findWord_eq_none : findWord p t = none ↔ ∀ w ∈ words t, p w = false := by
  have hsome : (findWord p t).isSome = (words t).any p := findFrom_isSome
  cases hfind : findWord p t with
  | none => simpa [hfind] using hsome.symm
  | some f => simpa [hfind] using hsome.symm

/-- Where a search stops, the word just read is whole. -/
private theorem wholeWord_of_stop (hstop : (!w.isEmpty && p w.reverse) = true)
    (hw : ∀ c ∈ w, isWordChar c = true) (hb : ∀ c ∈ b.head?, isWordChar c = false)
    (ha : ∀ c ∈ a.head?, isWordChar c = false) :
    WholeWord b.reverse w.reverse a ∧ p w.reverse = true := by
  rw [Bool.and_eq_true] at hstop
  exact ⟨⟨by simpa using hstop.1, by simpa using hw, by simpa using hb, ha⟩, hstop.2⟩

/-- Where a search goes on, the word just read is none it looks for. -/
private theorem not_mem_words_of_go {c : Char} (hgo : (!w.isEmpty && p w.reverse) = false)
    (hw : ∀ d ∈ w, isWordChar d = true) (hb : ∀ d ∈ b.head?, isWordChar d = false)
    (hc : isWordChar c = false) (hnone : ∀ v ∈ words b.reverse, p v = false) :
    ∀ v ∈ words (c :: (w ++ b)).reverse, p v = false := by
  have hrev : (c :: (w ++ b)).reverse = b.reverse ++ (w.reverse ++ [c]) := by simp
  rw [hrev]
  by_cases hne : w = []
  · have hlast : words (b.reverse ++ [c]) = words b.reverse ++ words [] := words_append_cons hc
    simpa [hne, hlast] using hnone
  · have hwhole : WholeWord b.reverse w.reverse [c] :=
      ⟨by simpa using hne, by simpa using hw, by simpa using hb, by simpa using hc⟩
    have hrest : words [c] = [] := by simpa using words_cons (t := []) hc
    have hskip : p w.reverse = false := by simpa [hne] using hgo
    rw [hwhole.words_eq, hrest]
    intro v hv
    rcases List.mem_append.1 hv with hv | hv
    · exact hnone v hv
    · rw [List.mem_singleton.1 hv, hskip]

private theorem wholeWord_of_findFrom {f : Found} (h : findFrom p b w t = some f)
    (hw : ∀ c ∈ w, isWordChar c = true) (hb : ∀ c ∈ b.head?, isWordChar c = false)
    (hnone : ∀ v ∈ words b.reverse, p v = false) :
    (WholeWord f.before.reverse f.word f.after ∧ p f.word = true) ∧
      ∀ v ∈ words f.before.reverse, p v = false := by
  induction t generalizing b w with
  | nil =>
    unfold findFrom at h
    split at h
    · rename_i hstop
      obtain rfl := Option.some.inj h
      exact ⟨wholeWord_of_stop hstop hw hb (by simp), hnone⟩
    · simp at h
  | cons c t ih =>
    unfold findFrom at h
    split at h
    · rename_i hc
      have hword : ∀ d ∈ c :: w, isWordChar d = true := by
        intro d hd
        rcases List.mem_cons.1 hd with rfl | hd
        · exact hc
        · exact hw d hd
      exact ih h hword hb hnone
    · rename_i hc
      rw [Bool.not_eq_true] at hc
      split at h
      · rename_i hstop
        obtain rfl := Option.some.inj h
        exact ⟨wholeWord_of_stop hstop hw hb (by simpa using hc), hnone⟩
      · rename_i hgo
        rw [Bool.not_eq_true] at hgo
        exact ih h (by simp) (by simpa using hc) (not_mem_words_of_go hgo hw hb hc hnone)

/-- What a search finds is the first whole word it looks for. -/
theorem exists_of_findWord {f : Found} (h : findWord p t = some f) :
    ∃ b, f.before = b.reverse ∧ t = b ++ (f.word ++ f.after) ∧ WholeWord b f.word f.after ∧
      p f.word = true ∧ ∀ v ∈ words b, p v = false := by
  obtain ⟨⟨hwhole, hp⟩, hb⟩ := wholeWord_of_findFrom h (by simp) (by simp) (by simp)
  exact ⟨f.before.reverse, by simp, (findFrom_eq h).symm, hwhole, hp, hb⟩

/-- A text with a word looked for falls apart at the first of them. -/
theorem exists_first_word (h : ∃ w ∈ words t, p w = true) :
    ∃ b w a, t = b ++ (w ++ a) ∧ WholeWord b w a ∧ p w = true ∧ ∀ v ∈ words b, p v = false := by
  obtain ⟨w, hw, hp⟩ := h
  cases hfind : findWord p t with
  | none => exact absurd (findWord_eq_none.1 hfind w hw) (by simp [hp])
  | some f =>
    obtain ⟨b, -, he, hwhole, hpf, hb⟩ := exists_of_findWord hfind
    exact ⟨b, f.word, f.after, he, hwhole, hpf, hb⟩

/-- Along the words looked for: a text has none of them, or it falls apart at the first, and the text
behind that is shorter. -/
theorem word_induction {motive : List Char → Prop} (p : List Char → Bool)
    (free : ∀ t, (∀ w ∈ words t, p w = false) → motive t)
    (found : ∀ b w a, WholeWord b w a → p w = true → (∀ v ∈ words b, p v = false) → motive a →
      motive (b ++ (w ++ a))) (t : List Char) : motive t := by
  induction hn : t.length using Nat.strong_induction_on generalizing t with
  | _ n ih =>
    by_cases hfirst : ∃ w ∈ words t, p w = true
    · obtain ⟨b, w, a, rfl, hwhole, hp, hb⟩ := exists_first_word hfirst
      have hshort : a.length < n := by
        have hpos := List.length_pos_iff.2 hwhole.ne_nil
        simp only [List.length_append] at hn
        omega
      exact found b w a hwhole hp hb (ih a.length hshort a rfl)
    · exact free t (by simpa using hfirst)

end Querent.Text
