import Querent.Proofs.Sql.Quoting

/-! Names as they are written, bare or in quotes, and how the reader of names takes them. -/
namespace Querent.Sql

open Text

variable {w t s : List Char} {sep c : Char}

theorem splitAt_of_not_mem (h : sep ∉ w) : splitAt sep w = [w] := by
  induction w with
  | nil => rfl
  | cons c w ih =>
    obtain ⟨hc, hw⟩ : sep ≠ c ∧ sep ∉ w := by simpa using h
    simp [splitAt, Ne.symm hc, ih hw]

/-- There is one part more than there are separators. -/
theorem length_splitAt (sep : Char) (w : List Char) : (splitAt sep w).length = w.count sep + 1 := by
  induction w with
  | nil => rfl
  | cons c w ih =>
    by_cases hc : c = sep
    · simp [splitAt, hc, ih]
    · cases hw : splitAt sep w with
      | nil => simp [hw] at ih
      | cons part rest =>
        rw [hw, List.length_cons] at ih
        simp [splitAt, hc, hw, ih]

theorem splitAt_append (sep : Char) (w t : List Char) :
    splitAt sep (w ++ sep :: t) = splitAt sep w ++ splitAt sep t := by
  induction w with
  | nil => simp [splitAt]
  | cons c w ih =>
    by_cases hc : c = sep
    · simp [splitAt, hc, ih]
    · cases hw : splitAt sep w with
      | nil =>
        have hlength := length_splitAt sep w
        simp [hw] at hlength
      | cons part rest => simp [splitAt, hc, ih, hw]

theorem splitAt_append_cons (h : sep ∉ w) :
    splitAt sep (w ++ sep :: t) = w :: splitAt sep t := by
  rw [splitAt_append, splitAt_of_not_mem h, List.singleton_append]

/-- In step with quotes, every character of a quoted text is, up to the closing mark. -/
theorem forall_inStep {m : Char} (h : keepsStep (some m) s = true) (hs : m ∉ s) :
    ∀ c ∈ s, inStep (some m) c = true := by
  induction s with
  | nil => simp
  | cons c s ih =>
    obtain ⟨hc, hs⟩ : m ≠ c ∧ m ∉ s := by simpa using hs
    rw [keepsStep, nextQuote_inside (Ne.symm hc), Bool.and_eq_true] at h
    intro d hd
    rcases List.mem_cons.1 hd with rfl | hd
    · exact h.1
    · exact ih h.2 hs d hd

theorem trimStart_blanks (hs : ∀ c ∈ s, isBlank c = true) : trimStart (s ++ t) = trimStart t := by
  rw [trimStart, List.dropWhile_append_of_pos hs]
  rfl

/-- A quoted name without marks of names in it loses its two marks. -/
theorem unquote_quoted {m : Char} (hm : isNameQuote m = true) (hne : w ≠ [])
    (hw : ∀ d ∈ w, isNameQuote d = false) : unquote (m :: (w ++ [m])) = w := by
  have hblank : isBlank m = false := isBlank_of_isNameQuote hm
  have htrim : trim (m :: (w ++ [m])) = m :: (w ++ [m]) := by
    simp [trim, trimEnd, trimStart, hblank]
  have hfront : (w ++ [m]).dropWhile isNameQuote = w ++ [m] := by
    obtain ⟨d, ds, rfl⟩ := List.exists_cons_of_ne_nil hne
    simp [hw d (by simp)]
  have hback : w.reverse.dropWhile isNameQuote = w.reverse :=
    dropWhile_eq_self fun d hd => hw d (by simpa using hd)
  rw [unquote, htrim, List.dropWhile_cons_of_pos hm, hfront, List.reverse_append,
    List.reverse_singleton, List.singleton_append, List.dropWhile_cons_of_pos hm, hback,
    List.reverse_reverse]

/-- A name as it is written. A bare one opens with any of its characters but a digit. -/
inductive Ident where
  | bare (c : Char) (cs : List Char) (opens : (inName c && !c.isDigit) = true)
      (chars : cs.all inName = true)
  | quoted (mark : Char) (name : List Char) (isMark : isNameQuote mark = true)
      (ne_nil : name ≠ []) (free : mark ∉ name)

namespace Ident

def text : Ident → List Char
  | bare c cs _ _ => c :: cs
  | quoted mark name _ _ _ => mark :: (name ++ [mark])

/-- The name itself. -/
def name : Ident → List Char
  | bare c cs _ _ => c :: cs
  | quoted _ name _ _ _ => name

/-- A bare name opens with a letter from A to Z in either case or with an underscore. -/
def isLatin : Ident → Bool
  | bare c _ _ _ => opensName c
  | quoted .. => true

theorem exists_cons (i : Ident) : ∃ c cs, i.text = c :: cs ∧ isBlank c = false := by
  cases i with
  | bare c cs opens chars =>
    refine ⟨c, cs, rfl, ?_⟩
    by_contra hblank
    rw [Bool.not_eq_false] at hblank
    simp [inName_of_isBlank hblank] at opens
  | quoted mark name isMark ne_nil free =>
    exact ⟨mark, _, rfl, isBlank_of_isNameQuote isMark⟩

theorem forall_inName {c : Char} {cs : List Char} (h : (inName c && !c.isDigit) = true)
    (hcs : cs.all inName = true) : ∀ d ∈ c :: cs, inName d = true := by
  rw [Bool.and_eq_true] at h
  simpa [h.1] using hcs

theorem exists_concat (i : Ident) : ∃ cs c, i.text = cs ++ [c] ∧ isBlank c = false := by
  cases i with
  | bare c cs opens chars =>
    obtain ⟨cs', d, hcs⟩ := (List.eq_nil_or_concat (c :: cs)).resolve_left (by simp)
    rw [List.concat_eq_append] at hcs
    have hname : inName d = true := forall_inName opens chars d (by simp [hcs])
    refine ⟨cs', d, hcs, ?_⟩
    by_contra hblank
    rw [Bool.not_eq_false] at hblank
    simp [inName_of_isBlank hblank] at hname
  | quoted mark name isMark ne_nil free =>
    exact ⟨mark :: name, mark, rfl, isBlank_of_isNameQuote isMark⟩

/-- Behind a name no quotes are open. -/
theorem quoteAfter_text (i : Ident) : quoteAfter none i.text = none := by
  cases i with
  | bare c cs opens chars =>
    exact quoteAfter_of_not_isQuote (by simp) fun d hd =>
      isQuote_of_inName (forall_inName opens chars d hd)
  | quoted mark name isMark ne_nil free =>
    have hopen : nextQuote none mark = some mark := by
      simp [nextQuote, isQuote_of_isNameQuote isMark]
    rw [text, quoteAfter_cons, hopen, quoteAfter_append, quoteAfter_of_not_mem free]
    simp [nextQuote]

theorem readName (i : Ident) (h : i.isLatin = true) (ht : Apart inName i.text t) :
    readName opensName (i.text ++ t) = some (i.text, t) := by
  cases i with
  | bare c cs opens chars =>
    have hstop : ∀ d ∈ t.head?, inName d = false := by
      have hlast : (c :: cs).getLast? = some ((c :: cs).getLast (by simp)) :=
        List.getLast?_eq_some_getLast (by simp)
      intro d hd
      exact ht _ hlast d hd (forall_inName opens chars _ (List.getLast_mem (by simp)))
    have htake : (cs ++ t).takeWhile inName = cs := by
      rw [List.takeWhile_append_of_pos (List.all_eq_true.1 chars)]
      cases t with
      | nil => simp
      | cons d t => simp [hstop d (by simp)]
    have hdrop : (cs ++ t).dropWhile inName = t := by
      rw [List.dropWhile_append_of_pos (List.all_eq_true.1 chars)]
      cases t with
      | nil => simp
      | cons d t => simp [hstop d (by simp)]
    rw [text, List.cons_append, readName_of_opensName h, htake, hdrop]
  | quoted mark name isMark ne_nil free =>
    have hinner : ∀ d ∈ name, (d != mark) = true := by
      intro d hd
      simp only [bne_iff_ne]
      rintro rfl
      exact free hd
    rw [text, List.cons_append, Sql.readName, if_neg (by simp [opensName_of_isNameQuote isMark]),
      if_pos isMark, List.append_assoc, List.takeWhile_append_of_pos hinner,
      List.dropWhile_append_of_pos hinner]
    simp [ne_nil]

/-- In step with quotes, a name is what is left when its quotes go, and holds no dot. -/
theorem unquote_text (i : Ident) (h : keepsStep none i.text = true) :
    '.' ∉ i.text ∧ unquote i.text = i.name := by
  cases i with
  | bare c cs opens chars =>
    have hall := forall_inName opens chars
    constructor
    · intro hdot
      exact absurd (hall '.' hdot) (by decide)
    · refine unquote_eq_self (fun d hd => ?_) fun d hd => ?_
      · by_contra hblank
        rw [Bool.not_eq_false] at hblank
        exact absurd (hall d hd) (by simp [inName_of_isBlank hblank])
      · by_contra hquote
        rw [Bool.not_eq_false] at hquote
        exact absurd (isQuote_of_isNameQuote hquote) (by simp [isQuote_of_inName (hall d hd)])
  | quoted mark name isMark ne_nil free =>
    have hopen : nextQuote none mark = some mark := by
      simp [nextQuote, isQuote_of_isNameQuote isMark]
    rw [text, keepsStep, hopen, keepsStep_append, Bool.and_eq_true, Bool.and_eq_true] at h
    have hname : ∀ d ∈ name, isNameQuote d = false ∧ d ≠ '.' := by
      intro d hd
      have hstep := forall_inStep h.2.1 free d hd
      have hne : d ≠ mark := by
        rintro rfl
        exact free hd
      simp only [inStep, isMark, if_true, Bool.or_eq_true, beq_iff_eq, hne, false_or,
        Bool.not_eq_true', Bool.or_eq_false_iff, beq_eq_false_iff_ne] at hstep
      exact hstep.1
    constructor
    · intro hdot
      have hmark : '.' ≠ mark := by
        rintro rfl
        exact absurd isMark (by decide)
      rcases List.mem_cons.1 hdot with hdot | hdot
      · exact hmark hdot
      · rcases List.mem_append.1 hdot with hdot | hdot
        · exact (hname '.' hdot).2 rfl
        · exact hmark (List.mem_singleton.1 hdot)
    · exact unquote_quoted isMark ne_nil fun d hd => (hname d hd).1

end Ident

end Querent.Sql
