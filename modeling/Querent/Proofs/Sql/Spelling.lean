import Querent.Proofs.Sql.Ident

/-! How columns and their equalities may be written, with blanks around dots and equals signs, and
what the readers make of them. -/
namespace Querent.Sql

open Text

variable {w t : List Char}

/-- A name behind its qualifiers as it is written: blanks may stand around the dots. -/
inductive Path : List Char → List Ident → Prop where
  | one (i : Ident) : Path i.text [i]
  | cons (i : Ident) {s₁ s₂ t : List Char} {is : List Ident} (before : ∀ c ∈ s₁, isBlank c = true)
      (behind : ∀ c ∈ s₂, isBlank c = true) (rest : Path t is) :
      Path (i.text ++ (s₁ ++ '.' :: (s₂ ++ t))) (i :: is)

/-- Names with a dot between each two. -/
def written : List Ident → List Char
  | [] => []
  | [i] => i.text
  | i :: j :: is => i.text ++ '.' :: written (j :: is)

theorem nameParts_written {is : List Ident} (hne : is ≠ [])
    (h : ∀ i ∈ is, keepsStep none i.text = true) :
    nameParts (written is) = is.map Ident.name := by
  unfold nameParts
  induction is with
  | nil => contradiction
  | cons i is ih =>
    obtain ⟨hdot, hname⟩ := i.unquote_text (h i (by simp))
    cases is with
    | nil => simp [written, splitAt_of_not_mem hdot, hname]
    | cons j is =>
      have hrest := ih (by simp) fun k hk => h k (by simp [hk])
      rw [written, splitAt_append_cons hdot, List.map_cons, hname, hrest]
      rfl

namespace Path

variable {is : List Ident}

theorem ne_nil (h : Path w is) : is ≠ [] := by
  cases h <;> simp

theorem exists_cons (h : Path w is) : ∃ c cs, w = c :: cs ∧ isBlank c = false := by
  cases h with
  | one i => exact i.exists_cons
  | cons i before behind rest =>
    obtain ⟨c, cs, hi, hc⟩ := i.exists_cons
    exact ⟨c, _, by rw [hi]; rfl, hc⟩

theorem exists_concat (h : Path w is) : ∃ cs c, w = cs ++ [c] ∧ isBlank c = false := by
  induction h with
  | one i => exact i.exists_concat
  | cons i before behind rest ih =>
    obtain ⟨cs, c, rfl, hc⟩ := ih
    exact ⟨_, c, by rw [← List.append_assoc, ← List.cons_append, ← List.append_assoc,
      ← List.append_assoc], hc⟩

theorem trimStart (h : Path w is) : trimStart (w ++ t) = w ++ t := by
  obtain ⟨c, cs, rfl, hc⟩ := h.exists_cons
  exact trimStart_cons hc

private theorem isQuote_of_mem_gap {s₁ s₂ : List Char} {m : Char} (hm : isQuote m = false)
    (h₁ : ∀ c ∈ s₁, isBlank c = true) (h₂ : ∀ c ∈ s₂, isBlank c = true) :
    ∀ c ∈ s₁ ++ m :: s₂, isQuote c = false := by
  intro c hc
  rcases List.mem_append.1 hc with hc | hc
  · exact isQuote_of_isBlank (h₁ c hc)
  · rcases List.mem_cons.1 hc with rfl | hc
    · exact hm
    · exact isQuote_of_isBlank (h₂ c hc)

/-- Marks between two texts without quotes open none. -/
theorem quoteAfter_gap {s₁ s₂ : List Char} {m : Char} (hm : isQuote m = false)
    (h₁ : ∀ c ∈ s₁, isBlank c = true) (h₂ : ∀ c ∈ s₂, isBlank c = true)
    (hw : quoteAfter none w = none) :
    quoteAfter none (w ++ (s₁ ++ m :: (s₂ ++ t))) = quoteAfter none t := by
  have hsplit : s₁ ++ m :: (s₂ ++ t) = (s₁ ++ m :: s₂) ++ t := by simp
  rw [quoteAfter_append, hw, hsplit, quoteAfter_append,
    quoteAfter_of_not_isQuote (by simp) (isQuote_of_mem_gap hm h₁ h₂)]

theorem keepsStep_gap {s₁ s₂ : List Char} {m : Char} (hm : isQuote m = false)
    (h₁ : ∀ c ∈ s₁, isBlank c = true) (h₂ : ∀ c ∈ s₂, isBlank c = true)
    (hw : quoteAfter none w = none)
    (h : keepsStep none (w ++ (s₁ ++ m :: (s₂ ++ t))) = true) :
    keepsStep none w = true ∧ keepsStep none t = true := by
  have hsplit : s₁ ++ m :: (s₂ ++ t) = (s₁ ++ m :: s₂) ++ t := by simp
  rw [keepsStep_append, hw, hsplit, keepsStep_append,
    quoteAfter_of_not_isQuote (by simp) (isQuote_of_mem_gap hm h₁ h₂), Bool.and_eq_true,
    Bool.and_eq_true] at h
  exact ⟨h.1, h.2.2⟩

theorem quoteAfter_text (h : Path w is) : quoteAfter none w = none := by
  induction h with
  | one i => exact i.quoteAfter_text
  | cons i before behind rest ih =>
    rw [quoteAfter_gap (by decide) before behind i.quoteAfter_text, ih]

theorem keepsStep_of_mem (h : Path w is) (hw : keepsStep none w = true) :
    ∀ i ∈ is, keepsStep none i.text = true := by
  induction h with
  | one i => simpa using hw
  | cons i before behind rest ih =>
    obtain ⟨hi, hrest⟩ := keepsStep_gap (by decide) before behind i.quoteAfter_text hw
    intro j hj
    rcases List.mem_cons.1 hj with rfl | hj
    · exact hi
    · exact ih hrest j hj

private theorem apart_gap {s₁ : List Char} {m : Char} (hm : inName m = false)
    (h₁ : ∀ c ∈ s₁, isBlank c = true) : Apart inName w (s₁ ++ m :: t) := by
  intro c _ d hd _
  cases s₁ with
  | nil =>
    obtain rfl : m = d := by simpa using hd
    exact hm
  | cons e s₁ =>
    obtain rfl : e = d := by simpa using hd
    exact inName_of_isBlank (h₁ e (by simp))

/-- The reader of names with dots takes such a name, if it may read that many. -/
theorem readDotted (h : Path w is) {more : Nat} (hlatin : ∀ i ∈ is, i.isLatin = true)
    (hmore : is.length ≤ more + 1) (ht : Apart inName w t) (hdot : afterDot t = none) :
    readDotted more (w ++ t) = some (written is, t) := by
  induction h generalizing more with
  | one i =>
    have hread := i.readName (hlatin i (by simp)) ht
    cases more with
    | zero =>
      unfold Sql.readDotted
      simp only [hread, written]
    | succ more =>
      unfold Sql.readDotted
      simp only [hread, hdot, Option.bind_none, written]
  | @cons i s₁ s₂ w is before behind rest ih =>
    obtain ⟨more, rfl⟩ : ∃ k, more = k + 1 := by
      cases more with
      | zero => exact absurd hmore (by simp [rest.ne_nil])
      | succ k => exact ⟨k, rfl⟩
    have hsplit : i.text ++ (s₁ ++ '.' :: (s₂ ++ w)) ++ t =
        i.text ++ (s₁ ++ '.' :: (s₂ ++ (w ++ t))) := by simp
    have hread := i.readName (hlatin i (by simp))
      (apart_gap (t := s₂ ++ (w ++ t)) (by decide : inName '.' = false) before)
    have hafter : afterDot (s₁ ++ '.' :: (s₂ ++ (w ++ t))) = some (w ++ t) := by
      have hmark : Text.trimStart ('.' :: (s₂ ++ (w ++ t))) = '.' :: (s₂ ++ (w ++ t)) :=
        trimStart_cons (by decide)
      rw [afterDot, trimStart_blanks before, hmark]
      simp only [trimStart_blanks behind, rest.trimStart]
    have hapart : Apart inName w t := by
      refine ht.of_suffix ⟨i.text ++ (s₁ ++ '.' :: s₂), by simp⟩
    have hrest : Sql.readDotted more (w ++ t) = some (written is, t) :=
      ih (fun j hj => hlatin j (by simp [hj])) (by simpa using hmore) hapart
    obtain ⟨j, is, rfl⟩ := List.exists_cons_of_ne_nil rest.ne_nil
    rw [hsplit, Sql.readDotted, hread]
    simp only [hafter, Option.bind_some, hrest, written]

/-- Two such names of three parts at most, with an equals sign between them, are read as an equality. -/
theorem readEquality {l r s₁ s₂ : List Char} {left right : List Ident} (hl : Path l left)
    (hr : Path r right) (hleft : ∀ i ∈ left, i.isLatin = true)
    (hright : ∀ i ∈ right, i.isLatin = true) (hlshort : left.length ≤ 3)
    (hrshort : right.length ≤ 3) (before : ∀ c ∈ s₁, isBlank c = true)
    (behind : ∀ c ∈ s₂, isBlank c = true) (ht : Apart inName r t) (hdot : afterDot t = none) :
    readEquality (l ++ (s₁ ++ '=' :: (s₂ ++ r)) ++ t) = some (written left, written right, t) := by
  have hsplit : l ++ (s₁ ++ '=' :: (s₂ ++ r)) ++ t = l ++ (s₁ ++ '=' :: (s₂ ++ (r ++ t))) := by
    simp
  have hmark : Text.trimStart ('=' :: (s₂ ++ (r ++ t))) = '=' :: (s₂ ++ (r ++ t)) :=
    trimStart_cons (by decide)
  have hnodot : afterDot (s₁ ++ '=' :: (s₂ ++ (r ++ t))) = none := by
    rw [afterDot, trimStart_blanks before, hmark]
    rfl
  have hreadl : Sql.readDotted 2 (l ++ (s₁ ++ '=' :: (s₂ ++ (r ++ t)))) =
      some (written left, s₁ ++ '=' :: (s₂ ++ (r ++ t))) := hl.readDotted hleft hlshort
    (apart_gap (t := s₂ ++ (r ++ t)) (by decide : inName '=' = false) before) hnodot
  have hreadr : Sql.readDotted 2 (r ++ t) = some (written right, t) :=
    hr.readDotted hright hrshort ht hdot
  rw [hsplit, Sql.readEquality, hreadl]
  simp only [Option.bind_eq_bind, Option.bind_some, trimStart_blanks before, hmark,
    trimStart_blanks behind, hr.trimStart, hreadr]

end Path

/-- A column of a table: a name with one qualifier or two. -/
structure WrittenColumn (w : List Char) (is : List Ident) : Prop where
  path : Path w is
  qualified : 2 ≤ is.length
  short : is.length ≤ 3

/-- An equality of two columns as it is written. -/
inductive Compared : List Char → List Ident → List Ident → Prop where
  | mk {l r s₁ s₂ : List Char} {left right : List Ident} (isLeft : WrittenColumn l left)
      (isRight : WrittenColumn r right) (before : ∀ c ∈ s₁, isBlank c = true)
      (behind : ∀ c ∈ s₂, isBlank c = true) : Compared (l ++ (s₁ ++ '=' :: (s₂ ++ r))) left right

/-- The gap that single blanks leave. -/
theorem isBlank_of_mem_space : ∀ c ∈ [' '], isBlank c = true := by
  intro c hc
  rw [List.mem_singleton.1 hc]
  decide

namespace Compared

variable {left right : List Ident}

theorem exists_cons (h : Compared w left right) (hlatin : ∀ i ∈ left, i.isLatin = true) :
    ∃ c cs, w = c :: cs ∧ (opensName c = true ∨ isNameQuote c = true) := by
  have hident : ∀ i : Ident, i.isLatin = true →
      ∃ c cs, i.text = c :: cs ∧ (opensName c = true ∨ isNameQuote c = true) := by
    intro i hi
    cases i with
    | bare c cs opens chars => exact ⟨c, cs, rfl, .inl hi⟩
    | quoted mark name isMark ne_nil free => exact ⟨mark, _, rfl, .inr isMark⟩
  obtain ⟨⟨hl, -, -⟩, -, -, -⟩ := h
  cases hl with
  | one i =>
    obtain ⟨c, cs, hi, hc⟩ := hident i (hlatin i (by simp))
    exact ⟨c, _, by rw [hi]; rfl, hc⟩
  | cons i before behind rest =>
    obtain ⟨c, cs, hi, hc⟩ := hident i (hlatin i (by simp))
    exact ⟨c, _, by rw [hi]; rfl, hc⟩

theorem exists_concat (h : Compared w left right) :
    ∃ cs c, w = cs ++ [c] ∧ isBlank c = false := by
  obtain ⟨-, hr, -, -⟩ := h
  obtain ⟨cs, c, rfl, hc⟩ := hr.path.exists_concat
  exact ⟨_, c, by rw [← List.append_assoc, ← List.cons_append, ← List.append_assoc,
    ← List.append_assoc], hc⟩

theorem keepsStep_of_mem (h : Compared w left right) (hw : keepsStep none w = true) :
    (∀ i ∈ left, keepsStep none i.text = true) ∧ ∀ i ∈ right, keepsStep none i.text = true := by
  obtain ⟨hl, hr, before, behind⟩ := h
  obtain ⟨hleft, hright⟩ :=
    Path.keepsStep_gap (by decide) before behind hl.path.quoteAfter_text hw
  exact ⟨hl.path.keepsStep_of_mem hleft, hr.path.keepsStep_of_mem hright⟩

theorem readEquality (h : Compared w left right) (hleft : ∀ i ∈ left, i.isLatin = true)
    (hright : ∀ i ∈ right, i.isLatin = true) (ht : Apart inName w t) (hdot : afterDot t = none) :
    readEquality (w ++ t) = some (written left, written right, t) := by
  obtain ⟨hl, hr, before, behind⟩ := h
  rename_i l r s₁ s₂
  exact hl.path.readEquality hr.path hleft hright hl.short hr.short before behind
    (ht.of_suffix ⟨l ++ (s₁ ++ '=' :: s₂), by simp⟩) hdot

/-- In step with quotes, an equality of columns that no call follows is kept with its names. -/
theorem keepEquality (h : Compared w left right) (hw : keepsStep none w = true)
    (hcall : ∀ c ∈ (trimStart t).head?, c ≠ '(') :
    keepEquality (written left) (written right) t =
      some ⟨left.map fun i => .ofList i.name, right.map fun i => .ofList i.name⟩ := by
  obtain ⟨hlstep, hrstep⟩ := h.keepsStep_of_mem hw
  obtain ⟨hl, hr, -, -⟩ := h
  have hliteral : ∀ is : List Ident, 2 ≤ is.length → isLiteral (is.map Ident.name) = false := by
    intro is his
    rcases is with _ | ⟨i, _ | ⟨j, is⟩⟩
    · simp at his
    · simp at his
    · rfl
  have hopen : ((trimStart t).head? == some '(') = false := by
    rw [beq_eq_false_iff_ne]
    intro heq
    exact hcall '(' (by simp [heq]) rfl
  rw [Sql.keepEquality, nameParts_written hl.path.ne_nil hlstep,
    nameParts_written hr.path.ne_nil hrstep]
  simp [hopen, hliteral left hl.qualified, hliteral right hr.qualified]

end Compared

end Querent.Sql
