import Querent.Proofs.Decimal.Shortest

/-! Decimals as they are written: what their digits gather to, and that the decimal of a float,
however it is laid out, has a value to be read. -/
namespace Querent.Decimal

/-! ### Digits -/

theorem isDigit_of_mem_digits {n : Nat} {c : Char} (h : c ∈ digits n) : c.isDigit = true :=
  Nat.isDigit_of_mem_toDigits (by decide) (by decide) h

theorem value_digits (n : Nat) : value (digits n) = n := by
  have hvalue := Nat.ofDigitChars_ten_toDigits (n := n)
  rw [Nat.ofDigitChars_eq_foldl] at hvalue
  simpa [value, digits, digitValue, Nat.mul_comm] using hvalue

/-- Only zero is written with a zero in front. -/
theorem digits_zero_cons {n : Nat} {ds : List Char} (h : digits n = '0' :: ds) : ds = [] := by
  induction n using Nat.strongRecOn generalizing ds with
  | ind n ih =>
    rw [digits, Nat.toDigits_eq_if (by decide)] at h
    split at h
    · exact (List.cons.inj h).2.symm
    · rename_i hn
      have hfirst : ∃ ds', digits (n / 10) = '0' :: ds' := by
        cases hd : digits (n / 10) with
        | nil => exact absurd hd Nat.toDigits_ne_nil
        | cons c ds' =>
          rw [show Nat.toDigits 10 (n / 10) = c :: ds' from hd] at h
          exact ⟨ds', by rw [(List.cons.inj h).1]⟩
      obtain ⟨ds', hds'⟩ := hfirst
      have hlone := ih (n / 10) (by omega) hds'
      have hvalue := value_digits (n / 10)
      rw [hds', hlone] at hvalue
      have : n / 10 = 0 := hvalue.symm
      omega

/-- A number above zero is written with another digit in front. -/
theorem exists_leading {n : Nat} (h : 0 < n) : ∃ d ds, digits n = d :: ds ∧ d ≠ '0' := by
  obtain ⟨d, ds, hds⟩ : ∃ d ds, digits n = d :: ds := List.exists_cons_of_ne_nil Nat.toDigits_ne_nil
  refine ⟨d, ds, hds, ?_⟩
  rintro rfl
  have hvalue := value_digits n
  rw [hds, digits_zero_cons hds] at hvalue
  exact h.ne hvalue

theorem isDigit_of_mem_replicate {n : Nat} : ∀ c ∈ List.replicate n '0', c.isDigit = true := by
  intro c hc
  rw [List.eq_of_mem_replicate hc]
  rfl

/-- Digits, at least one. -/
def IsDigits (ds : List Char) : Prop := ds ≠ [] ∧ ∀ c ∈ ds, c.isDigit = true

theorem isDigits_digits (n : Nat) : IsDigits (digits n) :=
  ⟨Nat.toDigits_ne_nil, fun _ => isDigit_of_mem_digits⟩

/-- Digits as they are written before a point: no zero in front of others. -/
structure IsWhole (ds : List Char) : Prop where
  digits : IsDigits ds
  lead : ∀ rest, ds = '0' :: rest → rest = []

theorem isWhole_digits (n : Nat) : IsWhole (digits n) := ⟨isDigits_digits n, fun _ => digits_zero_cons⟩

theorem isWhole_zero : IsWhole ['0'] := isWhole_digits 0

theorem isWhole_cons {d : Char} {ds : List Char} (hd : d ≠ '0')
    (h : ∀ c ∈ d :: ds, c.isDigit = true) : IsWhole (d :: ds) :=
  ⟨⟨List.cons_ne_nil d ds, h⟩, fun _ hzero => absurd (List.cons.inj hzero).1 hd⟩

/-! ### Literals -/

namespace Literal

/-- A literal whose parts are what they are called. -/
structure WellFormed (l : Literal) : Prop where
  whole : IsWhole l.whole
  fraction : ∀ ds ∈ l.fraction, IsDigits ds
  exponent : ∀ p ∈ l.exponent, IsDigits p.2

/-- A fraction behind its point. -/
def pointed : Option (List Char) → List Char
  | none => []
  | some ds => '.' :: ds

/-- An exponent behind its letter, always with a sign. -/
def powered : Option (Bool × List Char) → List Char
  | none => []
  | some (negative, ds) => 'e' :: (if negative then '-' else '+') :: ds

/-- The literal without its sign, as it is written. -/
def body (l : Literal) : List Char := l.whole ++ pointed l.fraction ++ powered l.exponent

/-- The literal as it is written. -/
def written (l : Literal) : List Char := (if l.negative then ['-'] else []) ++ l.body

end Literal

/-! ### Gathering -/

/-- Digits put behind a number. -/
def behind (acc : Nat) (ds : List Char) : Nat := ds.foldl (fun n c => n * 10 + digitValue c) acc

theorem le_behind (acc : Nat) (ds : List Char) : acc ≤ behind acc ds := by
  induction ds generalizing acc with
  | nil => exact Nat.le_refl acc
  | cons c ds ih => exact Nat.le_trans (by omega) (ih (acc * 10 + digitValue c))

theorem behind_append (acc : Nat) (ds ds' : List Char) :
    behind acc (ds ++ ds') = behind (behind acc ds) ds' := List.foldl_append

theorem digitValue_lt {c : Char} (h : c.isDigit = true) : digitValue c < 10 := by
  have := Char.isDigit_iff_toNat.1 h
  simp only [digitValue, Char.reduceToNat] at this ⊢
  omega

theorem behind_lt (acc : Nat) {ds : List Char} (h : ∀ c ∈ ds, c.isDigit = true) :
    behind acc ds < (acc + 1) * 10 ^ ds.length := by
  induction ds generalizing acc with
  | nil => simp [behind]
  | cons c ds ih =>
    have hdigit := digitValue_lt (h c (by simp))
    have hrest := ih (acc * 10 + digitValue c) fun d hd => h d (by simp [hd])
    calc behind acc (c :: ds) < (acc * 10 + digitValue c + 1) * 10 ^ ds.length := hrest
      _ ≤ ((acc + 1) * 10) * 10 ^ ds.length := Nat.mul_le_mul_right _ (by omega)
      _ = (acc + 1) * 10 ^ (c :: ds).length := by
        rw [List.length_cons, pow_succ]
        ring

theorem gatherWhole_eq {acc : Nat} {ds : List Char} (h : behind acc ds ≤ wordMax) :
    gatherWhole acc ds = (behind acc ds, 0) := by
  induction ds generalizing acc with
  | nil => rfl
  | cons c ds ih =>
    have hfirst : acc * 10 + digitValue c ≤ wordMax := (le_behind _ ds).trans h
    rw [gatherWhole, if_pos hfirst]
    exact ih h

theorem gatherFraction_eq {acc taken : Nat} {ds : List Char} (h : behind acc ds ≤ wordMax) :
    gatherFraction acc taken ds = (behind acc ds, taken + ds.length) := by
  induction ds generalizing acc taken with
  | nil => rfl
  | cons c ds ih =>
    have hfirst : acc * 10 + digitValue c ≤ wordMax := (le_behind _ ds).trans h
    rw [gatherFraction, if_pos hfirst]
    rw [ih h, List.length_cons]
    congr 1
    omega

theorem gatherFraction_le {acc taken : Nat} {ds : List Char} (h : acc ≤ wordMax) :
    (gatherFraction acc taken ds).1 ≤ wordMax := by
  induction ds generalizing acc taken with
  | nil => exact h
  | cons c ds ih =>
    rw [gatherFraction]
    split
    · exact ih ‹_›
    · exact h

namespace Literal

variable {l : Literal}

theorem le_wordMax_iff {n : Nat} : n ≤ wordMax ↔ n < 2 ^ 64 := by
  have hmax : wordMax = 2 ^ 64 - 1 := by decide
  omega

/-- With few enough digits before the point the word is followed by no further digits. -/
theorem significand_of_whole (h : value l.whole ≤ wordMax) :
    l.significand.1 ≤ wordMax ∧ l.significand.2 ≤ 0 := by
  have hwhole : gatherWhole 0 l.whole = (value l.whole, 0) := gatherWhole_eq h
  rw [significand, hwhole]
  dsimp only
  split
  · exact ⟨h, Int.le_refl 0⟩
  · exact ⟨gatherFraction_le h, by dsimp only; omega⟩

/-- With few enough digits altogether the word is all of them. -/
theorem significand_of_digits {ds : List Char} (hfraction : l.fraction.getD [] = ds)
    (h : value (l.whole ++ ds) ≤ wordMax) :
    l.significand = (value (l.whole ++ ds), -(ds.length : Int)) := by
  have hvalue : value (l.whole ++ ds) = behind (value l.whole) ds := behind_append 0 _ _
  rw [hvalue] at h ⊢
  have hwhole : gatherWhole 0 l.whole = (value l.whole, 0) := gatherWhole_eq ((le_behind _ ds).trans h)
  rw [significand, hwhole]
  cases hd : l.fraction with
  | none =>
    rw [hd] at hfraction
    subst hfraction
    rfl
  | some fraction =>
    rw [hd] at hfraction
    subst hfraction
    simp only [Option.getD_some] at h ⊢
    rw [gatherFraction_eq h]
    simp

theorem magnitude_isSome_of_plain (h : value l.whole ≤ wordMax) (hexponent : l.exponent = none) :
    l.magnitude.isSome = true := by
  obtain ⟨hword, hpower⟩ := significand_of_whole h
  rw [magnitude, hexponent]
  exact scaled_isSome_of_nonpos (le_wordMax_iff.1 hword) hpower

theorem magnitude_isSome_of_negative {ds : List Char} (h : value l.whole ≤ wordMax)
    (hexponent : l.exponent = some (true, ds)) : l.magnitude.isSome = true := by
  obtain ⟨hword, hpower⟩ := significand_of_whole h
  rw [magnitude, hexponent]
  dsimp only
  split
  · refine scaled_isSome_of_nonpos (le_wordMax_iff.1 hword) ?_
    rw [if_pos rfl]
    omega
  · simp

theorem magnitude_of_positive {ds fraction : List Char} (hfraction : l.fraction.getD [] = fraction)
    (h : value (l.whole ++ fraction) ≤ wordMax) (hexponent : l.exponent = some (false, ds))
    (hds : value ds ≤ exponentMax) :
    l.magnitude = scaled (value (l.whole ++ fraction)) (value ds - fraction.length) := by
  rw [magnitude, significand_of_digits hfraction h, hexponent]
  simp only [if_pos hds, Bool.false_eq_true, if_false]
  congr 1
  omega

end Literal

/-! ### Layouts -/

variable {c : Nat} {k : Int}

theorem value_lt {ds : List Char} (h : ∀ c ∈ ds, c.isDigit = true) : value ds < 10 ^ ds.length := by
  have hlt := behind_lt 0 h
  rwa [Nat.zero_add, Nat.one_mul] at hlt

theorem value_le_wordMax {ds : List Char} (h : ∀ c ∈ ds, c.isDigit = true) (hlength : ds.length ≤ 19) :
    value ds ≤ wordMax := by
  have hlt := value_lt h
  have hpower : 10 ^ ds.length ≤ 10 ^ 19 := Nat.pow_le_pow_right (by decide) hlength
  have hmax : 10 ^ 19 ≤ wordMax := by decide
  omega

/-- A text that is a literal with a fraction or an exponent, has no sign, and has a value. -/
def IsMagnitude (text : List Char) : Prop := ∃ l : Literal, l.WellFormed ∧ l.negative = false ∧
  l.isWhole = false ∧ text = l.body ∧ l.magnitude.isSome = true

theorem isMagnitude_plain {whole fraction : List Char} (hwhole : IsWhole whole)
    (hlength : whole.length ≤ 19) (hfraction : IsDigits fraction) :
    IsMagnitude (whole ++ '.' :: fraction) := by
  refine ⟨⟨false, whole, some fraction, none⟩, ⟨hwhole, ?_, nofun⟩, rfl, rfl, ?_, ?_⟩
  · rintro ds ⟨⟩
    exact hfraction
  · simp [Literal.body, Literal.pointed, Literal.powered]
  · exact Literal.magnitude_isSome_of_plain (value_le_wordMax hwhole.digits.2 hlength) rfl

/-- The digits of a mantissa, a point behind the first of several. -/
def mantissa : List Char → List Char
  | [] => []
  | [d] => [d]
  | d :: rest => d :: '.' :: rest

/-- The first digit is the whole part, and the others are the fraction, if there are others. -/
theorem exists_mantissa {d : Char} {ds : List Char} (h : ∀ x ∈ d :: ds, x.isDigit = true) :
    ∃ fraction : Option (List Char), fraction.getD [] = ds ∧
      mantissa (d :: ds) = [d] ++ Literal.pointed fraction ∧ ∀ f ∈ fraction, IsDigits f := by
  cases ds with
  | nil => exact ⟨none, rfl, rfl, nofun⟩
  | cons d' ds =>
    refine ⟨some (d' :: ds), rfl, rfl, ?_⟩
    rintro f ⟨⟩
    exact ⟨List.cons_ne_nil d' ds, fun x hx => h x (List.mem_cons_of_mem d hx)⟩

theorem isMagnitude_exponent {e : Int} (hword : c < 2 ^ 64) (hk : k ≤ 308)
    (he : e = k + (digits c).length - 1) (hread : (scaled c k).isSome = true) :
    IsMagnitude (mantissa (digits c) ++
      'e' :: (if e < 0 then '-' else '+') :: digits e.natAbs) := by
  have hlength : (digits c).length ≤ 20 :=
    (Nat.length_toDigits_le_iff (by decide) (by decide)).2 (hword.trans (by norm_num))
  obtain ⟨d, ds, hds⟩ : ∃ d ds, digits c = d :: ds := List.exists_cons_of_ne_nil Nat.toDigits_ne_nil
  have hdigits : ∀ x ∈ d :: ds, x.isDigit = true := fun x hx => isDigit_of_mem_digits (hds ▸ hx)
  have hwhole : IsWhole [d] := ⟨⟨by simp, by simpa using hdigits d⟩, by simp⟩
  obtain ⟨fraction, hgetD, hbody, hfraction⟩ := exists_mantissa hdigits
  refine ⟨⟨false, [d], fraction, some (decide (e < 0), digits e.natAbs)⟩, ⟨hwhole, hfraction, ?_⟩, rfl,
    ?_, ?_, ?_⟩
  · rintro p ⟨⟩
    exact isDigits_digits _
  · simp [Literal.isWhole]
  · rw [hds, hbody]
    simp [Literal.body, Literal.powered]
  · by_cases hneg : e < 0
    · exact Literal.magnitude_isSome_of_negative
        (value_le_wordMax hwhole.digits.2 (by norm_num)) (by rw [decide_eq_true hneg])
    · have hall : value ([d] ++ ds) = c := by
        rw [List.singleton_append, ← hds, value_digits]
      have hmax : exponentMax = 2 ^ 31 - 1 := by decide
      rw [hds, List.length_cons] at he hlength
      have hmagnitude := Literal.magnitude_of_positive
        (l := ⟨false, [d], fraction, some (decide (e < 0), digits e.natAbs)⟩) hgetD
        (by rw [hall]; exact Literal.le_wordMax_iff.2 hword) (by rw [decide_eq_false hneg])
        (by rw [value_digits]; omega)
      rw [hmagnitude, hall, value_digits, show (e.natAbs : Int) - ds.length = k by omega]
      exact hread

section

variable {d : Char} {ds : List Char} {n : Nat} (hdigits : ∀ x ∈ d :: ds, x.isDigit = true)

include hdigits

/-- The digits and zeros up to the point. -/
theorem isMagnitude_behind (hd : d ≠ '0') (hlength : ds.length + 1 + n ≤ 19) :
    IsMagnitude (d :: ds ++ List.replicate n '0' ++ ['.', '0']) := by
  refine isMagnitude_plain (isWhole_cons hd ?_) ?_ isWhole_zero.digits
  · exact List.forall_mem_append.2 ⟨hdigits, isDigit_of_mem_replicate⟩
  · rwa [List.length_append, List.length_replicate, List.length_cons]

/-- The point among the digits. -/
theorem isMagnitude_among (hd : d ≠ '0') (hn : n < ds.length) (hlength : n < 19) :
    IsMagnitude ((d :: ds).take (n + 1) ++ '.' :: (d :: ds).drop (n + 1)) := by
  refine isMagnitude_plain (isWhole_cons hd ?_) ?_ ⟨?_, ?_⟩
  · exact fun x hx => hdigits x (List.mem_of_mem_take (i := n + 1) hx)
  · exact (List.length_take_le (n + 1) (d :: ds)).trans hlength
  · refine List.ne_nil_of_length_pos ?_
    rw [List.length_drop, List.length_cons]
    omega
  · exact fun x hx => hdigits x (List.mem_of_mem_drop hx)

/-- A zero and zeros before the digits. -/
theorem isMagnitude_before : IsMagnitude ('0' :: '.' :: (List.replicate n '0' ++ d :: ds)) :=
  isMagnitude_plain isWhole_zero (by norm_num)
    ⟨by simp, List.forall_mem_append.2 ⟨isDigit_of_mem_replicate, hdigits⟩⟩

end

/-- However `c * 10 ^ k` is laid out, the text has a value where the word times the power of ten
has one. -/
theorem isMagnitude_render {layout : Layout} (hlayout : layout.high ≤ 19) (hpos : 0 < c)
    (hword : c < 2 ^ 64) (hk : k ≤ 308) (hread : (scaled c k).isSome = true) :
    IsMagnitude (layout.render c k).toList := by
  have hexponent : IsMagnitude (mantissa (digits c) ++
      'e' :: (if k + (digits c).length - 1 < 0 then '-' else '+') ::
        digits (k + (digits c).length - 1).natAbs) :=
    isMagnitude_exponent hword hk rfl hread
  obtain ⟨d, ds, hds, hd⟩ := exists_leading hpos
  have hdigits : ∀ x ∈ d :: ds, x.isDigit = true := fun x hx => isDigit_of_mem_digits (hds ▸ hx)
  unfold Layout.render
  dsimp only
  rw [hds] at hexponent ⊢
  rw [List.length_cons] at *
  split
  · rename_i hplain
    obtain ⟨-, hhigh⟩ : layout.low ≤ k + (ds.length + 1 : Nat) - 1 ∧
        k + (ds.length + 1 : Nat) - 1 < layout.high := by
      simpa using hplain
    split
    · rw [String.toList_ofList]
      exact isMagnitude_behind hdigits hd (by omega)
    · split
      · rw [String.toList_ofList]
        exact isMagnitude_among hdigits hd (by omega) (by omega)
      · rw [String.toList_ofList]
        exact isMagnitude_before hdigits
  · rw [String.toList_ofList]
    exact hexponent

/-- A magnitude behind its sign. -/
theorem IsMagnitude.signed {text : List Char} (h : IsMagnitude text) (negative : Bool) :
    ∃ l : Literal, l.WellFormed ∧ l.isWhole = false ∧ l.toFloat?.isSome = true ∧
      (if negative then ['-'] else []) ++ text = l.written := by
  obtain ⟨l, hformed, -, hwhole, rfl, hmagnitude⟩ := h
  refine ⟨{ l with negative }, ⟨hformed.whole, hformed.fraction, hformed.exponent⟩, hwhole, ?_, rfl⟩
  rw [Literal.toFloat?, Option.isSome_map]
  exact hmagnitude

/-- The text of a finite float is a literal that is read as a float. -/
theorem exists_literal_of_isFinite (layout : Layout) (hlayout : layout.high ≤ 19) {x : Float}
    (h : x.isFinite = true) : ∃ l : Literal, l.WellFormed ∧ l.isWhole = false ∧
      l.toFloat?.isSome = true ∧ (layout.text x).toList = l.written := by
  have hsign : (if x.toBits.toNat < wordBound 63 then "" else "-").toList =
      if decide (wordBound 63 ≤ x.toBits.toNat) then ['-'] else [] := by
    split <;> simp_all
  have htext (text : String) (htext : IsMagnitude text.toList) :
      ∃ l : Literal, l.WellFormed ∧ l.isWhole = false ∧ l.toFloat?.isSome = true ∧
        ((if x.toBits.toNat < wordBound 63 then "" else "-") ++ text).toList = l.written := by
    rw [String.toList_append, hsign]
    exact htext.signed _
  unfold Layout.text
  dsimp only
  split
  · exact htext "0.0" (isMagnitude_plain isWhole_zero (by norm_num) isWhole_zero.digits)
  · rename_i hzero
    obtain ⟨c, k, hshortest, hpos, hword, hk, hread⟩ :=
      Binary.shortest_readable (Binary.inRange_ofBits h (by simpa using hzero))
    rw [hshortest]
    exact htext _ (isMagnitude_render hlayout hpos hword hk hread)

end Querent.Decimal
