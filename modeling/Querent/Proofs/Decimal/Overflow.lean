import Querent.Decimal.Literal
import Querent.Proofs.Decimal.Rounding

/-! Where reading a decimal does not overflow: three roundings, of the word, of the power of ten and
of their product, lift it by one part in `2 ^ 53` each. -/
namespace Querent.Decimal

open Float.Model Float.Model.UnpackedFloat

/-- What one rounding multiplies a number by at most. -/
def slack : ℚ := 1 + 1 / 2 ^ 53

theorem one_le_slack : 1 ≤ slack := by norm_num [slack]

theorem slack_pos : 0 < slack := one_pos.trans_le one_le_slack

/-- The least power of two that is beyond every float. -/
def ceiling : ℚ := 2 ^ 1024

theorem ceiling_eq (n k : ℕ) (h : n + k = 1024) : ceiling = 2 ^ n * 2 ^ k := by
  rw [ceiling, ← pow_add, h]

variable {x y : ℚ} {m word k : ℕ} {e : ℤ}

theorem lt_ceiling (h : x < 2 ^ 65) : x < ceiling := by
  rw [ceiling_eq 65 959 rfl]
  exact h.trans_le (le_mul_of_one_le_right (by positivity) (one_le_pow₀ (by norm_num)))

/-- A number rounded to 53 bits, as it is stored. -/
theorem unpack_round (hm : 2 ^ 52 ≤ m) (he : -1074 ≤ e) (hx : (m : ℚ) * 2 ^ e * slack ≤ x)
    (hbound : x < ceiling) : ∃ (r j : ℕ) (h : 0 < r),
      (Float.Model.pack (roundWithAccuracy .binary64 .positive m e .exact)).unpack =
        .finite .positive r (e + j) h ∧ 2 ^ 52 ≤ r ∧ (r : ℚ) * 2 ^ (e + j) ≤ x := by
  obtain ⟨r, j, h, hround, hlow, hhigh, hle⟩ := roundWithAccuracy_eq .positive hm he
  have hscaled : (r : ℚ) * 2 ^ j ≤ m * slack := by
    have hle : (r : ℚ) * 2 ^ j * 2 ^ 53 ≤ m * (2 ^ 53 + 1) := by exact_mod_cast hle
    rw [slack]
    linarith
  have hvalue : (r : ℚ) * 2 ^ (e + j) ≤ x := by
    calc (r : ℚ) * 2 ^ (e + j) = r * 2 ^ j * 2 ^ e := by
          rw [zpow_add₀ (by norm_num), zpow_natCast]
          ring
      _ ≤ m * slack * 2 ^ e := by gcongr
      _ = m * 2 ^ e * slack := by ring
      _ ≤ x := hx
  have hexponent : e + j ≤ 971 := by
    by_contra hlarge
    have hlow : (2 : ℚ) ^ 52 ≤ r := by exact_mod_cast hlow
    have hpower : (2 : ℚ) ^ 972 ≤ 2 ^ (e + j) := by
      rw [← zpow_natCast]
      exact zpow_le_zpow_right₀ (by norm_num) (by omega)
    have hover : ceiling ≤ r * 2 ^ (e + j) := by
      rw [ceiling_eq 52 972 rfl]
      gcongr
    exact absurd (hover.trans hvalue) (not_le.2 hbound)
  refine ⟨r, j, h, ?_, hlow, hvalue⟩
  rw [hround]
  exact unpack_pack .positive h hlow hhigh (by omega) hexponent

/-- A positive number of 53 bits, at most `x`, with few of them behind the point. -/
def Within (x : ℚ) (f : UnpackedFloat) : Prop :=
  ∃ (m : ℕ) (e : ℤ) (h : 0 < m), f = .finite .positive m e h ∧ 2 ^ 52 ≤ m ∧ -64 ≤ e ∧
    (m : ℚ) * 2 ^ e ≤ x

theorem within_round (hm : 2 ^ 52 ≤ m) (he : -64 ≤ e) (hx : (m : ℚ) * 2 ^ e * slack ≤ x)
    (hbound : x < ceiling) :
    Within x (Float.Model.pack (roundWithAccuracy .binary64 .positive m e .exact)).unpack := by
  obtain ⟨r, j, h, hstored, hlow, hvalue⟩ := unpack_round hm (by omega) hx hbound
  exact ⟨r, e + j, h, hstored, hlow, by omega, hvalue⟩

/-- A word is filled up to 53 bits, or rounded to them. -/
theorem ofUInt64_eq (hword : 0 < word) (hbound : word < 2 ^ 64) :
    UnpackedFloat.ofUInt64 .binary64 word.toUInt64 =
      roundWithAccuracy .binary64 .positive (word * 2 ^ (52 - word.log2))
        (-(52 - word.log2 : ℕ)) .exact := by
  have hlog : word.log2 < 64 := (Nat.log2_lt hword.ne').2 hbound
  have hleast : Format.binary64.minExponent = -1074 := by decide
  have hbits : Format.binary64.mantissaBits = 53 := by decide
  have hshift : (-Format.binary64.targetExponent (totalExponent word 0)).toNat =
      52 - word.log2 := by
    rw [Format.targetExponent, totalExponent, hleast, hbits]
    omega
  have hnat : word.toUInt64.toNat = word := Nat.mod_eq_of_lt hbound
  have hcompare : compare (word : ℤ) 0 = .gt := by
    rw [compare_gt_iff_gt]
    omega
  simp only [UnpackedFloat.ofUInt64, UnpackedFloat.ofNat, UnpackedFloat.ofInt, hnat,
    UnpackedFloat.normalize, hcompare, UnpackedFloat.round, decreaseExponent, zero_sub, hshift,
    Int.toNat_natCast, Nat.shiftLeft_eq]

/-- A word as a float. -/
theorem within_toFloat (hword : 0 < word) (hbound : word < 2 ^ 64) :
    Within (word * slack) word.toUInt64.toFloat.toModel.unpack := by
  have hfull : 2 ^ 52 ≤ word * 2 ^ (52 - word.log2) := by
    calc 2 ^ 52 ≤ 2 ^ (word.log2 + (52 - word.log2)) := Nat.pow_le_pow_right (by norm_num) (by omega)
      _ = 2 ^ word.log2 * 2 ^ (52 - word.log2) := pow_add _ _ _
      _ ≤ word * 2 ^ (52 - word.log2) := by gcongr; exact Nat.log2_self_le hword.ne'
  have hvalue : ((word * 2 ^ (52 - word.log2) : ℕ) : ℚ) * 2 ^ (-(52 - word.log2 : ℕ) : ℤ) = word := by
    rw [zpow_neg, zpow_natCast]
    push_cast
    field_simp
  have hrange : (word : ℚ) * slack < ceiling := by
    have hbound : (word : ℚ) < 2 ^ 64 := by exact_mod_cast hbound
    refine lt_ceiling ?_
    rw [slack]
    linarith
  change Within _ (Float.Model.pack (UnpackedFloat.ofUInt64 .binary64 word.toUInt64)).unpack
  rw [ofUInt64_eq hword hbound]
  exact within_round hfull (by omega) (by rw [hvalue]) hrange

/-- Whether a float is exactly a power of ten. -/
def isPowerOfTen (n : ℕ) : UnpackedFloat → Bool
  | .finite .positive m e _ =>
    decide (2 ^ 52 ≤ m ∧ -52 ≤ e ∧ m * 2 ^ (e + 52).toNat = 10 ^ n * 2 ^ 52)
  | _ => false

theorem isPowerOfTen_small : ∀ n ≤ 22, isPowerOfTen n (powerOfTen n).toModel.unpack = true := by
  decide +kernel

theorem within_of_isPowerOfTen {n : ℕ} {f : UnpackedFloat} (h : isPowerOfTen n f = true) :
    Within (10 ^ n * slack) f := by
  unfold isPowerOfTen at h
  split at h
  · rename_i m e hpos
    obtain ⟨hm, he, heq⟩ := of_decide_eq_true h
    refine ⟨m, e, hpos, rfl, hm, by omega, ?_⟩
    obtain ⟨d, rfl⟩ : ∃ d : ℕ, e = d - 52 := ⟨(e + 52).toNat, by omega⟩
    have heq : (m : ℚ) * 2 ^ d = 10 ^ n * 2 ^ 52 := by
      rw [show ((d : ℤ) - 52 + 52).toNat = d by omega] at heq
      exact_mod_cast heq
    have hpower : (0 : ℚ) < 10 ^ n := by positivity
    calc (m : ℚ) * 2 ^ ((d : ℤ) - (52 : ℕ)) = m * 2 ^ d / 2 ^ 52 := by
          rw [zpow_sub₀ (by norm_num), zpow_natCast, zpow_natCast]
          ring
      _ = 10 ^ n := by
          rw [heq]
          field_simp
      _ ≤ 10 ^ n * slack := by
          rw [slack]
          linarith
  · cases h

theorem powerOfTen_large {n : ℕ} (h : 22 < n) (h' : n ≤ 308) :
    (powerOfTen n).toModel =
      Float.Model.pack (roundWithAccuracy .binary64 .positive (2 ^ 53 * 10 ^ n) (-53) .exact) := by
  have hbits : Format.binary64.mantissaBits = 53 := by decide
  have hsmall : ¬(1 < 2 ^ 53 ∧ n ≤ 22) := by omega
  have hhigh : ¬(Int.ofNat n > 2 ^ 11) := by simp; omega
  have hlow : ¬(Int.ofNat n < -((2 ^ 11 : ℤ) + (Nat.log2 1 : ℕ))) := by simp; omega
  have hnat : 0 ≤ Int.ofNat n := Int.natCast_nonneg n
  have hone : 1 <<< 53 = 2 ^ 53 := by decide
  rw [powerOfTen, Float.ofScientific, dif_neg hsmall]
  simp only [Bool.false_eq_true, if_false, Float.Model.ofScientific, UnpackedFloat.ofScientific]
  rw [dif_neg (by decide), if_neg hhigh, if_neg hlow, if_pos hnat]
  simp only [UnpackedFloat.mul, hbits, hone, Int.ofNat_eq_natCast, Int.toNat_natCast]
  rfl

/-- A power of ten as a float. -/
theorem within_powerOfTen {n : ℕ} (h : n ≤ 308) :
    Within (10 ^ n * slack) (powerOfTen n).toModel.unpack := by
  by_cases hn : n ≤ 22
  · exact within_of_isPowerOfTen (isPowerOfTen_small n hn)
  · rw [powerOfTen_large (by omega) h]
    refine within_round (Nat.le_mul_of_pos_right _ (by positivity) |>.trans' (by norm_num))
      (by norm_num) (le_of_eq ?_) ?_
    · push_cast
      rw [zpow_neg]
      norm_num
      exact .inl (by ring)
    · have hpower : (10 : ℚ) ^ n ≤ 10 ^ 308 := pow_le_pow_right₀ (by norm_num) h
      have hlast : (10 : ℚ) ^ 308 * (2 ^ 53 + 1) < ceiling * 2 ^ 53 := by
        rw [ceiling]
        exact_mod_cast (by decide +kernel : 10 ^ 308 * (2 ^ 53 + 1) < 2 ^ 1024 * 2 ^ 53)
      generalize (10 : ℚ) ^ 308 = last at hpower hlast
      rw [slack]
      linarith

/-! ### Words times powers of ten -/

theorem isInf_mul {a b : Float} (ha : Within x a.toModel.unpack) (hb : Within y b.toModel.unpack)
    (hbound : x * y * slack < ceiling) : (a * b).isInf = false := by
  obtain ⟨m, e, hm, ha, hlow, he, hx⟩ := ha
  obtain ⟨m', e', hm', hb, hlow', he', hy⟩ := hb
  have hmul : (a * b).toModel = Float.Model.pack
      (roundWithAccuracy .binary64 .positive (m * m') (e + e') .exact) := by
    change Float.Model.pack (UnpackedFloat.mul .binary64 a.toModel.unpack b.toModel.unpack) = _
    rw [ha, hb]
    rfl
  have hproduct : ((m * m' : ℕ) : ℚ) * 2 ^ (e + e') * slack ≤ x * y * slack := by
    have hslack := slack_pos
    have hpos : 0 ≤ x := hx.trans' (by positivity)
    calc ((m * m' : ℕ) : ℚ) * 2 ^ (e + e') * slack = (m * 2 ^ e) * (m' * 2 ^ e') * slack := by
          rw [zpow_add₀ (by norm_num)]
          push_cast
          ring
      _ ≤ x * y * slack := by gcongr
  obtain ⟨r, j, h, hstored, -⟩ :=
    unpack_round (hlow.trans (Nat.le_mul_of_pos_right _ hm')) (by omega) hproduct hbound
  rw [Float.isInf, Float.Model.isInf, hmul, hstored]
  rfl

/-- A word times a power of ten is read where it stays below `2 ^ 1024` by as much as three
roundings can lift it. -/
theorem scaled_isSome (hword : 0 < word) (hbound : word < 2 ^ 64) (hk : k ≤ 308)
    (h : (word : ℚ) * 10 ^ k * slack ^ 3 < ceiling) : (scaled word k).isSome = true := by
  have hinf : (word.toUInt64.toFloat * powerOfTen k).isInf = false := by
    refine isInf_mul (within_toFloat hword hbound) (within_powerOfTen hk) ?_
    calc (word : ℚ) * slack * (10 ^ k * slack) * slack = word * 10 ^ k * slack ^ 3 := by ring
      _ < ceiling := h
  simp [scaled, applyPower, hk, hinf]

theorem applyPower_isSome_of_neg (fuel : ℕ) (f : Float) (he : e < 0) :
    (applyPower fuel f e).isSome = true := by
  induction fuel generalizing f e with
  | zero => rfl
  | succ fuel ih =>
    rw [applyPower]
    split
    · rw [if_neg (by omega)]
      rfl
    · split
      · rfl
      · rw [if_neg (by omega)]
        exact ih _ (by omega)

/-- Divided by a power of ten, a word is always read. -/
theorem scaled_isSome_of_nonpos (hbound : word < 2 ^ 64) (he : e ≤ 0) :
    (scaled word e).isSome = true := by
  rcases he.lt_or_eq with he | rfl
  · exact applyPower_isSome_of_neg _ _ he
  -- with no power left the word is multiplied by one
  rcases Nat.eq_zero_or_pos word with rfl | hword
  · decide
  have hword' : (word : ℚ) < 2 ^ 64 := by exact_mod_cast hbound
  refine scaled_isSome hword hbound (Nat.zero_le _) (lt_ceiling ?_)
  rw [slack]
  linarith

end Querent.Decimal
