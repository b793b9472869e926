import Mathlib

/-! How far rounding to 53 bits can lift a number: by one part in `2 ^ 53` at most. A rounded number
that stays below `2 ^ 1024` is stored as it is. -/
namespace Querent.Decimal

open Float.Model Float.Model.UnpackedFloat

/-! ### The mantissa -/

/-- Twice the mantissa and the bit behind it: never above twice the number that was shifted. -/
def doubled (em : ExtendedMantissa) : ℕ := 2 * em.mantissa + em.roundBit.toNat

theorem doubled_shiftRightOne (em : ExtendedMantissa) :
    doubled em.shiftRightOne = em.mantissa := by
  have hbit : (em.mantissa % 2 != 0).toNat = em.mantissa % 2 := by
    rcases Nat.mod_two_eq_zero_or_one em.mantissa with h | h <;> simp [h]
  simp only [doubled, ExtendedMantissa.shiftRightOne, hbit]
  omega

theorem mantissa_shiftRight (em : ExtendedMantissa) (n : ℕ) :
    (em >>> n).mantissa = em.mantissa / 2 ^ n := by
  induction n with
  | zero => exact (Nat.div_one _).symm
  | succ n ih =>
    change (em >>> n).mantissa / 2 = _
    rw [ih, Nat.div_div_eq_div_mul, pow_succ]

theorem doubled_shiftRight_le (em : ExtendedMantissa) (n : ℕ) :
    doubled (em >>> n) * 2 ^ n ≤ doubled em := by
  induction n with
  | zero => exact (Nat.mul_one _).le
  | succ n ih =>
    calc doubled (em >>> (n + 1)) * 2 ^ (n + 1)
        = (2 * (em >>> n).mantissa) * 2 ^ n := by
          rw [show em >>> (n + 1) = (em >>> n).shiftRightOne from rfl, doubled_shiftRightOne]
          ring
      _ ≤ doubled (em >>> n) * 2 ^ n := Nat.mul_le_mul_right _ (Nat.le_add_right _ _)
      _ ≤ doubled em := ih

theorem roundedMantissa_bounds (em : ExtendedMantissa) :
    em.mantissa ≤ em.roundedMantissa ∧ em.roundedMantissa ≤ em.mantissa + em.roundBit.toNat := by
  obtain ⟨m, round, sticky⟩ := em
  cases round <;> cases sticky <;>
    simp [ExtendedMantissa.roundedMantissa, ExtendedMantissa.accuracy, Accuracy.roundToNearestEven]
  omega

/-- A number of 53 bits and `n` more, cut down to 53 and rounded. -/
theorem roundedMantissa_shiftRight {m n : ℕ} (hlow : 2 ^ (52 + n) ≤ m) (hhigh : m < 2 ^ (53 + n)) :
    let r := (ExtendedMantissa.ofMantissaAndAccuracy m .exact >>> n).roundedMantissa
    2 ^ 52 ≤ r ∧ r ≤ 2 ^ 53 ∧ r * 2 ^ n * 2 ^ 53 ≤ m * (2 ^ 53 + 1) := by
  have hmantissa := mantissa_shiftRight (ExtendedMantissa.ofMantissaAndAccuracy m .exact) n
  have hdoubled := doubled_shiftRight_le (ExtendedMantissa.ofMantissaAndAccuracy m .exact) n
  simp only [doubled, ExtendedMantissa.ofMantissaAndAccuracy, Bool.toNat_false] at hmantissa hdoubled
  simp only [ExtendedMantissa.ofMantissaAndAccuracy]
  generalize (⟨m, false, false⟩ : ExtendedMantissa) >>> n = em at *
  obtain ⟨hleast, hmost⟩ := roundedMantissa_bounds em
  have hbit : em.roundBit.toNat ≤ 1 := Bool.toNat_le _
  have hsmall : 2 ^ 52 ≤ m / 2 ^ n := (Nat.le_div_iff_mul_le (by positivity)).2 (by rwa [← pow_add])
  have hbig : m / 2 ^ n < 2 ^ 53 := (Nat.div_lt_iff_lt_mul (by positivity)).2 (by rwa [← pow_add])
  refine ⟨by omega, by omega, ?_⟩
  -- half a unit of the last place is what rounding adds, and the number has `2 ^ 52` units
  have hunit : 2 ^ n * 2 ^ 52 ≤ m := by rwa [← pow_add, Nat.add_comm]
  have hhalf : 2 * (em.roundedMantissa * 2 ^ n) ≤ 2 * m + 2 ^ n := by
    calc 2 * (em.roundedMantissa * 2 ^ n)
        ≤ 2 * ((em.mantissa + em.roundBit.toNat) * 2 ^ n) := by gcongr
      _ = (2 * em.mantissa + em.roundBit.toNat) * 2 ^ n + em.roundBit.toNat * 2 ^ n := by ring
      _ ≤ (2 * m + 0) + 1 * 2 ^ n := by gcongr
      _ = 2 * m + 2 ^ n := by ring
  linarith

/-! ### The whole number -/

theorem two_pow_log2_le {m : ℕ} (hm : 2 ^ 52 ≤ m) :
    2 ^ (52 + (m.log2 - 52)) ≤ m ∧ m < 2 ^ (53 + (m.log2 - 52)) := by
  have hne : m ≠ 0 := by omega
  have hlog : 52 ≤ m.log2 := (Nat.le_log2 hne).2 hm
  rw [show 52 + (m.log2 - 52) = m.log2 by omega, show 53 + (m.log2 - 52) = m.log2 + 1 by omega]
  exact ⟨Nat.log2_self_le hne, Nat.lt_log2_self⟩

/-- A number of at least 53 bits gives up those beyond. -/
theorem shiftToTargetExponent_eq {m : ℕ} {e : ℤ} (hm : 2 ^ 52 ≤ m) (he : -1074 ≤ e) :
    shiftToTargetExponent .binary64 m e .exact =
      (ExtendedMantissa.ofMantissaAndAccuracy m .exact >>> (m.log2 - 52),
        e + (m.log2 - 52 : ℕ)) := by
  have hlog : 52 ≤ m.log2 := (Nat.le_log2 (by omega)).2 hm
  have hleast : Format.binary64.minExponent = -1074 := by decide
  have hbits : Format.binary64.mantissaBits = 53 := by decide
  have hshift : (Format.binary64.targetExponent (totalExponent m e) - e).toNat = m.log2 - 52 := by
    rw [Format.targetExponent, totalExponent, hleast, hbits]
    omega
  rw [shiftToTargetExponent, shiftToExponent, hshift]

/-- Rounded to 53 bits, a number grows by one part in `2 ^ 53` at most. -/
theorem roundWithAccuracy_eq (s : Sign) {m : ℕ} {e : ℤ} (hm : 2 ^ 52 ≤ m) (he : -1074 ≤ e) :
    ∃ (r j : ℕ) (h : 0 < r), roundWithAccuracy .binary64 s m e .exact = .finite s r (e + j) h ∧
      2 ^ 52 ≤ r ∧ r < 2 ^ 53 ∧ r * 2 ^ j * 2 ^ 53 ≤ m * (2 ^ 53 + 1) := by
  obtain ⟨hlow, hhigh⟩ := two_pow_log2_le hm
  obtain ⟨hleast, hmost, hround⟩ := roundedMantissa_shiftRight hlow hhigh
  have hfirst := shiftToTargetExponent_eq hm he
  generalize ExtendedMantissa.ofMantissaAndAccuracy m .exact >>> (m.log2 - 52) = em at *
  generalize m.log2 - 52 = n at *
  have hsecond := shiftToTargetExponent_eq (e := e + n) hleast (by omega)
  -- rounding up can fill all 53 bits and one more; that one is given up again
  obtain ⟨k, hk, hr⟩ : ∃ k, em.roundedMantissa.log2 - 52 = k ∧
      2 ^ 52 ≤ em.roundedMantissa / 2 ^ k ∧ em.roundedMantissa / 2 ^ k < 2 ^ 53 := by
    obtain ⟨hlow, hhigh⟩ := two_pow_log2_le hleast
    exact ⟨_, rfl, (Nat.le_div_iff_mul_le (by positivity)).2 (by rwa [← pow_add]),
      (Nat.div_lt_iff_lt_mul (by positivity)).2 (by rwa [← pow_add])⟩
  have hpos : 0 < em.roundedMantissa / 2 ^ k := by omega
  refine ⟨em.roundedMantissa / 2 ^ k, n + k, hpos, ?_, hr.1, hr.2, ?_⟩
  · have hcut : (ExtendedMantissa.ofMantissaAndAccuracy em.roundedMantissa .exact >>> k).mantissa =
        em.roundedMantissa / 2 ^ k := mantissa_shiftRight _ _
    simp only [roundWithAccuracy, hfirst, hsecond, hk, hcut, dif_neg hpos.ne']
    congr 1
    omega
  · calc em.roundedMantissa / 2 ^ k * 2 ^ (n + k) * 2 ^ 53
        = (em.roundedMantissa / 2 ^ k * 2 ^ k) * 2 ^ n * 2 ^ 53 := by ring
      _ ≤ em.roundedMantissa * 2 ^ n * 2 ^ 53 := by gcongr; exact Nat.div_mul_le_self _ _
      _ ≤ m * (2 ^ 53 + 1) := hround

/-! ### The number as it is stored -/

theorem unpackSign_packComponents {spec : Format} (s : Sign) (e : BitVec spec.exponentBits)
    (m : BitVec spec.mantissaBitsWithoutImplicit) :
    unpackSign (packComponents spec s e m) = s.toBitVec := by
  ext i hi
  have hfirst : i = 0 := by omega
  subst hfirst
  simp [unpackSign, packComponents, BitVec.getLsbD_append, BitVec.getElem_append]

/-- A number of 53 bits in the range of the exponents is packed without its first bit. -/
theorem pack_eq (s : Sign) {m field : ℕ} {e : ℤ} (h : 0 < m) (hm : 2 ^ 52 ≤ m) (hm' : m < 2 ^ 53)
    (hfield : (field : ℤ) = e + 1075) (hbound : field < 2047) :
    UnpackedFloat.pack .binary64 (.finite s m e h) =
      packComponents .binary64 s (BitVec.ofNat 11 field) (BitVec.ofNat 52 m) := by
  have hlog : m.log2 = 52 := (Nat.log2_eq_iff h.ne').2 ⟨hm, hm'⟩
  have hbias : Format.binary64.exponentBias = 1023 := by decide
  have hbits : Format.binary64.mantissaBits = 53 := by decide
  have hbiased : (e + (1023 : ℕ) + (52 : ℕ)).toNat = field := by omega
  simp only [UnpackedFloat.pack, hbias, hbits, hlog, hbiased]
  rw [if_neg (by omega), if_pos trivial]

/-- The first bit is put back. -/
theorem unpack_packComponents (s : Sign) {m field : ℕ} {e : ℤ} (h : 0 < m) (hm : 2 ^ 52 ≤ m)
    (hm' : m < 2 ^ 53) (hfield : (field : ℤ) = e + 1075) (hpos : 0 < field) (hbound : field < 2047) :
    UnpackedFloat.unpack .binary64
        (packComponents .binary64 s (BitVec.ofNat 11 field) (BitVec.ofNat 52 m)) =
      .finite s m e h := by
  have hbias : Format.binary64.exponentBias = 1023 := by decide
  have hvalue : (BitVec.ofNat 11 field).toNat = field := by
    rw [BitVec.toNat_ofNat, Nat.mod_eq_of_lt (by omega)]
  have hlast : BitVec.ofNat 11 field ≠ -1#11 := by
    intro heq
    have := congrArg BitVec.toNat heq
    rw [hvalue, show (-1#11).toNat = 2047 by decide] at this
    omega
  have hfirst : BitVec.ofNat 11 field ≠ 0#11 := by
    intro heq
    have := congrArg BitVec.toNat heq
    rw [hvalue, show (0#11).toNat = 0 by decide] at this
    omega
  have hmantissa : (1#1 ++ BitVec.ofNat 52 m).toNat = m := by
    rw [BitVec.toNat_append, ← Nat.shiftLeft_add_eq_or_of_lt (BitVec.isLt _), BitVec.toNat_ofNat,
      BitVec.toNat_ofNat, Nat.shiftLeft_eq]
    omega
  have hsign : Sign.ofBitVec s.toBitVec = s := by cases s <;> rfl
  have hexponent : (field : ℤ) - ((1023 : ℕ) + (52 : ℕ) : ℤ) = e := by omega
  simp only [UnpackedFloat.unpack, unpackExponent_packComponents, unpackMantissa_packComponents,
    unpackSign_packComponents, hbias, hvalue, hmantissa, hsign, hexponent, if_neg hlast,
    if_neg hfirst]

/-- A number of 53 bits that is not too large is unpacked as it was packed. -/
theorem unpack_pack (s : Sign) {m : ℕ} {e : ℤ} (h : 0 < m) (hm : 2 ^ 52 ≤ m) (hm' : m < 2 ^ 53)
    (he : -1074 ≤ e) (he' : e ≤ 971) :
    (Float.Model.pack (.finite s m e h)).unpack = .finite s m e h := by
  obtain ⟨field, hfield⟩ : ∃ field : ℕ, (field : ℤ) = e + 1075 := ⟨(e + 1075).toNat, by omega⟩
  simp only [Float.Model.unpack, Float.Model.pack, pack_eq s h hm hm' hfield (by omega)]
  exact unpack_packComponents s h hm hm' hfield (by omega) (by omega)

end Querent.Decimal
