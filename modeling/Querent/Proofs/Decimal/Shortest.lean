import Querent.Decimal.Shortest
import Querent.Proofs.Decimal.Overflow

/-! The shortest decimal of a float: it is found, it has fewer digits than a word takes, it is not
above the next float's half way, and so reading it does not overflow. -/
namespace Querent.Decimal

open Float.Model Float.Model.UnpackedFloat

/-! ### Powers of two and of ten -/

theorem zpow_eq_div (base : ℕ) (h : base ≠ 0) (e : ℤ) :
    (base : ℚ) ^ e = base ^ e.toNat / base ^ (-e).toNat := by
  have hbase : (base : ℚ) ≠ 0 := by exact_mod_cast h
  rw [eq_div_iff (pow_ne_zero _ hbase), ← zpow_natCast, ← zpow_natCast, ← zpow_add₀ hbase]
  congr 1
  omega

variable {c n : ℕ} {k q : ℤ}

/-- A multiple of a power of ten, over the denominator it has in common with one of two. -/
theorem mul_ten_zpow (c : ℕ) (k q : ℤ) : (c : ℚ) * 10 ^ k =
    (c * (2 ^ (-q).toNat * 10 ^ k.toNat) : ℕ) / (2 ^ (-q).toNat * 10 ^ (-k).toNat) := by
  have hten : (10 : ℚ) ^ k = _ := zpow_eq_div 10 (by norm_num) k
  rw [hten, eq_div_iff (by positivity)]
  push_cast
  field_simp

theorem mul_two_zpow (n : ℕ) (k q : ℤ) : (n : ℚ) * 2 ^ q =
    (n * 2 ^ q.toNat * 10 ^ (-k).toNat : ℕ) / (2 ^ (-q).toNat * 10 ^ (-k).toNat) := by
  have htwo : (2 : ℚ) ^ q = _ := zpow_eq_div 2 (by norm_num) q
  rw [htwo, eq_div_iff (by positivity)]
  push_cast
  field_simp

theorem mul_zpow_le_iff : (c : ℚ) * 10 ^ k ≤ n * 2 ^ q ↔
    c * (2 ^ (-q).toNat * 10 ^ k.toNat) ≤ n * 2 ^ q.toNat * 10 ^ (-k).toNat := by
  rw [mul_ten_zpow c k q, mul_two_zpow n k q, div_le_div_iff_of_pos_right (by positivity),
    Nat.cast_le]

theorem le_mul_zpow_iff : (n : ℚ) * 2 ^ q ≤ c * 10 ^ k ↔
    n * 2 ^ q.toNat * 10 ^ (-k).toNat ≤ c * (2 ^ (-q).toNat * 10 ^ k.toNat) := by
  rw [mul_ten_zpow c k q, mul_two_zpow n k q, div_le_div_iff_of_pos_right (by positivity),
    Nat.cast_le]

/-- The grid that the search sets out from for a value from `2 ^ j` on. -/
def firstGrid (j : ℤ) : ℤ := j * 30103 / 100000 + 2

theorem firstGrid_table : ∀ i : ℕ, i < 2098 →
    1 * 2 ^ ((i : ℤ) - 1074).toNat * 10 ^ (-firstGrid (i - 1074)).toNat ≤
        1 * (2 ^ (-((i : ℤ) - 1074)).toNat * 10 ^ (firstGrid (i - 1074)).toNat) ∧
      1 * (2 ^ (-((i : ℤ) - 1074 - 54)).toNat * 10 ^ (firstGrid (i - 1074) - 23).toNat) ≤
        1 * 2 ^ ((i : ℤ) - 1074 - 54).toNat * 10 ^ (-(firstGrid (i - 1074) - 23)).toNat := by
  decide +kernel

/-- The first grid is as coarse as the value, and the last one that is tried is finer than a
quarter of its last place. -/
theorem firstGrid_bounds {j : ℤ} (hlow : -1074 ≤ j) (hhigh : j < 1024) :
    (2 : ℚ) ^ j ≤ 10 ^ firstGrid j ∧ (10 : ℚ) ^ (firstGrid j - 23) ≤ 2 ^ (j - 54) := by
  obtain ⟨i, rfl⟩ : ∃ i : ℕ, j = i - 1074 := ⟨(j + 1074).toNat, by omega⟩
  obtain ⟨hcoarse, hfine⟩ := firstGrid_table i (by omega)
  have hcoarse := le_mul_zpow_iff.2 hcoarse
  have hfine := mul_zpow_le_iff.2 hfine
  rw [Nat.cast_one, one_mul, one_mul] at hcoarse hfine
  exact ⟨hcoarse, hfine⟩

/-! ### The grids -/

namespace Binary

variable {b : Binary}

/-- So many quarters of the last place, on the scale of the grid. -/
def quarters (b : Binary) (k : ℤ) (n : ℕ) : ℕ := scaleUp (scaleUp n 2 (b.q - 2)) 10 (-k)

/-- The distance of two points of the grid, on the same scale. -/
def step (b : Binary) (k : ℤ) : ℕ := scaleUp (scaleUp 1 2 (-(b.q - 2))) 10 k

theorem quarters_eq (b : Binary) (k : ℤ) (n : ℕ) : b.quarters k n = n * b.quarters k 1 := by
  simp only [quarters, scaleUp]
  ring

theorem quarters_pos (b : Binary) (k : ℤ) : 0 < b.quarters k 1 := by
  simp only [quarters, scaleUp, Nat.pow_eq]
  positivity

theorem step_pos (b : Binary) (k : ℤ) : 0 < b.step k := by
  simp only [step, scaleUp, Nat.pow_eq]
  positivity

/-- The comparison of a point of the grid with a value, without its scale. -/
theorem mul_step_le_iff {b : Binary} : c * b.step k ≤ b.quarters k n ↔
    (c : ℚ) * 10 ^ k ≤ n * 2 ^ (b.q - 2) := by
  rw [mul_zpow_le_iff]
  simp [step, quarters, scaleUp]

/-- Whether a point of the grid reads back. -/
def inside (b : Binary) (k : ℤ) (c : ℕ) : Bool :=
  let low := b.quarters k (4 * b.m - if b.narrow then 1 else 2)
  let high := b.quarters k (4 * b.m + 2)
  if b.m % 2 == 0 then low ≤ c * b.step k && c * b.step k ≤ high
  else low < c * b.step k && c * b.step k < high

theorem onGrid_eq (b : Binary) (k : ℤ) :
    let below := b.quarters k (4 * b.m) / b.step k
    b.onGrid k = match b.inside k below, b.inside k (below + 1) with
      | false, false => none
      | true, false => some below
      | false, true => some (below + 1)
      | true, true =>
        let middle := (2 * below + 1) * b.step k
        let twice := 2 * b.quarters k (4 * b.m)
        if twice < middle || (twice == middle && below % 2 == 0) then some below
        else some (below + 1) := rfl

/-- What is found on a grid reads back. -/
theorem inside_of_onGrid {b : Binary} (h : b.onGrid k = some c) : b.inside k c = true := by
  rw [onGrid_eq] at h
  dsimp only at h
  split at h
  · cases h
  · rename_i hbelow _
    exact Option.some.inj h ▸ hbelow
  · rename_i _ habove
    exact Option.some.inj h ▸ habove
  · rename_i hbelow habove
    split at h
    · exact Option.some.inj h ▸ hbelow
    · exact Option.some.inj h ▸ habove

/-- What is found on a grid is positive and no further off than half a last place. -/
theorem bounds_of_onGrid {b : Binary} (hm : 0 < b.m) (h : b.onGrid k = some c) :
    0 < c ∧ (c : ℚ) * 10 ^ k ≤ (4 * b.m + 2 : ℕ) * 2 ^ (b.q - 2) := by
  have hinside := inside_of_onGrid h
  have hlow : 0 < b.quarters k (4 * b.m - if b.narrow then 1 else 2) := by
    rw [quarters_eq]
    exact Nat.mul_pos (by split <;> omega) (b.quarters_pos k)
  obtain ⟨hlow', hhigh⟩ : b.quarters k (4 * b.m - if b.narrow then 1 else 2) ≤ c * b.step k ∧
      c * b.step k ≤ b.quarters k (4 * b.m + 2) := by
    unfold inside at hinside
    dsimp only at hinside
    split at hinside <;> simp only [Bool.and_eq_true, decide_eq_true_eq] at hinside <;> omega
  refine ⟨Nat.pos_of_ne_zero ?_, mul_step_le_iff.1 hhigh⟩
  rintro rfl
  omega

/-- A grid that is no coarser than a quarter of the last place has a point that reads back. -/
theorem onGrid_isSome {b : Binary} (hm : 0 < b.m) (h : (10 : ℚ) ^ k ≤ 2 ^ (b.q - 2)) :
    (b.onGrid k).isSome = true := by
  have hstep : b.step k ≤ b.quarters k 1 := by
    have h : ((1 : ℕ) : ℚ) * 10 ^ k ≤ (1 : ℕ) * 2 ^ (b.q - 2) := by simpa using h
    simpa using mul_step_le_iff.2 h
  have hbelow : b.inside k (b.quarters k (4 * b.m) / b.step k) = true := by
    unfold inside
    dsimp only
    have hle := Nat.div_mul_le_self (b.quarters k (4 * b.m)) (b.step k)
    have hlt := Nat.lt_div_mul_add (a := b.quarters k (4 * b.m)) (b.step_pos k)
    have hpos := b.quarters_pos k
    generalize b.quarters k (4 * b.m) / b.step k * b.step k = point at *
    have hlow : b.quarters k (4 * b.m - if b.narrow then 1 else 2) + b.quarters k 1 ≤
        b.quarters k (4 * b.m) := by
      rw [quarters_eq, b.quarters_eq k (4 * b.m), ← Nat.succ_mul]
      exact Nat.mul_le_mul_right _ (by split <;> omega)
    have hhigh : b.quarters k (4 * b.m) < b.quarters k (4 * b.m + 2) := by
      rw [quarters_eq, b.quarters_eq k (4 * b.m + 2)]
      exact Nat.mul_lt_mul_of_pos_right (by omega) hpos
    split <;> simp only [Bool.and_eq_true, decide_eq_true_eq] <;> omega
  rw [onGrid_eq]
  dsimp only
  rw [hbelow]
  cases b.inside k (b.quarters k (4 * b.m) / b.step k + 1)
  · rfl
  · dsimp only
    split <;> rfl

/-! ### The search -/

/-- The search stops on the first grid that has a point. -/
theorem search_eq {b : Binary} (fuel : ℕ) (h : ∃ i : ℕ, i < fuel ∧ (b.onGrid (k - i)).isSome) :
    ∃ (c : ℕ) (i : ℕ), b.search fuel k = (c, k - i) ∧ b.onGrid (k - i) = some c ∧
      (i ≠ 0 → b.onGrid (k - i + 1) = none) := by
  induction fuel generalizing k with
  | zero => simp at h
  | succ fuel ih =>
    rw [search]
    cases hk : b.onGrid k with
    | some c => exact ⟨c, 0, by simp, by simpa using hk, by simp⟩
    | none =>
      obtain ⟨i, hi, hsome⟩ := h
      cases i with
      | zero => simp [hk] at hsome
      | succ i =>
        have hnext (i : ℕ) : k - (i + 1 : ℕ) = k - 1 - i := by omega
        rw [hnext] at hsome
        obtain ⟨c, j, hsearch, hgrid, hcoarser⟩ := ih ⟨i, by omega, hsome⟩
        refine ⟨c, j + 1, by rw [hnext]; exact hsearch, by rw [hnext]; exact hgrid, fun _ => ?_⟩
        rw [hnext]
        rcases j.eq_zero_or_pos with rfl | hj
        · simpa using hk
        · exact hcoarser hj.ne'

/-- A positive value in the range of binary64. -/
structure InRange (b : Binary) : Prop where
  pos : 0 < b.m
  bits : b.m < 2 ^ 53
  low : -1074 ≤ b.q
  high : b.q ≤ 971

/-- A point of the first grid is the value or its neighbour: the value is no larger than a step. -/
theorem next_lt_of_first {b : Binary} (h : (2 : ℚ) ^ (b.q + b.m.log2) ≤ 10 ^ k) :
    ((4 * b.m + 2 : ℕ) : ℚ) * 2 ^ (b.q - 2) < 2 ^ 64 * 10 ^ k := by
  have hvalue : 4 * b.m + 2 ≤ 2 ^ (b.m.log2 + 3) := by
    have : b.m < 2 ^ (b.m.log2 + 1) := Nat.lt_log2_self
    rw [pow_add] at this ⊢
    omega
  calc ((4 * b.m + 2 : ℕ) : ℚ) * 2 ^ (b.q - 2)
      ≤ ((2 ^ (b.m.log2 + 3) : ℕ) : ℚ) * 2 ^ (b.q - 2) := by gcongr
    _ = 2 * 2 ^ (b.q + b.m.log2) := by
      push_cast
      rw [← zpow_natCast, ← zpow_add₀ (by norm_num), ← zpow_one_add₀ (by norm_num)]
      congr 1
      push_cast
      ring
    _ < 2 ^ 64 * 10 ^ k := by
      have : (0 : ℚ) < 10 ^ k := by positivity
      linarith

/-- Where the grid above has no point, its step is more than a quarter of the last place. -/
theorem next_lt_of_coarser {b : Binary} (hm : 0 < b.m) (hbits : b.m < 2 ^ 53)
    (h : b.onGrid (k + 1) = none) :
    ((4 * b.m + 2 : ℕ) : ℚ) * 2 ^ (b.q - 2) < 2 ^ 64 * 10 ^ k := by
  have hcoarse : (2 : ℚ) ^ (b.q - 2) < 10 * 10 ^ k := by
    rw [← zpow_one_add₀ (by norm_num), add_comm]
    by_contra hle
    have := onGrid_isSome hm (not_lt.1 hle)
    rw [h] at this
    cases this
  have hquarters : ((4 * b.m + 2 : ℕ) : ℚ) ≤ 2 ^ 55 := by
    exact_mod_cast (by omega : 4 * b.m + 2 ≤ 2 ^ 55)
  calc ((4 * b.m + 2 : ℕ) : ℚ) * 2 ^ (b.q - 2) ≤ 2 ^ 55 * (10 * 10 ^ k) := by gcongr
    _ < 2 ^ 64 * 10 ^ k := by
      have : (0 : ℚ) < 10 ^ k := by positivity
      linarith

/-- The shortest decimal is positive, fits a word, and is no further off than half a last place. -/
theorem shortest_bounds {b : Binary} (h : b.InRange) : ∃ c k, b.shortest = (c, k) ∧ 0 < c ∧
    c < 2 ^ 64 ∧ (c : ℚ) * 10 ^ k ≤ (4 * b.m + 2 : ℕ) * 2 ^ (b.q - 2) := by
  have hlog : b.m.log2 ≤ 52 := Nat.lt_succ_iff.1 ((Nat.log2_lt h.pos.ne').2 h.bits)
  have hlow := h.low
  have hhigh := h.high
  obtain ⟨hcoarse, hfine⟩ := firstGrid_bounds (j := b.q + b.m.log2) (by omega) (by omega)
  have hfound : (b.onGrid (firstGrid (b.q + b.m.log2) - (23 : ℕ))).isSome := by
    refine onGrid_isSome h.pos (hfine.trans ?_)
    exact zpow_le_zpow_right₀ (by norm_num) (by omega)
  obtain ⟨c, i, hsearch, hgrid, hcoarser⟩ := search_eq 24 ⟨23, by norm_num, hfound⟩
  obtain ⟨hpos, hbound⟩ := bounds_of_onGrid h.pos hgrid
  refine ⟨c, _, hsearch, hpos, ?_, hbound⟩
  generalize firstGrid (b.q + b.m.log2) = first at *
  have hword : (c : ℚ) * 10 ^ (first - i) < 2 ^ 64 * 10 ^ (first - i) := by
    refine hbound.trans_lt ?_
    rcases i.eq_zero_or_pos with rfl | hi
    · exact next_lt_of_first (by simpa using hcoarse)
    · exact next_lt_of_coarser h.pos h.bits (hcoarser hi.ne')
  exact_mod_cast lt_of_mul_lt_mul_right hword (by positivity)

/-! ### Reading it -/

/-- Nothing that is read as a value in the range has a larger power of ten. -/
theorem exponent_le {b : Binary} (h : b.InRange) (hpos : 0 < c)
    (hbound : (c : ℚ) * 10 ^ k ≤ (4 * b.m + 2 : ℕ) * 2 ^ (b.q - 2)) : k ≤ 308 := by
  by_contra hlarge
  have hbits := h.bits
  have hhigh := h.high
  have hone : (1 : ℚ) ≤ c := by exact_mod_cast hpos
  have hquarters : ((4 * b.m + 2 : ℕ) : ℚ) < 2 ^ 55 := by
    exact_mod_cast (by omega : 4 * b.m + 2 < 2 ^ 55)
  have hplace : (2 : ℚ) ^ (b.q - 2) ≤ 2 ^ 969 := by
    rw [← zpow_natCast]
    exact zpow_le_zpow_right₀ (by norm_num) (by omega)
  have hpower : (10 : ℚ) ^ 309 ≤ 10 ^ k := by
    rw [← zpow_natCast]
    exact zpow_le_zpow_right₀ (by norm_num) (by omega)
  have hlast : ceiling ≤ 10 ^ 309 := by
    rw [ceiling]
    exact_mod_cast (by decide +kernel : 2 ^ 1024 ≤ 10 ^ 309)
  have hover : ceiling < ceiling := by
    calc ceiling ≤ (c : ℚ) * 10 ^ k :=
          (hlast.trans hpower).trans (le_mul_of_one_le_left (by positivity) hone)
      _ ≤ (4 * b.m + 2 : ℕ) * 2 ^ (b.q - 2) := hbound
      _ < 2 ^ 55 * 2 ^ 969 := mul_lt_mul hquarters hplace (by positivity) (by positivity)
      _ = ceiling := (ceiling_eq 55 969 rfl).symm
  exact lt_irrefl _ hover

/-- The three largest values are too close to the end of the range for the general bound. -/
theorem scaled_shortest_top : ∀ i < 3, ∀ narrow : Bool,
    let p := shortest { m := 2 ^ 53 - 1 - i, q := 971, narrow }
    (scaled p.1 p.2).isSome = true := by
  decide +kernel

/-- Any other value is at least seven halves of a last place below the power of two that is beyond
the range: more than the shortest decimal and three roundings add. -/
theorem next_le_of_not_top {b : Binary} (h : b.InRange) (htop : ¬(b.q = 971 ∧ 2 ^ 53 - 4 < b.m)) :
    ((4 * b.m + 2 : ℕ) : ℚ) * 2 ^ (b.q - 2) ≤ (2 ^ 55 - 14) * 2 ^ 969 := by
  have hbits := h.bits
  by_cases hq : b.q = 971
  · have hm : ((4 * b.m + 2 : ℕ) : ℚ) ≤ 2 ^ 55 - 14 := by
      have : ((4 * b.m + 2 + 14 : ℕ) : ℚ) ≤ 2 ^ 55 := by
        exact_mod_cast (by omega : 4 * b.m + 2 + 14 ≤ 2 ^ 55)
      push_cast at this ⊢
      linarith
    rw [hq, show (971 : ℤ) - 2 = (969 : ℕ) by norm_num, zpow_natCast]
    gcongr
  · have hm : ((4 * b.m + 2 : ℕ) : ℚ) ≤ 2 ^ 55 := by
      exact_mod_cast (by omega : 4 * b.m + 2 ≤ 2 ^ 55)
    have hpower : (2 : ℚ) ^ (b.q - 2) ≤ 2 ^ 968 := by
      rw [← zpow_natCast]
      have := h.high
      exact zpow_le_zpow_right₀ (by norm_num) (by omega)
    calc ((4 * b.m + 2 : ℕ) : ℚ) * 2 ^ (b.q - 2) ≤ 2 ^ 55 * 2 ^ 968 := by gcongr
      _ ≤ (2 ^ 55 - 14) * 2 * 2 ^ 968 := by
        gcongr
        norm_num
      _ = (2 ^ 55 - 14) * 2 ^ 969 := by rw [mul_assoc, ← pow_succ']

/-- The shortest decimal of a value fits a word and is read without overflow. -/
theorem shortest_readable {b : Binary} (h : b.InRange) : ∃ c k, b.shortest = (c, k) ∧ 0 < c ∧
    c < 2 ^ 64 ∧ k ≤ 308 ∧ (scaled c k).isSome = true := by
  obtain ⟨c, k, hs, hpos, hword, hbound⟩ := shortest_bounds h
  have hk := exponent_le h hpos hbound
  refine ⟨c, k, hs, hpos, hword, hk, ?_⟩
  rcases le_or_gt k 0 with hneg | hneg
  · exact scaled_isSome_of_nonpos hword hneg
  obtain ⟨n, rfl⟩ : ∃ n : ℕ, k = n := ⟨k.toNat, by omega⟩
  rw [zpow_natCast] at hbound
  by_cases htop : b.q = 971 ∧ 2 ^ 53 - 4 < b.m
  · have hread := scaled_shortest_top (2 ^ 53 - 1 - b.m) (by omega) b.narrow
    have hb : ({ m := 2 ^ 53 - 1 - (2 ^ 53 - 1 - b.m), q := 971, narrow := b.narrow } : Binary) =
        b := by
      have := h.bits
      rw [← htop.1, show 2 ^ 53 - 1 - (2 ^ 53 - 1 - b.m) = b.m by omega]
    simp only [hb, hs] at hread
    exact hread
  · refine scaled_isSome hpos hword (by omega) ?_
    have hslack := slack_pos
    calc (c : ℚ) * 10 ^ n * slack ^ 3 ≤ (2 ^ 55 - 14) * 2 ^ 969 * slack ^ 3 :=
          mul_le_mul_of_nonneg_right (hbound.trans (next_le_of_not_top h htop)) (by positivity)
      _ = (2 ^ 55 - 14) * slack ^ 3 * 2 ^ 969 := mul_right_comm _ _ _
      _ < 2 ^ 55 * 2 ^ 969 := by
        gcongr
        norm_num [slack]
      _ = ceiling := (ceiling_eq 55 969 rfl).symm

/-! ### The values of floats -/

/-- A finite float has an exponent below the last one. -/
theorem exponent_ne_of_isFinite {x : Float} (h : x.isFinite = true) :
    x.toBits.toNat / 2 ^ 52 % 2048 ≠ 2047 := by
  intro hlast
  have hfield : @unpackExponent .binary64 x.toModel.toBits.toBitVec = -1#11 := by
    apply BitVec.eq_of_toNat_eq
    have hbits : x.toModel.toBits.toNat >>> 52 % 2048 = 2047 := by
      rwa [Nat.shiftRight_eq_div_pow]
    simpa [unpackExponent] using hbits
  have hunpack : x.toModel.unpack.isFinite = false := by
    rw [Float.Model.unpack, UnpackedFloat.unpack]
    dsimp only
    rw [if_pos hfield]
    split <;> rfl
  rw [Float.isFinite, Float.Model.isFinite, hunpack] at h
  cases h

/-- The bits of a finite float other than zero, its sign aside, are a value in the range. -/
theorem inRange_ofBits {x : Float} (hfinite : x.isFinite = true)
    (hzero : x.toBits.toNat % wordBound 63 ≠ 0) : (ofBits x.toBits).InRange := by
  have hfield : (x.toBits >>> 52).toNat % 2048 = x.toBits.toNat / 2 ^ 52 % 2048 := by
    simp [Nat.shiftRight_eq_div_pow]
  have hlast := exponent_ne_of_isFinite hfinite
  have hbound : wordBound 52 = 2 ^ 52 := rfl
  have hbound' : wordBound 63 = 2 ^ 63 := rfl
  rw [hbound'] at hzero
  simp only [ofBits, hfield, hbound]
  split
  · rename_i hfirst
    have hfirst := beq_iff_eq.1 hfirst
    exact ⟨by dsimp only; omega, by dsimp only; omega, by simp, by simp⟩
  · rename_i hfirst
    have hfirst : x.toBits.toNat / 2 ^ 52 % 2048 ≠ 0 := by simpa using hfirst
    exact ⟨by dsimp only; omega, by dsimp only; omega, by dsimp only; omega, by dsimp only; omega⟩

end Binary

end Querent.Decimal
