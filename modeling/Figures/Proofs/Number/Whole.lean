import Figures.Number.Whole
import Mathlib

/-!
# Doubles that are natural numbers

* `Binary.value`          the exact value
* `Binary.zero_le_iff`    the comparison of doubles with zero is the comparison of exact values
* `IsCount x n`           the double `x` is the natural number `n`
* `isCount_iff`           a double is a natural number if it is not negative and whole
* `toCount_of_isCount`    cutting a natural number only caps it
-/

namespace Figures

namespace Binary

def value (b : Binary) : ℚ :=
  (if b.negative then -1 else 1) * (b.significand * 2 ^ b.exponent)

theorem fraction_div (m : ℕ) (e : ℤ) :
    ((fraction m e).1 : ℚ) / ((fraction m e).2 : ℚ) = m * 2 ^ e := by
  have hsplit : (2 : ℚ) ^ e = 2 ^ e.toNat / 2 ^ (-e).toNat := by
    have hexp : e = (e.toNat : ℤ) - ((-e).toNat : ℤ) := by omega
    conv_lhs => rw [hexp]
    rw [zpow_sub₀ two_ne_zero, zpow_natCast, zpow_natCast]
  rw [fraction, Nat.shiftLeft_eq, Nat.one_shiftLeft, hsplit]
  push_cast
  rw [mul_div_assoc]

theorem fraction_pos (m : ℕ) (e : ℤ) : 0 < (fraction m e).2 := by
  rw [fraction, Nat.one_shiftLeft]
  exact Nat.two_pow_pos _

theorem truncated_of_magnitude {b : Binary} {n : ℕ}
    (h : (b.significand * 2 ^ b.exponent : ℚ) = n) : b.truncated = n := by
  have hden := fraction_pos b.significand b.exponent
  rw [← fraction_div, div_eq_iff (Nat.cast_ne_zero.mpr hden.ne')] at h
  have hnum : (fraction b.significand b.exponent).1
      = n * (fraction b.significand b.exponent).2 := by exact_mod_cast h
  show (fraction b.significand b.exponent).1 / (fraction b.significand b.exponent).2 = n
  rw [hnum, Nat.mul_div_cancel _ hden]

theorem isWhole_iff (b : Binary) :
    b.isWhole = true ↔ (b.significand * 2 ^ b.exponent : ℚ) = b.truncated := by
  have hden := fraction_pos b.significand b.exponent
  have hwhole : b.isWhole = true
      ↔ (fraction b.significand b.exponent).2 ∣ (fraction b.significand b.exponent).1 := by
    rw [Nat.dvd_iff_mod_eq_zero]
    exact beq_iff_eq
  rw [hwhole]
  constructor
  · intro hdvd
    rw [← fraction_div]
    exact (Nat.cast_div hdvd (Nat.cast_ne_zero.mpr hden.ne')).symm
  · intro h
    rw [← fraction_div, div_eq_iff (Nat.cast_ne_zero.mpr hden.ne')] at h
    exact Dvd.intro_left b.truncated (by exact_mod_cast h.symm)

theorem value_nonneg_iff (b : Binary) : 0 ≤ b.value ↔ b.negative = false ∨ b.significand = 0 := by
  have hpow : (0 : ℚ) < 2 ^ b.exponent := by positivity
  cases hneg : b.negative with
  | false =>
    rw [value, hneg]
    simp only [Bool.false_eq_true, if_false, one_mul, true_or, iff_true]
    positivity
  | true =>
    rw [value, hneg, if_pos rfl, neg_one_mul, neg_nonneg]
    constructor
    · intro h
      have hzero : (b.significand : ℚ) = 0 := by
        by_contra hne
        have hpos : (0 : ℚ) < b.significand := lt_of_le_of_ne (Nat.cast_nonneg _) (Ne.symm hne)
        exact absurd h (not_le.mpr (mul_pos hpos hpow))
      exact Or.inr (Nat.cast_eq_zero.mp hzero)
    · rintro (h | h)
      · exact absurd h (by decide)
      · rw [h, Nat.cast_zero, zero_mul]

theorem value_of_nonneg {b : Binary} (h : 0 ≤ b.value) :
    b.value = b.significand * 2 ^ b.exponent := by
  rcases (value_nonneg_iff b).mp h with hneg | hzero
  · rw [value, hneg, if_neg (by decide), one_mul]
  · rw [value, hzero, Nat.cast_zero, zero_mul, mul_zero]

/-! ### the comparison with zero -/

open Float.Model UnpackedFloat

theorem zero_le_iff_unpack (x : Float) :
    0.0 ≤ x ↔ UnpackedFloat.le (.zero .positive) x.toModel.unpack = true := by
  change Float.le 0.0 x = true ↔ _
  rw [Float.le, decide_eq_true_iff]
  exact Iff.rfl

theorem unpackExponent_toNat (w : BitVec 64) :
    (@unpackExponent .binary64 w).toNat = (w.toNat >>> 52) % 2048 := by
  simp [unpackExponent_def, Nat.shiftRight_eq_div_pow]

theorem unpackMantissa_toNat (w : BitVec 64) :
    (@unpackMantissa .binary64 w).toNat = w.toNat % hiddenBit := by
  simp [unpackMantissa_def, hiddenBit]

theorem ofBitVec_unpackSign (w : BitVec 64) :
    Sign.ofBitVec (@unpackSign .binary64 w)
      = if signBit ≤ w.toNat then .negative else .positive := by
  have hbit : (@unpackSign .binary64 w).toNat = w.toNat / signBit % 2 := by
    simp [unpackSign_def, signBit, Nat.shiftRight_eq_div_pow]
  have hw := w.isLt
  by_cases h : signBit ≤ w.toNat
  · have hset : @unpackSign .binary64 w ≠ 0#1 := by
      intro heq
      rw [heq] at hbit
      simp only [signBit, BitVec.toNat_ofNat] at h hbit
      omega
    rw [Sign.ofBitVec, if_neg hset, if_pos h]
  · have hclear : @unpackSign .binary64 w = 0#1 := by
      rw [← BitVec.toNat_inj, hbit, Nat.div_eq_of_lt (Nat.lt_of_not_le h)]
      rfl
    rw [Sign.ofBitVec, if_pos hclear, if_neg h]

theorem zero_le_finite_iff (s : Sign) (m : ℕ) (e : ℤ) (hm : 0 < m) :
    UnpackedFloat.le (.zero .positive) (.finite s m e hm) = true ↔ s = .positive := by
  cases s <;> simp [UnpackedFloat.le, UnpackedFloat.compare]

theorem zero_le_unpack_iff (w : BitVec 64) (hfinite : (w.toNat >>> 52) % 2048 ≠ 2047) :
    UnpackedFloat.le (.zero .positive) (UnpackedFloat.unpack .binary64 w) = true
      ↔ w.toNat < signBit ∨ (w.toNat >>> 52) % 2048 = 0 ∧ w.toNat % hiddenBit = 0 := by
  have hexp := unpackExponent_toNat w
  have hman := unpackMantissa_toNat w
  have hsign : Sign.ofBitVec (@unpackSign .binary64 w) = .positive ↔ w.toNat < signBit := by
    rw [ofBitVec_unpackSign]
    split_ifs with h
    · simp [Nat.not_lt.mpr h]
    · simp [Nat.lt_of_not_le h]
  have hones : @unpackExponent .binary64 w ≠ -1#_ := by
    intro h
    rw [h] at hexp
    exact hfinite hexp.symm
  rw [UnpackedFloat.unpack]
  dsimp only
  rw [if_neg hones]
  -- doubles without the hidden bit first: the zeros are among them
  by_cases hzero : @unpackExponent .binary64 w = 0#_
  · have hfield : (w.toNat >>> 52) % 2048 = 0 := by
      rw [← hexp, hzero]
      rfl
    rw [if_pos hzero]
    by_cases hnone : @unpackMantissa .binary64 w = 0#_
    · have hfraction : w.toNat % hiddenBit = 0 := by
        rw [← hman, hnone]
        rfl
      rw [dif_pos hnone]
      simp [UnpackedFloat.le, UnpackedFloat.compare, hfield, hfraction]
    · have hfraction : w.toNat % hiddenBit ≠ 0 := by
        rw [← hman]
        intro h
        exact hnone (BitVec.eq_of_toNat_eq h)
      rw [dif_neg hnone, zero_le_finite_iff, hsign]
      simp [hfraction]
  · have hfield : (w.toNat >>> 52) % 2048 ≠ 0 := by
      rw [← hexp]
      intro h
      exact hzero (BitVec.eq_of_toNat_eq h)
    rw [if_neg hzero, zero_le_finite_iff, hsign]
    simp [hfield]

/-- the doubles that are not below zero are those whose exact values are not -/
theorem zero_le_iff {x : Float} {b : Binary} (h : ofFloat? x = some b) : 0.0 ≤ x ↔ 0 ≤ b.value := by
  have hfinite : (x.toBits.toNat >>> 52) % 2048 ≠ 2047 := by
    intro hfield
    rw [ofFloat?, if_pos hfield] at h
    exact absurd h nofun
  have hunpack : x.toModel.unpack = UnpackedFloat.unpack .binary64 x.toBits.toBitVec := rfl
  rw [zero_le_iff_unpack, hunpack, zero_le_unpack_iff _ hfinite, value_nonneg_iff,
    UInt64.toNat_toBitVec]
  rw [ofFloat?, if_neg hfinite] at h
  split_ifs at h with hfield
  · obtain rfl := Option.some.inj h
    simp [hfield]
  · obtain rfl := Option.some.inj h
    simp [hfield, hiddenBit]

end Binary

/-! ### natural numbers among the doubles -/

/-- the double `x` is the natural number `n` -/
def IsCount (x : Float) (n : ℕ) : Prop := ∃ b, Binary.ofFloat? x = some b ∧ b.value = n

theorem IsCount.unique {x : Float} {m n : ℕ} (hm : IsCount x m) (hn : IsCount x n) : m = n := by
  obtain ⟨b, hb, hvalue⟩ := hm
  obtain ⟨c, hc, hother⟩ := hn
  obtain rfl : b = c := Option.some.inj (hb.symm.trans hc)
  exact Nat.cast_injective (hvalue.symm.trans hother)

theorem isCount_iff (x : Float) : (∃ n, IsCount x n) ↔ 0.0 ≤ x ∧ isWhole x = true := by
  constructor
  · rintro ⟨n, b, hb, hvalue⟩
    have hnonneg : 0 ≤ b.value := hvalue ▸ Nat.cast_nonneg n
    have hmagnitude := (Binary.value_of_nonneg hnonneg).symm.trans hvalue
    refine ⟨(Binary.zero_le_iff hb).mpr hnonneg, ?_⟩
    rw [isWhole, hb]
    show b.isWhole = true
    rw [Binary.isWhole_iff, Binary.truncated_of_magnitude hmagnitude, hmagnitude]
  · rintro ⟨hpos, hwhole⟩
    rw [isWhole] at hwhole
    split at hwhole
    · exact absurd hwhole (by decide)
    · rename_i b hb
      refine ⟨b.truncated, b, hb, ?_⟩
      rw [Binary.value_of_nonneg ((Binary.zero_le_iff hb).mp hpos)]
      exact (Binary.isWhole_iff b).mp hwhole

theorem toCount_of_isCount {x : Float} {n : ℕ} (limit : ℕ) (h : IsCount x n) :
    toCount limit x = min limit n := by
  obtain ⟨b, hb, hvalue⟩ := h
  have hnonneg : 0 ≤ b.value := hvalue ▸ Nat.cast_nonneg n
  have hmagnitude := (Binary.value_of_nonneg hnonneg).symm.trans hvalue
  rw [toCount, hb]
  show (if b.negative then 0 else min limit b.truncated) = min limit n
  rw [Binary.truncated_of_magnitude hmagnitude]
  split_ifs with hneg
  · -- negative and not below zero: the negative zero
    have hzero : b.significand = 0 :=
      ((Binary.value_nonneg_iff b).mp hnonneg).resolve_left (by rw [hneg]; decide)
    rw [hzero, Nat.cast_zero, zero_mul] at hmagnitude
    obtain rfl : n = 0 := Nat.cast_eq_zero.mp hmagnitude.symm
    exact (Nat.min_zero limit).symm
  · rfl

end Figures
