import Figures.Proofs.Number.Rounding

/-!
# Products and quotients, rounded

* `Describes a r`         what an accuracy says of the part `r` that a significand leaves out
* `Extends em x`          the exact number that a significand with its rounding bits stands for
* `toNat_pack`            the word of a significand and an exponent
* `rounds_mul`            a product of doubles is the product of their values, rounded
* `rounds_div`            the same for quotients
-/

namespace Figures

open Float.Model UnpackedFloat Binary

/-! ### what is left out -/

/-- what an accuracy says of the part `r` that a significand leaves out -/
def Describes : Accuracy → ℚ → Prop
  | .exact, r => r = 0
  | .inexact .lt, r => 0 < r ∧ 2 * r < 1
  | .inexact .eq, r => 2 * r = 1
  | .inexact .gt, r => 1 < 2 * r ∧ r < 1

/-- the exact number that a significand with its rounding bits stands for -/
def Extends (em : ExtendedMantissa) (x : ℚ) : Prop := Describes em.accuracy (x - em.mantissa)

theorem Describes.bounds {a : Accuracy} {r : ℚ} (h : Describes a r) : 0 ≤ r ∧ r < 1 := by
  rcases a with _ | (_ | _ | _) <;> simp only [Describes] at h <;> constructor <;> linarith

theorem Describes.extends {a : Accuracy} {r : ℚ} (h : Describes a r) (m : ℕ) :
    Extends (ExtendedMantissa.ofMantissaAndAccuracy m a) (m + r) := by
  rcases a with _ | (_ | _ | _) <;>
    simpa [Extends, ExtendedMantissa.ofMantissaAndAccuracy, ExtendedMantissa.accuracy] using h

/-- a remainder and its divisor describe the part that an integer quotient leaves out -/
theorem describes_accuracyOfFraction {num den : ℕ} (h : num < den) :
    Describes (accuracyOfFraction num den) (num / den) := by
  have hden : (0 : ℚ) < den := by exact_mod_cast Nat.zero_lt_of_lt h
  rw [accuracyOfFraction]
  split_ifs with hzero
  · rw [hzero, Nat.cast_zero, zero_div]
    rfl
  · have hnum : (0 : ℚ) < num := by exact_mod_cast Nat.pos_of_ne_zero hzero
    rcases lt_trichotomy (2 * num) den with hlow | heq | hhigh
    · rw [compare_lt_iff_lt.mpr hlow]
      refine ⟨div_pos hnum hden, ?_⟩
      rw [← mul_div_assoc, div_lt_one hden]
      exact_mod_cast hlow
    · rw [compare_eq_iff_eq.mpr heq]
      show (2 * (num / den) : ℚ) = 1
      rw [← mul_div_assoc, div_eq_one_iff_eq hden.ne']
      exact_mod_cast heq
    · rw [compare_gt_iff_gt.mpr hhigh]
      refine ⟨?_, ?_⟩
      · rw [← mul_div_assoc, one_lt_div hden]
        exact_mod_cast hhigh
      · rw [div_lt_one hden]
        exact_mod_cast h

namespace Extends

variable {em : ExtendedMantissa} {x : ℚ}

theorem shiftRightOne (h : Extends em x) : Extends em.shiftRightOne (x / 2) := by
  obtain ⟨m, r, s⟩ := em
  have hsplit : ((m % 2 : ℕ) : ℚ) + 2 * ((m / 2 : ℕ) : ℚ) = m := by
    exact_mod_cast Nat.mod_add_div m 2
  rcases Nat.mod_two_eq_zero_or_one m with hm | hm <;> rw [hm] at hsplit <;> cases r <;> cases s <;>
    simp [Extends, ExtendedMantissa.accuracy, ExtendedMantissa.shiftRightOne, Describes, hm]
      at h hsplit ⊢ <;>
    (try constructor) <;> linarith

theorem shiftRight (h : Extends em x) (k : ℕ) : Extends (em >>> k) (x / 2 ^ k) := by
  show Extends (Nat.repeat ExtendedMantissa.shiftRightOne k em) (x / 2 ^ k)
  induction k with
  | zero => simpa [Nat.repeat] using h
  | succ k ih =>
    rw [pow_succ, ← div_div]
    exact ih.shiftRightOne

theorem near (h : Extends em x) : 2 * |x - em.roundedMantissa| ≤ 1 := by
  rw [← le_div_iff₀' two_pos, abs_le]
  obtain ⟨m, r, s⟩ := em
  have hparity : m % 2 ≤ 1 := Nat.lt_succ_iff.mp (Nat.mod_lt m two_pos)
  have hcast : ((m % 2 : ℕ) : ℚ) ≤ 1 := by exact_mod_cast hparity
  have hnonneg : (0 : ℚ) ≤ ((m % 2 : ℕ) : ℚ) := Nat.cast_nonneg _
  cases r <;> cases s <;>
    simp only [Extends, ExtendedMantissa.accuracy, Describes, ExtendedMantissa.roundedMantissa,
      Accuracy.roundToNearestEven, Nat.cast_add, Nat.cast_one] at h ⊢ <;>
    constructor <;> linarith

end Extends

/-! ### words -/

theorem toNat_pack {n : ℕ} {e : ℤ} (hpos : 0 < n) (hlow : -1074 ≤ e) (hsmall : n < 2 * hiddenBit)
    (hfull : hiddenBit ≤ n ∨ e = -1074) :
    (UnpackedFloat.pack .binary64 (.finite .positive n e hpos)).toNat
      = min (place n e) (2047 * hiddenBit) := by
  have hbiased : (e + (Format.binary64.exponentBias : ℤ)
      + (Format.binary64.mantissaBitsWithoutImplicit : ℤ)).toNat = (e + 1075).toNat := by
    show (e + 1023 + 52).toNat = _
    congr 1
    omega
  rw [UnpackedFloat.pack.eq_def]
  dsimp only
  rw [hbiased]
  by_cases hlarge : 972 ≤ e
  · rw [if_pos (by show 2048 ≤ (e + 1075).toNat + 1; omega), min_eq_right]
    · rfl
    · simp only [place, hiddenBit] at *
      omega
  · have hplace : place n e ≤ 2047 * hiddenBit := by
      simp only [place, hiddenBit] at *
      omega
    rw [if_neg (by show ¬ 2048 ≤ (e + 1075).toNat + 1; omega), min_eq_left hplace]
    by_cases hbit : hiddenBit ≤ n
    · have hlog : n.log2 = 52 := (Nat.log2_eq_iff hpos.ne').mpr ⟨hbit, hsmall⟩
      rw [if_pos (by show n.log2 + 1 = 53; omega), toNat_packComponents, BitVec.toNat_ofNat,
        BitVec.toNat_ofNat]
      show word ((e + 1075).toNat % 2048) (n % 0x10000000000000) = place n e
      simp only [word, place, hiddenBit] at *
      omega
    · have hlog : n.log2 < 52 := (Nat.log2_lt hpos.ne').mpr (Nat.lt_of_not_le hbit)
      rw [if_neg (by show ¬ n.log2 + 1 = 53; omega), toNat_packComponents, BitVec.toNat_ofNat]
      show word 0 (n % 0x10000000000000) = place n e
      simp only [word, place, hiddenBit] at *
      omega

/-! ### rounding a significand -/

theorem targetExponent_eq (m : ℕ) (e : ℤ) :
    Format.binary64.targetExponent (totalExponent m e) = max (m.log2 + e - 52) (-1074) := by
  simp only [Format.targetExponent, totalExponent, Format.mantissaBits, Format.minExponent]
  norm_num
  omega

section
variable {m : ℕ} {e : ℤ} {a : Accuracy} {r : ℚ}

theorem shift_eq_self (hlow : -1074 ≤ e) (hsmall : m < 2 * hiddenBit) :
    (shiftToTargetExponent .binary64 m e .exact) = (⟨m, false, false⟩, e) := by
  have hlog : m.log2 ≤ 52 := by
    rcases Nat.eq_zero_or_pos m with rfl | hpos
    · decide
    · exact Nat.lt_succ_iff.mp ((Nat.log2_lt hpos.ne').mpr hsmall)
  have hshift : (max (m.log2 + e - 52) (-1074) - e).toNat = 0 := by omega
  rw [shiftToTargetExponent, shiftToExponent]
  rw [targetExponent_eq, hshift]
  exact congrArg (Prod.mk _) (add_zero e)

theorem shift_hiddenBit (hlow : -1074 ≤ e) :
    (shiftToTargetExponent .binary64 (2 * hiddenBit) e .exact) =
      (⟨hiddenBit, false, false⟩, e + 1) := by
  have hlog : (2 * hiddenBit).log2 = 53 := by decide
  have hshift : (max (((53 : ℕ) : ℤ) + e - 52) (-1074) - e).toNat = 1 := by omega
  rw [shiftToTargetExponent, shiftToExponent]
  rw [targetExponent_eq, hlog, hshift]
  rfl

theorem exponent_shift (hbits : 52 ≤ m.log2 ∨ e ≤ -1074) :
    (shiftToTargetExponent .binary64 m e a).2 = max (m.log2 + e - 52) (-1074) := by
  rw [shiftToTargetExponent, shiftToExponent]
  show e + ((Format.binary64.targetExponent (totalExponent m e) - e).toNat : ℤ) = _
  rw [targetExponent_eq]
  omega

/-- the first shift counts in units of the new exponent -/
theorem extends_shift (hr : Describes a r) (hbits : 52 ≤ m.log2 ∨ e ≤ -1074) :
    Extends (shiftToTargetExponent .binary64 m e a).1
      ((m + r) * 2 ^ e / 2 ^ (shiftToTargetExponent .binary64 m e a).2) := by
  have hextends := (hr.extends m).shiftRight (max (m.log2 + e - 52) (-1074) - e).toNat
  have hscale : (2 : ℚ) ^ max ((m.log2 : ℤ) + e - 52) (-1074)
      = 2 ^ (max ((m.log2 : ℤ) + e - 52) (-1074) - e).toNat * 2 ^ e := by
    rw [← zpow_natCast, ← zpow_add₀ two_ne_zero]
    congr 1
    omega
  rw [exponent_shift hbits, hscale, mul_div_mul_right _ _ (by positivity), shiftToTargetExponent,
    shiftToExponent, targetExponent_eq]
  exact hextends

/-- the first shift leaves the nearest significand on the grid of the doubles -/
theorem nearest_shift (hr : Describes a r) (hbits : 52 ≤ m.log2 ∨ e ≤ -1074) :
    Nearest ((m + r) * 2 ^ e) (shiftToTargetExponent .binary64 m e a).1.roundedMantissa
      (shiftToTargetExponent .binary64 m e a).2 := by
  obtain ⟨hnonneg, hlt⟩ := hr.bounds
  have hexponent := exponent_shift (m := m) (e := e) (a := a) hbits
  have hm : 0 < m ∨ (shiftToTargetExponent .binary64 m e a).2 = -1074 := by
    rcases Nat.eq_zero_or_pos m with rfl | hpos
    · rw [Nat.log2_zero] at hexponent hbits
      omega
    · exact .inl hpos
  have hnear := near_units (extends_shift hr hbits).near (shiftToTargetExponent .binary64 m e a).2
  rw [div_mul_cancel₀ _ (by positivity)] at hnear
  exact nearest_of_log2 hexponent hm hnonneg hlt hnear

theorem toNat_roundWithAccuracy (hr : Describes a r) (hbits : 52 ≤ m.log2 ∨ e ≤ -1074) :
    (UnpackedFloat.pack .binary64 (roundWithAccuracy .binary64 .positive m e a)).toNat
      = min (place (shiftToTargetExponent .binary64 m e a).1.roundedMantissa
          (shiftToTargetExponent .binary64 m e a).2) (2047 * hiddenBit) := by
  have hnearest := nearest_shift hr hbits
  rw [roundWithAccuracy]
  generalize shiftToTargetExponent .binary64 m e a = first at *
  obtain ⟨em, t⟩ := first
  dsimp only at *
  rcases Nat.lt_or_eq_of_le hnearest.le_two_hiddenBit with hsmall | hlarge
  · simp only [shift_eq_self hnearest.low hsmall]
    split_ifs with hzero
    · have hmin : t = -1074 := hnearest.full.resolve_left (by rw [hzero]; decide)
      rw [hzero, hmin]
      rfl
    · exact toNat_pack (Nat.pos_of_ne_zero hzero) hnearest.low hsmall hnearest.full
  · rw [hlarge]
    simp only [shift_hiddenBit hnearest.low]
    have hlow := hnearest.low
    have hplace : place hiddenBit (t + 1) = place (2 * hiddenBit) t := by
      simp only [place, hiddenBit]
      omega
    rw [dif_neg (by decide), toNat_pack _ (by omega) (by decide) (.inl le_rfl), hplace]

theorem exists_nearest (hr : Describes a r) (hbits : 52 ≤ m.log2 ∨ e ≤ -1074) :
    ∃ n t, Nearest ((m + r) * 2 ^ e) n t ∧
      (UnpackedFloat.pack .binary64 (roundWithAccuracy .binary64 .positive m e a)).toNat
        = min (place n t) (2047 * hiddenBit) :=
  ⟨_, _, nearest_shift hr hbits, toNat_roundWithAccuracy hr hbits⟩

end

/-! ### products and quotients -/

theorem unpack_of_place {x : Float} {n : ℕ} {e : ℤ} (hn : Normal n e)
    (hrest : x.toBits.toNat % signBit = place n e) :
    x.toModel.unpack = if hpos : 0 < n then .finite (wordSign x.toBits.toNat) n e hpos
      else .zero (wordSign x.toBits.toNat) := by
  show UnpackedFloat.unpack .binary64 x.toBits.toBitVec = _
  rw [unpack_eq, UInt64.toNat_toBitVec]
  rcases hn.fields hrest with ⟨hhidden, hpos, hfinite, rfl, rfl⟩ | ⟨-, hzero, rfl, rfl⟩
  · rw [if_neg hfinite.ne, if_neg hpos.ne', dif_pos (Nat.lt_of_lt_of_le (by decide) hhidden)]
  · rw [hzero, if_neg (by decide), if_pos rfl]
    by_cases hempty : x.toBits.toNat % hiddenBit = 0
    · rw [dif_pos hempty, dif_neg (Nat.not_lt.mpr hempty.le)]
    · rw [dif_neg hempty, dif_pos (Nat.pos_of_ne_zero hempty)]

theorem IsAmount.exists_unpack {x : Float} {v : ℚ} (h : IsAmount x v) :
    ∃ n e, Normal n e ∧ (n * 2 ^ e : ℚ) = v ∧
      x.toModel.unpack = if hpos : 0 < n then .finite .positive n e hpos else .zero .positive := by
  obtain ⟨n, e, hnormal, hword, hvalue⟩ := h
  refine ⟨n, e, hnormal, hvalue, ?_⟩
  have hunsigned : place n e < signBit := hnormal.place_lt.trans (by decide)
  have hsign : wordSign x.toBits.toNat = .positive := by
    rw [wordSign, hword, if_neg (Nat.not_le.mpr hunsigned)]
  have hrest : x.toBits.toNat % signBit = place n e := by
    rw [hword, Nat.mod_eq_of_lt hunsigned]
  rw [← hsign]
  exact unpack_of_place hnormal hrest

theorem toBits_mul (x y : Float) : (x * y).toBits.toNat
    = (UnpackedFloat.pack .binary64
        (UnpackedFloat.mul .binary64 x.toModel.unpack y.toModel.unpack)).toNat := rfl

theorem toBits_div (x y : Float) : (x / y).toBits.toNat
    = (UnpackedFloat.pack .binary64
        (UnpackedFloat.div .binary64 x.toModel.unpack y.toModel.unpack)).toNat := rfl

theorem rounds_zero {x : Float} (h : x.toBits.toNat = 0) : Rounds 0 x :=
  ⟨0, -1074, ⟨le_rfl, .inr rfl, by positivity, by simp⟩, h⟩

/-- a product of significands has at least 53 bits, or it is as fine as doubles are -/
theorem log2_mul_or {m n : ℕ} {d e : ℤ} (hm : Normal m d) (hn : Normal n e) (hmpos : 0 < m)
    (hnpos : 0 < n) : 52 ≤ (m * n).log2 ∨ d + e ≤ -1074 := by
  rw [Nat.le_log2 (Nat.mul_pos hmpos hnpos).ne']
  rcases hm.full with hfull | rfl
  · exact .inl (Nat.le_trans hfull (Nat.le_mul_of_pos_right m hnpos))
  rcases hn.full with hfull | rfl
  · exact .inl (Nat.le_trans hfull (Nat.le_mul_of_pos_left n hmpos))
  · exact .inr (by decide)

section
variable {x y : Float} {v w : ℚ}

theorem rounds_mul (hx : IsAmount x v) (hy : IsAmount y w) : Rounds (v * w) (x * y) := by
  obtain ⟨m, d, hm, rfl, hmunpack⟩ := hx.exists_unpack
  obtain ⟨n, e, hn, rfl, hnunpack⟩ := hy.exists_unpack
  rcases Nat.eq_zero_or_pos m with rfl | hmpos
  · rw [Nat.cast_zero, zero_mul, zero_mul]
    refine rounds_zero ?_
    rw [toBits_mul, hmunpack, hnunpack, dif_neg (lt_irrefl 0)]
    split_ifs <;> rfl
  rcases Nat.eq_zero_or_pos n with rfl | hnpos
  · rw [Nat.cast_zero, zero_mul, mul_zero]
    refine rounds_zero ?_
    rw [toBits_mul, hmunpack, hnunpack, dif_neg (lt_irrefl 0), dif_pos hmpos]
    rfl
  obtain ⟨k, t, hnearest, hword⟩ :=
    exists_nearest (show Describes .exact 0 from rfl) (log2_mul_or hm hn hmpos hnpos)
  have hvalue : (m * 2 ^ d * (n * 2 ^ e) : ℚ) = (((m * n : ℕ) : ℚ) + 0) * 2 ^ (d + e) := by
    rw [zpow_add₀ two_ne_zero]
    push_cast
    ring
  refine ⟨k, t, hvalue ▸ hnearest, ?_⟩
  rw [toBits_mul, hmunpack, hnunpack, dif_pos hmpos, dif_pos hnpos]
  exact hword

/-- the quotient of two significands has at least 53 bits, or it is as fine as doubles are -/
theorem divCore_spec {m n : ℕ} (d e : ℤ) (hm : 0 < m) (hn : 0 < n) : ∃ k t a r,
    divCore .binary64 m d n e = (k, t, a) ∧ Describes a r ∧ (52 ≤ k.log2 ∨ t ≤ -1074) ∧
      ((k + r) * 2 ^ t : ℚ) = m * 2 ^ d / (n * 2 ^ e) := by
  have hn0 : (n : ℚ) ≠ 0 := Nat.cast_ne_zero.mpr hn.ne'
  set t := min (d - e)
    (Format.binary64.targetExponent (totalExponent m d - totalExponent n e)) with ht
  have htarget : t = min (d - e) (max (m.log2 + d - (n.log2 + e) - 53) (-1074)) := by
    rw [ht]
    simp only [Format.targetExponent, totalExponent, Format.mantissaBits, Format.minExponent]
    norm_num
    omega
  set wide := m <<< (d - e - t).toNat with hwide
  refine ⟨wide / n, t, accuracyOfFraction (wide % n) n, ((wide % n : ℕ) : ℚ) / n, rfl,
    describes_accuracyOfFraction (Nat.mod_lt _ hn), ?_, ?_⟩
  · refine or_iff_not_imp_right.mpr fun hfine => ?_
    have hlarge : 2 ^ 52 ≤ wide / n := two_pow_le_div hm hn (by omega)
    exact (Nat.le_log2 (by omega)).mpr hlarge
  · have hsplit : ((wide / n : ℕ) + ((wide % n : ℕ) : ℚ) / n) = wide / n := by
      rw [eq_div_iff hn0, add_mul, div_mul_cancel₀ _ hn0]
      exact_mod_cast Nat.div_add_mod' wide n
    have hscale : (2 : ℚ) ^ (d - e - t).toNat * 2 ^ t = 2 ^ d / 2 ^ e := by
      rw [← zpow_natCast, ← zpow_add₀ two_ne_zero, ← zpow_sub₀ two_ne_zero]
      congr 1
      omega
    rw [hsplit, hwide, Nat.shiftLeft_eq]
    push_cast
    rw [div_mul_eq_mul_div, mul_assoc, hscale, mul_div_mul_comm]
    ring

theorem rounds_div (hx : IsAmount x v) (hy : IsAmount y w) (hpos : 0 < w) :
    Rounds (v / w) (x / y) := by
  obtain ⟨m, d, hm, rfl, hmunpack⟩ := hx.exists_unpack
  obtain ⟨n, e, hn, rfl, hnunpack⟩ := hy.exists_unpack
  have hnpos := significand_pos hpos
  rcases Nat.eq_zero_or_pos m with rfl | hmpos
  · rw [Nat.cast_zero, zero_mul, zero_div]
    refine rounds_zero ?_
    rw [toBits_div, hmunpack, hnunpack, dif_neg (lt_irrefl 0), dif_pos hnpos]
    rfl
  obtain ⟨k, t, a, r, hcore, hr, hbits, hvalue⟩ := divCore_spec d e hmpos hnpos
  obtain ⟨l, u, hnearest, hword⟩ := exists_nearest hr hbits
  refine ⟨l, u, hvalue ▸ hnearest, ?_⟩
  rw [toBits_div, hmunpack, hnunpack, dif_pos hmpos, dif_pos hnpos, UnpackedFloat.div.eq_def]
  dsimp only
  rw [hcore]
  exact hword

theorem infinite_div (hx : IsAmount x v) (hpos : 0 < v) : infinite / x = infinite := by
  obtain ⟨n, e, -, rfl, hunpack⟩ := hx.exists_unpack
  have hn := significand_pos hpos
  have hinfinite : infinite.toModel.unpack = .infinity .positive := by rfl
  refine eq_of_toBits ?_
  rw [toBits_div, hinfinite, hunpack, dif_pos hn]
  rfl

theorem div_zero_eq_infinite (hx : IsAmount x v) (hpos : 0 < v) : x / 0.0 = infinite := by
  obtain ⟨n, e, -, rfl, hunpack⟩ := hx.exists_unpack
  have hn := significand_pos hpos
  have hzero : (0.0 : Float).toModel.unpack = .zero .positive := by rfl
  refine eq_of_toBits ?_
  rw [toBits_div, hunpack, hzero, dif_pos hn]
  rfl

end

end Figures
