import Figures.Proofs.Number.Finite
import Figures.Proofs.Number.Order

/-!
# The order of doubles, on their words

* `unpack_eq`                 the parts of a double, from its word
* `rank x`                    the word of a double as a whole number, its sign as a sign
* `le_iff_rank`               of two numbers, the one with the smaller rank is the smaller one
* `Binary.Normal n e`         the one significand and exponent that a value is written with
* `ofFloat?_eq_some_iff`      the exact value of a double, from its word
* `IsAmount x v`              the double `x` is the rational `v`, without a sign
* `IsAmount.le_iff`           amounts are ordered like their values

The word of a double has its exponent above its fraction. So the words of numbers without a sign are
ordered as the numbers are, the infinity above all others.
-/

namespace Figures

open Float.Model UnpackedFloat Binary

/-! ### the parts of a double -/

def wordSign (w : ℕ) : Sign := if signBit ≤ w then .negative else .positive

theorem unpack_eq (w : BitVec 64) :
    UnpackedFloat.unpack .binary64 w =
      if (w.toNat >>> 52) % 2048 = 2047 then
        if w.toNat % hiddenBit = 0 then .infinity (wordSign w.toNat) else .notANumber
      else if (w.toNat >>> 52) % 2048 = 0 then
        if h : w.toNat % hiddenBit = 0 then .zero (wordSign w.toNat)
        else .finite (wordSign w.toNat) (w.toNat % hiddenBit) (-1074) (Nat.pos_of_ne_zero h)
      else
        .finite (wordSign w.toNat) (hiddenBit + w.toNat % hiddenBit)
          (((w.toNat >>> 52) % 2048 : ℕ) - 1075) (Nat.add_pos_left (by decide) _) := by
  have hexp := unpackExponent_toNat w
  have hman := unpackMantissa_toNat w
  have hones : @unpackExponent .binary64 w = -1#_ ↔ (w.toNat >>> 52) % 2048 = 2047 := by
    rw [← hexp, ← BitVec.toNat_inj]
    exact Iff.rfl
  have hnone : @unpackExponent .binary64 w = 0#_ ↔ (w.toNat >>> 52) % 2048 = 0 := by
    rw [← hexp, ← BitVec.toNat_inj]
    exact Iff.rfl
  have hempty : @unpackMantissa .binary64 w = 0#_ ↔ w.toNat % hiddenBit = 0 := by
    rw [← hman, ← BitVec.toNat_inj]
    exact Iff.rfl
  have hsign : Sign.ofBitVec (@unpackSign .binary64 w) = wordSign w.toNat := ofBitVec_unpackSign w
  rw [UnpackedFloat.unpack]
  dsimp only
  simp only [hones, hnone, hempty, hsign, hman, hexp]
  by_cases hinfinite : (w.toNat >>> 52) % 2048 = 2047
  · rw [if_pos hinfinite, if_pos hinfinite]
  rw [if_neg hinfinite, if_neg hinfinite]
  by_cases hsubnormal : (w.toNat >>> 52) % 2048 = 0
  · rw [if_pos hsubnormal, if_pos hsubnormal]
    congr 1
    funext hfraction
    congr 1
    rw [hsubnormal]
    rfl
  · rw [if_neg hsubnormal, if_neg hsubnormal]
    congr 1
    rw [BitVec.toNat_append,
      ← Nat.shiftLeft_add_eq_or_of_lt (by exact (@unpackMantissa .binary64 w).isLt), hman]
    rfl

/-- behind the sign, a word has its exponent above its fraction -/
theorem mod_signBit (w : ℕ) : w % signBit = (w >>> 52) % 2048 * hiddenBit + w % hiddenBit := by
  rw [Nat.shiftRight_eq_div_pow]
  simp only [signBit, hiddenBit]
  omega

/-! ### ranks -/

/-- the word of a double as a whole number, its sign as a sign; both zeros have the rank zero -/
def rank (x : Float) : ℤ := (wordSign x.toBits.toNat).apply (x.toBits.toNat % signBit : ℕ)

theorem rank_eq (x : Float) : rank x =
    if signBit ≤ x.toBits.toNat then (signBit : ℤ) - x.toBits.toNat else x.toBits.toNat := by
  have hword : x.toBits.toNat < 2 * signBit := x.toBits.toNat_lt
  unfold rank wordSign
  split_ifs with hsign
  · rw [Nat.mod_eq_sub_mod hsign, Nat.mod_eq_of_lt (by omega), Nat.cast_sub hsign]
    exact neg_sub _ _
  · rw [Nat.mod_eq_of_lt (not_le.mp hsign)]
    rfl

namespace UnpackedFloat

/-- the rank, from the parts of a double -/
def extent : UnpackedFloat → ℤ
  | .notANumber => 0
  | .infinity s => s.apply (2047 * hiddenBit : ℕ)
  | .zero _ => 0
  | .finite s m e _ => s.apply ((e + 1074) * hiddenBit + m)

/-- the significand and the exponent are those of a double -/
def Normal : UnpackedFloat → Prop
  | .finite _ m e _ => -1074 ≤ e ∧ e ≤ 971 ∧ m < 2 * hiddenBit ∧ (hiddenBit ≤ m ∨ e = -1074)
  | _ => True

end UnpackedFloat

theorem compare_neg (m n : ℤ) : compare (-m) (-n) = compare n m := by
  rcases lt_trichotomy n m with h | rfl | h
  · rw [compare_lt_iff_lt.mpr h, compare_lt_iff_lt.mpr (neg_lt_neg h)]
  · rw [compare_eq_iff_eq.mpr rfl, compare_eq_iff_eq.mpr rfl]
  · rw [compare_gt_iff_gt.mpr h, compare_gt_iff_gt.mpr (neg_lt_neg h)]

/-- significands decide where the exponents are the same, and nowhere else -/
theorem compare_extent {m n : ℕ} {d e : ℤ} (hm : m < 2 * hiddenBit) (hn : n < 2 * hiddenBit)
    (hmfull : hiddenBit ≤ m ∨ d = -1074) (hnfull : hiddenBit ≤ n ∨ e = -1074)
    (hd : -1074 ≤ d) (he : -1074 ≤ e) :
    (compare d e).then (compare m n)
      = compare ((d + 1074) * hiddenBit + m) ((e + 1074) * hiddenBit + n : ℤ) := by
  simp only [hiddenBit] at *
  rcases lt_trichotomy d e with h | rfl | h
  · have hlt : (d + 1074) * (0x10000000000000 : ℕ) + m <
      (e + 1074) * (0x10000000000000 : ℕ) + n := by
      omega
    rw [compare_lt_iff_lt.mpr h, compare_lt_iff_lt.mpr hlt]
    rfl
  · rw [compare_eq_iff_eq.mpr rfl]
    show compare m n = _
    rcases lt_trichotomy m n with h | rfl | h
    · rw [compare_lt_iff_lt.mpr h, compare_lt_iff_lt.mpr (by omega)]
    · rw [compare_eq_iff_eq.mpr rfl, compare_eq_iff_eq.mpr rfl]
    · rw [compare_gt_iff_gt.mpr h, compare_gt_iff_gt.mpr (by omega)]
  · have hlt : (e + 1074) * (0x10000000000000 : ℕ) + n <
      (d + 1074) * (0x10000000000000 : ℕ) + m := by
      omega
    rw [compare_gt_iff_gt.mpr h, compare_gt_iff_gt.mpr hlt]
    rfl

namespace UnpackedFloat

theorem extent_pos {m : ℕ} {e : ℤ} (hpos : 0 < m) (hlow : -1074 ≤ e) :
    0 < (e + 1074) * hiddenBit + m := by
  simp only [hiddenBit]
  omega

theorem extent_bounds {u : UnpackedFloat} (hnormal : Normal u) (h : ∀ s, u = .infinity s → False) :
    -((2047 * hiddenBit : ℕ) : ℤ) < extent u ∧ extent u < (2047 * hiddenBit : ℕ) := by
  cases u with
  | notANumber => decide
  | infinity s => exact (h s rfl).elim
  | zero s =>
    show -((2047 * hiddenBit : ℕ) : ℤ) < 0 ∧ 0 < ((2047 * hiddenBit : ℕ) : ℤ)
    decide
  | finite s m e hpos =>
    obtain ⟨hlow, hhigh, hsmall, -⟩ := hnormal
    cases s <;> simp only [extent, Sign.apply, hiddenBit] at * <;> omega

theorem compare_eq {u v : UnpackedFloat} (hu : u.isNaN = false) (hv : v.isNaN = false)
    (hunormal : Normal u) (hvnormal : Normal v) :
    u.compare v = some (compare (extent u) (extent v)) := by
  fun_cases UnpackedFloat.compare u v
  case case1 => cases hu
  case case2 => cases hv
  case case3 s t => cases s <;> cases t <;> rfl
  case case4 h => exact congrArg some (compare_gt_iff_gt.mpr (extent_bounds hvnormal h).2).symm
  case case5 h => exact congrArg some (compare_lt_iff_lt.mpr (extent_bounds hvnormal h).1).symm
  case case6 h => exact congrArg some (compare_lt_iff_lt.mpr (extent_bounds hunormal h).2).symm
  case case7 h => exact congrArg some (compare_gt_iff_gt.mpr (extent_bounds hunormal h).1).symm
  case case8 m e hm s => exact congrArg some (compare_gt_iff_gt.mpr (extent_pos hm hunormal.1)).symm
  case case9 m e hm s =>
    exact congrArg some (compare_lt_iff_lt.mpr (neg_lt_zero.mpr (extent_pos hm hunormal.1))).symm
  case case10 s m e hm => exact congrArg some (compare_lt_iff_lt.mpr
    (extent_pos hm hvnormal.1)).symm
  case case11 s m e hm =>
    exact congrArg some (compare_gt_iff_gt.mpr (neg_lt_zero.mpr (extent_pos hm hvnormal.1))).symm
  case case12 => rfl
  case case13 m d hm n e hn =>
    obtain ⟨hd, -, hmsmall, hmfull⟩ := hunormal
    obtain ⟨he, -, hnsmall, hnfull⟩ := hvnormal
    rw [← compare_magnitude_swap, compare_extent hnsmall hmsmall hnfull hmfull he hd, ← compare_neg]
    rfl
  case case14 m d hm n e hn =>
    have hlt := (neg_lt_zero.mpr (extent_pos hm hunormal.1)).trans (extent_pos hn hvnormal.1)
    exact congrArg some (compare_lt_iff_lt.mpr hlt).symm
  case case15 m d hm n e hn =>
    have hlt := (neg_lt_zero.mpr (extent_pos hn hvnormal.1)).trans (extent_pos hm hunormal.1)
    exact congrArg some (compare_gt_iff_gt.mpr hlt).symm
  case case16 m d hm n e hn =>
    obtain ⟨hd, -, hmsmall, hmfull⟩ := hunormal
    obtain ⟨he, -, hnsmall, hnfull⟩ := hvnormal
    rw [compare_extent hmsmall hnsmall hmfull hnfull hd he]
    rfl

end UnpackedFloat

theorem normal_unpack (x : Float) : UnpackedFloat.Normal x.toModel.unpack := by
  show UnpackedFloat.Normal (UnpackedFloat.unpack .binary64 x.toBits.toBitVec)
  have hfraction : x.toBits.toBitVec.toNat % hiddenBit < hiddenBit := Nat.mod_lt _ (by decide)
  have hexponent := Nat.mod_lt (x.toBits.toBitVec.toNat >>> 52) (show 0 < 2048 by decide)
  rw [unpack_eq]
  split_ifs with hinfinite hempty hsubnormal hzero
  case pos => trivial
  case neg => trivial
  case pos => trivial
  case neg => exact ⟨le_rfl, by decide, hfraction.trans (by decide), .inr rfl⟩
  case neg => exact ⟨by omega, by omega, by omega, .inl (Nat.le_add_right _ _)⟩

theorem extent_unpack {x : Float} (h : x.isNaN = false) :
    UnpackedFloat.extent x.toModel.unpack = rank x := by
  have hunpack : x.toModel.unpack = UnpackedFloat.unpack .binary64 x.toBits.toBitVec := rfl
  change x.toModel.unpack.isNaN = false at h
  rw [hunpack, unpack_eq, UInt64.toNat_toBitVec] at h
  rw [hunpack, unpack_eq, UInt64.toNat_toBitVec, rank, mod_signBit]
  split_ifs at h ⊢ with hinfinite hempty hsubnormal hzero
  · rw [UnpackedFloat.extent, hinfinite, hempty, Nat.add_zero]
  · cases h
  · rw [UnpackedFloat.extent, hsubnormal, hzero]
    cases wordSign x.toBits.toNat <;> rfl
  · rw [UnpackedFloat.extent, hsubnormal]
    congr 1
  · rw [UnpackedFloat.extent]
    congr 1
    push_cast
    ring

theorem le_iff_rank {x y : Float} (hx : x.isNaN = false) (hy : y.isNaN = false) :
    x ≤ y ↔ rank x ≤ rank y := by
  rw [le_iff_unpack, UnpackedFloat.le,
    UnpackedFloat.compare_eq hx hy (normal_unpack x) (normal_unpack y), extent_unpack hx,
    extent_unpack hy]
  exact Std.isLE_compare

theorem lt_iff_rank {x y : Float} (hx : x.isNaN = false) (hy : y.isNaN = false) :
    x < y ↔ rank x < rank y := by
  rw [lt_iff_unpack, UnpackedFloat.lt,
    UnpackedFloat.compare_eq hx hy (normal_unpack x) (normal_unpack y), extent_unpack hx,
    extent_unpack hy, beq_iff_eq, Option.some_inj]
  exact compare_lt_iff_lt

theorem float_le_trans {x y z : Float} (hxy : x ≤ y) (hyz : y ≤ z) : x ≤ z := by
  have hx := isNaN_of_le hxy
  have hz := isNaN_of_le hyz
  rw [le_iff_rank hx.1 hz.2]
  exact ((le_iff_rank hx.1 hx.2).mp hxy).trans ((le_iff_rank hz.1 hz.2).mp hyz)

theorem le_of_beq {x y : Float} (h : (x == y) = true) : x ≤ y ∧ y ≤ x := by
  change UnpackedFloat.beq x.toModel.unpack y.toModel.unpack = true at h
  rw [UnpackedFloat.beq, beq_iff_eq] at h
  rw [le_iff_unpack, le_iff_unpack, UnpackedFloat.le, UnpackedFloat.le,
    compare_swap x.toModel.unpack, h]
  exact ⟨rfl, rfl⟩

theorem isNaN_of_lt {x y : Float} (h : x < y) : x.isNaN = false ∧ y.isNaN = false := by
  rw [lt_iff_unpack, UnpackedFloat.lt, beq_iff_eq] at h
  have hsome : ¬ (x.isNaN = true ∨ y.isNaN = true) := by
    intro hnan
    rw [(compare_eq_none_iff x.toModel.unpack y.toModel.unpack).mpr hnan] at h
    cases h
  simpa using hsome

theorem float_le_of_lt {x y : Float} (h : x < y) : x ≤ y := by
  have hnumber := isNaN_of_lt h
  rw [le_iff_rank hnumber.1 hnumber.2]
  exact ((lt_iff_rank hnumber.1 hnumber.2).mp h).le

theorem float_lt_of_lt_of_le {x y z : Float} (hxy : x < y) (hyz : y ≤ z) : x < z := by
  have hx := isNaN_of_lt hxy
  have hz := isNaN_of_le hyz
  rw [lt_iff_rank hx.1 hz.2]
  exact ((lt_iff_rank hx.1 hx.2).mp hxy).trans_le ((le_iff_rank hz.1 hz.2).mp hyz)

/-! ### amounts -/

namespace Binary

/-- the significand `n` and the exponent `e` are those of a double -/
structure Normal (n : ℕ) (e : ℤ) : Prop where
  low : -1074 ≤ e
  high : e ≤ 971
  small : n < 2 * hiddenBit
  full : hiddenBit ≤ n ∨ e = -1074

def place (n : ℕ) (e : ℤ) : ℕ := (e + 1074).toNat * hiddenBit + n

section
variable {m n : ℕ} {d e : ℤ}

theorem Normal.place_lt (h : Normal n e) : place n e < 2047 * hiddenBit := by
  obtain ⟨hlow, hhigh, hsmall, -⟩ := h
  simp only [place, hiddenBit] at *
  omega

theorem word_eq_add {w : ℕ} (hw : w < 2 * signBit) :
    w = (if decide (signBit ≤ w) = true then signBit else 0) + w % signBit := by
  by_cases h : signBit ≤ w
  · rw [decide_eq_true h, if_pos rfl, Nat.mod_eq_sub_mod h, Nat.mod_eq_of_lt (by omega),
      Nat.add_sub_cancel' h]
  · rw [decide_eq_false h, if_neg Bool.false_ne_true, Nat.mod_eq_of_lt (Nat.lt_of_not_le h),
      Nat.zero_add]

theorem normal_of_ofFloat? {x : Float} {b : Binary} (h : ofFloat? x = some b) :
    Normal b.significand b.exponent ∧
      x.toBits.toNat = (if b.negative then signBit else 0) + place b.significand b.exponent := by
  have hadd := word_eq_add (show x.toBits.toNat < 2 * signBit from x.toBits.toNat_lt)
  have hfraction := Nat.mod_lt x.toBits.toNat (show 0 < hiddenBit by decide)
  have hfield := Nat.mod_lt (x.toBits.toNat >>> 52) (show 0 < 2048 by decide)
  rw [mod_signBit] at hadd
  rw [ofFloat?] at h
  generalize (x.toBits.toNat >>> 52) % 2048 = field at *
  generalize x.toBits.toNat % hiddenBit = fraction at *
  split_ifs at h with hinfinite hsubnormal
  · cases h
    refine ⟨⟨le_rfl, show (-1074 : ℤ) ≤ 971 by decide, hfraction.trans (by decide), .inr rfl⟩,
      hadd.trans ?_⟩
    rw [hsubnormal]
    rfl
  · cases h
    refine ⟨⟨?_, ?_, ?_, .inl (Nat.le_add_right _ _)⟩, hadd.trans ?_⟩
    · show -1074 ≤ (field : ℤ) - 1075
      omega
    · show (field : ℤ) - 1075 ≤ 971
      omega
    · show hiddenBit + fraction < 2 * hiddenBit
      omega
    · simp only [place, hiddenBit]
      omega

/-- the fields of the word of `n * 2 ^ e`: the exponent is zero if and only if the significand lacks
the hidden bit -/
theorem Normal.fields (hn : Normal n e) {w : ℕ} (hw : w % signBit = place n e) :
    (hiddenBit ≤ n ∧ 0 < (w >>> 52) % 2048 ∧ (w >>> 52) % 2048 < 2047 ∧
      ((w >>> 52) % 2048 : ℕ) - 1075 = e ∧ hiddenBit + w % hiddenBit = n) ∨
    (n < hiddenBit ∧ (w >>> 52) % 2048 = 0 ∧ -1074 = e ∧ w % hiddenBit = n) := by
  obtain ⟨hlow, hhigh, hsmall, hfull⟩ := hn
  have hsplit := mod_signBit w
  have hfraction := Nat.mod_lt w (show 0 < hiddenBit by decide)
  rw [hw] at hsplit
  generalize (w >>> 52) % 2048 = field at *
  generalize w % hiddenBit = fraction at *
  simp only [place, hiddenBit] at *
  omega

theorem ofFloat?_of_normal {x : Float} {negative : Bool} (hn : Normal n e)
    (h : x.toBits.toNat = (if negative then signBit else 0) + place n e) :
    ofFloat? x = some ⟨negative, n, e⟩ := by
  have hplace : place n e < signBit := hn.place_lt.trans (by decide)
  have hsign : decide (signBit ≤ x.toBits.toNat) = negative := by
    cases negative
    · exact decide_eq_false (by rw [h]; simpa using hplace)
    · exact decide_eq_true (by rw [h]; simp)
  have hrest : x.toBits.toNat % signBit = place n e := by
    rw [h]
    cases negative
    · simpa using Nat.mod_eq_of_lt hplace
    · simpa using Nat.mod_eq_of_lt hplace
  rw [ofFloat?, hsign]
  rcases hn.fields hrest with ⟨-, hpos, hfinite, rfl, rfl⟩ | ⟨-, hzero, rfl, rfl⟩
  · exact (if_neg hfinite.ne).trans (if_neg hpos.ne')
  · rw [hzero]
    rfl

/-- the exact value of a double, from its word -/
theorem ofFloat?_eq_some_iff {x : Float} {b : Binary} : ofFloat? x = some b ↔
    Normal b.significand b.exponent ∧
      x.toBits.toNat = (if b.negative then signBit else 0) + place b.significand b.exponent :=
  ⟨normal_of_ofFloat?, fun h => ofFloat?_of_normal h.1 h.2⟩

theorem two_pow_hiddenBit : (hiddenBit : ℚ) = 2 ^ (52 : ℤ) := by norm_num [hiddenBit]

theorem significand_pos (h : 0 < (n * 2 ^ e : ℚ)) : 0 < n := by
  refine Nat.pos_of_ne_zero ?_
  rintro rfl
  simp at h

theorem two_zpow_le (h : hiddenBit ≤ n) : (2 : ℚ) ^ (e + 52) ≤ n * 2 ^ e := by
  calc (2 : ℚ) ^ (e + 52) = hiddenBit * 2 ^ e := by
        rw [two_pow_hiddenBit, ← zpow_add₀ two_ne_zero, add_comm]
    _ ≤ n * 2 ^ e := by gcongr

theorem Normal.lt_two_zpow (h : Normal n e) : (n * 2 ^ e : ℚ) < 2 ^ (e + 53) := by
  have hsmall : (n : ℚ) < (2 * hiddenBit : ℕ) := Nat.cast_lt.mpr h.small
  calc (n * 2 ^ e : ℚ) < (2 * hiddenBit : ℕ) * 2 ^ e := by gcongr
    _ = 2 ^ (e + 53) := by
        rw [Nat.cast_mul, two_pow_hiddenBit, Nat.cast_ofNat, ← zpow_one_add₀ two_ne_zero,
          ← zpow_add₀ two_ne_zero, add_comm]
        rfl

/-- a larger exponent is a larger value, whatever the significands are -/
theorem Normal.value_lt (hm : Normal m d) (hn : Normal n e) (h : d < e) :
    (m * 2 ^ d : ℚ) < n * 2 ^ e := by
  have hfull : hiddenBit ≤ n := hn.full.resolve_right (by have := hm.low; omega)
  calc (m * 2 ^ d : ℚ) < 2 ^ (d + 53) := hm.lt_two_zpow
    _ ≤ 2 ^ (e + 52) := zpow_le_zpow_right₀ one_le_two (by omega)
    _ ≤ n * 2 ^ e := two_zpow_le hfull

theorem Normal.place_lt_place (hm : Normal m d) (hn : Normal n e) (h : d < e) :
    place m d < place n e := by
  obtain ⟨hlow, -, hsmall, -⟩ := hm
  have hfull := hn.full
  simp only [place, hiddenBit] at *
  omega

/-- a coarser grid is part of a finer one -/
theorem exists_units {d e : ℤ} (h : e ≤ d) (m : ℕ) : ∃ k : ℕ, (m * 2 ^ d : ℚ) = k * 2 ^ e := by
  refine ⟨m * 2 ^ (d - e).toNat, ?_⟩
  have hsplit : d = ((d - e).toNat : ℤ) + e := by omega
  conv_lhs => rw [hsplit, zpow_add₀ two_ne_zero, zpow_natCast]
  push_cast
  ring

theorem Normal.place_le_place_iff (hm : Normal m d) (hn : Normal n e) :
    place m d ≤ place n e ↔ (m * 2 ^ d : ℚ) ≤ n * 2 ^ e := by
  rcases lt_trichotomy d e with h | rfl | h
  · exact iff_of_true (hm.place_lt_place hn h).le (hm.value_lt hn h).le
  · rw [place, place, Nat.add_le_add_iff_left, mul_le_mul_iff_left₀ (by positivity), Nat.cast_le]
  · exact iff_of_false (Nat.not_le.mpr (hn.place_lt_place hm h)) (not_le.mpr (hn.value_lt hm h))

end

end Binary

/-- the double `x` is the rational `v`, without a sign -/
def IsAmount (x : Float) (v : ℚ) : Prop :=
  ∃ n e, Normal n e ∧ x.toBits.toNat = place n e ∧ (n * 2 ^ e : ℚ) = v

theorem eq_of_toBits {x y : Float} (h : x.toBits.toNat = y.toBits.toNat) : x = y := by
  have hbits := UInt64.toNat_inj.mp h
  obtain ⟨⟨bits, hvalid⟩⟩ := x
  obtain ⟨⟨other, hother⟩⟩ := y
  cases (show bits = other from hbits)
  rfl

theorem isAmount_of_ofFloat? {x : Float} {n : ℕ} {e : ℤ} (h : ofFloat? x = some ⟨false, n, e⟩) :
    IsAmount x (n * 2 ^ e) := by
  obtain ⟨hnormal, hword⟩ := ofFloat?_eq_some_iff.mp h
  exact ⟨n, e, hnormal, by simpa using hword, rfl⟩

namespace IsAmount

variable {x y : Float} {v w : ℚ}

theorem nonneg (h : IsAmount x v) : 0 ≤ v := by
  obtain ⟨n, e, -, -, rfl⟩ := h
  positivity

theorem exists_ofFloat? (h : IsAmount x v) : ∃ n e, Normal n e ∧ (n * 2 ^ e : ℚ) = v ∧
    ofFloat? x = some ⟨false, n, e⟩ := by
  obtain ⟨n, e, hnormal, hword, hvalue⟩ := h
  exact ⟨n, e, hnormal, hvalue, ofFloat?_eq_some_iff.mpr ⟨hnormal, by simpa using hword⟩⟩

theorem isFinite (h : IsAmount x v) : x.isFinite = true := by
  obtain ⟨n, e, -, -, hexact⟩ := h.exists_ofFloat?
  exact isFinite_of_ofFloat? hexact

theorem isNaN (h : IsAmount x v) : x.isNaN = false := isNaN_of_isFinite h.isFinite

theorem rank_eq (h : IsAmount x v) : rank x = x.toBits.toNat := by
  obtain ⟨n, e, hnormal, hword, -⟩ := h
  have hlt : x.toBits.toNat < signBit := by
    rw [hword]
    exact hnormal.place_lt.trans (by decide)
  rw [rank, wordSign, if_neg (Nat.not_le.mpr hlt), Nat.mod_eq_of_lt hlt]
  rfl

theorem le_iff (hx : IsAmount x v) (hy : IsAmount y w) : x ≤ y ↔ v ≤ w := by
  rw [le_iff_rank hx.isNaN hy.isNaN, hx.rank_eq, hy.rank_eq, Nat.cast_le]
  obtain ⟨m, d, hm, hmword, rfl⟩ := hx
  obtain ⟨n, e, hn, hnword, rfl⟩ := hy
  rw [hmword, hnword, hm.place_le_place_iff hn]

theorem lt_iff (hx : IsAmount x v) (hy : IsAmount y w) : x < y ↔ v < w := by
  rw [lt_iff_rank hx.isNaN hy.isNaN, ← not_le, ← le_iff_rank hy.isNaN hx.isNaN,
    hy.le_iff hx, not_le]

theorem unique (hv : IsAmount x v) (hw : IsAmount x w) : v = w :=
  le_antisymm ((hv.le_iff hw).mp ((le_iff_rank hv.isNaN hv.isNaN).mpr le_rfl))
    ((hw.le_iff hv).mp ((le_iff_rank hv.isNaN hv.isNaN).mpr le_rfl))

/-- a value has one double without a sign -/
theorem eq (hx : IsAmount x v) (hy : IsAmount y v) : x = y := by
  refine eq_of_toBits (Nat.le_antisymm ?_ ?_)
  · rw [← Nat.cast_le (α := ℤ), ← hx.rank_eq, ← hy.rank_eq, ← le_iff_rank hx.isNaN hy.isNaN]
    exact (hx.le_iff hy).mpr le_rfl
  · rw [← Nat.cast_le (α := ℤ), ← hx.rank_eq, ← hy.rank_eq, ← le_iff_rank hy.isNaN hx.isNaN]
    exact (hy.le_iff hx).mpr le_rfl

/-- two different amounts are more than half of the last place of the smaller one apart -/
theorem gap (hx : IsAmount x v) (hy : IsAmount y w) (h : v < w) :
    v + v / (2 * hiddenBit : ℕ) < w := by
  obtain ⟨m, d, hm, -, rfl⟩ := hx
  obtain ⟨n, e, hn, -, rfl⟩ := hy
  have hpos : (0 : ℚ) < (2 * hiddenBit : ℕ) := by decide
  have hsmall : (m * 2 ^ d : ℚ) / (2 * hiddenBit : ℕ) < 2 ^ d := by
    rw [div_lt_iff₀ hpos, mul_comm]
    have hlt : (m : ℚ) < (2 * hiddenBit : ℕ) := Nat.cast_lt.mpr hm.small
    gcongr
  -- the larger one is a whole number of places of the smaller one
  have hde : d ≤ e := by
    by_contra hlt
    exact absurd h (not_lt.mpr (hn.value_lt hm (not_le.mp hlt)).le)
  obtain ⟨k, hk⟩ := exists_units hde n
  rw [hk] at h ⊢
  have hunit : (0 : ℚ) < 2 ^ d := by positivity
  have hmk : ((m + 1 : ℕ) : ℚ) ≤ k := by
    exact_mod_cast lt_of_mul_lt_mul_right h hunit.le
  calc (m * 2 ^ d + m * 2 ^ d / (2 * hiddenBit : ℕ) : ℚ) < m * 2 ^ d + 2 ^ d := by gcongr
    _ = (m + 1 : ℕ) * 2 ^ d := by
        push_cast
        ring
    _ ≤ k * 2 ^ d := by gcongr

theorem exists_units (h : IsAmount x v) : ∃ k : ℕ, v = k * 2 ^ (-1074 : ℤ) := by
  obtain ⟨n, e, hnormal, -, rfl⟩ := h
  exact Binary.exists_units hnormal.low n

end IsAmount

theorem isAmount_zero : IsAmount 0.0 0 := ⟨0, -1074, by constructor <;> decide, by decide, by simp⟩

theorem IsAmount.not_le_zero {x : Float} {v : ℚ} (h : IsAmount x v) (hpos : 0 < v) : ¬ x ≤ 0.0 := by
  rw [h.le_iff isAmount_zero, not_le]
  exact hpos

def infinite : Float := Float.ofBits (UInt64.ofNat (2047 * hiddenBit))

theorem eq_of_isNaN {x : Float} (h : x.isNaN = true) : x = 0.0 / 0.0 := by
  have hunpack : UnpackedFloat.unpack .binary64 x.toBits.toBitVec = .notANumber := by
    change (UnpackedFloat.unpack .binary64 x.toBits.toBitVec).isNaN = true at h
    cases hparts : UnpackedFloat.unpack .binary64 x.toBits.toBitVec with
    | notANumber => rfl
    | infinity s => rw [hparts] at h; cases h
    | zero s => rw [hparts] at h; cases h
    | finite s m e hm => rw [hparts] at h; cases h
  have hword : UnpackedFloat.pack .binary64 (UnpackedFloat.unpack .binary64 x.toBits.toBitVec)
      = x.toBits.toBitVec := pack_unpack_of_valid x.toModel.valid
  refine eq_of_toBits ?_
  rw [← UInt64.toNat_toBitVec, ← hword, hunpack]
  decide

theorem toBits_of_ofFloat?_eq_none {x : Float} (hnumber : x.isNaN = false)
    (h : ofFloat? x = none) : x.toBits.toNat % signBit = 2047 * hiddenBit := by
  have hfield : (x.toBits.toNat >>> 52) % 2048 = 2047 := by
    rw [ofFloat?] at h
    split_ifs at h with hinfinite
    exact hinfinite
  change (UnpackedFloat.unpack .binary64 x.toBits.toBitVec).isNaN = false at hnumber
  rw [unpack_eq, UInt64.toNat_toBitVec, if_pos hfield] at hnumber
  split_ifs at hnumber with hempty
  · rw [mod_signBit, hfield, hempty, Nat.add_zero]
  · cases hnumber

theorem exists_amount_of_pos {x : Float} (h : 0.0 < x) :
    (∃ v, 0 < v ∧ IsAmount x v) ∨ x = infinite := by
  have hnumber := (isNaN_of_lt h).2
  have hrank : 0 < rank x := (lt_iff_rank (isNaN_of_lt h).1 hnumber).mp h
  have hunsigned : x.toBits.toNat < signBit := by
    by_contra hsigned
    rw [rank, wordSign, if_pos (Nat.le_of_not_lt hsigned)] at hrank
    exact absurd hrank (not_lt.mpr (neg_nonpos.mpr (Nat.cast_nonneg _)))
  cases hexact : ofFloat? x with
  | none =>
    refine .inr (eq_of_toBits ?_)
    rw [← Nat.mod_eq_of_lt hunsigned, toBits_of_ofFloat?_eq_none hnumber hexact]
    decide
  | some b =>
    obtain ⟨hnormal, hword⟩ := ofFloat?_eq_some_iff.mp hexact
    have hpositive : b.negative = false := by
      by_contra hnegative
      rw [Bool.not_eq_false] at hnegative
      rw [hword, hnegative, if_pos rfl] at hunsigned
      omega
    rw [hpositive, if_neg Bool.false_ne_true, Nat.zero_add] at hword
    have hx : IsAmount x (b.significand * 2 ^ b.exponent) := ⟨_, _, hnormal, hword, rfl⟩
    exact .inl ⟨_, (isAmount_zero.lt_iff hx).mp h, hx⟩

end Figures
