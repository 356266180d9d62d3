import Figures.Proofs.Number.Neighbours
import Figures.Proofs.Number.Overflow

/-!
# Bounds of doubles

* `le_iff_valueOf`         finite doubles are ordered by their values
* `RoundsTo.valueOf_le`    what is at most a double is rounded to at most that double
* `Within n x`             `x` is finite and at most `n` either way
* `Within.add`, …          arithmetic, roots and the functions of a circle stay within bounds
-/

namespace Figures

open Binary

/-! ### order by value -/

theorem IsAmount.valueOf_eq {x : Float} {v : ℚ} (h : IsAmount x v) : valueOf x = v := by
  obtain ⟨n, e, -, hvalue, hexact⟩ := h.exists_ofFloat?
  rw [valueOf, hexact, ← hvalue]
  exact one_mul _

/-- the rank and the value of a double have the same sign, and grow together -/
theorem exists_rank {x : Float} (h : x.isFinite = true) : ∃ s n e, Normal n e ∧
    valueOf x = signFactor s * (n * 2 ^ e) ∧ rank x = s.apply (place n e : ℕ) := by
  obtain ⟨n, e, hnormal, hplace, hvalue⟩ := exists_word h
  exact ⟨_, n, e, hnormal, hvalue, by rw [rank, hplace]⟩

theorem le_iff_valueOf {x y : Float} (hx : x.isFinite = true) (hy : y.isFinite = true) :
    x ≤ y ↔ valueOf x ≤ valueOf y := by
  rw [le_iff_rank (isNaN_of_isFinite hx) (isNaN_of_isFinite hy)]
  obtain ⟨s, m, d, hm, hvx, hrx⟩ := exists_rank hx
  obtain ⟨t, n, e, hn, hvy, hry⟩ := exists_rank hy
  have hsame := hm.place_le_place_iff hn
  have hswap := hn.place_le_place_iff hm
  have hzero : Normal 0 (-1074) := ⟨le_rfl, by decide, by decide, .inr rfl⟩
  have hmzero := hm.place_le_place_iff hzero
  have hnzero := hn.place_le_place_iff hzero
  have hmpos : (0 : ℚ) ≤ m * 2 ^ d := by positivity
  have hnpos : (0 : ℚ) ≤ n * 2 ^ e := by positivity
  have hnone : place 0 (-1074) = 0 := rfl
  rw [hnone, Nat.cast_zero, zero_mul] at hmzero hnzero
  rw [hvx, hvy, hrx, hry]
  cases s <;> cases t <;>
    simp only [signFactor, Float.Model.UnpackedFloat.Sign.apply, one_mul, neg_one_mul]
  case negative.negative => rw [neg_le_neg_iff, neg_le_neg_iff, Nat.cast_le, hswap]
  case negative.positive => exact iff_of_true (by omega) (by linarith)
  case positive.negative =>
    constructor
    · intro h
      linarith [hmzero.mp (by omega), hnzero.mp (by omega)]
    · intro h
      have hmnone := hmzero.mpr (by linarith)
      have hnnone := hnzero.mpr (by linarith)
      omega
  case positive.positive => rw [Nat.cast_le, hsame]

theorem le_of_not_le {x y : Float} (hx : x.isFinite = true) (hy : y.isFinite = true)
    (h : ¬ x ≤ y) : y ≤ x :=
  (le_iff_valueOf hy hx).mpr (not_le.mp fun hle => h ((le_iff_valueOf hx hy).mpr hle)).le

theorem isFinite_of_between {lo hi x : Float} (hlo : lo.isFinite = true) (hhi : hi.isFinite = true)
    (hlow : lo ≤ x) (hhigh : x ≤ hi) : x.isFinite = true := by
  have hnumber := (isNaN_of_le hhigh).1
  rw [le_iff_rank (isNaN_of_isFinite hlo) hnumber] at hlow
  rw [le_iff_rank hnumber (isNaN_of_isFinite hhi)] at hhigh
  rw [isFinite_iff_word] at hlo hhi ⊢
  unfold rank at hlow hhigh
  revert hlow hhigh
  cases wordSign lo.toBits.toNat <;> cases wordSign x.toBits.toNat <;>
    cases wordSign hi.toBits.toNat <;> simp only [Float.Model.UnpackedFloat.Sign.apply] <;> omega

namespace RoundsTo

variable {q : ℚ} {x y : Float}

theorem valueOf_le (h : RoundsTo q x.toBits.toNat) (hx : x.isFinite = true) (hy : y.isFinite = true)
    (hle : q ≤ valueOf y) : valueOf x ≤ valueOf y := by
  obtain ⟨n, e, hnearest, habs, hpos, hneg⟩ := h.exists_near hx
  obtain ⟨s, m, d, hm, hvy, -⟩ := exists_parts hy
  have hmabs : (m * 2 ^ d : ℚ) = |valueOf y| := by rw [hvy, abs_signFactor_mul s (by positivity)]
  rcases le_total 0 q with hq | hq
  · have hvalue := hnearest.value_le hm (by rwa [hmabs, abs_of_nonneg hq,
      abs_of_nonneg (hq.trans hle)])
    rwa [← habs, hmabs, abs_of_nonneg (hpos hq), abs_of_nonneg (hq.trans hle)] at hvalue
  · rcases le_total 0 (valueOf y) with hpositive | hnegative
    · exact (hneg hq).trans hpositive
    · have hvalue := hnearest.le_value hm
        (by rwa [hmabs, abs_of_nonpos hq, abs_of_nonpos hnegative, neg_le_neg_iff])
      rwa [← habs, hmabs, abs_of_nonpos (hneg hq), abs_of_nonpos hnegative,
        neg_le_neg_iff] at hvalue

theorem le_valueOf (h : RoundsTo q x.toBits.toNat) (hx : x.isFinite = true) (hy : y.isFinite = true)
    (hle : valueOf y ≤ q) : valueOf y ≤ valueOf x := by
  obtain ⟨n, e, hnearest, habs, hpos, hneg⟩ := h.exists_near hx
  obtain ⟨s, m, d, hm, hvy, -⟩ := exists_parts hy
  have hmabs : (m * 2 ^ d : ℚ) = |valueOf y| := by rw [hvy, abs_signFactor_mul s (by positivity)]
  rcases le_total q 0 with hq | hq
  · have hnegative := hle.trans hq
    have hvalue := hnearest.value_le hm
      (by rwa [hmabs, abs_of_nonpos hq, abs_of_nonpos hnegative, neg_le_neg_iff])
    rwa [← habs, hmabs, abs_of_nonpos (hneg hq), abs_of_nonpos hnegative, neg_le_neg_iff] at hvalue
  · rcases le_total (valueOf y) 0 with hnegative | hpositive
    · exact hnegative.trans (hpos hq)
    · have hvalue := hnearest.le_value hm
        (by rwa [hmabs, abs_of_nonneg hq, abs_of_nonneg hpositive])
      rwa [← habs, hmabs, abs_of_nonneg (hpos hq), abs_of_nonneg hpositive] at hvalue

/-- what is not larger than a double is finite, and not larger when rounded -/
theorem abs_le_of_amount (h : RoundsTo q x.toBits.toNat) {v : ℚ} (hy : IsAmount y v)
    (hle : |q| ≤ v) :
    x.isFinite = true ∧ |valueOf x| ≤ v := by
  have hfinite : x.isFinite = true := by
    rw [h.isFinite_iff]
    have hlimit := abs_valueOf_lt hy.isFinite
    rw [hy.valueOf_eq, abs_of_nonneg hy.nonneg] at hlimit
    exact hle.trans_lt hlimit
  obtain ⟨m, e, hnearest, habs, -, -⟩ := h.exists_near hfinite
  obtain ⟨k, d, hk, -, rfl⟩ := hy
  rw [habs]
  exact ⟨hfinite, hnearest.value_le hk hle⟩

/-- so is what is not larger than a whole number of at most 53 bits -/
theorem abs_le_of_le (h : RoundsTo q x.toBits.toNat) {n : ℕ} (hn : n < 2 * hiddenBit)
    (hle : |q| ≤ n) :
    x.isFinite = true ∧ |valueOf x| ≤ n := h.abs_le_of_amount (isAmount_whole hn) hle

end RoundsTo

/-! ### signs and whole numbers -/

theorem exists_isAmount_abs {x : Float} (h : x.isFinite = true) : ∃ z, IsAmount z |valueOf x| := by
  obtain ⟨s, n, e, hnormal, hvalue, -⟩ := exists_parts h
  refine ⟨Float.ofBits (UInt64.ofNat (place n e)), n, e, hnormal, ?_, ?_⟩
  · exact toBits_ofBits hnormal.place_lt.le
  · rw [hvalue, abs_signFactor_mul s (by positivity)]

theorem roundsTo_neg {x : Float} (h : x.isFinite = true) : RoundsTo (-valueOf x)
    (-x).toBits.toNat := by
  obtain ⟨s, n, e, hnormal, hvalue, hparts⟩ := exists_parts h
  have hbits : (-x).toBits.toNat = (Float.Model.UnpackedFloat.pack .binary64
      (partsOf (-s) n e)).toNat := by
    rw [← neg_partsOf, ← hparts]
    rfl
  have hrounds := RoundsTo.of_parts (-s) hnormal
  rwa [← hbits, signFactor_neg, neg_mul, ← hvalue] at hrounds

theorem abs_valueOf_neg_le {x : Float} (h : x.isFinite = true) :
    (-x).isFinite = true ∧ |valueOf (-x)| ≤ |valueOf x| := by
  obtain ⟨z, hz⟩ := exists_isAmount_abs h
  exact (roundsTo_neg h).abs_le_of_amount hz (abs_neg _).le

theorem valueOf_neg {x : Float} (h : x.isFinite = true) : valueOf (-x) = -valueOf x := by
  obtain ⟨n, e, hnearest, habs, hpos, hneg⟩ := (roundsTo_neg h).exists_near (isFinite_neg h)
  obtain ⟨m, d, hm, -, hvalue⟩ := exists_word h
  have hsize : |valueOf x| = m * 2 ^ d := by rw [hvalue, abs_signFactor_mul _ (by positivity)]
  rw [abs_neg] at hnearest
  have heq : |valueOf (-x)| = |valueOf x| := by
    rw [habs]
    exact le_antisymm (hsize ▸ hnearest.value_le hm hsize.le)
      (hsize ▸ hnearest.le_value hm hsize.ge)
  rcases le_total 0 (valueOf x) with hx | hx
  · rw [abs_of_nonpos (hneg (neg_nonpos.mpr hx)), abs_of_nonneg hx] at heq
    linarith
  · rw [abs_of_nonneg (hpos (neg_nonneg.mpr hx)), abs_of_nonpos hx] at heq
    exact heq

theorem roundsTo_abs {x : Float} (h : x.isFinite = true) :
    RoundsTo |valueOf x| x.abs.toBits.toNat := by
  obtain ⟨s, n, e, hnormal, hvalue, hparts⟩ := exists_parts h
  have habs : (partsOf s n e).abs = partsOf .positive n e := by
    unfold partsOf
    split <;> rfl
  have hbits : x.abs.toBits.toNat = (Float.Model.UnpackedFloat.pack .binary64
      (partsOf .positive n e)).toNat := by
    rw [← habs, ← hparts]
    rfl
  have hrounds := RoundsTo.of_parts .positive hnormal
  rw [← hbits] at hrounds
  rwa [hvalue, abs_signFactor_mul s (by positivity), ← one_mul (n * 2 ^ e : ℚ)]

theorem roundsTo_self {x : Float} (h : x.isFinite = true) : RoundsTo
    (valueOf x) x.toBits.toNat := by
  obtain ⟨n, e, hnormal, hplace, hvalue⟩ := exists_word h
  have hnonneg : (0 : ℚ) ≤ n * 2 ^ e := by positivity
  refine ⟨⟨n, e, ?_, ?_⟩, ?_, ?_⟩
  · rw [hvalue, abs_signFactor_mul _ hnonneg]
    exact .of_normal hnormal
  · rw [hplace, min_eq_left hnormal.place_lt.le]
  · intro hpos
    by_contra hsigned
    rw [hvalue, wordSign, if_pos (Nat.le_of_not_lt hsigned), signFactor] at hpos
    linarith
  · intro hneg
    by_contra hsigned
    rw [hvalue, wordSign, if_neg hsigned, signFactor] at hneg
    linarith

theorem RoundsTo.valueOf_eq {x y : Float} (h : RoundsTo (valueOf y) x.toBits.toNat)
    (hx : x.isFinite = true) (hy : y.isFinite = true) : valueOf x = valueOf y :=
  le_antisymm (h.valueOf_le hx hy le_rfl) (h.le_valueOf hx hy le_rfl)

/-- a small whole number is read as a word, and multiplied by one -/
theorem valueOf_ofNat {n : ℕ} (h : n < 2 * hiddenBit) :
    (Float.ofNat n).isFinite = true ∧ valueOf (Float.ofNat n) = n := by
  have hwhole := isAmount_whole h
  have hexact : ∀ {x : Float}, RoundsTo n x.toBits.toNat → x.isFinite = true ∧ valueOf x = n := by
    intro x hx
    have hfinite := (hx.abs_le_of_le h (le_of_eq (abs_of_nonneg (Nat.cast_nonneg n)))).1
    rw [← hwhole.valueOf_eq] at hx ⊢
    exact ⟨hfinite, hx.valueOf_eq hfinite hwhole.isFinite⟩
  have hword : n.toUInt64.toNat = n := Nat.mod_eq_of_lt (h.trans (by decide))
  have hread : RoundsTo n n.toUInt64.toFloat.toBits.toNat := by
    have hnormalized := RoundsTo.of_normalize n 0
    rw [zpow_zero, mul_one, Int.cast_natCast] at hnormalized
    have hbits : n.toUInt64.toFloat.toBits.toNat = (Float.Model.UnpackedFloat.pack .binary64
        (Float.Model.UnpackedFloat.normalize .binary64 (n.toUInt64.toNat : ℤ) 0 .positive)).toNat :=
          rfl
    rwa [hbits, hword]
  obtain ⟨hfinite, hvalue⟩ := hexact hread
  have hone : valueOf 1.0 = 1 := by
    have hexactOne : ofFloat? 1.0 = some ⟨false, 4503599627370496, -52⟩ := by decide
    rw [valueOf, hexactOne]
    norm_num [Binary.value]
  have hproduct := roundsTo_mul hfinite (by decide : Float.isFinite 1.0 = true)
  rw [hvalue, hone, mul_one] at hproduct
  have hform : Float.ofNat n = n.toUInt64.toFloat * 1.0 := dif_pos ⟨h, by decide⟩
  rw [hform]
  exact hexact hproduct

/-- the greatest integer that is not above a double, of at most 52 bits -/
theorem valueOf_floor {x : Float} (h : x.isFinite = true) (hsmall : |valueOf x| ≤ hiddenBit) :
    (floor x).isFinite = true ∧ valueOf (floor x) = ⌊valueOf x⌋ := by
  obtain ⟨⟨negative, n, e⟩, hb⟩ := exists_ofFloat?_of_isFinite h
  obtain ⟨v, hv⟩ : ∃ v : ℚ, (n * 2 ^ e : ℚ) = v := ⟨_, rfl⟩
  have hnonneg : 0 ≤ v := hv ▸ by positivity
  have hvalue : valueOf x = (if negative then -1 else 1) * v := by
    rw [valueOf, hb, Option.map_some, Option.getD_some, Binary.value, hv]
  cases negative with
  | false =>
    rw [if_neg Bool.false_ne_true, one_mul] at hvalue
    rw [hvalue, abs_of_nonneg hnonneg] at hsmall
    have hfloor : floor x = whole false ⌊v⌋₊ := by
      rw [floor, hb]
      dsimp only
      rw [Bool.false_and, if_neg Bool.false_ne_true, Nat.add_zero, truncated_eq_floor hv]
    have hamount := isAmount_whole ((Nat.floor_le_of_le hsmall).trans_lt (by decide))
    rw [hfloor, hamount.valueOf_eq, hvalue]
    exact ⟨hamount.isFinite, by exact_mod_cast Int.natCast_floor_eq_floor hnonneg⟩
  | true =>
    rw [if_pos rfl, neg_one_mul] at hvalue
    rw [hvalue, abs_neg, abs_of_nonneg hnonneg] at hsmall
    have hfloor : floor x = -whole false ⌈v⌉₊ := by
      have htruncated : (Binary.mk true n e).truncated +
          (if !(Binary.mk true n e).isWhole then 1 else 0)
          = ⌈v⌉₊ := truncated_add_eq_ceil hv
      rw [floor, hb]
      dsimp only
      rw [Bool.true_and, htruncated]
      simp only [whole, Bool.false_eq_true, if_true, if_false]
    have hamount := isAmount_whole ((Nat.ceil_le.mpr hsmall).trans_lt (by decide))
    rw [hfloor, valueOf_neg hamount.isFinite, hamount.valueOf_eq, hvalue, Int.floor_neg,
      Int.cast_neg, neg_inj]
    exact ⟨isFinite_neg hamount.isFinite, by exact_mod_cast Int.natCast_ceil_eq_ceil hnonneg⟩

theorem roundsTo_ofNat (n : ℕ) : RoundsTo n (Float.ofNat n).toBits.toNat := by
  by_cases hsmall : n < 2 * hiddenBit
  · obtain ⟨hfinite, hvalue⟩ := valueOf_ofNat hsmall
    exact hvalue ▸ roundsTo_self hfinite
  · -- a large one is read as a numeral
    have hlarge : 2 ^ 52 ≤ n := by
      simp only [hiddenBit] at hsmall
      omega
    have hpos : 0 < n := lt_of_lt_of_le (by decide) hlarge
    have hform : (Float.ofNat n).toBits.toNat = (Float.Model.UnpackedFloat.pack .binary64
        (Float.Model.UnpackedFloat.ofScientific .binary64 n 0)).toNat := by
      have hread : Float.ofNat n = ⟨Float.Model.ofScientific n 0⟩ := dif_neg fun h => hsmall h.1
      rw [hread]
      rfl
    have hlow : ¬ (0 : ℤ) < -(2 ^ 11 + (n.log2 : ℤ)) := by omega
    rw [hform, Float.Model.UnpackedFloat.ofScientific, dif_neg hpos.ne', if_neg (by decide),
      if_neg hlow, if_pos le_rfl]
    have hrounds : ∀ bits : ℕ, RoundsTo n (Float.Model.UnpackedFloat.pack .binary64
        (Float.Model.UnpackedFloat.roundWithAccuracy .binary64 .positive
          (n <<< bits * 10 ^ (0 : ℤ).toNat) (-(bits : ℤ) + 0) .exact)).toNat := by
      intro bits
      have hlog : 52 ≤ (n <<< bits * 10 ^ (0 : ℤ).toNat).log2 := by
        rw [Nat.shiftLeft_eq, Int.toNat_zero, pow_zero, mul_one, Nat.le_log2 (by positivity)]
        exact hlarge.trans (Nat.le_mul_of_pos_right n (Nat.two_pow_pos bits))
      have hround := RoundsTo.of_round .positive (e := -(bits : ℤ) + 0) (a := .exact) (r :=
        0) rfl (.inl hlog)
      have hvalue : signFactor .positive *
          (((n <<< bits * 10 ^ (0 : ℤ).toNat : ℕ) + (0 : ℚ)) * 2 ^ (-(bits : ℤ) + 0)) = n := by
        rw [Nat.shiftLeft_eq, Int.toNat_zero, pow_zero, mul_one, add_zero, add_zero, signFactor,
          one_mul, Nat.cast_mul, Nat.cast_pow, mul_assoc, Nat.cast_ofNat, ← zpow_natCast,
          ← zpow_add₀ two_ne_zero, add_neg_cancel, zpow_zero, mul_one]
      rwa [hvalue] at hround
    rw [Float.Model.UnpackedFloat.mul.eq_def]
    exact hrounds _

/-! ### bounds -/

theorem valueOf_two : valueOf 2.0 = 2 := by
  have hexact : ofFloat? 2.0 = some ⟨false, 4503599627370496, -51⟩ := by decide
  rw [valueOf, hexact]
  norm_num [Binary.value]

/-- `x` is finite and at most `n` either way. Of bounds above 53 bits nothing is said, so bounds add
and multiply without a condition on their size -/
def Within (n : ℕ) (x : Float) : Prop :=
  n < 2 * hiddenBit → x.isFinite = true ∧ |valueOf x| ≤ n

namespace Within

variable {m n : ℕ} {x y : Float}

theorem isFinite (h : Within n x) (hn : n < 2 * hiddenBit) : x.isFinite = true := (h hn).1

theorem le (h : Within n x) (hn : n < 2 * hiddenBit) : |valueOf x| ≤ n := (h hn).2

theorem mono (h : Within m x) (hmn : m ≤ n) : Within n x := fun hn =>
  have hx := h (hmn.trans_lt hn)
  ⟨hx.1, hx.2.trans (Nat.cast_le.mpr hmn)⟩

/-- between the numbers `-1000` and `1000` -/
theorem of_bounds (h : -1000.0 ≤ x ∧ x ≤ 1000.0) : Within 1000 x := by
  intro _
  have hlow : Float.isFinite (-1000.0) = true := by decide
  have hhigh : Float.isFinite 1000.0 = true := by decide
  have hx := isFinite_of_between hlow hhigh h.1 h.2
  have hlowValue : valueOf (-1000.0) = -1000 := by
    have hexact : ofFloat? (-1000.0) = some ⟨true, 8796093022208000, -43⟩ := by decide
    rw [valueOf, hexact]
    norm_num [Binary.value]
  have hhighValue : valueOf 1000.0 = 1000 := by
    have hexact : ofFloat? 1000.0 = some ⟨false, 8796093022208000, -43⟩ := by decide
    rw [valueOf, hexact]
    norm_num [Binary.value]
  rw [le_iff_valueOf hlow hx, hlowValue, le_iff_valueOf hx hhigh, hhighValue] at h
  exact ⟨hx, by rw [Nat.cast_ofNat]; exact abs_le.mpr h⟩

theorem add (hx : Within m x) (hy : Within n y) : Within (m + n) (x + y) := by
  intro hsmall
  obtain ⟨hxfinite, hxle⟩ := hx ((Nat.le_add_right m n).trans_lt hsmall)
  obtain ⟨hyfinite, hyle⟩ := hy ((Nat.le_add_left n m).trans_lt hsmall)
  refine (roundsTo_add hxfinite hyfinite).abs_le_of_le hsmall ((abs_add_le _ _).trans ?_)
  rw [Nat.cast_add]
  exact add_le_add hxle hyle

theorem sub (hx : Within m x) (hy : Within n y) : Within (m + n) (x - y) := by
  intro hsmall
  obtain ⟨hxfinite, hxle⟩ := hx ((Nat.le_add_right m n).trans_lt hsmall)
  obtain ⟨hyfinite, hyle⟩ := hy ((Nat.le_add_left n m).trans_lt hsmall)
  refine (roundsTo_sub hxfinite hyfinite).abs_le_of_le hsmall ((abs_sub _ _).trans ?_)
  rw [Nat.cast_add]
  exact add_le_add hxle hyle

/-- the bounds grow by one, so that each of them is at most their product -/
theorem mul (hx : Within m x) (hy : Within n y) : Within ((m + 1) * (n + 1)) (x * y) := by
  intro hsmall
  obtain ⟨hxfinite, hxle⟩ := hx (lt_of_le_of_lt (by nlinarith) hsmall)
  obtain ⟨hyfinite, hyle⟩ := hy (lt_of_le_of_lt (by nlinarith) hsmall)
  refine (roundsTo_mul hxfinite hyfinite).abs_le_of_le hsmall ?_
  rw [abs_mul, Nat.cast_mul, Nat.cast_succ, Nat.cast_succ]
  gcongr <;> linarith

theorem div (hx : Within m x) (hy : y.isFinite = true) (hone : 1 ≤ |valueOf y|) :
    Within m (x / y) := by
  intro hsmall
  obtain ⟨hxfinite, hxle⟩ := hx hsmall
  have hne : valueOf y ≠ 0 := abs_pos.mp (one_pos.trans_le hone)
  refine (roundsTo_div hxfinite hy hne).abs_le_of_le hsmall ?_
  rw [abs_div]
  exact (div_le_self (abs_nonneg _) hone).trans hxle

theorem half (hx : Within m x) : Within m (x / 2.0) :=
  hx.div (by decide) (by norm_num [valueOf_two])

theorem third (hx : Within m x) : Within m (x / 3.0) := by
  have hexact : ofFloat? 3.0 = some ⟨false, 6755399441055744, -51⟩ := by decide
  refine hx.div (by decide) ?_
  rw [valueOf, hexact]
  norm_num [Binary.value]

theorem ratio (hx : x.isFinite = true) (hy : y.isFinite = true) (hne : valueOf y ≠ 0)
    (hle : |valueOf x| ≤ |valueOf y|) : Within 1 (x / y) := by
  intro hsmall
  refine (roundsTo_div hx hy hne).abs_le_of_le hsmall ?_
  rw [abs_div, Nat.cast_one]
  exact div_le_one_of_le₀ hle (abs_nonneg _)

theorem neg (hx : Within m x) : Within m (-x) := by
  intro hsmall
  obtain ⟨hxfinite, hxle⟩ := hx hsmall
  exact (roundsTo_neg hxfinite).abs_le_of_le hsmall (by rwa [abs_neg])

theorem abs (hx : Within m x) : Within m x.abs := by
  intro hsmall
  obtain ⟨hxfinite, hxle⟩ := hx hsmall
  exact (roundsTo_abs hxfinite).abs_le_of_le hsmall (by rwa [abs_abs])

theorem ofNat (n : ℕ) : Within n (Float.ofNat n) := fun hsmall =>
  ⟨(valueOf_ofNat hsmall).1, by rw [(valueOf_ofNat hsmall).2, abs_of_nonneg (Nat.cast_nonneg n)]⟩

theorem lesser (hx : Within m x) (hy : Within n y) : Within (m + n) (lesser x y) := by
  unfold Figures.lesser
  split
  · exact hy.mono (Nat.le_add_left n m)
  · split
    · exact hy.mono (Nat.le_add_left n m)
    · exact hx.mono (Nat.le_add_right m n)

/-! ### functions of a circle -/

theorem of_range {lo hi : Float} (h : lo ≤ x ∧ x ≤ hi) (hbounds : -1000.0 ≤ lo ∧ hi ≤ 1000.0) :
    Within 1000 x :=
  of_bounds ⟨float_le_trans hbounds.1 h.1, float_le_trans h.2 hbounds.2⟩

section
variable [Platform] [Platform.Sound]

theorem cosine (h : x.isFinite = true) : Within 1000 (cosine x) :=
  of_range (Platform.Sound.cosine_range h) (by decide)

theorem sine (h : x.isFinite = true) : Within 1000 (sine x) :=
  of_range (Platform.Sound.sine_range h) (by decide)

theorem arccosine (h : -1.0 ≤ x ∧ x ≤ 1.0) : Within 1000 (arccosine x) :=
  of_range (Platform.Sound.arccosine_range h) (by decide)

theorem bearing (hy : y.isFinite = true) (hx : x.isFinite = true) : Within 1000 (bearing y x) :=
  of_range (Platform.Sound.bearing_range hy hx) (by decide)

end

end Within

/-! ### hypotenuses -/

theorem rounds_nearest (m : ℕ) (e : ℤ) : Rounds (m * 2 ^ e) (nearest m e) := by
  rcases Nat.eq_zero_or_pos m with rfl | hm
  · rw [Nat.cast_zero, zero_mul, nearest, if_pos rfl]
    exact rounds_zero rfl
  · obtain ⟨n, hnearest, hword⟩ := exists_nearest_eq hm e
    exact ⟨n, _, hnearest, hword⟩

/-- the size of an exact value, in finer units -/
theorem abs_valueOf_eq {x : Float} {b : Binary} (hb : ofFloat? x = some b) {e : ℤ}
    (h : e ≤ b.exponent) :
    |valueOf x| = (b.significand <<< (b.exponent - e).toNat : ℕ) * 2 ^ e := by
  have hsquare := valueOf_sq hb h
  rw [sq_eq_sq_iff_abs_eq_abs] at hsquare
  rw [hsquare]
  exact abs_of_nonneg (by positivity)

section
variable [Platform] [Platform.Sound]

theorem legs_le_hypotenuse {x y : Float} (hx : x.isFinite = true) (hy : y.isFinite = true)
    (h : (hypotenuse x y).isFinite = true) :
    |valueOf x| ≤ valueOf (hypotenuse x y) ∧ |valueOf y| ≤ valueOf (hypotenuse x y) := by
  have hnear := Platform.Sound.hypotenuse_near hx hy
  obtain ⟨a, ha⟩ := exists_isAmount_abs hx
  obtain ⟨b, hb⟩ := exists_isAmount_abs hy
  rcases hnear.cases with ⟨v, hv⟩ | hinfinite
  · rw [hv.valueOf_eq]
    refine ⟨hnear.value_ge hv ha (Real.le_sqrt_of_sq_le ?_),
      hnear.value_ge hv hb (Real.le_sqrt_of_sq_le ?_)⟩
    · exact_mod_cast (sq_abs (valueOf x)).trans_le (le_add_of_nonneg_right (sq_nonneg (valueOf y)))
    · exact_mod_cast (sq_abs (valueOf y)).trans_le (le_add_of_nonneg_left (sq_nonneg (valueOf x)))
  · rw [hinfinite] at h
    exact absurd h (by decide)

theorem Within.hypotenuse {m n : ℕ} {x y : Float} (hx : Within m x) (hy : Within n y) :
    Within (m + n) (hypotenuse x y) := by
  intro hsmall
  obtain ⟨hxfinite, hxle⟩ := hx (by omega)
  obtain ⟨hyfinite, hyle⟩ := hy (by omega)
  have hsum : valueOf x ^ 2 + valueOf y ^ 2 ≤ ((m + n : ℕ) : ℚ) ^ 2 := by
    have hm := sq_le_sq' ((neg_nonpos.mpr (Nat.cast_nonneg m)).trans (abs_nonneg _)) hxle
    have hn := sq_le_sq' ((neg_nonpos.mpr (Nat.cast_nonneg n)).trans (abs_nonneg _)) hyle
    rw [sq_abs] at hm hn
    push_cast
    nlinarith [Nat.cast_nonneg (α := ℚ) m, Nat.cast_nonneg (α := ℚ) n]
  have hroot : √(valueOf x ^ 2 + valueOf y ^ 2 : ℚ) ≤ ((m + n : ℕ) : ℚ) := by
    refine Real.sqrt_le_iff.mpr ⟨Rat.cast_nonneg.mpr (Nat.cast_nonneg _), ?_⟩
    exact_mod_cast hsum
  obtain ⟨v, hv, hle⟩ :=
    (Platform.Sound.hypotenuse_near hxfinite hyfinite).exists_le (isAmount_whole hsmall) hroot
  exact ⟨hv.isFinite, by rwa [hv.valueOf_eq, abs_of_nonneg hv.nonneg]⟩

end

/-! ### remainders -/

/-- a remainder is no larger than the number it is left of -/
theorem Within.remainder {n : ℕ} {x y : Float} (hx : Within n x) {b : Binary}
    (hy : ofFloat? y = some b) (hne : b.significand ≠ 0) : Within n (remainder x y) := by
  intro hsmall
  obtain ⟨hfinite, hle⟩ := hx hsmall
  obtain ⟨a, ha⟩ := exists_ofFloat?_of_isFinite hfinite
  obtain ⟨z, hz⟩ := exists_isAmount_abs hfinite
  have hvalue := abs_valueOf_eq ha (min_le_left a.exponent b.exponent)
  rw [Figures.remainder, ha, hy]
  dsimp only
  rw [if_neg hne]
  generalize min a.exponent b.exponent = e at *
  generalize b.significand <<< (b.exponent - e).toNat = k at *
  generalize a.significand <<< (a.exponent - e).toNat = m at *
  have hless : ((m % k : ℕ) * 2 ^ e : ℚ) ≤ |valueOf x| := by
    rw [hvalue]
    gcongr
    exact Nat.mod_le m k
  obtain ⟨v, hv, hvle⟩ := (rounds_nearest (m % k) e).exists_le hz hless
  have hpositive : Within n (nearest (m % k) e) := fun _ =>
    ⟨hv.isFinite, by rw [hv.valueOf_eq, abs_of_nonneg hv.nonneg]; exact hvle.trans hle⟩
  rw [Binary.toFloat]
  dsimp only
  split
  · exact hpositive.neg hsmall
  · exact hpositive hsmall

end Figures
