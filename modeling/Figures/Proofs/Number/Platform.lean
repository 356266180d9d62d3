import Figures.Number.Elementary
import Figures.Proofs.Number.Neighbours
import Figures.Proofs.Number.Tidy

/-!
# What is assumed of the platform

* `Faithful r x`       the double `x` is the real number `r`, or one of the two doubles about it
* `Faithful.close`     such a double is not far away
* `Platform.Sound`     what mathematical libraries document of their functions

Special values are those of the C standard. Powers and hypotenuses are documented to be less than
one unit of the last place off, logarithms at most two, and the functions of a circle to keep to
their ranges. Nothing is assumed of the direction of an error, nor that two platforms agree.
-/

namespace Figures

open Binary

/-- `x` is `r` or one of the two doubles about it, where the infinity stands for `2 ^ 1024` and
beyond -/
structure Faithful (r : ℝ) (x : Float) : Prop where
  cases : (∃ v, IsAmount x v) ∨ x = infinite
  le : ∀ {y w}, IsAmount y w → r ≤ w → x ≤ y
  ge : ∀ {y w}, IsAmount y w → (w : ℝ) ≤ r → y ≤ x
  large : (2 ^ (1024 : ℤ) : ℚ) ≤ r → x = infinite

theorem exists_next {n : ℕ} {e : ℤ} (h : Normal n e) :
    (∃ y, IsAmount y ((n + 1 : ℕ) * 2 ^ e)) ∨ 2 ^ (1024 : ℤ) ≤ ((n + 1 : ℕ) * 2 ^ e : ℚ) := by
  have hfull : hiddenBit ≤ n + 1 ∨ e = -1074 := h.full.imp_left fun hfull =>
    hfull.trans (Nat.le_succ n)
  rcases lt_or_ge (place (n + 1) e) (2047 * hiddenBit) with hlt | hge
  · obtain ⟨m, d, hnormal, -, hvalue⟩ := exists_normal h.low h.small hfull hlt
    exact .inl ⟨_, hvalue ▸ isAmount_nearest hnormal.small hnormal.low hnormal.high⟩
  · exact .inr (limit_le h.low h.small hfull hge)

namespace Faithful

variable {r : ℝ} {x y : Float} {v w : ℚ}

theorem exists_le (h : Faithful r x) (hy : IsAmount y w) (hle : r ≤ w) :
    ∃ v, IsAmount x v ∧ v ≤ w := by
  have hxy := h.le hy hle
  rcases h.cases with ⟨v, hx⟩ | rfl
  · exact ⟨v, hx, (hx.le_iff hy).mp hxy⟩
  · rw [le_iff_rank (by decide) hy.isNaN] at hxy
    exact absurd hxy (not_le.mpr (by
      rw [hy.rank_eq]
      obtain ⟨n, e, hnormal, hword, -⟩ := hy
      have hinfinite : rank infinite = (2047 * hiddenBit : ℕ) := by decide
      rw [hinfinite, hword]
      exact_mod_cast hnormal.place_lt))

theorem value_ge (h : Faithful r x) (hx : IsAmount x v) (hy : IsAmount y w)
    (hle : (w : ℝ) ≤ r) : w ≤ v :=
  (hy.le_iff hx).mp (h.ge hy hle)

theorem eq (h : Faithful r x) (hy : IsAmount y w) (hr : r = w) : x = y := by
  obtain ⟨v, hx, hle⟩ := h.exists_le hy hr.le
  obtain rfl := le_antisymm hle (h.value_ge hx hy hr.ge)
  exact hx.eq hy

/-- the error is less than the last place: of a result of at least `c` of the smallest doubles, one
part in `c` -/
theorem close (h : Faithful r x) (hx : IsAmount x v) {c : ℕ} (hpos : 0 < c) (hc : c ≤ hiddenBit)
    (hv : c * 2 ^ (-1074 : ℤ) ≤ v) (hr : r < (2 ^ (1024 : ℤ) : ℚ)) : c * |r - v| < v := by
  obtain ⟨n, e, hnormal, -, rfl⟩ := id hx
  have hunit : (0 : ℚ) < 2 ^ e := by positivity
  have hcn : c ≤ n := by
    rcases hnormal.full with hfull | rfl
    · exact hc.trans hfull
    · exact_mod_cast le_of_mul_le_mul_right hv (by positivity)
  have hlow : (((n - 1 : ℕ) * 2 ^ e : ℚ) : ℝ) < r := by
    by_contra hle
    have hbelow := isAmount_nearest ((Nat.sub_le n 1).trans_lt hnormal.small) hnormal.low
      hnormal.high
    obtain ⟨u, hu, hle⟩ := h.exists_le hbelow (not_lt.mp hle)
    rw [hu.unique hx] at hle
    have hnat : n ≤ n - 1 := by exact_mod_cast le_of_mul_le_mul_right hle hunit
    omega
  have hhigh : r < (((n + 1 : ℕ) * 2 ^ e : ℚ) : ℝ) := by
    rcases exists_next hnormal with ⟨z, hz⟩ | hlimit
    · by_contra hle
      have hle := h.value_ge hx hz (not_lt.mp hle)
      have hnat : n + 1 ≤ n := by exact_mod_cast le_of_mul_le_mul_right hle hunit
      omega
    · exact hr.trans_le (Rat.cast_le.mpr hlimit)
  have hunitR : (0 : ℝ) < 2 ^ e := by positivity
  have hdistance : |r - ((n * 2 ^ e : ℚ) : ℝ)| < 2 ^ e := by
    have hpred : ((n - 1 : ℕ) : ℝ) = n - 1 := by
      rw [Nat.cast_sub (by omega), Nat.cast_one]
    push_cast at hlow hhigh ⊢
    rw [hpred] at hlow
    rw [abs_lt]
    constructor <;> linarith
  calc c * |r - ((n * 2 ^ e : ℚ) : ℝ)| < c * 2 ^ e :=
        mul_lt_mul_of_pos_left hdistance (Nat.cast_pos.mpr hpos)
    _ ≤ n * 2 ^ e := by gcongr
    _ = ((n * 2 ^ e : ℚ) : ℝ) := by push_cast; rfl

end Faithful

/-! ### logarithms -/

/-- eight is less than ten -/
theorem logb_two_pow_le (k : ℕ) : Real.logb 10 (2 ^ k) ≤ k / 3 := by
  have height : Real.logb 10 (2 ^ 3) ≤ Real.logb 10 10 :=
    Real.logb_le_logb_of_le (by norm_num) (by norm_num) (by norm_num)
  rw [Real.logb_pow, Real.logb_self_eq_one (by norm_num)] at height
  rw [Real.logb_pow]
  push_cast at height
  have hk : (0 : ℝ) ≤ k := Nat.cast_nonneg k
  nlinarith

/-- the logarithms of doubles are below `512` -/
theorem abs_logb_lt {x : Float} {v : ℚ} (hx : IsAmount x v) (hpos : 0 < v) :
    |Real.logb 10 v| < 512 := by
  have hposR : (0 : ℝ) < v := Rat.cast_pos.mpr hpos
  have hhigh : (v : ℝ) ≤ 2 ^ 1024 := by
    have hlimit := (Rat.cast_le (K := ℝ)).mpr hx.lt_limit.le
    rwa [Rat.cast_zpow, Rat.cast_ofNat, zpow_ofNat] at hlimit
  have hlow : ((2 : ℝ) ^ 1074)⁻¹ ≤ v := by
    obtain ⟨k, rfl⟩ := hx.exists_units
    have hk : 1 ≤ k := by
      refine Nat.one_le_iff_ne_zero.mpr ?_
      rintro rfl
      rw [Nat.cast_zero, zero_mul] at hpos
      exact lt_irrefl 0 hpos
    rw [Rat.cast_mul, Rat.cast_natCast, Rat.cast_zpow, Rat.cast_ofNat, zpow_neg, zpow_ofNat]
    exact le_mul_of_one_le_left (by positivity) (Nat.one_le_cast.mpr hk)
  have hup := (Real.logb_le_logb_of_le (by norm_num) hposR hhigh).trans (logb_two_pow_le 1024)
  have hdown := Real.logb_le_logb_of_le (by norm_num : (1 : ℝ) < 10) (by positivity) hlow
  have hbits := logb_two_pow_le 1074
  rw [Real.logb_inv] at hdown
  norm_num at hup hbits
  rw [abs_lt]
  constructor <;> linarith

/-! ### platforms -/

/-- what mathematical libraries document of their functions -/
class Platform.Sound [Platform] : Prop where
  logarithm_zero : logarithm 0.0 = -infinite
  logarithm_infinite : logarithm infinite = infinite
  /-- two units in the last place of a logarithm, which is below `512` -/
  logarithm_near : ∀ {x v}, IsAmount x v → 0 < v → (logarithm x).isFinite = true ∧
    |(valueOf (logarithm x) : ℝ) - Real.logb 10 v| ≤ 2 ^ (-43 : ℤ)
  power_bottom : power 10.0 (-infinite) = 0.0
  power_top : power 10.0 infinite = infinite
  power_near : ∀ {y} {k : ℤ}, y.isFinite = true → valueOf y = k → Faithful (10 ^ k) (power 10.0 y)
  hypotenuse_near : ∀ {x y}, x.isFinite = true → y.isFinite = true →
    Faithful (√(valueOf x ^ 2 + valueOf y ^ 2 : ℚ)) (hypotenuse x y)
  hypotenuse_legs : ∀ {x y}, (hypotenuse x y).isFinite = true → x.isFinite = true ∧
    y.isFinite = true
  cosine_range : ∀ {x}, x.isFinite = true → -1.0 ≤ cosine x ∧ cosine x ≤ 1.0
  cosine_missing : ∀ {x}, x.isNaN = true → (cosine x).isNaN = true
  sine_range : ∀ {x}, x.isFinite = true → -1.0 ≤ sine x ∧ sine x ≤ 1.0
  arccosine_range : ∀ {x}, -1.0 ≤ x ∧ x ≤ 1.0 → 0.0 ≤ arccosine x ∧ arccosine x ≤ pi
  arccosine_missing : ∀ {x}, x.isNaN = true → (arccosine x).isNaN = true
  bearing_range : ∀ {y x}, y.isFinite = true → x.isFinite = true →
    -pi ≤ bearing y x ∧ bearing y x ≤ pi

end Figures
