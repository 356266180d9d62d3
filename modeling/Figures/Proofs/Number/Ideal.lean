import Figures.Proofs.Number.Canonical
import Figures.Proofs.Number.Scaled

/-!
# An ideal platform

* `exists_greatest`      the greatest double at or below a real number that is not negative
* `cut r`                a real number without what no double has of it
* `faithful_cut`         that is one of the two doubles about it
* `Platform.ideal`       the functions of real numbers, cut to doubles
* `Platform.sound_ideal` all that is assumed of a platform holds of it

So the assumptions can be met. The values of the ideal platform cannot be computed; what is said of
it follows from the assumptions alone.
-/

namespace Figures

open Binary

noncomputable section

/-! ### real numbers cut to doubles -/

/-- the greatest double at or below a real number that is not negative -/
theorem exists_greatest {r : ℝ} (hr : 0 ≤ r) : ∃ x v, IsAmount x v ∧ (v : ℝ) ≤ r ∧
    ∀ {y w}, IsAmount y w → (w : ℝ) ≤ r → w ≤ v := by
  classical
  let below (w : ℕ) : Prop := ∃ n e, Normal n e ∧ place n e = w ∧ ((n * 2 ^ e : ℚ) : ℝ) ≤ r
  have hzero : below 0 := ⟨0, -1074, ⟨le_rfl, by decide, by decide, .inr rfl⟩, rfl,
    by simpa using hr⟩
  obtain ⟨n, e, hnormal, hplace, hle⟩ :=
    Nat.findGreatest_spec (Nat.zero_le (2047 * hiddenBit)) hzero
  refine ⟨_, _, isAmount_nearest hnormal.small hnormal.low hnormal.high, hle, ?_⟩
  rintro y w ⟨m, d, hm, -, rfl⟩ hw
  refine (hm.place_le_place_iff hnormal).mp ?_
  rw [hplace]
  exact Nat.le_findGreatest hm.place_lt.le ⟨m, d, hm, rfl, hw⟩

/-- a real number that is not negative, cut to a double; from `2 ^ 1024` on it is infinite -/
def cut (r : ℝ) : Float :=
  if h : 0 ≤ r ∧ r < (2 ^ (1024 : ℤ) : ℚ) then (exists_greatest h.1).choose else infinite

section
variable {r : ℝ} (hr : 0 ≤ r)
include hr

theorem exists_cut (hlimit : r < (2 ^ (1024 : ℤ) : ℚ)) : ∃ v, IsAmount (cut r) v ∧ (v : ℝ) ≤ r ∧
    ∀ {y w}, IsAmount y w → (w : ℝ) ≤ r → w ≤ v := by
  rw [cut, dif_pos ⟨hr, hlimit⟩]
  exact (exists_greatest hr).choose_spec

theorem faithful_cut : Faithful r (cut r) := by
  rcases lt_or_ge r (2 ^ (1024 : ℤ) : ℚ) with hlimit | hlimit
  · obtain ⟨v, hv, hvr, hgreatest⟩ := exists_cut hr hlimit
    refine ⟨.inl ⟨v, hv⟩, fun hy hle => (hv.le_iff hy).mpr (Rat.cast_le.mp (hvr.trans hle)),
      fun hy hle => (hy.le_iff hv).mpr (hgreatest hy hle), fun hlarge =>
      absurd hlimit (not_lt.mpr hlarge)⟩
  · have hinfinite : cut r = infinite := dif_neg fun h => not_lt.mpr hlimit h.2
    refine ⟨.inr hinfinite, fun hy hle => ?_, fun hy _ => hinfinite ▸ hy.le_infinite,
      fun _ => hinfinite⟩
    exact absurd (Rat.cast_le.mp (hlimit.trans hle)) (not_le.mpr hy.lt_limit)

/-- below `512`, less than `2 ^ (-43)` is cut off -/
theorem cut_near (hsmall : r < 512) : ∃ v, IsAmount (cut r) v ∧ |(v : ℝ) - r| ≤ 2 ^ (-43 : ℤ) := by
  have hlimit : r < (2 ^ (1024 : ℤ) : ℚ) := by
    refine hsmall.trans_le ?_
    have hpow : (2 : ℚ) ^ (9 : ℤ) ≤ 2 ^ (1024 : ℤ) := zpow_le_zpow_right₀ one_le_two (by decide)
    exact_mod_cast hpow
  obtain ⟨v, hv, hvr, hgreatest⟩ := exists_cut hr hlimit
  have hfloor := Nat.floor_le (mul_nonneg hr (by positivity : (0 : ℝ) ≤ 2 ^ 43))
  have hnext := Nat.lt_floor_add_one (r * 2 ^ 43)
  have hbits : ⌊r * 2 ^ 43⌋₊ < 2 * hiddenBit := by
    rw [Nat.floor_lt (by positivity)]
    norm_num [hiddenBit]
    linarith
  have hgrid := isAmount_nearest (e := -43) hbits (by decide) (by decide)
  have hunit : (2 : ℝ) ^ (-43 : ℤ) = (2 ^ 43)⁻¹ := by norm_num
  have hle := hgreatest hgrid (by
    push_cast
    rw [hunit, ← div_eq_mul_inv, div_le_iff₀ (by positivity)]
    exact hfloor)
  have hleR := (Rat.cast_le (K := ℝ)).mpr hle
  push_cast at hleR
  rw [hunit] at hleR
  refine ⟨v, hv, abs_le.mpr ⟨?_, ?_⟩⟩
  · rw [hunit]
    have hstep : r < (⌊r * 2 ^ 43⌋₊ + 1) * (2 ^ 43)⁻¹ := by
      rw [← div_eq_mul_inv, lt_div_iff₀ (by positivity)]
      exact hnext
    linarith
  · have hpos : (0 : ℝ) ≤ 2 ^ (-43 : ℤ) := by positivity
    linarith

end

/-- a real number, cut to a double on its side of zero -/
def cutSigned (r : ℝ) : Float := if 0 ≤ r then cut r else -cut (-r)

theorem cutSigned_near {r : ℝ} (h : |r| < 512) : (cutSigned r).isFinite = true ∧
    |(valueOf (cutSigned r) : ℝ) - r| ≤ 2 ^ (-43 : ℤ) := by
  rw [abs_lt] at h
  rw [cutSigned]
  split_ifs with hr
  · obtain ⟨v, hv, hnear⟩ := cut_near hr h.2
    exact ⟨hv.isFinite, by rwa [hv.valueOf_eq]⟩
  · obtain ⟨v, hv, hnear⟩ := cut_near (neg_nonneg.mpr (not_le.mp hr).le) (by linarith)
    refine ⟨isFinite_neg hv.isFinite, ?_⟩
    rw [valueOf_neg hv.isFinite, hv.valueOf_eq, abs_sub_comm]
    push_cast
    rwa [sub_neg_eq_add, add_comm, ← sub_neg_eq_add]

/-- what is at most a double either way is cut to a double that is -/
theorem cutSigned_range {r : ℝ} {y : Float} {w : ℚ} (hy : IsAmount y w) (h : |r| ≤ w) :
    -y ≤ cutSigned r ∧ cutSigned r ≤ y := by
  have hneg := isFinite_neg hy.isFinite
  have hbound : ∀ {s : ℝ}, 0 ≤ s → s ≤ w → ∃ v, IsAmount (cut s) v ∧ v ≤ w := fun hs hle =>
    (faithful_cut hs).exists_le hy hle
  rw [abs_le] at h
  have hnonneg := hy.nonneg
  rw [cutSigned]
  split_ifs with hr
  · obtain ⟨v, hv, hle⟩ := hbound hr h.2
    have hpos := hv.nonneg
    rw [le_iff_valueOf hneg hv.isFinite, valueOf_neg hy.isFinite, hv.le_iff hy, hv.valueOf_eq,
      hy.valueOf_eq]
    exact ⟨by linarith, hle⟩
  · obtain ⟨v, hv, hle⟩ := hbound (neg_nonneg.mpr (not_le.mp hr).le) (by linarith)
    have hpos := hv.nonneg
    have hfinite := isFinite_neg hv.isFinite
    rw [le_iff_valueOf hneg hfinite, le_iff_valueOf hfinite hy.isFinite, valueOf_neg hy.isFinite,
      valueOf_neg hv.isFinite, hv.valueOf_eq, hy.valueOf_eq]
    exact ⟨by linarith, by linarith⟩

/-! ### the platform -/

namespace Platform

/-- the functions of real numbers, cut to doubles, with powers of bases above one only -/
@[reducible] def ideal : Platform where
  logarithm x :=
    if x.isFinite then
      if 0.0 < x then cutSigned (Real.logb 10 (valueOf x))
      else if x == 0.0 then -infinite
      else 0.0 / 0.0
    else if 0.0 < x then infinite
    else 0.0 / 0.0
  power b x :=
    if x.isFinite then cut ((valueOf b : ℝ) ^ (valueOf x : ℝ))
    else if 0.0 < x then infinite
    else if x < 0.0 then 0.0
    else 0.0 / 0.0
  hypotenuse x y :=
    if x.isFinite ∧ y.isFinite then cut √(valueOf x ^ 2 + valueOf y ^ 2 : ℚ)
    else if x.isInf || y.isInf then infinite
    else 0.0 / 0.0
  cosine x := if x.isFinite then cutSigned (Real.cos (valueOf x)) else 0.0 / 0.0
  sine x := if x.isFinite then cutSigned (Real.sin (valueOf x)) else 0.0 / 0.0
  arccosine x :=
    if -1.0 ≤ x ∧ x ≤ 1.0 then lesser (cut (Real.arccos (valueOf x))) pi else 0.0 / 0.0
  bearing y x :=
    if y.isFinite ∧ x.isFinite then clamp (-pi) pi (cutSigned (Complex.arg ⟨valueOf x, valueOf y⟩))
    else 0.0 / 0.0

theorem range_of_abs_le_one {r : ℝ} (h : |r| ≤ 1) : -1.0 ≤ cutSigned r ∧ cutSigned r ≤ 1.0 := by
  have hone : IsAmount 1.0 1 := by
    have hexact : ofFloat? 1.0 = some ⟨false, 4503599627370496, -52⟩ := by decide
    convert isAmount_of_ofFloat? hexact using 1
    norm_num
  exact cutSigned_range hone (by rwa [Rat.cast_one])

theorem cut_number {r : ℝ} (hr : 0 ≤ r) : (cut r).isNaN = false ∧ 0.0 ≤ cut r := by
  have h := faithful_cut hr
  refine ⟨?_, h.ge isAmount_zero (by rwa [Rat.cast_zero])⟩
  rcases h.cases with ⟨v, hv⟩ | hinfinite
  · exact hv.isNaN
  · rw [hinfinite]
    decide

theorem valueOf_ten : valueOf 10.0 = 10 := by
  have hexact : ofFloat? 10.0 = some ⟨false, 5629499534213120, -49⟩ := by decide
  rw [valueOf, hexact]
  norm_num [Binary.value]

/-- **All that is assumed of a platform holds of the ideal one.** -/
theorem sound_ideal : @Sound ideal :=
  letI := ideal
  { logarithm_zero := by decide
    logarithm_infinite := by decide
    logarithm_near := by
      intro x v hx hpos
      have hlogarithm : logarithm x = cutSigned (Real.logb 10 v) := by
        show (if x.isFinite then _ else _) = _
        rw [if_pos hx.isFinite, if_pos ((isAmount_zero.lt_iff hx).mpr hpos), hx.valueOf_eq]
      rw [hlogarithm]
      exact cutSigned_near (abs_logb_lt hx hpos)
    power_bottom := by decide
    power_top := by decide
    power_near := by
      intro y k hy hk
      have hpower : power 10.0 y = cut (10 ^ k) := by
        show (if y.isFinite then _ else _) = _
        rw [if_pos hy, valueOf_ten, hk, Rat.cast_intCast, Rat.cast_ofNat, Real.rpow_intCast]
      rw [hpower]
      exact faithful_cut (by positivity)
    hypotenuse_near := by
      intro x y hx hy
      have hlength : hypotenuse x y = cut √(valueOf x ^ 2 + valueOf y ^ 2 : ℚ) := if_pos ⟨hx, hy⟩
      rw [hlength]
      exact faithful_cut (Real.sqrt_nonneg _)
    hypotenuse_legs := by
      intro x y h
      by_contra hlegs
      have hlength : hypotenuse x y = if x.isInf || y.isInf then infinite else 0.0 / 0.0 :=
        if_neg hlegs
      rw [hlength] at h
      split at h <;> exact absurd h (by decide)
    cosine_range := by
      intro x hx
      have hcosine : cosine x = cutSigned (Real.cos (valueOf x)) := if_pos hx
      rw [hcosine]
      exact range_of_abs_le_one (Real.abs_cos_le_one _)
    cosine_missing := by
      intro x hx
      rw [eq_of_isNaN hx]
      decide
    sine_range := by
      intro x hx
      have hsine : sine x = cutSigned (Real.sin (valueOf x)) := if_pos hx
      rw [hsine]
      exact range_of_abs_le_one (Real.abs_sin_le_one _)
    arccosine_range := by
      intro x hx
      have harc : arccosine x = lesser (cut (Real.arccos (valueOf x))) pi := if_pos hx
      obtain ⟨hnumber, hpos⟩ := cut_number (Real.arccos_nonneg (valueOf x))
      rw [harc]
      refine ⟨?_, lesser_le_right (by decide)⟩
      rcases lesser_cases (cut (Real.arccos (valueOf x))) pi with heq | heq <;> rw [heq]
      · exact hpos
      · decide
    arccosine_missing := by
      intro x hx
      rw [eq_of_isNaN hx]
      decide
    bearing_range := by
      intro y x hy hx
      have hbearing : bearing y x = clamp (-pi) pi
          (cutSigned (Complex.arg ⟨valueOf x, valueOf y⟩)) :=
        if_pos ⟨hy, hx⟩
      have harg : |Complex.arg ⟨valueOf x, valueOf y⟩| < 512 :=
        (Complex.abs_arg_le_pi _).trans_lt (by linarith [Real.pi_lt_four])
      rw [hbearing]
      exact clamp_bounds (by decide) (isNaN_of_isFinite (cutSigned_near harg).1) }

end Platform

end

end Figures
