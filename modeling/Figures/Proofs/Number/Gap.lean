import Figures.Proofs.Number.Scaled

/-!
# Gaps between doubles

* `EvenNearest.of_little`   a little above a double, that double is nearest
* `RoundsTo.absorb`         so what is much smaller than a double is lost when it is added
* `abs_le_gap`              distinct doubles are never much nearer to each other than they are large
-/

namespace Figures

open Float.Model UnpackedFloat Binary

section
variable {m n : ℕ} {d e : ℤ} {t : ℚ}

/-- less than half a unit above a number on the grid, that number is nearest -/
theorem EvenNearest.of_little (h : Normal n e) (ht : 0 ≤ t) (hlittle : 2 * t < 2 ^ e) :
    EvenNearest (n * 2 ^ e + t) n e where
  low := h.low
  grid := h.full.imp_left fun hfull => (two_zpow_le hfull).trans (le_add_of_nonneg_right ht)
  high := by
    have hnext : ((n + 1 : ℕ) : ℚ) * 2 ^ e ≤ (2 * hiddenBit : ℕ) * 2 ^ e := by
      gcongr
      exact h.small
    have htop : ((2 * hiddenBit : ℕ) : ℚ) * 2 ^ e = 2 ^ (e + 53) := by
      rw [zpow_add₀ two_ne_zero, mul_comm]
      rfl
    rw [htop, Nat.cast_succ, add_mul, one_mul] at hnext
    linarith
  near := by
    rw [add_sub_cancel_left, abs_of_nonneg ht]
    exact hlittle.le
  tie := by
    intro htie
    rw [add_sub_cancel_left, abs_of_nonneg ht] at htie
    exact absurd htie hlittle.ne

/-- what is less than the 54th bit of a double is less than half its unit -/
theorem little_of_le (h : Normal n e) (hle : 2 ^ 54 * t ≤ n * 2 ^ e) : 2 * t < 2 ^ e := by
  have hsmall : (n * 2 ^ e : ℚ) < 2 ^ 53 * 2 ^ e := by
    have hbits : (n : ℚ) < 2 ^ 53 := by exact_mod_cast h.small
    gcongr
  linarith

/-- distinct magnitudes of doubles are apart by more than the 54th bit of the smaller one -/
theorem Binary.Normal.gap (hm : Normal m d) (hn : Normal n e) (hlt : (m * 2 ^ d : ℚ) < n * 2 ^ e) :
    (m * 2 ^ d : ℚ) < 2 ^ 54 * (n * 2 ^ e - m * 2 ^ d) := by
  by_contra hle
  have hnear := EvenNearest.of_little hm (sub_nonneg.mpr hlt.le) (little_of_le hm (not_lt.mp hle))
  rw [add_sub_cancel] at hnear
  have hplace := (EvenNearest.of_normal hn).place_le hnear le_rfl
  exact absurd ((hn.place_le_place_iff hm).mp hplace) (not_le.mpr hlt)

end

section
variable {x y : Float} {t : ℚ}

/-- what is much smaller than a positive double is lost when it is added to it -/
theorem RoundsTo.absorb {w : ℕ} (h : RoundsTo (valueOf x + t) w) (hx : x.isFinite = true)
    (hpos : 0 < valueOf x) (ht : 0 ≤ t) (hlittle : 2 ^ 54 * t ≤ valueOf x) :
      RoundsTo (valueOf x) w := by
  obtain ⟨s, n, e, hnormal, hvalue, -⟩ := exists_parts hx
  have habs : valueOf x = n * 2 ^ e := by
    rw [← abs_of_pos hpos, hvalue, abs_signFactor_mul s (by positivity)]
  obtain ⟨m, d, hm, hword⟩ := h.magnitude
  rw [abs_of_pos (by linarith), habs] at hm
  rw [habs] at hlittle
  have hnear := EvenNearest.of_little hnormal ht (little_of_le hnormal hlittle)
  have hplace : place m d = place n e := le_antisymm (hm.place_le hnear le_rfl)
    (hnear.place_le hm le_rfl)
  refine ⟨⟨n, e, ?_, by rw [← hplace, hword]⟩, fun _ => h.pos (by linarith), fun hneg => ?_⟩
  · rw [abs_of_pos hpos, habs]
    exact .of_normal hnormal
  · exact absurd hneg (not_lt.mpr hpos.le)

/-- distinct doubles are never much nearer to each other than they are large -/
theorem abs_le_gap (hx : x.isFinite = true) (hy : y.isFinite = true) (hlt : valueOf x < valueOf y) :
    |valueOf x| ≤ 2 ^ 55 * (valueOf y - valueOf x) ∧ |valueOf y| ≤
      2 ^ 55 * (valueOf y - valueOf x) := by
  have hgap : ∀ {a b : Float}, a.isFinite = true → b.isFinite = true → |valueOf a| < |valueOf b| →
      |valueOf a| < 2 ^ 54 * (|valueOf b| - |valueOf a|) := by
    intro a b ha hb hless
    obtain ⟨s, m, d, hm, hvalueA, -⟩ := exists_parts ha
    obtain ⟨u, n, e, hn, hvalueB, -⟩ := exists_parts hb
    rw [hvalueA, hvalueB, abs_signFactor_mul s (by positivity),
      abs_signFactor_mul u (by positivity)] at hless ⊢
    exact hm.gap hn hless
  rcases le_or_gt 0 (valueOf x) with hxpos | hxneg
  · have hypos := hxpos.trans hlt.le
    have hless := hgap hx hy (by rwa [abs_of_nonneg hxpos, abs_of_nonneg hypos])
    rw [abs_of_nonneg hxpos, abs_of_nonneg hypos] at hless ⊢
    constructor <;> linarith
  · rcases le_or_gt (valueOf y) 0 with hyneg | hypos
    · have hless := hgap hy hx (by rwa [abs_of_neg hxneg, abs_of_nonpos hyneg, neg_lt_neg_iff])
      rw [abs_of_neg hxneg, abs_of_nonpos hyneg] at hless ⊢
      constructor <;> linarith
    · rw [abs_of_neg hxneg, abs_of_pos hypos]
      constructor <;> linarith

end

/-! ### quotients that are no numbers -/

/-- neither an infinity nor a missing number is a multiple of one -/
theorem isNaN_div {x y : Float} (hx : x.isFinite = false) (hy : y.isFinite = false) :
    (x / y).isNaN = true := by
  change x.toModel.unpack.isFinite = false at hx
  change y.toModel.unpack.isFinite = false at hy
  have hnone : x.toModel.unpack.div .binary64 y.toModel.unpack = .notANumber := by
    generalize x.toModel.unpack = u at hx
    generalize y.toModel.unpack = v at hy
    cases u with
    | notANumber => cases v <;> rfl
    | infinity s =>
      cases v with
      | notANumber => rfl
      | infinity t => rfl
      | _ => cases hy
    | _ => cases hx
  show (UnpackedFloat.unpack .binary64 (UnpackedFloat.pack .binary64
    (x.toModel.unpack.div .binary64 y.toModel.unpack))).isNaN = true
  rw [hnone]
  decide

end Figures
