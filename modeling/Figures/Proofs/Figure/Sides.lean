import Figures.Figure.Triangle
import Figures.Proofs.Number.Gap

/-!
# The sides of triangles

* `Triangle.ratio`             the cosine of the angle at `A`, by the sides
* `Triangle.lt_of_longer`      no side is much longer than both others
* `Triangle.moderate_sides`    if the cosine is a number, the sides at `A` are far from the largest
                               double
-/

namespace Figures

open Binary

namespace Triangle

variable {a b c : Float}

/-- the cosine of the angle at `A`, as the doubles have it -/
def ratio (a b c : Float) : Float := (b * b + c * c - a * a) / (2.0 * b * c)

def angleA [Platform] (a b c : Float) : Float := arccosine (clamp (-1.0) 1.0 (ratio a b c))

theorem corners_ok [Platform] {t : Point × Point × Point} (h : corners a b c = .ok t) :
    (¬ a + b ≤ c ∧ ¬ a + c ≤ b ∧ ¬ b + c ≤ a) ∧
      t = (Point.origin, ⟨c, 0.0⟩, ⟨b * cosine (angleA a b c), b * sine (angleA a b c)⟩) := by
  rw [corners] at h
  split at h
  · cases h
  · rename_i hsides
    cases h
    simp only [Bool.or_eq_true, decide_eq_true_eq, not_or] at hsides
    exact ⟨⟨hsides.1.1, hsides.1.2, hsides.2⟩, rfl⟩

/-- a side is lost in a much longer one, and then the third one is neither longer nor shorter -/
theorem lt_of_longer {x y s : Float} (ha : a.isFinite = true) (hx : x.isFinite = true)
    (hy : y.isFinite = true) (hapos : 0 < valueOf a) (hxpos : 0 < valueOf x) (hypos : 0 < valueOf y)
    (hs : RoundsTo (valueOf x + valueOf y) s.toBits.toNat) (hsum : ¬ s ≤ a) (hother : ¬ a + y ≤ x) :
    valueOf x < 2 ^ 55 * valueOf y := by
  by_contra hlong
  rw [not_lt] at hlong
  have habsorbed := hs.absorb hx hxpos hypos.le (by linarith)
  have hless : valueOf a < valueOf x := by
    by_contra hle
    exact hsum (habsorbed.le (roundsTo_self ha) hxpos.le (not_lt.mp hle))
  have hgap := (abs_le_gap ha hx hless).2
  rw [abs_of_pos hxpos] at hgap
  refine hother ((roundsTo_add ha hy).le (roundsTo_self hx) (by linarith) ?_)
  linarith

/-- if the cosine is a number, the sides at `A` are far from the largest double -/
theorem moderate_sides (ha : a.isFinite = true ∧ 0 < valueOf a)
    (hb : b.isFinite = true ∧ 0 < valueOf b) (hc : c.isFinite = true ∧ 0 < valueOf c)
    (hsides : ¬ a + b ≤ c ∧ ¬ a + c ≤ b ∧ ¬ b + c ≤ a) (hnumber : (ratio a b c).isNaN = false) :
    valueOf b < 2 ^ (1000 : ℤ) ∧ valueOf c < 2 ^ (1000 : ℤ) := by
  obtain ⟨hsumAB, hsumAC, hsumBC⟩ := hsides
  have hbc := lt_of_longer ha.1 hb.1 hc.1 ha.2 hb.2 hc.2 (roundsTo_add hb.1 hc.1) hsumBC hsumAC
  have hcb := lt_of_longer ha.1 hc.1 hb.1 ha.2 hc.2 hb.2
    (add_comm (valueOf b) _ ▸ roundsTo_add hb.1 hc.1) hsumBC hsumAB
  by_contra hlarge
  have hlarge : 2 ^ (1000 : ℤ) ≤ valueOf b ∨ 2 ^ (1000 : ℤ) ≤ valueOf c := by
    rw [not_and_or, not_lt, not_lt] at hlarge
    exact hlarge
  have hsquare : doubleLimit * 2 ^ 55 ≤ 2 ^ (1000 : ℤ) * 2 ^ (1000 : ℤ) := by
    have hlimit : doubleLimit ≤ 2 ^ (1024 : ℤ) := by
      rw [doubleLimit]
      exact sub_le_self _ (by positivity)
    calc doubleLimit * 2 ^ 55 ≤ 2 ^ (1024 : ℤ) * 2 ^ (55 : ℤ) := by
          gcongr
          exact le_rfl
      _ = 2 ^ (1079 : ℤ) := by
          rw [← zpow_add₀ two_ne_zero]
          rfl
      _ ≤ 2 ^ (1000 + 1000 : ℤ) := zpow_le_zpow_right₀ one_le_two (by decide)
      _ = 2 ^ (1000 : ℤ) * 2 ^ (1000 : ℤ) := zpow_add₀ two_ne_zero _ _
  have hpower : (0 : ℚ) < 2 ^ (1000 : ℤ) := by positivity
  have hlimit := doubleLimit_pos
  generalize (2 : ℚ) ^ (1000 : ℤ) = k at hlarge hsquare hpower
  have hsquares : ∀ {x : Float}, x.isFinite = true → k ≤ valueOf x → (x * x).isFinite = false := by
    intro x hx hk
    rw [Bool.eq_false_iff, ne_eq, (roundsTo_mul hx hx).isFinite_iff, not_lt, abs_mul_self]
    nlinarith [mul_le_mul hk hk hpower.le (hpower.le.trans hk)]
  have hproduct : doubleLimit ≤ valueOf b * valueOf c := by
    rcases hlarge with hk | hk
    · nlinarith [mul_le_mul hk (hk.trans hbc.le) hpower.le (hpower.le.trans hk)]
    · nlinarith [mul_le_mul (hk.trans hcb.le) hk hpower.le (by linarith [hb.2])]
  refine Bool.false_ne_true (hnumber.symm.trans (isNaN_div ?_ ?_))
  · rw [Bool.eq_false_iff]
    intro hnumerator
    obtain ⟨hbb, hcc⟩ := finite_of_add (finite_of_sub hnumerator).1
    rcases hlarge with hk | hk
    · exact Bool.false_ne_true ((hsquares hb.1 hk).symm.trans hbb)
    · exact Bool.false_ne_true ((hsquares hc.1 hk).symm.trans hcc)
  · rw [Bool.eq_false_iff]
    intro hdenominator
    have hdouble := (finite_of_mul hdenominator).1
    have hrounds := roundsTo_mul (by decide : (2.0 : Float).isFinite = true) hb.1
    rw [valueOf_two] at hrounds
    have hle := hrounds.le_valueOf hdouble hb.1 (by linarith [hb.2])
    rw [(roundsTo_mul hdouble hc.1).isFinite_iff] at hdenominator
    have hlarger := mul_le_mul_of_nonneg_right hle hc.2.le
    linarith [le_abs_self (valueOf (2.0 * b) * valueOf c)]

/-! ### far from the largest double -/

/-- what is not larger is far from the largest double -/
@[irreducible] def moderate : ℚ := 2 ^ (1020 : ℤ)

/-- a number whose differences are finite -/
def Moderate (x : Float) : Prop := x.isFinite = true ∧ |valueOf x| ≤ moderate

theorem moderate_lt : 2 * moderate < doubleLimit := by
  have hsum : (2 : ℚ) * 2 ^ (1023 : ℤ) = 2 ^ (1024 : ℤ) := by
    rw [← zpow_one_add₀ two_ne_zero]
    rfl
  have hhalf : (2 : ℚ) ^ (970 : ℤ) < 2 ^ (1023 : ℤ) := zpow_lt_zpow_right₀ one_lt_two (by decide)
  have hpart : (2 : ℚ) * 2 ^ (1020 : ℤ) ≤ 2 ^ (1023 : ℤ) := by
    rw [← zpow_one_add₀ two_ne_zero]
    exact zpow_le_zpow_right₀ one_le_two (by decide)
  rw [doubleLimit, ← hsum, moderate]
  generalize (2 : ℚ) ^ (1023 : ℤ) = k at *
  generalize (2 : ℚ) ^ (1020 : ℤ) = j at *
  generalize (2 : ℚ) ^ (970 : ℤ) = h at *
  linarith

theorem Moderate.sub {x y : Float} (hx : Moderate x) (hy : Moderate y) :
    (x - y).isFinite = true := by
  rw [(roundsTo_sub hx.1 hy.1).isFinite_iff]
  calc |valueOf x - valueOf y| ≤ |valueOf x| + |valueOf y| := abs_sub _ _
    _ ≤ 2 * moderate := by linarith [hx.2, hy.2]
    _ < doubleLimit := moderate_lt

theorem moderate_zero : Moderate 0.0 := by
  have hzero : valueOf 0.0 = 0 := (beq_zero_iff (by decide)).mp (by decide)
  refine ⟨by decide, ?_⟩
  rw [hzero, abs_zero, moderate]
  positivity

theorem moderate_side {x : Float} (hx : x.isFinite = true ∧ 0 < valueOf x)
    (hlt : valueOf x < 2 ^ (1000 : ℤ)) :
    Moderate x := by
  refine ⟨hx.1, (abs_of_pos hx.2).le.trans (hlt.le.trans ?_)⟩
  rw [moderate]
  exact zpow_le_zpow_right₀ one_le_two (by decide)

theorem moderate_leg {x y : Float} (hx : x.isFinite = true ∧ 0 < valueOf x)
    (hlt : valueOf x < 2 ^ (1000 : ℤ)) (hy : Within 1000 y) : Moderate (x * y) := by
  obtain ⟨hyfinite, hyle⟩ := hy (by decide)
  have hrounds := roundsTo_mul hx.1 hyfinite
  have hexact : |valueOf x * valueOf y| ≤ 2 ^ (1010 : ℤ) := by
    have hpower : (2 : ℚ) ^ (1010 : ℤ) = 2 ^ (1000 : ℤ) * 2 ^ 10 := zpow_add₀ two_ne_zero 1000 10
    rw [abs_mul, abs_of_pos hx.2, hpower]
    exact mul_le_mul hlt.le (hyle.trans (by norm_num)) (abs_nonneg _) (by positivity)
  have hsmall : (2 : ℚ) * 2 ^ (1010 : ℤ) ≤ moderate := by
    rw [moderate, ← zpow_one_add₀ two_ne_zero]
    exact zpow_le_zpow_right₀ one_le_two (by decide)
  have hone : (1 : ℚ) ≤ 2 ^ (1010 : ℤ) := one_le_zpow₀ one_le_two (by decide)
  have hsmallest : (2 : ℚ) ^ (-1074 : ℤ) ≤ 1 := zpow_le_one_of_nonpos₀ one_le_two (by decide)
  have hlimit := moderate_lt
  have hhidden : (4 : ℚ) ≤ hiddenBit := by decide
  have hpart : |valueOf x * valueOf y| / hiddenBit ≤ |valueOf x * valueOf y| / 4 := by gcongr
  generalize (2 : ℚ) ^ (1010 : ℤ) = k at *
  have hfinite : (x * y).isFinite = true := by
    rw [hrounds.isFinite_iff]
    linarith
  have hnear := (hrounds.abs_valueOf_le hfinite).trans (add_le_add_right hsmallest _)
  exact ⟨hfinite, by linarith⟩

section
variable [Platform] [Platform.Sound]

theorem not_isFinite_cosine_angleA (hnan : (ratio a b c).isNaN = true) :
    ¬ (cosine (angleA a b c)).isFinite = true := by
  have hnot : ∀ {x y : Float}, x < y → ¬ (x.isNaN = true ∨ y.isNaN = true) := fun hlt => by
    rw [(isNaN_of_lt hlt).1, (isNaN_of_lt hlt).2]
    decide
  have hkept : clamp (-1.0) 1.0 (ratio a b c) = ratio a b c := by
    rw [clamp, if_neg fun h => hnot h (.inl hnan), if_neg fun h => hnot h (.inr hnan)]
  have hcosine : (cosine (angleA a b c)).isNaN = true := by
    rw [angleA, hkept]
    exact Platform.Sound.cosine_missing (Platform.Sound.arccosine_missing hnan)
  rw [eq_of_isNaN hcosine]
  decide

theorem within_angleA (hnumber : (ratio a b c).isNaN = false) : Within 1000 (angleA a b c) :=
  .arccosine (clamp_bounds (by decide) hnumber)

end

end Triangle

end Figures
