import Figures.Figure.BarChart
import Figures.Proofs.Number.Within

/-!
# The step of an axis

* `stride m`           the step of the axis that has to reach `m`
* `Magnitude raw R D`  the power of ten that the platform finds for a raw step `R`: about `R`, or
                       below it
* `firstStep_cases`    the step is one, two, five or ten times that, and reaches `R` unless it is
                       ten times
* `Strides m M S`      how far the step `S` is from `M`
* `exists_strides`     unless the power of ten is zero, the step is an amount of which at most seven
                       reach `m`

The logarithm may be off, and with it the power: just below a power of ten the next one can be
taken, just above it the one before. The step is about as long in both cases. A power of ten is zero
for a raw step of at most two of the smallest doubles only, and then if the platform rounds it down.
-/

namespace Figures

namespace BarChart

open Binary

def smallest : ℚ := 2 ^ (-1074 : ℤ)

theorem smallest_pos : 0 < smallest := by
  rw [smallest]
  positivity

/-- of one, two, five and ten times a power of ten, the first that reaches `raw` -/
def firstStep (raw magnitude : Float) : Float :=
  (([1.0, 2.0, 5.0, 10.0].map (· * magnitude)).find? fun s => raw ≤ s).getD (10.0 * magnitude)

/-! ### the numbers of the axis -/

theorem isAmount_numeral {x : Float} {n : ℕ} (hsmall : n < 2 * hiddenBit) (h : whole false n = x) :
    IsAmount x n := h ▸ isAmount_whole hsmall

theorem isAmount_one : IsAmount 1.0 1 := by
  exact_mod_cast isAmount_numeral (n := 1) (by decide) (by decide)

theorem isAmount_two : IsAmount 2.0 2 := by
  exact_mod_cast isAmount_numeral (n := 2) (by decide) (by decide)

theorem isAmount_five : IsAmount 5.0 5 := by
  exact_mod_cast isAmount_numeral (n := 5) (by decide) (by decide)

theorem isAmount_ten : IsAmount 10.0 10 := by
  exact_mod_cast isAmount_numeral (n := 10) (by decide) (by decide)

theorem firstStep_eq (raw magnitude : Float) : firstStep raw magnitude =
    if raw ≤ 1.0 * magnitude then 1.0 * magnitude
    else if raw ≤ 2.0 * magnitude then 2.0 * magnitude
    else if raw ≤ 5.0 * magnitude then 5.0 * magnitude
    else 10.0 * magnitude := by
  simp only [firstStep, List.map, List.find?_cons, List.find?_nil]
  by_cases hone : raw ≤ 1.0 * magnitude
  · simp [hone]
  by_cases htwo : raw ≤ 2.0 * magnitude
  · simp [hone, htwo]
  by_cases hfive : raw ≤ 5.0 * magnitude
  · simp [hone, htwo, hfive]
  by_cases hten : raw ≤ 10.0 * magnitude <;> simp [hone, htwo, hfive, hten]

/-- the step is one, two, five or ten times a power of ten; it is ten times if nothing less reaches
`raw` -/
theorem firstStep_cases (raw magnitude : Float) : ∃ c q, IsAmount c q ∧
    firstStep raw magnitude = c * magnitude ∧
      (raw ≤ c * magnitude ∧ (q = 1 ∨ q = 2 ∨ q = 5) ∨ q = 10 ∧ ¬ raw ≤ 5.0 * magnitude) := by
  rw [firstStep_eq]
  split_ifs with hone htwo hfive
  · exact ⟨1.0, 1, isAmount_one, rfl, .inl ⟨hone, .inl rfl⟩⟩
  · exact ⟨2.0, 2, isAmount_two, rfl, .inl ⟨htwo, .inr (.inl rfl)⟩⟩
  · exact ⟨5.0, 5, isAmount_five, rfl, .inl ⟨hfive, .inr (.inr rfl)⟩⟩
  · exact ⟨10.0, 10, isAmount_ten, rfl, .inr ⟨rfl, hfive⟩⟩

/-! ### small and large numbers -/

/-- the small doubles at which steps are told apart, in units of the smallest one -/
def smallNumbers : List (Float × ℕ) :=
  [(5e-324, 1), (1e-323, 2), (1.5e-323, 3), (6.4e-323, 13), (1e-322, 20)]

theorem isAmount_small {x : Float} {n : ℕ} (h : (x, n) ∈ smallNumbers) :
    IsAmount x (n * smallest) := by
  have hexact : ∀ e ∈ smallNumbers, ofFloat? e.1 = some ⟨false, e.2, -1074⟩ := by decide +kernel
  have hx : ofFloat? x = some ⟨false, n, -1074⟩ := hexact (x, n) h
  rw [smallest]
  exact isAmount_of_ofFloat? hx

theorem isAmount_second : IsAmount 1e-323 (2 * smallest) := by
  exact_mod_cast isAmount_small (n := 2) (by simp [smallNumbers])

theorem isAmount_twentieth : IsAmount 1e-322 (20 * smallest) := by
  exact_mod_cast isAmount_small (n := 20) (by simp [smallNumbers])

theorem ten_zpow_low : 201 * smallest ≤ 100 * 10 ^ (-323 : ℤ) ∧ 20 * 10 ^
    (-323 : ℤ) ≤ 41 * smallest := by
  have hlow : ((201 * 10 ^ 323 : ℕ) : ℚ) ≤ (100 * 2 ^ 1074 : ℕ) :=
    Nat.cast_le.mpr (by decide +kernel)
  have hhigh : ((20 * 2 ^ 1074 : ℕ) : ℚ) ≤ (41 * 10 ^ 323 : ℕ) :=
    Nat.cast_le.mpr (by decide +kernel)
  simp only [Nat.cast_mul, Nat.cast_pow, Nat.cast_ofNat] at hlow hhigh
  rw [smallest, zpow_neg, zpow_neg, zpow_ofNat, zpow_ofNat, ← div_eq_mul_inv, ← div_eq_mul_inv,
    ← div_eq_mul_inv, ← div_eq_mul_inv, div_le_div_iff₀ (by positivity) (by positivity),
    div_le_div_iff₀ (by positivity) (by positivity)]
  exact ⟨hlow, hhigh⟩

/-- the last place of doubles between `2 ^ 1019` and `2 ^ 1020`, the largest powers of ten -/
def lastPlace : ℚ := 2 ^ (967 : ℤ)

theorem lastPlace_pos : 0 < lastPlace := by
  rw [lastPlace]
  positivity

theorem smallest_le_lastPlace : smallest ≤ lastPlace :=
  zpow_le_zpow_right₀ one_le_two (by decide)

/-- the large doubles at which steps are told apart: so many last places, so often doubled -/
def largeNumbers : List (Float × ℕ × ℕ) :=
  [(1e307, 8016673440035891, 0), (1.0000000000000001e307, 8016673440035892, 0),
   (2.0000000000000002e307, 8016673440035892, 1), (3.7e307, 7415422932033199, 2),
   (4e307, 8016673440035891, 2), (4.999999999999999e307, 5010420900022431, 3),
   (5.000000000000001e307, 5010420900022433, 3), (1.4e308, 7014589260031405, 4),
   (1.55e308, 7766152395034770, 4), (1.6e308, 8016673440035891, 4), (1.7e308, 8517715530038134, 4)]

theorem isAmount_large {x : Float} {n k : ℕ} (h : (x, n, k) ∈ largeNumbers) :
    IsAmount x ((n * 2 ^ k : ℕ) * lastPlace) := by
  have hexact : ∀ e ∈ largeNumbers, ofFloat? e.1 = some ⟨false, e.2.1, 967 + e.2.2⟩ := by
    decide +kernel
  have hx := isAmount_of_ofFloat? (hexact (x, n, k) h)
  rw [zpow_add₀ two_ne_zero, zpow_natCast] at hx
  rw [lastPlace, Nat.cast_mul, Nat.cast_pow, Nat.cast_ofNat, mul_assoc, mul_comm (2 ^ k : ℚ)]
  exact hx

/-- the largest powers of ten of doubles, in units of the last place -/
theorem ten_zpow_high : 10 ^ (306 : ℤ) ≤ 881834078403948 * lastPlace ∧
    8016673440035891 * lastPlace ≤ 10 ^ (307 : ℤ) ∧ 10 ^ (307 : ℤ) ≤ 8016673440035892 * lastPlace ∧
      36028797018963968 * lastPlace < 10 ^ (308 : ℤ) := by
  have hlow : ((10 ^ 306 : ℕ) : ℚ) ≤ (881834078403948 * 2 ^ 967 : ℕ) :=
    Nat.cast_le.mpr (by decide +kernel)
  have hbelow : ((8016673440035891 * 2 ^ 967 : ℕ) : ℚ) ≤ (10 ^ 307 : ℕ) :=
    Nat.cast_le.mpr (by decide +kernel)
  have habove : ((10 ^ 307 : ℕ) : ℚ) ≤ (8016673440035892 * 2 ^ 967 : ℕ) :=
    Nat.cast_le.mpr (by decide +kernel)
  have hhigh : ((36028797018963968 * 2 ^ 967 : ℕ) : ℚ) < (10 ^ 308 : ℕ) :=
    Nat.cast_lt.mpr (by decide +kernel)
  simp only [Nat.cast_mul, Nat.cast_pow, Nat.cast_ofNat] at hlow hbelow habove hhigh
  rw [lastPlace, zpow_ofNat, zpow_ofNat, zpow_ofNat, zpow_ofNat]
  exact ⟨hlow, hbelow, habove, hhigh⟩

theorem two_zpow_limit : (2 : ℚ) ^ (1024 : ℤ) = 144115188075855872 * lastPlace := by
  have hpow : (144115188075855872 : ℚ) = 2 ^ (57 : ℤ) := by norm_num
  rw [lastPlace, hpow, ← zpow_add₀ two_ne_zero]
  rfl

theorem lt_lastPlace {x : Float} {v : ℚ} (h : IsAmount x v) : v < 144115188075855872 * lastPlace :=
  two_zpow_limit ▸ h.lt_limit

theorem isAmount_1e307 : IsAmount 1e307 (8016673440035891 * lastPlace) ∧
    IsAmount 1.0000000000000001e307 (8016673440035892 * lastPlace) := by
  constructor
  · exact_mod_cast isAmount_large (k := 0) (n := 8016673440035891) (by simp [largeNumbers])
  · exact_mod_cast isAmount_large (k := 0) (n := 8016673440035892) (by simp [largeNumbers])

theorem isAmount_2e307 : IsAmount 2.0000000000000002e307 (16033346880071784 * lastPlace) := by
  exact_mod_cast isAmount_large (k := 1) (n := 8016673440035892) (by simp [largeNumbers])

theorem isAmount_5e307 : IsAmount 4.999999999999999e307 (40083367200179448 * lastPlace) ∧
    IsAmount 5.000000000000001e307 (40083367200179464 * lastPlace) := by
  constructor
  · exact_mod_cast isAmount_large (k := 3) (n := 5010420900022431) (by simp [largeNumbers])
  · exact_mod_cast isAmount_large (k := 3) (n := 5010420900022433) (by simp [largeNumbers])

/-- a number that no finite axis is above -/
theorem isAmount_high : IsAmount 1.6e308 (128266775040574256 * lastPlace) := by
  exact_mod_cast isAmount_large (k := 4) (n := 8016673440035891) (by simp [largeNumbers])

/-! ### the power of ten -/

section
variable [Platform]

/-- the step of the axis that has to reach `m` -/
def stride (m : Float) : Float := (axis m).2

theorem stride_eq {m : Float} (h : ¬ m ≤ 0.0) :
    stride m = firstStep (m / 5.0) (decade (m / 5.0)) := by
  rw [stride, axis, if_neg h]
  rfl

theorem axis_eq {m : Float} (h : ¬ m ≤ 0.0) :
    axis m = (ceiling (m / stride m) * stride m, stride m) := by
  rw [stride, axis, if_neg h]

/-- a power of ten for the raw step `R`, as a double `D` -/
structure Magnitude (raw : Float) (R D : ℚ) : Prop where
  amount : IsAmount (decade raw) D
  low : 2 * smallest ≤ D
  le : 20 * D ≤ 31 * R
  ge : 25 * R ≤ 263 * D
  far : D ≤ 881834078403948 * lastPlace ∨
    8016673440035891 * lastPlace ≤ D ∧ D ≤ 8016673440035892 * lastPlace

end

/-- a small error of a logarithm is one part in a thousand of the number -/
theorem rpow_le_of_le {a b t : ℝ} (h : a ≤ b + t) (ht : 0 ≤ t) (hsmall : 9000 * t ≤ 1) :
    1000 * (10 : ℝ) ^ a ≤ 1001 * 10 ^ b := by
  have hbernoulli := rpow_one_add_le_one_add_mul_self (s := 9) (p := t) (by norm_num) ht
    (by linarith)
  have hbase : (1 + 9 : ℝ) = 10 := by norm_num
  rw [hbase] at hbernoulli
  have hten : (0 : ℝ) < 10 ^ b := Real.rpow_pos_of_pos (by norm_num) b
  calc 1000 * (10 : ℝ) ^ a ≤ 1000 * 10 ^ (b + t) :=
        mul_le_mul_of_nonneg_left (Real.rpow_le_rpow_of_exponent_le (by norm_num) h) (by norm_num)
    _ = 1000 * (10 ^ b * 10 ^ t) := by rw [Real.rpow_add (by norm_num)]
    _ ≤ 1001 * 10 ^ b := by nlinarith

/-- a power of ten is rounded by a twentieth at most, that of `1e-323` by a half -/
theorem zpow_close {k : ℤ} {x : Float} {D : ℚ} (h : Faithful (10 ^ k : ℚ) x) (hx : IsAmount x D)
    (hlow : -323 ≤ k) (hhigh : k ≤ 307) :
    2 * smallest ≤ D ∧ 20 * 10 ^ k ≤ 21 * D ∧ 2 * D ≤ 3 * 10 ^ k := by
  have hpos := smallest_pos
  obtain ⟨hleast, hmost⟩ := ten_zpow_low
  rcases eq_or_lt_of_le hlow with rfl | hlow
  · -- two or three of the smallest doubles
    have hthird : IsAmount 1.5e-323 (3 * smallest) := by
      exact_mod_cast isAmount_small (n := 3) (by simp [smallNumbers])
    have htwo : 2 * smallest ≤ D := h.value_ge hx isAmount_second (Rat.cast_le.mpr (by linarith))
    obtain ⟨v, hv, hle⟩ := h.exists_le hthird (Rat.cast_le.mpr (by linarith))
    rw [hv.unique hx] at hle
    exact ⟨htwo, by linarith, by linarith⟩
  · have htenfold : (10 : ℚ) * 10 ^ (-323 : ℤ) ≤ 10 ^ k := by
      rw [← zpow_one_add₀ (by norm_num)]
      exact zpow_le_zpow_right₀ (by norm_num) (by omega)
    have hlimit : (10 : ℚ) ^ k < 2 ^ (1024 : ℤ) := by
      refine (zpow_le_zpow_right₀ (by norm_num) hhigh).trans_lt (ten_zpow_high.2.2.1.trans_lt ?_)
      rw [two_zpow_limit]
      exact mul_lt_mul_of_pos_right (by norm_num) lastPlace_pos
    have htwenty : 20 * smallest ≤ D := h.value_ge hx isAmount_twentieth
      (Rat.cast_le.mpr (by linarith))
    have hclose := h.close hx (c := 20) (by decide) (by decide) (by exact_mod_cast htwenty)
      (Rat.cast_lt.mpr hlimit)
    have hclose : 20 * |(10 : ℚ) ^ k - D| < D := by exact_mod_cast hclose
    rw [← lt_div_iff₀' (by norm_num), abs_lt] at hclose
    exact ⟨by linarith, by linarith, by linarith⟩

section
variable [Platform] [Platform.Sound] {raw : Float} {R : ℚ}

/-- the exponent is the whole part of a logarithm that is nearly exact -/
theorem exists_exponent (hR : IsAmount raw R) (hpos : 0 < R) : ∃ k : ℤ,
    1000 * 10 ^ k ≤ 1001 * R ∧ 1000 * R ≤ 1001 * 10 ^ (k + 1) ∧
      Faithful (10 ^ k : ℚ) (decade raw) := by
  obtain ⟨hfinite, hnear⟩ := Platform.Sound.logarithm_near hR hpos
  have hsize := abs_logb_lt hR hpos
  rw [abs_le] at hnear
  rw [abs_lt] at hsize
  have hhidden : |valueOf (logarithm raw)| ≤ hiddenBit := by
    have herror : (2 : ℝ) ^ (-43 : ℤ) ≤ 1 := by norm_num
    have hbound : |(valueOf (logarithm raw) : ℝ)| ≤ hiddenBit := by
      rw [abs_le]
      norm_num [hiddenBit]
      constructor <;> linarith
    exact_mod_cast hbound
  obtain ⟨hfloor, hvalue⟩ := valueOf_floor hfinite hhidden
  have hlow : ((⌊valueOf (logarithm raw)⌋ : ℤ) : ℝ) ≤ valueOf (logarithm raw) := by
    exact_mod_cast Int.floor_le (valueOf (logarithm raw))
  have hhigh : (valueOf (logarithm raw) : ℝ) < (⌊valueOf (logarithm raw)⌋ : ℤ) + 1 := by
    exact_mod_cast Int.lt_floor_add_one (valueOf (logarithm raw))
  generalize ⌊valueOf (logarithm raw)⌋ = k at hlow hhigh hvalue
  have hpower : (10 : ℝ) ^ Real.logb 10 R = R :=
    Real.rpow_logb (by norm_num) (by norm_num) (Rat.cast_pos.mpr hpos)
  have herror : (0 : ℝ) ≤ 2 ^ (-43 : ℤ) ∧ 9000 * (2 : ℝ) ^ (-43 : ℤ) ≤ 1 := by norm_num
  generalize (2 : ℝ) ^ (-43 : ℤ) = t at hnear herror
  have hbelow := rpow_le_of_le (a := k) (b := Real.logb 10 R) (by linarith) herror.1 herror.2
  have habove := rpow_le_of_le (a := Real.logb 10 R) (b := (k + 1 : ℤ)) (by push_cast; linarith)
    herror.1 herror.2
  rw [hpower, Real.rpow_intCast] at hbelow habove
  refine ⟨k, (Rat.cast_le (K := ℝ)).mp (by push_cast; exact hbelow),
    (Rat.cast_le (K := ℝ)).mp (by push_cast; exact habove), ?_⟩
  rw [Rat.cast_zpow, Rat.cast_ofNat]
  exact Platform.Sound.power_near hfloor hvalue

/-- the power of ten for a raw step that is not tiny -/
theorem exists_magnitude (hR : IsAmount raw R) (hlow : 3 * smallest ≤ R)
    (hhigh : R ≤ 30000000000000000 * lastPlace) : ∃ D, Magnitude raw R D := by
  have hpos := smallest_pos
  have hplace := lastPlace_pos
  obtain ⟨k, hbelow, habove, hfaithful⟩ := exists_exponent hR (by linarith)
  have hkhigh : k < 308 := (zpow_lt_zpow_iff_right₀ (show (1 : ℚ) < 10 by norm_num)).mp
    (lt_trans (by linarith) ten_zpow_high.2.2.2)
  have hklow : -323 < k + 1 := (zpow_lt_zpow_iff_right₀ (show (1 : ℚ) < 10 by norm_num)).mp (by
    have hmost := ten_zpow_low.2
    linarith)
  have hle : ∀ {y : Float} {b : ℚ} {K : ℤ}, IsAmount y b → (10 : ℚ) ^ K ≤ b → k ≤ K →
      ∃ D, IsAmount (decade raw) D ∧ D ≤ b := by
    intro y b K hy hb hkK
    exact hfaithful.exists_le hy
      (Rat.cast_le.mpr ((zpow_le_zpow_right₀ (by norm_num) hkK).trans hb))
  obtain ⟨D, hD, hDhigh⟩ := hle isAmount_1e307.2 ten_zpow_high.2.2.1 (by omega)
  obtain ⟨htwo, hclose, hcloseD⟩ := zpow_close hfaithful hD (by omega) (by omega)
  rw [zpow_add_one₀ (by norm_num)] at habove
  refine ⟨D, hD, htwo, by linarith, by linarith, ?_⟩
  rcases lt_or_eq_of_le (show k ≤ 307 by omega) with hlt | rfl
  · have hsmall : IsAmount 1.1e306 (881834078403948 * lastPlace) := by
      have hexact : ofFloat? 1.1e306 = some ⟨false, 7054672627231584, 964⟩ := by decide +kernel
      have hsplit : (7054672627231584 : ℕ) = (881834078403948 : ℚ) * 2 ^ (3 : ℤ) := by norm_num
      have hplace : lastPlace = 2 ^ (3 : ℤ) * 2 ^ (964 : ℤ) := (zpow_add₀ two_ne_zero 3 964)
      rw [hplace, ← mul_assoc, ← hsplit]
      exact isAmount_of_ofFloat? hexact
    obtain ⟨v, hv, hvle⟩ := hle hsmall ten_zpow_high.1 (by omega)
    exact .inl (hv.unique hD ▸ hvle)
  · exact .inr ⟨hfaithful.value_ge hD isAmount_1e307.1 (Rat.cast_le.mpr ten_zpow_high.2.1), hDhigh⟩

theorem decade_zero : decade 0.0 = 0.0 := by
  have hbottom : floor (-infinite) = -infinite := by decide
  rw [decade, Platform.Sound.logarithm_zero, hbottom, Platform.Sound.power_bottom]

/-- the power of ten for a tiny raw step is the smallest double, or none -/
theorem decade_tiny (hR : IsAmount raw R) (hle : R ≤ 2 * smallest) :
    decade raw = 0.0 ∨ decade raw = 5e-324 := by
  have hsmallest := smallest_pos
  have hfirst : IsAmount 5e-324 (1 * smallest) := by
    exact_mod_cast isAmount_small (n := 1) (by simp [smallNumbers])
  rcases hR.nonneg.eq_or_lt with rfl | hpos
  · rw [hR.eq isAmount_zero]
    exact .inl decade_zero
  · obtain ⟨k, hbelow, -, hfaithful⟩ := exists_exponent hR hpos
    obtain ⟨hleast, hmost⟩ := ten_zpow_low
    have hk : k < -323 := (zpow_lt_zpow_iff_right₀ (show (1 : ℚ) < 10 by norm_num)).mp (by linarith)
    have htenth : (10 : ℚ) * 10 ^ k ≤ 10 ^ (-323 : ℤ) := by
      rw [← zpow_one_add₀ (by norm_num)]
      exact zpow_le_zpow_right₀ (by norm_num) (by omega)
    obtain ⟨v, hv, hvle⟩ := hfaithful.exists_le hfirst (Rat.cast_le.mpr (by linarith))
    obtain ⟨n, rfl⟩ : ∃ n : ℕ, v = n * smallest := hv.exists_units
    have hn : n ≤ 1 := by exact_mod_cast le_of_mul_le_mul_right hvle hsmallest
    rcases Nat.le_one_iff_eq_zero_or_eq_one.mp hn with rfl | rfl
    · rw [Nat.cast_zero, zero_mul] at hv
      exact .inl (hv.eq isAmount_zero)
    · rw [Nat.cast_one] at hv
      exact .inr (hv.eq hfirst)

end

/-! ### the step as an amount -/

/-- the raw step, a fifth of `m`, is at least three of the smallest doubles, and nearly exact -/
theorem exists_raw {m : Float} {M : ℚ} (hm : IsAmount m M) (hlow : 13 * smallest ≤ M) :
    ∃ R, IsAmount (m / 5.0) R ∧ 3 * smallest ≤ R ∧ 6 * |M / 5 - R| ≤ R := by
  have hpos := smallest_pos
  have hrounds : Rounds (M / 5) (m / 5.0) := rounds_div hm isAmount_five (by norm_num)
  obtain ⟨R, hR, -⟩ := hrounds.exists_le hm (by linarith)
  have htwo : 2 * smallest ≤ R := hrounds.ge hR isAmount_second (by linarith)
  have hclose := hrounds.close hR (c := 2) (by decide) (by exact_mod_cast htwo)
  -- more than two of the smallest doubles are three
  have hthree : 3 * smallest ≤ R := by
    obtain ⟨k, rfl⟩ : ∃ k : ℕ, R = k * smallest := hR.exists_units
    have hk : 2 < k := by
      by_contra hle
      have hleQ : (k : ℚ) ≤ 2 := by exact_mod_cast Nat.le_of_not_lt hle
      have hup : k * smallest ≤ 2 * smallest := mul_le_mul_of_nonneg_right hleQ hpos.le
      have hfar := le_abs_self (M / 5 - k * smallest)
      push_cast at hclose
      linarith
    have hkQ : (3 : ℚ) ≤ k := by exact_mod_cast hk
    exact mul_le_mul_of_nonneg_right hkQ hpos.le
  have hsixth := hrounds.close hR (c := 3) (by decide) (by exact_mod_cast hthree)
  refine ⟨R, hR, hthree, ?_⟩
  push_cast at hsixth
  linarith

/-- a raw step is a fifth of a double, rounded -/
theorem raw_le {m : Float} {M R : ℚ} (hm : IsAmount m M) (hR : IsAmount (m / 5.0) R) :
    R ≤ 30000000000000000 * lastPlace := by
  have hplace := lastPlace_pos
  have hlimit := lt_lastPlace hm
  have hwide : IsAmount 3.7e307 (29661691728132796 * lastPlace) := by
    exact_mod_cast isAmount_large (k := 2) (n := 7415422932033199) (by simp [largeNumbers])
  obtain ⟨v, hv, hle⟩ := (rounds_div hm isAmount_five (by norm_num)).exists_le hwide (by linarith)
  rw [hv.unique hR] at hle
  linarith

/-- how far the step `S` of the axis is from the number `M` that it has to reach -/
structure Strides [Platform] (m : Float) (M S : ℚ) : Prop where
  amount : IsAmount (stride m) S
  low : smallest ≤ S
  reach : M ≤ 7 * S
  near : S ≤ 8 * M
  far : S ≤ 16033346880071784 * lastPlace ∨
    40083367200179448 * lastPlace ≤ S ∧ S ≤ 40083367200179464 * lastPlace

theorem Strides.pos [Platform] {m : Float} {M S : ℚ} (h : Strides m M S) : 0 < S :=
  smallest_pos.trans_le h.low

/-- ten times a power of ten is hardly rounded down -/
theorem tenfold_le {s : Float} {D S : ℚ} (h : Rounds (10 * D) s) (hS : IsAmount s S)
    (hlow : 2 * smallest ≤ D) : 400 * D ≤ 41 * S := by
  have hSlow : 20 * smallest ≤ S := h.ge hS isAmount_twentieth (by linarith)
  have hclose := h.close hS (c := 20) (by decide) (by exact_mod_cast hSlow)
  have hbelow := le_abs_self (10 * D - S)
  push_cast at hclose
  linarith

theorem isAmount_tiny {k : ℕ} (hk : k < 13) :
    IsAmount (Float.ofBits (UInt64.ofNat k)) (k * smallest) := by
  refine ⟨k, -1074, ⟨le_rfl, by decide, hk.trans (by decide), .inr rfl⟩, ?_, rfl⟩
  rw [toBits_ofBits (hk.le.trans (by decide))]
  exact (Nat.zero_add k).symm

theorem raw_tiny {m : Float} {k : ℕ} (hk : k < 13) (hm : m = Float.ofBits (UInt64.ofNat k)) :
    ∃ j ≤ 2, IsAmount (m / 5.0) ((j : ℕ) * smallest) ∧ (k ≤ 2 → j = 0) := by
  have hraw : ∀ k < 13, Float.ofBits (UInt64.ofNat k) / 5.0 = Float.ofBits
      (UInt64.ofNat ((2 * k + 5) / 10)) := by
    decide +kernel
  rw [hm, hraw k hk]
  exact ⟨_, by omega, isAmount_tiny (by omega), by omega⟩

section
variable [Platform] {m : Float} {M R D : ℚ}

/-- a tiny number is reached by at most seven steps of the smallest double, or of twice that -/
theorem exists_strides_tiny {k : ℕ} (hpos : 0 < k) (hk : k < 13)
    (hm : m = Float.ofBits (UInt64.ofNat k)) (hdecade : decade (m / 5.0) = 5e-324) :
    ∃ S, Strides m (k * smallest) S := by
  have hsmallest := smallest_pos
  have hplace := smallest_le_lastPlace
  have hsteps : ∀ k < 13, 0 < k → firstStep (Float.ofBits (UInt64.ofNat k) / 5.0) 5e-324
      = Float.ofBits (UInt64.ofNat (if k < 8 then 1 else 2)) := by decide +kernel
  have hnonpos : ¬ m ≤ 0.0 := hm ▸ (isAmount_tiny hk).not_le_zero (by positivity)
  have hstride := stride_eq hnonpos
  rw [hdecade, hm, hsteps k hk hpos, ← hm] at hstride
  have hkpos : (1 : ℚ) ≤ k := Nat.one_le_cast.mpr hpos
  refine ⟨_, hstride ▸ isAmount_tiny (by split <;> decide), ?_, ?_, ?_,
    .inl ?_⟩ <;> split_ifs with hsmall
  all_goals push_cast
  · linarith
  · linarith
  · have hseven : (k : ℚ) ≤ 7 := by exact_mod_cast Nat.lt_succ_iff.mp hsmall
    nlinarith
  · have htwelve : (k : ℚ) ≤ 12 := by exact_mod_cast Nat.lt_succ_iff.mp hk
    nlinarith
  · nlinarith
  · nlinarith
  · linarith
  · linarith

/-- a step of five times the largest power of ten reaches every raw step -/
theorem Magnitude.far_step (h : Magnitude (m / 5.0) R D) (hR : IsAmount (m / 5.0) R)
    (hhigh : R ≤ 30000000000000000 * lastPlace) {c : Float} {q S : ℚ}
    (hstep : Rounds (q * D) (c * decade (m / 5.0))) (hS : IsAmount (c * decade (m / 5.0)) S)
    (hq : m / 5.0 ≤ c * decade (m / 5.0) ∧ (q = 1 ∨ q = 2 ∨ q = 5) ∨
      q = 10 ∧ ¬ m / 5.0 ≤ 5.0 * decade (m / 5.0)) :
    S ≤ 16033346880071784 * lastPlace ∨
      40083367200179448 * lastPlace ≤ S ∧ S ≤ 40083367200179464 * lastPlace := by
  have hplace := lastPlace_pos
  have hle : ∀ {y : Float} {b : ℚ}, IsAmount y b → q * D ≤ b → S ≤ b := fun hy hb =>
    (hS.le_iff hy).mp (hstep.le hy hb)
  rcases h.far with hsmall | ⟨hlow, hhighD⟩
  · refine .inl (hle isAmount_2e307 ?_)
    rcases hq with ⟨-, rfl | rfl | rfl⟩ | ⟨rfl, -⟩ <;> linarith
  · rcases hq with ⟨-, rfl | rfl | rfl⟩ | ⟨rfl, hnot⟩
    · exact .inl (hle isAmount_2e307 (by linarith))
    · exact .inl (hle isAmount_2e307 (by linarith))
    · exact .inr ⟨hstep.ge hS isAmount_5e307.1 (by linarith), hle isAmount_5e307.2 (by linarith)⟩
    · refine absurd ((hR.le_iff isAmount_5e307.1).mpr (by linarith)) fun hbelow => hnot ?_
      exact float_le_trans hbelow ((rounds_mul isAmount_five h.amount).le_of_ge isAmount_5e307.1
        (by linarith))

variable [Platform.Sound]

theorem exists_strides_ample (hm : IsAmount m M) (hlow : 13 * smallest ≤ M) :
    ∃ S, Strides m M S := by
  have hpos := smallest_pos
  have hplace := lastPlace_pos
  have hnonpos : ¬ m ≤ 0.0 := hm.not_le_zero (by linarith)
  obtain ⟨R, hR, hRlow, hfifth⟩ := exists_raw hm hlow
  have hRhigh := raw_le hm hR
  rw [← le_div_iff₀' (by norm_num), abs_le] at hfifth
  obtain ⟨hRM, hMR⟩ := hfifth
  obtain ⟨D, hD⟩ := exists_magnitude hR hRlow hRhigh
  obtain ⟨hdecade, hDlow, hDR, hRD, hDfar⟩ := id hD
  obtain ⟨c, q, hc, hstep, hreach⟩ := firstStep_cases (m / 5.0) (decade (m / 5.0))
  rw [← stride_eq hnonpos] at hstep
  have hq : 1 ≤ q ∧ q ≤ 10 := by
    rcases hreach with ⟨-, rfl | rfl | rfl⟩ | ⟨rfl, -⟩ <;> constructor <;> norm_num
  have hqD : q * D ≤ 10 * D := mul_le_mul_of_nonneg_right hq.2 (by linarith)
  have hDq : D ≤ q * D := le_mul_of_one_le_left (by linarith) hq.1
  -- the step is a product of doubles that are not too large
  have hrounds : Rounds (q * D) (c * decade (m / 5.0)) := rounds_mul hc hdecade
  obtain ⟨S, hS, -⟩ := hrounds.exists_le isAmount_high (by
    rcases hDfar with hsmall | ⟨-, hlarge⟩ <;> linarith)
  have hDS : D ≤ S := hrounds.ge hS hdecade hDq
  have hSclose := hrounds.close hS (c := 2) (by decide) (by exact_mod_cast hDlow.trans hDS)
  push_cast at hSclose
  rw [← le_div_iff₀' (by norm_num), abs_le] at hSclose
  have hfar := hD.far_step hR hRhigh hrounds hS hreach
  refine ⟨S, hstep ▸ hS, by linarith, ?_, by linarith, hfar⟩
  rcases hreach with ⟨hle, -⟩ | ⟨rfl, -⟩
  · have hRS : R ≤ S := (hR.le_iff hS).mp hle
    linarith
  · -- ten times the power of ten is above the raw step, but for the rounding of both
    have hten := tenfold_le hrounds hS hDlow
    linarith

/-- unless the power of ten is zero, at most seven steps reach `m` -/
theorem exists_strides (hm : IsAmount m M) (hpos : 0 < M) (hdecade : 0.0 < decade (m / 5.0)) :
    ∃ S, Strides m M S := by
  have hsmallest := smallest_pos
  obtain ⟨k, rfl⟩ : ∃ k : ℕ, M = k * smallest := hm.exists_units
  rcases Nat.lt_or_ge k 13 with hk | hk
  · have hkpos : 0 < k := Nat.cast_pos.mp (pos_of_mul_pos_left hpos hsmallest.le)
    have hbits := hm.eq (isAmount_tiny hk)
    obtain ⟨j, hj, hraw, -⟩ := raw_tiny hk hbits
    have hjQ : (j : ℚ) ≤ 2 := by exact_mod_cast hj
    rcases decade_tiny hraw (by gcongr) with hzero | hfirst
    · rw [hzero] at hdecade
      exact absurd hdecade (by decide)
    · exact exists_strides_tiny hkpos hk hbits hfirst
  · exact exists_strides_ample hm (by gcongr; exact_mod_cast hk)

end

end BarChart

end Figures
