import Figures.Plane.Point
import Figures.Proofs.Number.Nearest
import Figures.Proofs.Number.Platform
import Figures.Proofs.Number.Signed

/-!
# Results that are too large for a double

* `isFinite_midway`         the point half way between two doubles is finite if their difference is
* `isFinite_nearest_iff`    `nearest m e` is finite if and only if `m * 2 ^ e` is below the limit
* `isFinite_nearestRatio`   the same for a quotient of whole numbers
* `isFinite_hypotenuse`, `hypotenuse_eq_infinite`   when a hypotenuse is finite, and when it is not
* `isFinite_radians`, `isFinite_clamp`   what never leaves the range
-/

namespace Figures

open Float.Model UnpackedFloat Binary

/-! ### finite doubles are below the limit -/

theorem abs_valueOf_add_halfPlace_le {x : Float} (h : x.isFinite = true) :
    |valueOf x| + halfPlace ≤ doubleLimit := by
  obtain ⟨n, e, hnormal, -, hvalue⟩ := exists_word h
  have hpos := halfPlace_pos
  have hsmall : (n : ℚ) + 1 ≤ (2 * hiddenBit : ℕ) := by exact_mod_cast hnormal.small
  have hunit : (2 : ℚ) ^ e ≤ 2 * halfPlace :=
    (zpow_le_zpow_right₀ one_le_two hnormal.high).trans_eq lastPlace_eq
  have hnonneg : (0 : ℚ) ≤ n := Nat.cast_nonneg n
  have hle : (n * 2 ^ e : ℚ) ≤ ((2 * hiddenBit : ℕ) - 1) * (2 * halfPlace) :=
    calc (n * 2 ^ e : ℚ) ≤ n * (2 * halfPlace) := mul_le_mul_of_nonneg_left hunit hnonneg
      _ ≤ ((2 * hiddenBit : ℕ) - 1) * (2 * halfPlace) :=
        mul_le_mul_of_nonneg_right (by linarith) (by linarith)
  have hproduct : (0 : ℚ) ≤ n * 2 ^ e := by positivity
  rw [hvalue, abs_signFactor_mul _ hproduct, doubleLimit_eq]
  linarith

theorem abs_valueOf_lt {x : Float} (h : x.isFinite = true) : |valueOf x| < doubleLimit := by
  linarith [abs_valueOf_add_halfPlace_le h, halfPlace_pos]

theorem doubleLimit_pos : 0 < doubleLimit :=
  lt_of_le_of_lt (abs_nonneg _) (abs_valueOf_lt (by decide : Float.isFinite 0.0 = true))

/-- a finite double equals zero if its value does; both zeros do -/
theorem beq_zero_iff {x : Float} (h : x.isFinite = true) : (x == 0.0) = true ↔ valueOf x = 0 := by
  obtain ⟨s, n, e, -, hvalue, hparts⟩ := exists_parts h
  show UnpackedFloat.beq x.toModel.unpack (.zero .positive) = true ↔ _
  rw [hparts, hvalue]
  rcases Nat.eq_zero_or_pos n with rfl | hpos
  · rw [Nat.cast_zero, zero_mul, mul_zero, partsOf_zero]
    exact iff_of_true rfl rfl
  · have hne : signFactor s * (n * 2 ^ e) ≠ 0 := by
      have hfactor : signFactor s ≠ 0 := by cases s <;> norm_num [signFactor]
      positivity
    rw [partsOf_pos s e hpos]
    cases s <;> exact iff_of_false Bool.false_ne_true hne

/-! ### what is not finite stays so -/

theorem isFinite_unpack_pack {u : UnpackedFloat} (h : u.isFinite = false) :
    (UnpackedFloat.unpack .binary64 (UnpackedFloat.pack .binary64 u)).isFinite = false := by
  cases u with
  | notANumber => decide
  | infinity s => cases s <;> decide
  | zero s => cases h
  | finite s m e hm => cases h

theorem isFinite_add_right (u : UnpackedFloat) {v : UnpackedFloat} (h : v.isFinite = false) :
    (UnpackedFloat.add .binary64 u v).isFinite = false := by
  cases v with
  | notANumber => cases u <;> rfl
  | infinity s =>
    cases u with
    | infinity t =>
      rw [UnpackedFloat.add.eq_def]
      dsimp only
      split <;> rfl
    | _ => rfl
  | zero s => cases h
  | finite s m e hm => cases h

theorem isFinite_mul_left {u : UnpackedFloat} (v : UnpackedFloat) (h : u.isFinite = false) :
    (UnpackedFloat.mul .binary64 u v).isFinite = false := by
  cases u with
  | notANumber => cases v <;> rfl
  | infinity s => cases v <;> rfl
  | zero s => cases h
  | finite s m e hm => cases h

/-- a sum is not finite unless its second part is -/
theorem isFinite_of_add {x y : Float} (h : (x + y).isFinite = true) : y.isFinite = true := by
  by_contra hy
  have hsum := isFinite_unpack_pack (isFinite_add_right x.toModel.unpack (Bool.not_eq_true _ ▸ hy))
  exact Bool.false_ne_true (hsum.symm.trans h)

/-- a product is not finite unless its first part is -/
theorem isFinite_of_mul {x y : Float} (h : (x * y).isFinite = true) : x.isFinite = true := by
  by_contra hx
  have hproduct := isFinite_unpack_pack (isFinite_mul_left y.toModel.unpack
    (Bool.not_eq_true _ ▸ hx))
  exact Bool.false_ne_true (hproduct.symm.trans h)

/-! ### half way -/

theorem smallest_lt_halfPlace : (2 : ℚ) ^ (-1074 : ℤ) < halfPlace := by
  unfold halfPlace
  exact zpow_lt_zpow_right₀ one_lt_two (by decide)

theorem valueOf_half : valueOf 0.5 = 1 / 2 := by
  have hexact : ofFloat? 0.5 = some ⟨false, 4503599627370496, -53⟩ := by decide
  rw [valueOf, hexact]
  norm_num [Binary.value]

theorem isFinite_half {d : Float} (hfinite : d.isFinite = true) : (d * 0.5).isFinite = true := by
  have hrounds := roundsTo_mul hfinite (by decide : Float.isFinite 0.5 = true)
  rw [hrounds.isFinite_iff, valueOf_half, abs_mul, abs_of_pos (by norm_num : (0 : ℚ) < 1 / 2)]
  linarith [abs_valueOf_lt hfinite, abs_nonneg (valueOf d)]

section
variable {d : Float} {t : ℚ} (hd : RoundsTo t d.toBits.toNat) (hfinite : d.isFinite = true)
include hd hfinite

/-- half of a double that has been rounded is at most a little more than half of the number -/
theorem abs_half_le : 4 * |valueOf (d * 0.5)| ≤ 3 * |t| + 4 * 2 ^ (-1074 : ℤ) := by
  have hrounds := roundsTo_mul hfinite (by decide : Float.isFinite 0.5 = true)
  have hfirst := hd.abs_valueOf_le hfinite
  have hsecond := hrounds.abs_valueOf_le (isFinite_half hfinite)
  have hplace : ∀ v : ℚ, |v| / hiddenBit ≤ |v| / 8 := fun v =>
    div_le_div_of_nonneg_left (abs_nonneg v) (by norm_num) (by decide)
  have hsmallest : (0 : ℚ) < 2 ^ (-1074 : ℤ) := by positivity
  have hhalf : |valueOf d * (1 / 2)| = |valueOf d| / 2 := by
    rw [abs_mul, abs_of_pos (by norm_num : (0 : ℚ) < 1 / 2)]
    ring
  have hplaceFirst := hplace t
  have hplaceSecond := hplace (valueOf d * (1 / 2))
  rw [valueOf_half, hhalf] at hsecond
  rw [hhalf] at hplaceSecond
  linarith [abs_nonneg t]

/-- a number stays on its side of zero when it is rounded and halved -/
theorem half_side : (0 ≤ t → 0 ≤ valueOf (d * 0.5)) ∧ (t ≤ 0 → valueOf (d * 0.5) ≤ 0) := by
  have hrounds := roundsTo_mul hfinite (by decide : Float.isFinite 0.5 = true)
  obtain ⟨-, -, -, -, hpos, hneg⟩ := hd.exists_near hfinite
  obtain ⟨-, -, -, -, hposHalf, hnegHalf⟩ := hrounds.exists_near (isFinite_half hfinite)
  rw [valueOf_half] at hposHalf hnegHalf
  exact ⟨fun ht => hposHalf (by linarith [hpos ht]), fun ht => hnegHalf (by linarith [hneg ht])⟩

end

/-- The point half way between two doubles is finite if and only if their difference is: the half
that is added leaves the sum between the two, or just beside it. -/
theorem isFinite_midway {a b : Float} (ha : a.isFinite = true) (hb : b.isFinite = true) :
    (a + (b - a) * 0.5).isFinite = true ↔ |valueOf b - valueOf a| < doubleLimit := by
  have hd := roundsTo_sub hb ha
  rw [← hd.isFinite_iff]
  refine ⟨fun h => isFinite_of_mul (isFinite_of_add h), fun hfinite => ?_⟩
  have hbound := abs_half_le hd hfinite
  obtain ⟨hpos, hneg⟩ := half_side hd hfinite
  rw [(roundsTo_add ha (isFinite_half hfinite)).isFinite_iff, abs_lt]
  have hA := abs_le.mp (le_sub_iff_add_le.mpr (abs_valueOf_add_halfPlace_le ha))
  have hB := abs_le.mp (le_sub_iff_add_le.mpr (abs_valueOf_add_halfPlace_le hb))
  have hsmall := smallest_lt_halfPlace
  have hplace := halfPlace_pos
  rcases le_total 0 (valueOf b - valueOf a) with ht | ht
  · have hhalf := hpos ht
    rw [abs_of_nonneg hhalf, abs_of_nonneg ht] at hbound
    constructor <;> linarith
  · have hhalf := hneg ht
    rw [abs_of_nonpos hhalf, abs_of_nonpos ht] at hbound
    constructor <;> linarith

/-! ### the nearest double -/

/-- of two equally near integers, the even one is taken -/
theorem halfEven_even {num den : ℕ} (hden : 0 < den)
    (htie : 2 * |(num : ℚ) / den - halfEven num den| = 1) : halfEven num den % 2 = 0 := by
  have hdenQ : (0 : ℚ) < den := Nat.cast_pos.mpr hden
  have hquotient : (num : ℚ) / den = (num / den : ℕ) + ((num % den : ℕ) : ℚ) / den := by
    rw [div_eq_iff hdenQ.ne', add_mul, div_mul_cancel₀ _ hdenQ.ne']
    exact_mod_cast (Nat.div_add_mod' num den).symm
  have hlt : ((num % den : ℕ) : ℚ) < den := Nat.cast_lt.mpr (Nat.mod_lt num hden)
  have hrest : (0 : ℚ) ≤ ((num % den : ℕ) : ℚ) / den := by positivity
  rw [hquotient] at htie
  simp only [halfEven] at htie ⊢
  split_ifs at htie ⊢ with hlow hhigh heven
  · -- below a half: no tie
    rw [add_sub_cancel_left, abs_of_nonneg hrest, ← mul_div_assoc,
      div_eq_one_iff_eq hdenQ.ne'] at htie
    have hhalf : 2 * (num % den) = den := by exact_mod_cast htie
    omega
  · rw [Nat.cast_add, Nat.cast_one, add_sub_add_left_eq_sub,
      abs_of_neg (by rwa [sub_neg, div_lt_one hdenQ]), neg_sub, mul_sub, ← mul_div_assoc,
      sub_eq_iff_eq_add, mul_one, ← sub_eq_iff_eq_add', eq_div_iff hdenQ.ne'] at htie
    have hhalf : den = 2 * (num % den) := by
      exact_mod_cast (by linarith : (den : ℚ) = 2 * (num % den : ℕ))
    omega
  · exact heven
  · omega

theorem isFinite_nearest_iff (m : ℕ) (e : ℤ) :
    (nearest m e).isFinite = true ↔ (m * 2 ^ e : ℚ) < doubleLimit := by
  rcases Nat.eq_zero_or_pos m with rfl | hm
  · rw [Nat.cast_zero, zero_mul, nearest, if_pos rfl]
    exact iff_of_true (by decide) doubleLimit_pos
  set q := max (e + (m.log2 : ℤ) - 52) (-1074) with hq
  have hden : 0 < 1 <<< (q - e).toNat := by
    rw [Nat.one_shiftLeft]
    exact Nat.two_pow_pos _
  have hunit : (0 : ℚ) < 2 ^ q := by positivity
  have heven : EvenNearest (m * 2 ^ e) (halfEven (m <<< (e - q).toNat)
      (1 <<< (q - e).toNat)) q := by
    refine ⟨nearest_halfEven hm hq, fun htie => halfEven_even hden ?_⟩
    rw [← quotient_units m e q, ← sub_mul, abs_mul, abs_of_pos hunit, ← mul_assoc] at htie
    exact (mul_eq_right₀ hunit.ne').mp htie
  generalize hn : halfEven (m <<< (e - q).toNat) (1 <<< (q - e).toNat) = n at heven
  have hword : (nearest m e).toBits.toNat = min (place n q) (2047 * hiddenBit) := by
    rw [nearest, if_neg hm.ne', ← hn]
    exact toBits_ofBits (Nat.min_le_right _ _)
  have hrest : min (place n q) (2047 * hiddenBit) < signBit :=
    (Nat.min_le_right _ _).trans_lt (by decide)
  rw [isFinite_iff_word, hword, Nat.mod_eq_of_lt hrest, ← heven.place_lt_iff, min_lt_iff]
  exact or_iff_left (lt_irrefl _)

theorem doubleLimit_units : doubleLimit = ((2 * (2 * hiddenBit : ℕ) - 1 : ℤ) : ℚ) * 2 ^
    (970 : ℤ) := by
  rw [doubleLimit_eq, halfPlace, Int.cast_sub, Int.cast_mul, Int.cast_natCast, Int.cast_ofNat,
    Int.cast_one]

/-- the limit is on the same side of a number of fine units and of what it stands for -/
theorem Sticky.lt_doubleLimit_iff {k : ℕ} {x : ℚ} {u : ℤ} (h : Sticky k x) (hu : u < 970) :
    (k * 2 ^ u : ℚ) < doubleLimit ↔ x * 2 ^ u < doubleLimit := by
  rw [doubleLimit_units]
  refine ⟨h.lt_units hu, fun hx => ?_⟩
  by_contra hk
  exact absurd (h.ge_units hu (not_lt.mp hk)) (not_le.mpr hx)

theorem isFinite_nearestRatio {num den : ℕ} (hnum : 0 < num) (hden : 0 < den) :
    (nearestRatio num den).isFinite = true ↔ (num / den : ℚ) < doubleLimit := by
  obtain ⟨k, s, x, hratio, -, hsticky, hvalue⟩ := exists_sticky hnum hden
  rw [hratio, isFinite_nearest_iff, hsticky.lt_doubleLimit_iff (by omega), hvalue]

/-- a whole number of units behind some places is the quotient of whole numbers -/
theorem nearestDecimal_places {m len places : ℕ} (h : places ≤ len) (hm : 0 < m) :
    nearestDecimal m len (-(places : ℤ)) = nearestRatio m (powerOfTen places) := by
  have hnone : (-(places : ℤ)).toNat = 0 := by omega
  have hplaces : (- -(places : ℤ)).toNat = places := by omega
  rw [nearestDecimal, if_neg hm.ne', if_neg (by omega), if_neg (by omega), hnone, hplaces]
  exact congrArg (nearestRatio · (powerOfTen places)) (Nat.mul_one m)

theorem cast_powerOfTen (k : ℕ) : (powerOfTen k : ℚ) = 10 ^ k := by
  rw [powerOfTen, Nat.pow_eq, Nat.cast_pow, Nat.cast_ofNat]

theorem isFinite_nearestDecimal (m : ℕ) {len places : ℕ} (h : places ≤ len) :
    (nearestDecimal m len (-(places : ℤ))).isFinite = true ↔
      (m / 10 ^ places : ℚ) < doubleLimit := by
  rcases Nat.eq_zero_or_pos m with rfl | hm
  · rw [nearestDecimal, if_pos rfl, Nat.cast_zero, zero_div]
    exact iff_of_true (by decide) doubleLimit_pos
  · rw [nearestDecimal_places h hm, isFinite_nearestRatio hm (powerOfTen_pos _), cast_powerOfTen]

/-! ### hypotenuses -/

/-- the square of an exact value, in finer units -/
theorem valueOf_sq {x : Float} {b : Binary} (hb : ofFloat? x = some b) {e : ℤ}
    (h : e ≤ b.exponent) :
    valueOf x ^ 2 = ((b.significand <<< (b.exponent - e).toNat : ℕ) * 2 ^ e : ℚ) ^ 2 := by
  have hsquare : b.value ^ 2 = (b.significand * 2 ^ b.exponent : ℚ) ^ 2 := by
    rw [Binary.value]
    split <;> ring
  have hexp : b.exponent = ((b.exponent - e).toNat : ℤ) + e := by omega
  have hscale : (2 : ℚ) ^ b.exponent = 2 ^ (b.exponent - e).toNat * 2 ^ e := by
    rw [← zpow_natCast, ← zpow_add₀ two_ne_zero, ← hexp]
  rw [valueOf, hb, Option.map_some, Option.getD_some, hsquare, hscale, Nat.shiftLeft_eq]
  push_cast
  ring

def largestDouble : ℚ := (2 * hiddenBit - 1 : ℕ) * 2 ^ (971 : ℤ)

theorem isAmount_largestDouble : IsAmount (nearest (2 * hiddenBit - 1) 971) largestDouble :=
  isAmount_nearest (by decide) (by decide) (by decide)

section
variable [Platform] [Platform.Sound] {x y : Float} (hx : x.isFinite = true) (hy : y.isFinite = true)
include hx hy

/-- a hypotenuse is finite if the sum of the squares is at most that of the largest double -/
theorem isFinite_hypotenuse (h : valueOf x ^ 2 + valueOf y ^ 2 ≤ largestDouble ^ 2) :
    (hypotenuse x y).isFinite = true := by
  have hroot : √(valueOf x ^ 2 + valueOf y ^ 2 : ℚ) ≤ largestDouble := by
    refine Real.sqrt_le_iff.mpr ⟨Rat.cast_nonneg.mpr isAmount_largestDouble.nonneg, ?_⟩
    exact_mod_cast h
  obtain ⟨v, hv, -⟩ := (Platform.Sound.hypotenuse_near hx hy).exists_le isAmount_largestDouble hroot
  exact hv.isFinite

/-- a hypotenuse is infinite if the sum of the squares is at least that of `2 ^ 1024` -/
theorem hypotenuse_eq_infinite (h : (2 ^ (1024 : ℤ)) ^ 2 ≤ valueOf x ^ 2 + valueOf y ^ 2) :
    hypotenuse x y = infinite := by
  refine (Platform.Sound.hypotenuse_near hx hy).large (Real.le_sqrt_of_sq_le ?_)
  exact_mod_cast h

end

/-! ### what never leaves the range -/

theorem isFinite_radians {x : Float} (h : x.isFinite = true) : (radians x).isFinite = true := by
  have hexact : ofFloat? (pi / 180.0) = some ⟨false, 5030569068109113, -58⟩ := by decide
  have hless : |valueOf (pi / 180.0)| ≤ 1 := by
    rw [valueOf, hexact]
    norm_num [Binary.value, abs_le]
  rw [radians, (roundsTo_mul h (isFinite_of_ofFloat? hexact)).isFinite_iff, abs_mul]
  exact (mul_le_of_le_one_right (abs_nonneg _) hless).trans_lt (abs_valueOf_lt h)

theorem isFinite_clamp {lo hi x : Float} (hlo : lo.isFinite = true) (hhi : hi.isFinite = true)
    (hx : x.isFinite = true) : (clamp lo hi x).isFinite = true := by
  rw [clamp]
  split
  · exact hlo
  · split
    · exact hhi
    · exact hx

end Figures
