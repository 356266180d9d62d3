import Figures.Proofs.Number.Arithmetic
import Figures.Proofs.Number.Tidy

/-!
# Sums, products and quotients with signs

* `EvenNearest q n e`       of two equally near multiples of `2 ^ e`, the even one is taken
* `doubleLimit`             from here on a number is too large for a double
* `RoundsTo q w`            the double with the word `w` is the rational `q`, rounded to even
* `RoundsTo.isFinite_iff`   the rounded number is finite if and only if `q` is below the limit
* `roundsTo_add`, `roundsTo_sub`, `roundsTo_mul`, `roundsTo_div`   what finite doubles come to

Half a last place above the largest double lies a tie. Its even neighbour would be `2 ^ 1024`, so
the tie itself is already too large.
-/

namespace Figures

open Float.Model UnpackedFloat Binary

/-! ### exact values -/

/-- a sign as a factor -/
def signFactor : Sign → ℚ
  | .negative => -1
  | .positive => 1

theorem signFactor_mul (s t : Sign) : signFactor (s * t) = signFactor s * signFactor t := by
  cases s <;> cases t
  · exact (show (1 : ℚ) = -1 * -1 by norm_num)
  · exact (show (-1 : ℚ) = -1 * 1 by norm_num)
  · exact (show (-1 : ℚ) = 1 * -1 by norm_num)
  · exact (show (1 : ℚ) = 1 * 1 by norm_num)

theorem signFactor_div (s t : Sign) : signFactor (s / t) = signFactor s / signFactor t := by
  cases s <;> cases t
  · exact (show (1 : ℚ) = -1 / -1 by norm_num)
  · exact (show (-1 : ℚ) = -1 / 1 by norm_num)
  · exact (show (-1 : ℚ) = 1 / -1 by norm_num)
  · exact (show (1 : ℚ) = 1 / 1 by norm_num)

theorem signFactor_neg (s : Sign) : signFactor (-s) = -signFactor s := by
  cases s
  · exact (neg_neg (1 : ℚ)).symm
  · rfl

theorem abs_signFactor_mul (s : Sign) {q : ℚ} (hq : 0 ≤ q) : |signFactor s * q| = q := by
  cases s <;> simp [signFactor, abs_of_nonneg hq]

theorem cast_apply (s : Sign) (n : ℕ) : ((s.apply n : ℤ) : ℚ) = signFactor s * n := by
  cases s <;> simp [signFactor, Sign.apply]

/-- a double with an exact value is finite, and no other is -/
theorem exists_ofFloat?_of_isFinite {x : Float} (h : x.isFinite = true) :
    ∃ b, ofFloat? x = some b := by
  refine Option.ne_none_iff_exists'.mp fun hnone => (isFinite_unpack_iff x.toBits.toBitVec).mp h ?_
  rw [← BitVec.toNat_inj, unpackExponent_toNat]
  rw [ofFloat?] at hnone
  split_ifs at hnone with hinfinite
  exact hinfinite

theorem exists_word {x : Float} (h : x.isFinite = true) : ∃ n e, Normal n e ∧
    x.toBits.toNat % signBit = place n e ∧
    valueOf x = signFactor (wordSign x.toBits.toNat) * (n * 2 ^ e) := by
  obtain ⟨b, hb⟩ := exists_ofFloat?_of_isFinite h
  obtain ⟨hnormal, hword⟩ := ofFloat?_eq_some_iff.mp hb
  have hplace : place b.significand b.exponent < signBit := hnormal.place_lt.trans (by decide)
  refine ⟨b.significand, b.exponent, hnormal, ?_, ?_⟩
  · rw [hword]
    cases b.negative with
    | false => rw [if_neg Bool.false_ne_true, Nat.zero_add, Nat.mod_eq_of_lt hplace]
    | true => rw [if_pos rfl, Nat.add_mod_left, Nat.mod_eq_of_lt hplace]
  · rw [valueOf, hb, Option.map_some, Option.getD_some, Binary.value, wordSign, hword]
    cases b.negative with
    | false => rw [if_neg Bool.false_ne_true, if_neg Bool.false_ne_true, if_neg (by omega)]; rfl
    | true => rw [if_pos rfl, if_pos rfl, if_pos (Nat.le_add_right _ _)]; rfl

/-- the parts of a number with a sign -/
def partsOf (s : Sign) (n : ℕ) (e : ℤ) : UnpackedFloat :=
  if hpos : 0 < n then .finite s n e hpos else .zero s

theorem partsOf_pos {n : ℕ} (s : Sign) (e : ℤ) (h : 0 < n) :
    partsOf s n e = .finite s n e h := dif_pos h

theorem partsOf_zero (s : Sign) (e : ℤ) : partsOf s 0 e = .zero s := dif_neg (lt_irrefl 0)

theorem neg_partsOf (s : Sign) (n : ℕ) (e : ℤ) : (partsOf s n e).neg = partsOf (-s) n e := by
  rcases Nat.eq_zero_or_pos n with rfl | hpos
  · rfl
  · rw [partsOf_pos s e hpos, partsOf_pos (-s) e hpos]
    rfl

theorem exists_parts {x : Float} (h : x.isFinite = true) : ∃ s n e, Normal n e ∧
    valueOf x = signFactor s * (n * 2 ^ e) ∧ x.toModel.unpack = partsOf s n e := by
  obtain ⟨n, e, hnormal, hrest, hvalue⟩ := exists_word h
  exact ⟨_, n, e, hnormal, hvalue, unpack_of_place hnormal hrest⟩

theorem isFinite_iff_word (x : Float) :
    x.isFinite = true ↔ x.toBits.toNat % signBit < 2047 * hiddenBit := by
  have hexponent := unpackExponent_toNat x.toBits.toBitVec
  have hfraction := Nat.mod_lt x.toBits.toNat (show 0 < hiddenBit by decide)
  have hfield := Nat.mod_lt (x.toBits.toNat >>> 52) (show 0 < 2048 by decide)
  refine (isFinite_unpack_iff x.toBits.toBitVec).trans ?_
  rw [Ne, ← BitVec.toNat_inj, hexponent, mod_signBit, UInt64.toNat_toBitVec]
  have hones : (-1#11).toNat = 2047 := by decide
  show ¬ _ = (-1#11).toNat ↔ _
  rw [hones]
  simp only [hiddenBit] at *
  omega

/-! ### rounding to even -/

/-- from here on a number is too large for a double: half of a last place above the largest one -/
def doubleLimit : ℚ := 2 ^ (1024 : ℤ) - 2 ^ (970 : ℤ)

/-- half of the last place of the largest doubles -/
@[irreducible] def halfPlace : ℚ := 2 ^ (970 : ℤ)

theorem halfPlace_pos : 0 < halfPlace := by
  unfold halfPlace
  positivity

theorem lastPlace_eq : (2 : ℚ) ^ (971 : ℤ) = 2 * halfPlace := by
  unfold halfPlace
  exact zpow_one_add₀ two_ne_zero 970

theorem doubleLimit_eq : doubleLimit = (2 * (2 * hiddenBit : ℕ) - 1) * halfPlace := by
  rw [doubleLimit, ← limit_eq, lastPlace_eq, ← halfPlace]
  ring

/-- `n` units of `2 ^ e` are nearest to `q`; of two equally near numbers of units, the even one is
taken -/
structure EvenNearest (q : ℚ) (n : ℕ) (e : ℤ) : Prop extends Nearest q n e where
  tie : 2 * |q - n * 2 ^ e| = 2 ^ e → n % 2 = 0

theorem Extends.even {em : ExtendedMantissa} {x : ℚ} (h : Extends em x)
    (htie : 2 * |x - em.roundedMantissa| = 1) : em.roundedMantissa % 2 = 0 := by
  obtain ⟨m, r, s⟩ := em
  cases r <;> cases s <;>
    simp only [Extends, ExtendedMantissa.accuracy, Describes, ExtendedMantissa.roundedMantissa,
      Accuracy.roundToNearestEven, Nat.cast_add, Nat.cast_one] at h htie ⊢
  · rw [h, abs_zero, mul_zero] at htie
    exact absurd htie zero_ne_one
  · rw [abs_of_pos h.1] at htie
    exact absurd htie h.2.ne
  · omega
  · rw [abs_of_neg (by linarith)] at htie
    linarith

namespace EvenNearest

variable {q : ℚ} {n : ℕ} {e : ℤ}

theorem of_normal (h : Normal n e) : EvenNearest (n * 2 ^ e) n e where
  low := h.low
  grid := h.full.imp_left two_zpow_le
  high := h.lt_two_zpow
  near := by
    rw [sub_self, abs_zero, mul_zero]
    positivity
  tie := by
    intro hzero
    rw [sub_self, abs_zero, mul_zero] at hzero
    exact absurd hzero.symm (by positivity)

theorem two_pow_eq : (2 : ℚ) ^ (1024 : ℤ) = 2 * (2 * hiddenBit : ℕ) * halfPlace := by
  rw [← limit_eq, lastPlace_eq]
  ring

/-- below the last grid, everything is below the limit -/
theorem lt_doubleLimit (h : EvenNearest q n e) (he : e < 971) : q < doubleLimit := by
  have hbits : (4 : ℚ) ≤ (2 * hiddenBit : ℕ) := by decide
  have hhigh : 2 * q < 2 ^ (1024 : ℤ) := by
    rw [show (1024 : ℤ) = 1 + 1023 from rfl, zpow_one_add₀ two_ne_zero]
    exact mul_lt_mul_of_pos_left
      (h.high.trans_le (zpow_le_zpow_right₀ one_le_two (by omega))) two_pos
  rw [two_pow_eq] at hhigh
  have hpos := halfPlace_pos
  have hwide := mul_le_mul_of_nonneg_right hbits hpos.le
  rw [doubleLimit_eq]
  linarith

/-- above the last grid, everything is above the limit -/
theorem doubleLimit_le (h : EvenNearest q n e) (he : 971 < e) : doubleLimit ≤ q := by
  have hgrid : (2 : ℚ) ^ (1024 : ℤ) ≤ q :=
    (zpow_le_zpow_right₀ one_le_two (by omega)).trans (h.grid.resolve_right (by omega))
  rw [two_pow_eq] at hgrid
  have hpos := halfPlace_pos
  rw [doubleLimit_eq]
  linarith

/-- on the last grid, the limit is the tie between the largest double and the next number -/
theorem lt_doubleLimit_iff (h : EvenNearest q n 971) : q < doubleLimit ↔ n < 2 * hiddenBit := by
  have hpos := halfPlace_pos
  have hsmall := h.le_two_hiddenBit
  have hnear := h.near
  have htie := h.tie
  rw [doubleLimit_eq]
  rw [lastPlace_eq] at hnear htie
  rw [mul_le_mul_iff_right₀ two_pos, abs_le] at hnear
  constructor
  · intro hq
    have hnlt : (n : ℚ) * (2 * halfPlace) < (2 * hiddenBit : ℕ) * (2 * halfPlace) := by
      linarith [hnear.1]
    exact_mod_cast lt_of_mul_lt_mul_right hnlt (by linarith)
  · intro hn
    have hnQ : (n : ℚ) + 1 ≤ (2 * hiddenBit : ℕ) := by exact_mod_cast hn
    have hle : q ≤ (2 * n + 1) * halfPlace := by linarith [hnear.2]
    rcases hle.lt_or_eq with hless | heq
    · exact hless.trans_le (mul_le_mul_of_nonneg_right (by linarith) hpos.le)
    · -- a tie: the even neighbour has been taken, and the limit is a tie of an odd one
      have heven : n % 2 = 0 := by
        refine htie ?_
        have hdiff : q - n * (2 * halfPlace) = halfPlace := by
          rw [heq]
          ring
        rw [hdiff, abs_of_pos hpos]
      have hbelow : (n : ℚ) + 2 ≤ (2 * hiddenBit : ℕ) := by
        have hstep : n + 2 ≤ 2 * hiddenBit := by
          simp only [hiddenBit] at *
          omega
        exact_mod_cast hstep
      rw [heq]
      exact mul_lt_mul_of_pos_right (by linarith) hpos

/-- rounded to even, a number is finite if it is below the limit, and only then -/
theorem place_lt_iff (h : EvenNearest q n e) : place n e < 2047 * hiddenBit ↔ q < doubleLimit := by
  have hsmall := h.le_two_hiddenBit
  have hfull := h.full
  rcases lt_trichotomy e 971 with hlt | rfl | hgt
  · refine iff_of_true ?_ (h.lt_doubleLimit hlt)
    simp only [place, hiddenBit] at *
    omega
  · rw [h.lt_doubleLimit_iff]
    simp only [place, hiddenBit] at *
    omega
  · refine iff_of_false ?_ (not_lt.mpr (h.doubleLimit_le hgt))
    simp only [place, hiddenBit] at *
    omega

end EvenNearest

/-- the first shift takes the even neighbour of a tie -/
theorem evenNearest_shift {m : ℕ} {e : ℤ} {a : Accuracy} {r : ℚ} (hr : Describes a r)
    (hbits : 52 ≤ m.log2 ∨ e ≤ -1074) :
    EvenNearest ((m + r) * 2 ^ e) (shiftToTargetExponent .binary64 m e a).1.roundedMantissa
      (shiftToTargetExponent .binary64 m e a).2 where
  toNearest := nearest_shift hr hbits
  tie := by
    intro htie
    refine (extends_shift hr hbits).even ?_
    have hunit : (0 : ℚ) < 2 ^ (shiftToTargetExponent .binary64 m e a).2 := by positivity
    rw [← mul_left_inj' hunit.ne', one_mul, mul_assoc, ← abs_of_pos hunit, ← abs_mul, sub_mul,
      abs_of_pos hunit, div_mul_cancel₀ _ hunit.ne']
    exact htie

/-! ### words with a sign -/

/-- the bit of a sign in a word -/
def signWord : Sign → ℕ
  | .negative => signBit
  | .positive => 0

theorem toNat_packComponents_sign (s : Sign) (e : BitVec 11) (m : BitVec 52) :
    (packComponents .binary64 s e m).toNat
      = signWord s + (packComponents .binary64 .positive e m).toNat := by
  cases s with
  | positive => exact (Nat.zero_add _).symm
  | negative =>
    have hm := m.isLt
    have he := e.isLt
    rw [toNat_packComponents, packComponents, BitVec.toNat_append, BitVec.toNat_append,
      ← Nat.shiftLeft_add_eq_or_of_lt (by exact hm), ← Nat.shiftLeft_add_eq_or_of_lt (by exact he),
      Nat.shiftLeft_eq, Nat.shiftLeft_eq]
    show (1 * 2 ^ 11 + e.toNat) * 2 ^ 52 + m.toNat = signBit + word e.toNat m.toNat
    simp only [word, signBit, hiddenBit]
    omega

/-- the sign of the parts of a number is the sign of its word -/
theorem toNat_pack_finite (s : Sign) (m : ℕ) (e : ℤ) (hm : 0 < m) :
    (UnpackedFloat.pack .binary64 (.finite s m e hm)).toNat
      = signWord s + (UnpackedFloat.pack .binary64 (.finite .positive m e hm)).toNat := by
  rw [UnpackedFloat.pack.eq_def, UnpackedFloat.pack.eq_def]
  dsimp only
  split
  · exact toNat_packComponents_sign s _ _
  · split
    · exact toNat_packComponents_sign s _ _
    · exact toNat_packComponents_sign s _ _

theorem toNat_pack_roundWithAccuracy (s : Sign) (m : ℕ) (e : ℤ) (a : Accuracy) :
    (UnpackedFloat.pack .binary64 (roundWithAccuracy .binary64 s m e a)).toNat = signWord s +
      (UnpackedFloat.pack .binary64 (roundWithAccuracy .binary64 .positive m e a)).toNat := by
  rw [roundWithAccuracy, roundWithAccuracy]
  dsimp only
  split_ifs
  · exact toNat_packComponents_sign s _ _
  · exact toNat_pack_finite s _ _ _

/-! ### rounded numbers -/

/-- the double with the word `w` is the rational `q`, rounded to even; what is too large is
infinite -/
structure RoundsTo (q : ℚ) (w : ℕ) : Prop where
  magnitude : ∃ n e, EvenNearest |q| n e ∧ w % signBit = min (place n e) (2047 * hiddenBit)
  pos : 0 < q → w < signBit
  neg : q < 0 → signBit ≤ w

namespace RoundsTo

variable {q : ℚ} {x y : Float}

theorem of_sign {n w : ℕ} {e : ℤ} (s : Sign) (h : EvenNearest q n e) (hq : 0 ≤ q)
    (hw : w = signWord s + min (place n e) (2047 * hiddenBit)) : RoundsTo (signFactor s * q) w := by
  have hrest : min (place n e) (2047 * hiddenBit) < signBit :=
    (Nat.min_le_right _ _).trans_lt (by decide)
  refine ⟨⟨n, e, by rwa [abs_signFactor_mul s hq], ?_⟩, fun hpos => ?_, fun hneg => ?_⟩
  · rw [hw]
    cases s with
    | negative => exact (Nat.add_mod_left _ _).trans (Nat.mod_eq_of_lt hrest)
    | positive => exact (congrArg (· % signBit) (Nat.zero_add _)).trans (Nat.mod_eq_of_lt hrest)
  · cases s with
    | negative => exact absurd hpos (not_lt.mpr (by simpa [signFactor] using hq))
    | positive => exact hw.trans_lt ((Nat.zero_add _).trans_lt hrest)
  · cases s with
    | negative => exact (Nat.le_add_right _ _).trans_eq hw.symm
    | positive => exact absurd hneg (not_lt.mpr (by simpa [signFactor] using hq))

theorem isFinite_iff (h : RoundsTo q x.toBits.toNat) : x.isFinite = true ↔ |q| < doubleLimit := by
  obtain ⟨n, e, heven, hword⟩ := h.magnitude
  rw [isFinite_iff_word, hword, ← heven.place_lt_iff, min_lt_iff]
  exact or_iff_left (lt_irrefl _)

theorem of_parts (s : Sign) {n : ℕ} {e : ℤ} (h : Normal n e) : RoundsTo (signFactor s * (n * 2 ^ e))
    (UnpackedFloat.pack .binary64 (partsOf s n e)).toNat := by
  refine of_sign s (.of_normal h) (by positivity) ?_
  rcases Nat.eq_zero_or_pos n with rfl | hpos
  · have hlow : e = -1074 := h.full.resolve_left (by decide)
    rw [hlow]
    exact toNat_packComponents_sign s 0 0
  · rw [partsOf_pos s e hpos, toNat_pack_finite, toNat_pack hpos h.low h.small h.full]

theorem zero (s : Sign) : RoundsTo 0 (UnpackedFloat.pack .binary64 (.zero s)).toNat := by
  have hnormal : Binary.Normal 0 (-1074) := ⟨le_rfl, by decide, by decide, .inr rfl⟩
  have hzero := of_parts s hnormal
  rwa [Nat.cast_zero, zero_mul, mul_zero, partsOf_zero] at hzero

theorem of_round (s : Sign) {m : ℕ} {e : ℤ} {a : Accuracy} {r : ℚ} (hr : Describes a r)
    (hbits : 52 ≤ m.log2 ∨ e ≤ -1074) : RoundsTo (signFactor s * ((m + r) * 2 ^ e))
      (UnpackedFloat.pack .binary64 (roundWithAccuracy .binary64 s m e a)).toNat := by
  have hnonneg := hr.bounds.1
  refine of_sign s (evenNearest_shift hr hbits) (by positivity) ?_
  rw [toNat_pack_roundWithAccuracy, toNat_roundWithAccuracy hr hbits]

/-- a number of units, rounded; a short one is written with more units first -/
theorem of_units (s : Sign) {m : ℕ} (e : ℤ) (hm : 0 < m) : RoundsTo (signFactor s * (m * 2 ^ e))
    (UnpackedFloat.pack .binary64 (UnpackedFloat.round .binary64 s m e)).toNat := by
  set k := (e - max ((m.log2 : ℤ) + e - 52) (-1074)).toNat with hk
  have hround : UnpackedFloat.round .binary64 s m e
      = roundWithAccuracy .binary64 s (m <<< k) (e - k) .exact := by
    rw [UnpackedFloat.round, targetExponent_eq]
    rfl
  have hbits : 52 ≤ (m <<< k).log2 ∨ e - (k : ℤ) ≤ -1074 := by
    have hlog : 2 ^ (m.log2 + k) ≤ m <<< k := by
      rw [Nat.shiftLeft_eq, Nat.pow_add]
      exact Nat.mul_le_mul_right _ (Nat.log2_self_le hm.ne')
    have hwide := (Nat.le_log2 (by rw [Nat.shiftLeft_eq]; positivity)).mpr hlog
    omega
  have hvalue : (((m <<< k : ℕ) : ℚ) + 0) * 2 ^ (e - (k : ℤ)) = m * 2 ^ e := by
    rw [add_zero, Nat.shiftLeft_eq, Nat.cast_mul, mul_assoc, zpow_sub₀ two_ne_zero, zpow_natCast]
    push_cast
    field_simp
  rw [hround, ← hvalue]
  exact of_round s rfl hbits

theorem of_normalize (m e : ℤ) :
    RoundsTo (m * 2 ^ e) (UnpackedFloat.pack .binary64
      (normalize .binary64 m e .positive)).toNat := by
  rw [UnpackedFloat.normalize.eq_def]
  rcases lt_trichotomy m 0 with hneg | rfl | hpos
  · have hvalue : (m * 2 ^ e : ℚ) = signFactor .negative * ((-m).toNat * 2 ^ e) := by
      have hcast : (((-m).toNat : ℤ) : ℚ) = ((-m : ℤ) : ℚ) := by rw [Int.toNat_of_nonneg (by omega)]
      rw [Int.cast_natCast] at hcast
      rw [hcast, signFactor]
      push_cast
      ring
    rw [compare_lt_iff_lt.mpr hneg, hvalue]
    exact of_units .negative e (by omega)
  · rw [compare_eq_iff_eq.mpr rfl, Int.cast_zero, zero_mul]
    exact zero .positive
  · have hvalue : (m * 2 ^ e : ℚ) = signFactor .positive * (m.toNat * 2 ^ e) := by
      have hcast : ((m.toNat : ℤ) : ℚ) = (m : ℚ) := by rw [Int.toNat_of_nonneg hpos.le]
      rw [Int.cast_natCast] at hcast
      rw [hcast, signFactor, one_mul]
    rw [compare_gt_iff_gt.mpr hpos, hvalue]
    exact of_units .positive e (by omega)

/-- the value of a rounded number is near, on the same side of zero -/
theorem exists_near (h : RoundsTo q x.toBits.toNat) (hfinite : x.isFinite = true) :
    ∃ n e, Nearest |q| n e ∧ |valueOf x| = n * 2 ^ e ∧ (0 ≤ q → 0 ≤ valueOf x) ∧
      (q ≤ 0 → valueOf x ≤ 0) := by
  obtain ⟨n, e, heven, hrest⟩ := h.magnitude
  obtain ⟨m, d, hm, hplace, hvalue⟩ := exists_word hfinite
  have hlt : place n e < 2047 * hiddenBit :=
    heven.place_lt_iff.mpr (h.isFinite_iff.mp hfinite)
  rw [min_eq_left hlt.le] at hrest
  obtain ⟨k, c, hk, hsame, hunits⟩ :=
    exists_normal heven.low heven.toNearest.le_two_hiddenBit heven.toNearest.full hlt
  have hwords : place m d = place k c := hplace.symm.trans (hrest.trans hsame)
  have heq : (m * 2 ^ d : ℚ) = k * 2 ^ c :=
    le_antisymm ((hm.place_le_place_iff hk).mp hwords.le) ((hk.place_le_place_iff hm).mp hwords.ge)
  have hnonneg : (0 : ℚ) ≤ m * 2 ^ d := by positivity
  have habs : |valueOf x| = n * 2 ^ e := by
    rw [hvalue, abs_signFactor_mul _ hnonneg, heq, hunits]
  have hzero : q = 0 → valueOf x = 0 := by
    rintro rfl
    have hnone : n ≤ 0 := heven.toNearest.le_of_le (by rw [abs_zero, Nat.cast_zero, zero_mul])
    rw [Nat.le_zero.mp hnone, Nat.cast_zero, zero_mul] at habs
    exact abs_eq_zero.mp habs
  refine ⟨n, e, heven.toNearest, habs, fun hq => ?_, fun hq => ?_⟩
  · rcases hq.lt_or_eq with hpos | heq
    · rw [hvalue, wordSign, if_neg (Nat.not_le.mpr (h.pos hpos)), signFactor, one_mul]
      exact hnonneg
    · exact (hzero heq.symm).ge
  · rcases hq.lt_or_eq with hneg | heq
    · rw [hvalue, wordSign, if_pos (h.neg hneg), signFactor, neg_one_mul]
      exact neg_nonpos.mpr hnonneg
    · exact (hzero heq).le

/-- a rounded number is hardly larger or smaller than the number itself -/
theorem error (h : RoundsTo q x.toBits.toNat) (hfinite : x.isFinite = true) :
    2 * |(|q| - |valueOf x|)| ≤ |q| / hiddenBit + 2 ^ (-1074 : ℤ) := by
  obtain ⟨n, e, hnearest, hvalue, -, -⟩ := h.exists_near hfinite
  have hhidden : (0 : ℚ) < hiddenBit := by decide
  have hsmallest : (0 : ℚ) < 2 ^ (-1074 : ℤ) := by positivity
  rw [hvalue]
  refine hnearest.near.trans ?_
  rcases hnearest.grid with hgrid | rfl
  · refine le_add_of_le_of_nonneg ?_ hsmallest.le
    rwa [le_div_iff₀ hhidden, two_pow_hiddenBit, ← zpow_add₀ two_ne_zero]
  · exact le_add_of_nonneg_left (div_nonneg (abs_nonneg q) hhidden.le)

theorem abs_valueOf_le (h : RoundsTo q x.toBits.toNat) (hfinite : x.isFinite = true) :
    2 * |valueOf x| ≤ 2 * |q| + |q| / hiddenBit + 2 ^ (-1074 : ℤ) := by
  linarith [h.error hfinite, neg_abs_le (|q| - |valueOf x|)]

end RoundsTo

/-! ### operations -/

section
variable {m n : ℕ} {d e : ℤ}

theorem units_eq (s : Sign) (m : ℕ) {d e : ℤ} (h : e ≤ d) :
    ((s.apply (m <<< (d - e).toNat : ℕ) : ℤ) : ℚ) * 2 ^ e = signFactor s * (m * 2 ^ d) := by
  have hscale : (2 : ℚ) ^ (d - e).toNat * 2 ^ e = 2 ^ d := by
    rw [← zpow_natCast, ← zpow_add₀ two_ne_zero]
    congr 1
    omega
  rw [cast_apply, Nat.shiftLeft_eq, ← hscale]
  push_cast
  ring

theorem roundsTo_add_parts (s t : Sign) (hm : Normal m d) (hn : Normal n e) :
    RoundsTo (signFactor s * (m * 2 ^ d) + signFactor t * (n * 2 ^ e))
      (UnpackedFloat.pack .binary64
        (UnpackedFloat.add .binary64 (partsOf s m d) (partsOf t n e))).toNat := by
  rcases Nat.eq_zero_or_pos m with rfl | hmpos
  · rw [Nat.cast_zero, zero_mul, mul_zero, zero_add]
    rcases Nat.eq_zero_or_pos n with rfl | hnpos
    · rw [Nat.cast_zero, zero_mul, mul_zero, partsOf_zero, partsOf_zero, UnpackedFloat.add.eq_def]
      dsimp only
      split <;> exact .zero _
    · have hsum : UnpackedFloat.add .binary64 (partsOf s 0 d) (partsOf t n e) = partsOf t n e := by
        rw [partsOf_zero, partsOf_pos t e hnpos]
        rfl
      rw [hsum]
      exact .of_parts t hn
  rcases Nat.eq_zero_or_pos n with rfl | hnpos
  · have hsum : UnpackedFloat.add .binary64 (partsOf s m d) (partsOf t 0 e) = partsOf s m d := by
      rw [partsOf_zero, partsOf_pos s d hmpos]
      rfl
    rw [Nat.cast_zero, zero_mul, mul_zero, add_zero, hsum]
    exact .of_parts s hm
  · have hsum := RoundsTo.of_normalize
      (s.apply (m <<< (d - min d e).toNat : ℕ) + t.apply (n <<< (e - min d e).toNat : ℕ)) (min d e)
    rw [Int.cast_add, add_mul, units_eq s m (min_le_left d e),
      units_eq t n (min_le_right d e)] at hsum
    rw [partsOf_pos s d hmpos, partsOf_pos t e hnpos]
    exact hsum

end

theorem apply_neg (s : Sign) (n : ℤ) : (-s).apply n = -s.apply n := by
  cases s
  · exact (neg_neg n).symm
  · rfl

theorem sub_eq_add (u v : UnpackedFloat) :
    UnpackedFloat.sub .binary64 u v = UnpackedFloat.add .binary64 u v.neg := by
  cases u with
  | finite s m d hm =>
    cases v with
    | finite t n e hn =>
      have happly := apply_neg t (n <<< (e - min d e).toNat : ℕ)
      show UnpackedFloat.normalize _ (_ - _) _ _ = UnpackedFloat.normalize _ (_ + _) _ _
      rw [Int.sub_eq_add_neg, ← happly]
    | _ => rfl
  | _ => cases v <;> rfl

section
variable {x y : Float}

theorem toBits_add (x y : Float) : (x + y).toBits.toNat
    = (UnpackedFloat.pack .binary64
        (UnpackedFloat.add .binary64 x.toModel.unpack y.toModel.unpack)).toNat := rfl

theorem toBits_sub (x y : Float) : (x - y).toBits.toNat
    = (UnpackedFloat.pack .binary64
        (UnpackedFloat.sub .binary64 x.toModel.unpack y.toModel.unpack)).toNat := rfl

variable (hx : x.isFinite = true) (hy : y.isFinite = true)
include hx hy

theorem roundsTo_add : RoundsTo (valueOf x + valueOf y) (x + y).toBits.toNat := by
  obtain ⟨s, m, d, hm, hvx, hux⟩ := exists_parts hx
  obtain ⟨t, n, e, hn, hvy, huy⟩ := exists_parts hy
  rw [toBits_add, hux, huy, hvx, hvy]
  exact roundsTo_add_parts s t hm hn

theorem roundsTo_sub : RoundsTo (valueOf x - valueOf y) (x - y).toBits.toNat := by
  obtain ⟨s, m, d, hm, hvx, hux⟩ := exists_parts hx
  obtain ⟨t, n, e, hn, hvy, huy⟩ := exists_parts hy
  have hsum := roundsTo_add_parts s (-t) hm hn
  rw [signFactor_neg, neg_mul, ← sub_eq_add_neg] at hsum
  rw [toBits_sub, hux, huy, hvx, hvy, sub_eq_add, neg_partsOf]
  exact hsum

theorem roundsTo_mul : RoundsTo (valueOf x * valueOf y) (x * y).toBits.toNat := by
  obtain ⟨s, m, d, hm, hvx, hux⟩ := exists_parts hx
  obtain ⟨t, n, e, hn, hvy, huy⟩ := exists_parts hy
  rw [toBits_mul, hux, huy, hvx, hvy]
  rcases Nat.eq_zero_or_pos m with rfl | hmpos
  · rw [Nat.cast_zero, zero_mul, mul_zero, zero_mul, partsOf_zero]
    unfold partsOf
    split <;> exact .zero _
  rcases Nat.eq_zero_or_pos n with rfl | hnpos
  · rw [Nat.cast_zero, zero_mul, mul_zero, mul_zero, partsOf_zero, partsOf_pos s d hmpos]
    exact .zero _
  have hvalue : signFactor s * (m * 2 ^ d) * (signFactor t * (n * 2 ^ e))
      = signFactor (s * t) * ((((m * n : ℕ) : ℚ) + 0) * 2 ^ (d + e)) := by
    rw [signFactor_mul, zpow_add₀ two_ne_zero]
    push_cast
    ring
  rw [hvalue, partsOf_pos s d hmpos, partsOf_pos t e hnpos]
  exact .of_round (s * t) rfl (log2_mul_or hm hn hmpos hnpos)

theorem roundsTo_div (hne : valueOf y ≠ 0) :
    RoundsTo (valueOf x / valueOf y) (x / y).toBits.toNat := by
  obtain ⟨s, m, d, hm, hvx, hux⟩ := exists_parts hx
  obtain ⟨t, n, e, hn, hvy, huy⟩ := exists_parts hy
  have hnpos : 0 < n := by
    refine Nat.pos_of_ne_zero fun hzero => hne ?_
    rw [hvy, hzero, Nat.cast_zero, zero_mul, mul_zero]
  rw [toBits_div, hux, huy, hvx, hvy, partsOf_pos t e hnpos]
  rcases Nat.eq_zero_or_pos m with rfl | hmpos
  · rw [Nat.cast_zero, zero_mul, mul_zero, zero_div, partsOf_zero]
    exact .zero _
  obtain ⟨k, u, a, r, hcore, hr, hbits, hvalue⟩ := divCore_spec d e hmpos hnpos
  have hquotient : signFactor s * (m * 2 ^ d) / (signFactor t * (n * 2 ^ e))
      = signFactor (s / t) * ((k + r) * 2 ^ u) := by
    rw [hvalue, signFactor_div, mul_div_mul_comm]
  rw [hquotient, partsOf_pos s d hmpos, UnpackedFloat.div.eq_def]
  dsimp only
  rw [hcore]
  exact .of_round (s / t) hr hbits

end

end Figures
