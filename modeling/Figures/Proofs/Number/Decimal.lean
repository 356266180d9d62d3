import Figures.Number.Reading
import Figures.Proofs.Number.Whole

/-!
# Natural numbers read as doubles

* `digitsValue_repr`       a numeral denotes the number that it is written for
* `halfEven_mul_eq_iff`    rounding changes nothing if and only if there is nothing to round
* `Binary.word`            the word of a double that is not negative
* `Binary.ofFloat?_word`   the exact value of such a double
* `Binary.nearestCount n`  the natural number `n` rounded to 53 significant bits
* `isCount_nearestRatio`   the double nearest to a natural number of 64 bits is that number
* `Kept n`                 the natural numbers that are not changed by reading them as places
* `min_nearestCount_iff`   those with at most 53 significant bits, and the largest of 64 bits
-/

namespace Figures

/-! ### numerals -/

theorem repr_digits (n : ℕ) : (Nat.repr n).toList.all Char.isDigit = true := by
  rw [List.all_eq_true, Nat.toList_repr]
  exact fun c hc => Nat.isDigit_of_mem_toDigits (by decide) (by decide) hc

theorem repr_ne_nil (n : ℕ) : (Nat.repr n).toList ≠ [] := by
  rw [Nat.toList_repr]
  exact Nat.toDigits_ne_nil

theorem head?_toDigits {n : ℕ} (hn : n ≠ 0) : (Nat.toDigits 10 n).head? ≠ some '0' := by
  induction n using Nat.strong_induction_on with
  | _ n ih =>
    by_cases hlt : n < 10
    · rw [Nat.toDigits_of_lt_base hlt, List.head?_cons]
      exact fun heq => hn (Nat.digitChar_eq_zero.mp (Option.some.inj heq))
    · rw [Nat.toDigits_of_base_le (by decide) (by omega),
        List.head?_append_of_ne_nil _ Nat.toDigits_ne_nil]
      exact ih (n / 10) (by omega) (by omega)

theorem digitsValue_repr (n : ℕ) : digitsValue 0 (Nat.repr n).toList = n := by
  rw [Nat.toList_repr]
  exact Nat.ofDigitChars_eq_foldl.symm.trans Nat.ofDigitChars_ten_toDigits

/-! ### rounding -/

section
variable {num den : ℕ}

theorem halfEven_mul_self (q : ℕ) (hden : 0 < den) : halfEven (q * den) den = q := by
  rw [halfEven]
  simp only [Nat.mul_mod_left, Nat.mul_div_cancel _ hden]
  rw [if_pos (by omega)]

/-- a common factor does not matter -/
theorem halfEven_mul_right (num den : ℕ) {c : ℕ} (hc : 0 < c) :
    halfEven (num * c) (den * c) = halfEven num den := by
  have hlow : 2 * (num % den * c) < den * c ↔ 2 * (num % den) < den := by
    rw [← Nat.mul_assoc, Nat.mul_lt_mul_right hc]
  have hhigh : den * c < 2 * (num % den * c) ↔ den < 2 * (num % den) := by
    rw [← Nat.mul_assoc, Nat.mul_lt_mul_right hc]
  rw [halfEven, halfEven]
  simp only [Nat.mul_div_mul_right _ _ hc, Nat.mul_mod_mul_right, hlow, hhigh]

theorem halfEven_cases (num : ℕ) (hden : 0 < den) :
    halfEven num den = num / den ∨ halfEven num den = num / den + 1 ∧ 0 < num % den := by
  simp only [halfEven]
  split_ifs with hlow hhigh heven
  · exact .inl rfl
  · exact .inr ⟨rfl, Nat.pos_of_mul_pos_left (Nat.zero_lt_of_lt hhigh)⟩
  · exact .inl rfl
  · exact .inr ⟨rfl, by omega⟩

theorem le_halfEven {k : ℕ} (hden : 0 < den) (h : k * den ≤ num) : k ≤ halfEven num den := by
  have hdiv : k ≤ num / den := (Nat.le_div_iff_mul_le hden).mpr h
  rcases halfEven_cases num hden with heq | ⟨heq, -⟩ <;> omega

theorem halfEven_le {k : ℕ} (hden : 0 < den) (h : num ≤ k * den) : halfEven num den ≤ k := by
  rcases halfEven_cases num hden with heq | ⟨heq, hpos⟩
  · rw [heq]
    exact Nat.div_le_of_le_mul (by rwa [Nat.mul_comm])
  · have hlt : num / den < k := by
      rw [Nat.div_lt_iff_lt_mul hden]
      refine lt_of_le_of_ne h fun hnum => ?_
      rw [hnum, Nat.mul_mod_left] at hpos
      exact absurd hpos (Nat.lt_irrefl 0)
    omega

/-- rounding changes nothing if and only if there is nothing to round -/
theorem halfEven_mul_eq_iff (hden : 0 < den) : halfEven num den * den = num ↔ den ∣ num := by
  constructor
  · intro h
    exact Dvd.intro_left _ h
  · rintro ⟨q, rfl⟩
    rw [Nat.mul_comm den q, halfEven_mul_self q hden]

end

namespace Binary

/-! ### the words of doubles -/

open Float.Model UnpackedFloat

/-- the word of a double that is not negative, from its exponent field and its fraction -/
def word (field fraction : ℕ) : ℕ := field * hiddenBit + fraction

theorem toNat_packComponents (e : BitVec 11) (m : BitVec 52) :
    (packComponents .binary64 .positive e m).toNat = word e.toNat m.toNat := by
  have hm := m.isLt
  rw [packComponents, BitVec.toNat_append, BitVec.toNat_append,
    ← Nat.shiftLeft_add_eq_or_of_lt (by exact hm), Nat.shiftLeft_eq]
  show (0 <<< 11 ||| e.toNat) * hiddenBit + m.toNat = word e.toNat m.toNat
  rw [Nat.zero_shiftLeft, Nat.zero_or, word]

section
variable {field fraction : ℕ} (hfield : field < 2047) (hfraction : fraction < hiddenBit)
include hfraction

theorem fraction_word : word field fraction % hiddenBit = fraction := by
  rw [word, Nat.mul_add_mod_self_right, Nat.mod_eq_of_lt hfraction]

include hfield

theorem word_lt : word field fraction < signBit := by
  simp only [word, hiddenBit, signBit] at *
  omega

theorem exponent_word : (word field fraction >>> 52) % 2048 = field := by
  have hdiv : word field fraction / hiddenBit = field := by
    rw [word, Nat.add_comm, Nat.add_mul_div_right _ _ (by decide), Nat.div_eq_of_lt hfraction,
      Nat.zero_add]
  rw [Nat.shiftRight_eq_div_pow]
  exact (congrArg (· % 2048) hdiv).trans (Nat.mod_eq_of_lt (by omega))

theorem unpack_word (hnormal : 0 < field) :
    UnpackedFloat.unpack .binary64 (BitVec.ofNat 64 (word field fraction))
      = .finite .positive (hiddenBit + fraction) ((field : ℤ) - 1075) (by simp [hiddenBit]) := by
  have hword : (BitVec.ofNat 64 (word field fraction)).toNat = word field fraction := by
    rw [BitVec.toNat_ofNat, Nat.mod_eq_of_lt]
    exact Nat.lt_trans (word_lt hfield hfraction) (by decide)
  have hexp : (@unpackExponent .binary64 (BitVec.ofNat 64 (word field fraction))).toNat =
      field := by
    rw [unpackExponent_toNat, hword, exponent_word hfield hfraction]
  have hman : (@unpackMantissa .binary64 (BitVec.ofNat 64 (word field fraction))).toNat
      = fraction := by
    rw [unpackMantissa_toNat, hword, fraction_word hfraction]
  have hsign : Sign.ofBitVec (@unpackSign .binary64 (BitVec.ofNat 64 (word field fraction)))
      = .positive := by
    rw [ofBitVec_unpackSign, hword, if_neg (Nat.not_le.mpr (word_lt hfield hfraction))]
  have hones : @unpackExponent .binary64 (BitVec.ofNat 64 (word field fraction)) ≠ -1#_ := by
    intro h
    rw [h] at hexp
    exact absurd hexp.symm (Nat.ne_of_lt hfield)
  have hzero : @unpackExponent .binary64 (BitVec.ofNat 64 (word field fraction)) ≠ 0#_ := by
    intro h
    rw [h] at hexp
    exact absurd hexp.symm hnormal.ne'
  rw [UnpackedFloat.unpack]
  dsimp only
  rw [if_neg hones, if_neg hzero]
  congr 1
  · rw [BitVec.toNat_append, hman, ← Nat.shiftLeft_add_eq_or_of_lt (by exact hfraction)]
    rfl
  · rw [hexp]
    rfl

theorem toBits_ofBits_word (hnormal : 0 < field) :
    (Float.ofBits (UInt64.ofNat (word field fraction))).toBits.toNat = word field fraction := by
  have hbits : (Float.ofBits (UInt64.ofNat (word field fraction))).toBits.toBitVec
      = UnpackedFloat.pack .binary64
          (UnpackedFloat.unpack .binary64 (BitVec.ofNat 64 (word field fraction))) := rfl
  have hlog : (hiddenBit + fraction).log2 = 52 :=
    (Nat.log2_eq_iff (by simp [hiddenBit])).mpr (by simp only [hiddenBit] at *; omega)
  have hbiased : ((field : ℤ) - 1075 + (Format.binary64.exponentBias : ℤ)
      + (Format.binary64.mantissaBitsWithoutImplicit : ℤ)).toNat = field := by
    show ((field : ℤ) - 1075 + 1023 + 52).toNat = field
    omega
  rw [← UInt64.toNat_toBitVec, hbits, unpack_word hfield hfraction hnormal,
    UnpackedFloat.pack.eq_def]
  dsimp only
  rw [hlog, hbiased, if_neg (by show ¬ 2048 ≤ field + 1; omega), if_pos (by rfl),
    toNat_packComponents, BitVec.toNat_ofNat, BitVec.toNat_ofNat, Nat.mod_eq_of_lt (by omega)]
  show word field ((hiddenBit + fraction) % hiddenBit) = word field fraction
  rw [Nat.add_mod_left, Nat.mod_eq_of_lt hfraction]

theorem ofFloat?_word (hnormal : 0 < field) :
    ofFloat? (Float.ofBits (UInt64.ofNat (word field fraction)))
      = some ⟨false, hiddenBit + fraction, (field : ℤ) - 1075⟩ := by
  have hsign : ¬ signBit ≤ word field fraction := Nat.not_le.mpr (word_lt hfield hfraction)
  rw [ofFloat?, toBits_ofBits_word hfield hfraction hnormal, exponent_word hfield hfraction,
    fraction_word hfraction, if_neg hfield.ne, if_neg hnormal.ne', decide_eq_false hsign]

end

/-- A word whose fraction has run over is the one of the next power of two: the significand keeps
its value. -/
theorem exists_value_word {field significand : ℕ} (hnormal : 0 < field) (hfield : field < 2046)
    (hlow : hiddenBit ≤ significand) (hhigh : significand ≤ 2 * hiddenBit) :
    ∃ b, ofFloat? (Float.ofBits (UInt64.ofNat ((field - 1) * hiddenBit + significand))) = some b ∧
      b.value = significand * 2 ^ ((field : ℤ) - 1075) := by
  have hsplit : (field - 1) * hiddenBit + hiddenBit = field * hiddenBit := by
    rw [← Nat.succ_mul, Nat.succ_eq_add_one, Nat.sub_add_cancel hnormal]
  rcases Nat.lt_or_eq_of_le hhigh with hlt | rfl
  · have hword : (field - 1) * hiddenBit + significand = word field (significand - hiddenBit) := by
      rw [word]
      omega
    refine ⟨_, hword ▸ ofFloat?_word (by omega) (by omega) hnormal, ?_⟩
    rw [value, if_neg Bool.false_ne_true, one_mul, Nat.add_sub_cancel' hlow]
  · have hword : (field - 1) * hiddenBit + 2 * hiddenBit = word (field + 1) 0 := by
      rw [word, Nat.add_mul]
      omega
    refine ⟨_, hword ▸ ofFloat?_word (by omega) (by decide) (Nat.succ_pos _), ?_⟩
    rw [value, if_neg Bool.false_ne_true, one_mul]
    have hexp : ((field + 1 : ℕ) : ℤ) - 1075 = ((field : ℤ) - 1075) + 1 := by push_cast; ring
    rw [hexp, zpow_add_one₀ two_ne_zero]
    push_cast
    ring

/-! ### natural numbers of 64 bits -/

/-- the natural number `n` rounded to 53 significant bits -/
def nearestCount (n : ℕ) : ℕ := halfEven n (2 ^ (n.log2 - 52)) * 2 ^ (n.log2 - 52)

theorem nearestCount_of_log2_le {n : ℕ} (h : n.log2 ≤ 52) : nearestCount n = n := by
  rw [nearestCount, Nat.sub_eq_zero_of_le h]
  exact (halfEven_mul_eq_iff Nat.one_pos).mpr (one_dvd n)

section
variable {n : ℕ} (hpos : 0 < n) (hword : n ≤ word64)
include hpos hword

theorem log2_le : n.log2 ≤ 63 := by
  have hlt : n.log2 < 64 := (Nat.log2_lt hpos.ne').mpr (by simp only [word64] at hword; omega)
  omega

theorem scaled_bounds : 2 ^ 65 ≤ n * 2 ^ (65 - n.log2) ∧ n * 2 ^ (65 - n.log2) < 2 ^ 66 := by
  have hlog := log2_le hpos hword
  have hlow : 2 ^ n.log2 * 2 ^ (65 - n.log2) ≤ n * 2 ^ (65 - n.log2) :=
    Nat.mul_le_mul_right _ (Nat.log2_self_le hpos.ne')
  have hhigh : n * 2 ^ (65 - n.log2) < 2 ^ (n.log2 + 1) * 2 ^ (65 - n.log2) :=
    Nat.mul_lt_mul_of_pos_right Nat.lt_log2_self (Nat.two_pow_pos _)
  rw [← Nat.pow_add] at hlow hhigh
  rw [show n.log2 + (65 - n.log2) = 65 by omega] at hlow
  rw [show n.log2 + 1 + (65 - n.log2) = 66 by omega] at hhigh
  exact ⟨hlow, hhigh⟩

theorem significand_bounds : hiddenBit ≤ halfEven (n * 2 ^ (65 - n.log2)) (2 ^ 13) ∧
    halfEven (n * 2 ^ (65 - n.log2)) (2 ^ 13) ≤ 2 * hiddenBit := by
  obtain ⟨hlow, hhigh⟩ := scaled_bounds hpos hword
  exact ⟨le_halfEven (by decide) hlow, halfEven_le (by decide) hhigh.le⟩

theorem word_le : (n.log2 + 1022) * hiddenBit + halfEven (n * 2 ^ (65 - n.log2)) (2 ^ 13)
    ≤ 2047 * hiddenBit := by
  have hlog := log2_le hpos hword
  have hsignificand := (significand_bounds hpos hword).2
  simp only [hiddenBit] at hsignificand ⊢
  omega

theorem nearestRatio_one : nearestRatio n 1 = Float.ofBits (UInt64.ofNat
    ((n.log2 + 1022) * hiddenBit + halfEven (n * 2 ^ (65 - n.log2)) (2 ^ 13))) := by
  have hlog := log2_le hpos hword
  have hshift : 2 * (n <<< (64 - n.log2)) = n * 2 ^ (65 - n.log2) := by
    rw [Nat.shiftLeft_eq, show 65 - n.log2 = 64 - n.log2 + 1 by omega, Nat.pow_succ]
    ring
  obtain ⟨hlow, hhigh⟩ := scaled_bounds hpos hword
  have hbits : (n * 2 ^ (65 - n.log2)).log2 = 65 :=
    (Nat.log2_eq_iff (by positivity)).mpr ⟨hlow, hhigh⟩
  have hexp : max (-((64 - n.log2 : ℕ) : ℤ) - 1 + (65 : ℕ) - 52) (-1074) = (n.log2 : ℤ) - 52 := by
    omega
  have hup : (-((64 - n.log2 : ℕ) : ℤ) - 1 - ((n.log2 : ℤ) - 52)).toNat = 0 := by omega
  have hdown : ((n.log2 : ℤ) - 52 - (-((64 - n.log2 : ℕ) : ℤ) - 1)).toNat = 13 := by omega
  have hfield : ((n.log2 : ℤ) - 52 + 1074).toNat = n.log2 + 1022 := by omega
  rw [nearestRatio, show (1 : ℕ).log2 = 0 by decide, Nat.add_zero, Nat.div_one, Nat.mod_one,
    if_pos rfl, Nat.add_zero, hshift, nearest, if_neg (by positivity)]
  simp only [hbits, hexp, hup, hdown, hfield, Nat.shiftLeft_zero, Nat.one_shiftLeft]
  rw [Nat.min_eq_left (word_le hpos hword)]

theorem significand_value :
    (halfEven (n * 2 ^ (65 - n.log2)) (2 ^ 13) : ℚ) * 2 ^ ((n.log2 : ℤ) - 52) = nearestCount n := by
  have hlog := log2_le hpos hword
  rcases Nat.le_total n.log2 52 with hsmall | hlarge
  · -- up to 53 bits: the significand is exact
    have hexact : halfEven (n * 2 ^ (65 - n.log2)) (2 ^ 13) = n * 2 ^ (52 - n.log2) := by
      rw [show 65 - n.log2 = 52 - n.log2 + 13 by omega, Nat.pow_add, ← Nat.mul_assoc]
      exact halfEven_mul_self _ (by decide)
    have hexp : (n.log2 : ℤ) - 52 = -((52 - n.log2 : ℕ) : ℤ) := by omega
    rw [hexact, nearestCount_of_log2_le hsmall, hexp, zpow_neg, zpow_natCast, Nat.cast_mul,
      Nat.cast_pow, Nat.cast_ofNat, mul_assoc, mul_inv_cancel₀ (by positivity), mul_one]
  · have hcommon : halfEven (n * 2 ^ (65 - n.log2)) (2 ^ 13)
        = halfEven n (2 ^ (n.log2 - 52)) := by
      rw [show 13 = n.log2 - 52 + (65 - n.log2) by omega, Nat.pow_add]
      exact halfEven_mul_right _ _ (Nat.two_pow_pos _)
    have hexp : (n.log2 : ℤ) - 52 = ((n.log2 - 52 : ℕ) : ℤ) := by omega
    rw [hcommon, nearestCount, hexp, zpow_natCast, Nat.cast_mul, Nat.cast_pow, Nat.cast_ofNat]

theorem isCount_nearestRatio : IsCount (nearestRatio n 1) (nearestCount n) := by
  have hlog := log2_le hpos hword
  obtain ⟨hlow, hhigh⟩ := significand_bounds hpos hword
  obtain ⟨b, hb, hvalue⟩ := exists_value_word (n.log2 + 1022).succ_pos (by omega) hlow hhigh
  rw [nearestRatio_one hpos hword]
  refine ⟨b, hb, hvalue.trans ?_⟩
  rw [← significand_value hpos hword, show ((n.log2 + 1022 : ℕ).succ : ℤ) - 1075 = (n.log2 : ℤ) - 52
    by push_cast; ring]

end

end Binary

open Binary

/-- a numeral of 64 bits without a point is read as its number, rounded to 53 bits -/
theorem isCount_nearestDecimal {n : ℕ} (hword : n ≤ word64) (len : ℕ) :
    IsCount (nearestDecimal n len 0) (nearestCount n) := by
  rcases Nat.eq_zero_or_pos n with rfl | hpos
  · have hzero : ofFloat? 0.0 = some ⟨false, 0, -1074⟩ := by decide
    rw [nearestDecimal, if_pos rfl]
    exact ⟨_, hzero, by rw [value, Nat.cast_zero, zero_mul, mul_zero]; rfl⟩
  · have hone : nearestDecimal n len 0 = nearestRatio n 1 := by
      rw [nearestDecimal, if_neg hpos.ne', if_neg (by decide), if_neg (by omega)]
      exact congrArg (nearestRatio · 1) (Nat.mul_one n)
    rw [hone]
    exact isCount_nearestRatio hpos hword

/-- the natural numbers that are still the same when they are read as doubles and cut to 64 bits:
those with at most 53 significant bits, and the one to which all that are too large are cut -/
def Kept (n : ℕ) : Prop := n = word64 ∨ n < word64 ∧ 2 ^ (n.log2 - 52) ∣ n

theorem Kept.le {n : ℕ} (h : Kept n) : n ≤ word64 := h.elim Nat.le_of_eq fun h => h.1.le

instance : DecidablePred Kept := fun n =>
  inferInstanceAs (Decidable (n = word64 ∨ n < word64 ∧ 2 ^ (n.log2 - 52) ∣ n))

theorem min_nearestCount_iff {n : ℕ} (hword : n ≤ word64) :
    min word64 (nearestCount n) = n ↔ Kept n := by
  rcases Nat.lt_or_eq_of_le hword with hlt | rfl
  · have hmin : min word64 (nearestCount n) = n ↔ nearestCount n = n := by omega
    have hkept : Kept n ↔ 2 ^ (n.log2 - 52) ∣ n := by
      rw [Kept]
      exact ⟨fun h => (h.resolve_left hlt.ne).2, fun h => .inr ⟨hlt, h⟩⟩
    rw [hmin, hkept, nearestCount]
    exact halfEven_mul_eq_iff (Nat.two_pow_pos _)
  · exact iff_of_true (by decide) (.inl rfl)

example : Kept (2 ^ 53) ∧ ¬ Kept (2 ^ 53 + 1) ∧ Kept (2 ^ 53 + 2) := by decide

end Figures
