import Figures.Number.Elementary
import Figures.Proofs.Number.Rounding

/-!
# The double nearest to a number

* `exists_nearest_eq`     `nearest m e` is `m * 2 ^ e`, rounded
* `exists_sticky`         what `nearestRatio num den` rounds is on the same side of every double as
                          `num / den`
* `rounds_nearestRatio`   `nearestRatio num den` is `num / den`, rounded
-/

namespace Figures

open Float.Model UnpackedFloat Binary

/-! ### doubles from words -/

theorem toBits_ofBits {w : ℕ} (h : w ≤ 2047 * hiddenBit) :
    (Float.ofBits (UInt64.ofNat w)).toBits.toNat = w := by
  have hword : (BitVec.ofNat 64 w).toNat = w := by
    rw [BitVec.toNat_ofNat, Nat.mod_eq_of_lt (h.trans_lt (by decide))]
  have hvalid : Format.binary64.Valid (BitVec.ofNat 64 w) := by
    refine ⟨fun hones hfraction => absurd ?_ hfraction⟩
    have hfield := unpackExponent_toNat (BitVec.ofNat 64 w)
    rw [hones, hword] at hfield
    have hempty := unpackMantissa_toNat (BitVec.ofNat 64 w)
    rw [hword] at hempty
    refine BitVec.eq_of_toNat_eq (hempty.trans ?_)
    have hall : 2047 = (w >>> 52) % 2048 := hfield
    rw [Nat.shiftRight_eq_div_pow] at hall
    show w % hiddenBit = 0
    simp only [hiddenBit] at *
    omega
  have hbits : (Float.ofBits (UInt64.ofNat w)).toBits.toBitVec
      = UnpackedFloat.pack .binary64 (UnpackedFloat.unpack .binary64 (BitVec.ofNat 64 w)) := rfl
  rw [← UInt64.toNat_toBitVec, hbits, pack_unpack_of_valid hvalid, hword]

/-! ### rounding -/

theorem halfEven_near (num : ℕ) {den : ℕ} (hden : 0 < den) :
    2 * |(num : ℚ) / den - halfEven num den| ≤ 1 := by
  have hdenQ : (0 : ℚ) < den := Nat.cast_pos.mpr hden
  have hsplit : (num : ℚ) = (num / den : ℕ) * den + (num % den : ℕ) := by
    exact_mod_cast (Nat.div_add_mod' num den).symm
  have hcases : halfEven num den = num / den ∧ 2 * (num % den) ≤ den ∨
      halfEven num den = num / den + 1 ∧ den ≤ 2 * (num % den) := by
    simp only [halfEven]
    split_ifs <;> omega
  have hlt := Nat.mod_lt num hden
  rw [← le_div_iff₀' two_pos, abs_le, le_sub_iff_add_le, sub_le_iff_le_add, le_div_iff₀ hdenQ,
    div_le_iff₀ hdenQ, hsplit]
  rcases hcases with ⟨heq, hle⟩ | ⟨heq, hle⟩
  · have hleQ : (2 * (num % den : ℕ) : ℚ) ≤ den := by exact_mod_cast hle
    rw [heq]
    constructor <;> nlinarith [Nat.cast_nonneg (α := ℚ) (num % den)]
  · have hleQ : (den : ℚ) ≤ 2 * (num % den : ℕ) := by exact_mod_cast hle
    have hltQ : ((num % den : ℕ) : ℚ) < den := by exact_mod_cast hlt
    rw [heq]
    push_cast at *
    constructor <;> nlinarith

theorem quotient_units (m : ℕ) (e q : ℤ) :
    ((m <<< (e - q).toNat : ℕ) : ℚ) / (1 <<< (q - e).toNat : ℕ) * 2 ^ q = m * 2 ^ e := by
  have hscale : (2 : ℚ) ^ (e - q).toNat / 2 ^ (q - e).toNat * 2 ^ q = 2 ^ e := by
    rw [← zpow_natCast, ← zpow_natCast, ← zpow_sub₀ two_ne_zero, ← zpow_add₀ two_ne_zero]
    congr 1
    omega
  rw [Nat.shiftLeft_eq, Nat.one_shiftLeft, ← hscale]
  push_cast
  ring

theorem nearest_halfEven {m : ℕ} {e q : ℤ} (hm : 0 < m)
    (hq : q = max (e + m.log2 - 52) (-1074)) :
    Nearest (m * 2 ^ e) (halfEven (m <<< (e - q).toNat) (1 <<< (q - e).toNat)) q := by
  have hden : 0 < 1 <<< (q - e).toNat := by
    rw [Nat.one_shiftLeft]
    exact Nat.two_pow_pos _
  have hnear := near_units (halfEven_near (m <<< (e - q).toNat) hden) q
  rw [quotient_units, ← add_zero (m : ℚ)] at hnear
  rw [← add_zero (m : ℚ)]
  exact nearest_of_log2 (by rw [hq, add_comm e]) (.inl hm) le_rfl one_pos hnear

theorem exists_nearest_eq {m : ℕ} (hm : 0 < m) (e : ℤ) :
    ∃ n, Nearest (m * 2 ^ e) n (max (e + m.log2 - 52) (-1074)) ∧
      (nearest m e).toBits.toNat
        = min (place n (max (e + m.log2 - 52) (-1074))) (2047 * hiddenBit) := by
  refine ⟨_, nearest_halfEven hm rfl, ?_⟩
  rw [nearest, if_neg hm.ne']
  exact toBits_ofBits (Nat.min_le_right _ _)

/-! ### quotients -/

/-- every even number is on the same side of the natural number `k` and of `x` -/
structure Sticky (k : ℕ) (x : ℚ) : Prop where
  le : ∀ c : ℤ, (k : ℚ) ≤ 2 * c → x ≤ 2 * c
  ge : ∀ c : ℤ, (2 * c : ℚ) ≤ k → 2 * c ≤ x
  lt : ∀ c : ℤ, (k : ℚ) < 2 * c → x < 2 * c

theorem sticky_of_between {n : ℕ} {x : ℚ} (hlow : n < x) (hhigh : x < n + 1) :
    Sticky (2 * n + 1) (2 * x) := by
  have habove : ∀ c : ℤ, ((2 * n + 1 : ℕ) : ℚ) ≤ 2 * c → x < c := by
    intro c h
    have hint : ((2 * n + 1 : ℕ) : ℤ) ≤ 2 * c := by
      rw [← Int.cast_natCast] at h
      exact_mod_cast h
    have hc : (n : ℤ) + 1 ≤ c := by omega
    exact hhigh.trans_le (by exact_mod_cast hc)
  refine ⟨fun c h => ?_, fun c h => ?_, fun c h => ?_⟩
  · exact mul_le_mul_of_nonneg_left (habove c h).le zero_le_two
  · have hint : 2 * c ≤ ((2 * n + 1 : ℕ) : ℤ) := by
      rw [← Int.cast_natCast] at h
      exact_mod_cast h
    have hc : c ≤ (n : ℤ) := by omega
    have hcQ : (c : ℚ) ≤ n := by exact_mod_cast hc
    exact mul_le_mul_of_nonneg_left (hcQ.trans hlow.le) zero_le_two
  · exact mul_lt_mul_of_pos_left (habove c h.le) two_pos

/-- the doubled quotient, with a last bit that says whether anything was left over -/
theorem sticky_quotient (n : ℕ) {den : ℕ} (hden : 0 < den) :
    Sticky (2 * (n / den) + if n % den = 0 then 0 else 1) (2 * (n / den)) := by
  have hdenQ : (0 : ℚ) < den := Nat.cast_pos.mpr hden
  have hsplit : (n : ℚ) = (n / den : ℕ) * den + (n % den : ℕ) := by
    exact_mod_cast (Nat.div_add_mod' n den).symm
  split_ifs with hexact
  · have hquotient : (n : ℚ) / den = (n / den : ℕ) := by
      rw [div_eq_iff hdenQ.ne']
      rw [hexact] at hsplit
      simpa using hsplit
    have hcast : (2 * (n / den : ℕ) : ℚ) = (2 * (n / den) + 0 : ℕ) := by
      rw [Nat.add_zero, Nat.cast_mul, Nat.cast_ofNat]
    rw [hquotient, hcast]
    exact ⟨fun c h => h, fun c h => h, fun c h => h⟩
  · have hpos : (0 : ℚ) < (n % den : ℕ) := Nat.cast_pos.mpr (Nat.pos_of_ne_zero hexact)
    have hlt : ((n % den : ℕ) : ℚ) < den := Nat.cast_lt.mpr (Nat.mod_lt n hden)
    have hlow : ((n / den : ℕ) : ℚ) < n / den := by
      rw [lt_div_iff₀ hdenQ]
      linarith
    have hhigh : (n : ℚ) / den < (n / den : ℕ) + 1 := by
      rw [div_lt_iff₀ hdenQ]
      linarith
    exact sticky_of_between hlow hhigh

/-- multiples of a coarser unit are even numbers of a finer one -/
theorem exists_even {u t : ℤ} (h : u < t) (a : ℤ) : ∃ c : ℤ, (a * 2 ^ t : ℚ) = 2 * c * 2 ^ u := by
  refine ⟨a * 2 ^ (t - u - 1).toNat, ?_⟩
  have hexp : t = ((t - u - 1).toNat : ℤ) + 1 + u := by omega
  conv_lhs => rw [hexp, zpow_add₀ two_ne_zero, zpow_add_one₀ two_ne_zero, zpow_natCast]
  push_cast
  ring

namespace Sticky

variable {k : ℕ} {x : ℚ} {u t : ℤ}

theorem le_units (h : Sticky k x) (hut : u < t) {a : ℤ} (hk : (k * 2 ^ u : ℚ) ≤ a * 2 ^ t) :
    x * 2 ^ u ≤ a * 2 ^ t := by
  obtain ⟨c, hc⟩ := exists_even hut a
  rw [hc] at hk ⊢
  have hx := h.le c (le_of_mul_le_mul_right hk (by positivity))
  gcongr

theorem ge_units (h : Sticky k x) (hut : u < t) {a : ℤ} (hk : (a * 2 ^ t : ℚ) ≤ k * 2 ^ u) :
    a * 2 ^ t ≤ x * 2 ^ u := by
  obtain ⟨c, hc⟩ := exists_even hut a
  rw [hc] at hk ⊢
  have hx := h.ge c (le_of_mul_le_mul_right hk (by positivity))
  gcongr

theorem lt_units (h : Sticky k x) (hut : u < t) {a : ℤ} (hk : (k * 2 ^ u : ℚ) < a * 2 ^ t) :
    x * 2 ^ u < a * 2 ^ t := by
  obtain ⟨c, hc⟩ := exists_even hut a
  rw [hc] at hk ⊢
  have hx := h.lt c (lt_of_mul_lt_mul_right hk (by positivity))
  gcongr

/-- what is on the same side of all even numbers is rounded in the same way, if the grid is
coarser -/
theorem nearest {j : ℕ} {e : ℤ} (h : Sticky k x) (hu : u + 1 < e)
    (hnearest : Nearest (k * 2 ^ u) j e) : Nearest (x * 2 ^ u) j e := by
  obtain ⟨hlow, hgrid, hhigh, hnear⟩ := hnearest
  have hhalf : (2 : ℚ) ^ e = 2 * 2 ^ (e - 1) := by
    rw [← zpow_one_add₀ two_ne_zero]
    congr 1
    omega
  refine ⟨hlow, hgrid.imp_left fun hq => ?_, ?_, ?_⟩
  · simpa using h.ge_units (show u < e + 52 by omega) (a := 1) (by simpa using hq)
  · simpa using h.lt_units (show u < e + 53 by omega) (a := 1) (by simpa using hhigh)
  · rw [← le_div_iff₀' two_pos, abs_le, hhalf] at hnear ⊢
    have habove := h.le_units (show u < e - 1 by omega) (a := 2 * j + 1)
      (by push_cast; linarith [hnear.2])
    have hbelow := h.ge_units (show u < e - 1 by omega) (a := 2 * j - 1)
      (by push_cast; linarith [hnear.1])
    push_cast at habove hbelow
    constructor <;> linarith

end Sticky

/-- the quotient that `nearestRatio` takes to at least 64 bits -/
theorem exists_sticky {num den : ℕ} (hnum : 0 < num) (hden : 0 < den) : ∃ k s : ℕ, ∃ x : ℚ,
    nearestRatio num den = Binary.nearest k (-(s : ℤ) - 1) ∧ 64 ≤ k.log2 ∧ Sticky k x ∧
      x * 2 ^ (-(s : ℤ) - 1) = num / den := by
  set s := 64 + den.log2 - num.log2 with hs
  set wide := num <<< s with hwide
  have hlarge : 2 ^ 63 ≤ wide / den := two_pow_le_div hnum hden (by omega)
  refine ⟨2 * (wide / den) + if wide % den = 0 then 0 else 1, s, 2 * (wide / den), rfl,
    (Nat.le_log2 (by omega)).mpr (by omega), sticky_quotient wide hden, ?_⟩
  have hscale : (2 : ℚ) ^ s * 2 * 2 ^ (-(s : ℤ) - 1) = 1 := by
    rw [← zpow_natCast, ← zpow_add_one₀ two_ne_zero, ← zpow_add₀ two_ne_zero]
    simp
  rw [hwide, Nat.shiftLeft_eq]
  push_cast
  linear_combination (num / den : ℚ) * hscale

theorem rounds_nearestRatio {num den : ℕ} (hnum : 0 < num) (hden : 0 < den) :
    Rounds (num / den) (nearestRatio num den) := by
  obtain ⟨k, s, x, hratio, hbits, hsticky, hvalue⟩ := exists_sticky hnum hden
  have hkpos : 0 < k := by
    refine Nat.pos_of_ne_zero ?_
    rintro rfl
    exact absurd hbits (by decide)
  obtain ⟨j, hnearest, hword⟩ := exists_nearest_eq hkpos (-(s : ℤ) - 1)
  rw [hratio, ← hvalue]
  exact ⟨j, _, hsticky.nearest (by omega) hnearest, hword⟩

theorem powerOfTen_pos (k : ℕ) : 0 < powerOfTen k := Nat.pow_pos (by decide)

end Figures
