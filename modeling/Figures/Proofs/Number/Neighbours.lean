import Figures.Proofs.Number.Nearest

/-!
# Whole numbers next to amounts

* `isAmount_nearest`         a number on the grid of the doubles is its own neighbour
* `isAmount_whole`           a natural number of at most 53 bits, as a double
* `isAmount_ceiling`         `ceiling x` is the least natural number at or above `x`
* `ceiling_eq_self_iff`      an amount is whole if and only if it is its own ceiling
* `toCount_wholeNearest_le`  an amount below `n + 1 / 2` counts as at most `n`
-/

namespace Figures

open Binary

theorem isAmount_nearest {n : ℕ} {e : ℤ} (h : n < 2 * hiddenBit) (hlow : -1074 ≤ e)
    (hhigh : e ≤ 971) :
    IsAmount (nearest n e) (n * 2 ^ e) := by
  rcases Nat.eq_zero_or_pos n with rfl | hpos
  · rw [Nat.cast_zero, zero_mul, nearest, if_pos rfl]
    exact isAmount_zero
  have hlog : n.log2 ≤ 52 := Nat.lt_succ_iff.mp ((Nat.log2_lt hpos.ne').mpr h)
  obtain ⟨m, hnearest, hword⟩ := exists_nearest_eq hpos e
  set q : ℤ := max (e + n.log2 - 52) (-1074) with hq
  obtain ⟨k, hk⟩ := exists_units (show q ≤ e by omega) n
  obtain rfl : m = k := le_antisymm (hnearest.le_of_le hk.le) (hnearest.ge_of_ge hk.ge)
  rw [hk]
  refine (Rounds.amount_or_infinite hnearest hword).resolve_right fun hinfinite => ?_
  have hsmall : (n : ℚ) < (2 * hiddenBit : ℕ) := Nat.cast_lt.mpr h
  have hunit : (2 : ℚ) ^ e ≤ 2 ^ (971 : ℤ) := zpow_le_zpow_right₀ one_le_two hhigh
  have hlimit := (mul_lt_mul_of_pos_right hsmall (by positivity : (0 : ℚ) < 2 ^ e)).trans_le
    (mul_le_mul_of_nonneg_left hunit (Nat.cast_nonneg (2 * hiddenBit)))
  rw [limit_eq, hk] at hlimit
  exact absurd hinfinite.2 (not_le.mpr hlimit)

theorem isAmount_whole {n : ℕ} (h : n < 2 * hiddenBit) : IsAmount (whole false n) n := by
  have hwhole : whole false n = nearest n 0 := by
    rw [whole]
    exact if_neg Bool.false_ne_true
  have hamount := isAmount_nearest (e := 0) h (by decide) (by decide)
  rwa [zpow_zero, mul_one, ← hwhole] at hamount

section
variable {x : Float} {v : ℚ}

theorem truncated_eq_floor {n : ℕ} {e : ℤ} (hvalue : (n * 2 ^ e : ℚ) = v) :
    (Binary.mk false n e).truncated = ⌊v⌋₊ := by
  rw [← hvalue, ← fraction_div, Nat.floor_div_eq_div]
  rfl

theorem toCount_eq (h : IsAmount x v) (limit : ℕ) : toCount limit x = min limit ⌊v⌋₊ := by
  obtain ⟨n, e, -, hvalue, hexact⟩ := h.exists_ofFloat?
  rw [toCount, hexact, ← truncated_eq_floor hvalue]
  rfl

theorem floor_eq (h : IsAmount x v) : floor x = whole false ⌊v⌋₊ := by
  obtain ⟨n, e, -, hvalue, hexact⟩ := h.exists_ofFloat?
  rw [floor, hexact, ← truncated_eq_floor hvalue]
  rfl

theorem isWhole_iff_floor (h : IsAmount x v) : isWhole x = true ↔ v = ⌊v⌋₊ := by
  obtain ⟨n, e, -, hvalue, hexact⟩ := h.exists_ofFloat?
  rw [isWhole, hexact, ← truncated_eq_floor hvalue, ← hvalue]
  exact Binary.isWhole_iff ⟨false, n, e⟩

theorem truncated_add_eq_ceil {n : ℕ} {e : ℤ} (hvalue : (n * 2 ^ e : ℚ) = v) :
    (Binary.mk false n e).truncated + (if !(Binary.mk false n e).isWhole then 1 else 0) = ⌈v⌉₊ := by
  have hwhole : (Binary.mk false n e).isWhole = true ↔ v = ⌊v⌋₊ := by
    rw [← truncated_eq_floor hvalue, ← hvalue]
    exact Binary.isWhole_iff ⟨false, n, e⟩
  rw [truncated_eq_floor hvalue]
  by_cases hexactly : v = ⌊v⌋₊
  · rw [hwhole.mpr hexactly, hexactly, Nat.ceil_natCast, Nat.floor_natCast]
    rfl
  · have hpart : (Binary.mk false n e).isWhole = false := by
      rw [← Bool.not_eq_true]
      exact fun htrue => hexactly (hwhole.mp htrue)
    have hnonneg : 0 ≤ v := hvalue ▸ by positivity
    have hlt : (⌊v⌋₊ : ℚ) < v := lt_of_le_of_ne (Nat.floor_le hnonneg) (Ne.symm hexactly)
    rw [hpart]
    exact (Nat.le_antisymm (Nat.ceil_le_floor_add_one v) (Nat.lt_ceil.mpr hlt)).symm

theorem isAmount_ceiling (h : IsAmount x v) (hsmall : ⌈v⌉₊ < 2 * hiddenBit) :
    IsAmount (ceiling x) ⌈v⌉₊ := by
  obtain ⟨n, e, -, hvalue, hexact⟩ := h.exists_ofFloat?
  rw [ceiling, hexact]
  show IsAmount (whole false ((Binary.mk false n e).truncated
    + if !(Binary.mk false n e).isWhole then 1 else 0)) _
  rw [truncated_add_eq_ceil hvalue]
  exact isAmount_whole hsmall

theorem ceiling_eq_self_iff (h : IsAmount x v) : isWhole x = true ↔ (⌈v⌉₊ : ℚ) = v := by
  rw [isWhole_iff_floor h]
  constructor
  · intro hwhole
    rw [hwhole, Nat.ceil_natCast]
  · intro hwhole
    rw [← hwhole, Nat.floor_natCast]

theorem toCount_wholeNearest_le (h : IsAmount x v) {n : ℕ} (hn : n < 2 * hiddenBit)
    (hlt : 2 * v < 2 * n + 1) (limit : ℕ) : toCount limit (wholeNearest x) ≤ n := by
  obtain ⟨m, e, -, hvalue, hexact⟩ := h.exists_ofFloat?
  have hden := fraction_pos m e
  have hdenQ : (0 : ℚ) < (fraction m e).2 := Nat.cast_pos.mpr hden
  set k := (2 * (fraction m e).1 + (fraction m e).2) / (2 * (fraction m e).2) with hk
  have hkn : k ≤ n := by
    rw [hk, ← Nat.lt_succ_iff, Nat.div_lt_iff_lt_mul (by omega)]
    rw [← hvalue, ← fraction_div, ← mul_div_assoc, div_lt_iff₀ hdenQ] at hlt
    have hnat : 2 * (fraction m e).1 < (2 * n + 1) * (fraction m e).2 := by exact_mod_cast hlt
    rw [Nat.succ_eq_add_one]
    linarith
  have hwhole : wholeNearest x = whole false k := by
    rw [wholeNearest, hexact]
  rw [hwhole, toCount_eq (isAmount_whole (hkn.trans_lt hn)), Nat.floor_natCast]
  exact (Nat.min_le_right _ _).trans hkn

end

end Figures
