import Figures.Proofs.Number.Rank

/-!
# Rounding to doubles

* `Nearest q n e`         `n` units of `2 ^ e` are nearest to the rational `q`, and `2 ^ e` is the
                          distance of the doubles about `q`
* `Rounds q x`            the double `x` is `q`, rounded
* `Rounds.le`             what is at most a double is rounded to at most that double
* `Rounds.ge`             what is at least a double is rounded to at least that double
* `Rounds.close`          what is rounded was not far away

A result that is too large is infinite. Which of two equally near doubles is taken is left open: no
bound depends on it.
-/

namespace Figures

open Binary

/-- `n` units of `2 ^ e` are nearest to `q`, and `2 ^ e` is the distance of the doubles about `q` -/
structure Nearest (q : ℚ) (n : ℕ) (e : ℤ) : Prop where
  low : -1074 ≤ e
  grid : 2 ^ (e + 52) ≤ q ∨ e = -1074
  high : q < 2 ^ (e + 53)
  near : 2 * |q - n * 2 ^ e| ≤ 2 ^ e

/-- the double `x` is the rational `q`, rounded; what is too large is infinite -/
def Rounds (q : ℚ) (x : Float) : Prop :=
  ∃ n e, Nearest q n e ∧ x.toBits.toNat = min (place n e) (2047 * hiddenBit)

namespace Nearest

variable {q : ℚ} {n m : ℕ} {e d : ℤ}

/-- in units of the grid, a whole number above `q` is not below `n` -/
theorem le_of_le (h : Nearest q n e) {k : ℕ} (hk : q ≤ k * 2 ^ e) : n ≤ k := by
  have hunit : (0 : ℚ) < 2 ^ e := by positivity
  have hnear := (abs_le.mp ((le_div_iff₀' two_pos).mpr h.near)).1
  have hlt : (n * 2 ^ e : ℚ) < (k + 1) * 2 ^ e := by linarith
  exact_mod_cast Nat.lt_succ_iff.mp (by exact_mod_cast lt_of_mul_lt_mul_right hlt hunit.le)

theorem ge_of_ge (h : Nearest q n e) {k : ℕ} (hk : k * 2 ^ e ≤ q) : k ≤ n := by
  have hunit : (0 : ℚ) < 2 ^ e := by positivity
  have hnear := (abs_le.mp ((le_div_iff₀' two_pos).mpr h.near)).2
  have hlt : (k * 2 ^ e : ℚ) < (n + 1) * 2 ^ e := by linarith
  exact_mod_cast Nat.lt_succ_iff.mp (by exact_mod_cast lt_of_mul_lt_mul_right hlt hunit.le)

theorem le_two_hiddenBit (h : Nearest q n e) : n ≤ 2 * hiddenBit := by
  refine h.le_of_le (h.high.le.trans_eq ?_)
  rw [zpow_add₀ two_ne_zero]
  norm_num [hiddenBit]
  ring

theorem full (h : Nearest q n e) : hiddenBit ≤ n ∨ e = -1074 := by
  refine h.grid.imp (fun hgrid => h.ge_of_ge (le_trans (le_of_eq ?_) hgrid)) id
  rw [zpow_add₀ two_ne_zero]
  norm_num [hiddenBit]
  ring

/-- a double off the grid is below it -/
theorem lt_of_exponent_lt (hm : Normal m d) (h : d < e) : (m * 2 ^ d : ℚ) < 2 ^ (e + 52) :=
  hm.lt_two_zpow.trans_le (zpow_le_zpow_right₀ one_le_two (by omega))

theorem value_le (h : Nearest q n e) (hm : Normal m d) (hle : q ≤ m * 2 ^ d) :
    (n * 2 ^ e : ℚ) ≤ m * 2 ^ d := by
  rcases le_or_gt e d with hed | hde
  · obtain ⟨k, hk⟩ := exists_units hed m
    rw [hk] at hle ⊢
    have hnk : n ≤ k := h.le_of_le hle
    gcongr
  · have hgrid := h.grid.resolve_right (by have := hm.low; omega)
    exact absurd (hgrid.trans hle) (not_le.mpr (lt_of_exponent_lt hm hde))

/-- rounded, `q` stays at least a double that it is at least -/
theorem le_value (h : Nearest q n e) (hm : Normal m d) (hle : m * 2 ^ d ≤ q) :
    (m * 2 ^ d : ℚ) ≤ n * 2 ^ e := by
  rcases le_or_gt e d with hed | hde
  · obtain ⟨k, hk⟩ := exists_units hed m
    rw [hk] at hle ⊢
    have hkn : k ≤ n := h.ge_of_ge hle
    gcongr
  · have hfull : hiddenBit ≤ n := h.full.resolve_right (by have := hm.low; omega)
    exact (lt_of_exponent_lt hm hde).le.trans (two_zpow_le hfull)

end Nearest

theorem near_units {x : ℚ} {n : ℕ} (h : 2 * |x - n| ≤ 1) (t : ℤ) :
    2 * |x * 2 ^ t - n * 2 ^ t| ≤ 2 ^ t := by
  have hunit : (0 : ℚ) < 2 ^ t := by positivity
  rw [← sub_mul, abs_mul, abs_of_pos hunit, ← mul_assoc]
  exact mul_le_of_le_one_left hunit.le h

/-- a significand `m` with a rest `r` is about as large as its highest bit -/
theorem nearest_of_log2 {m n : ℕ} {e t : ℤ} {r : ℚ} (ht : t = max (m.log2 + e - 52) (-1074))
    (hm : 0 < m ∨ t = -1074) (hnonneg : 0 ≤ r) (hlt : r < 1)
    (hnear : 2 * |(m + r) * 2 ^ e - n * 2 ^ t| ≤ 2 ^ t) : Nearest ((m + r) * 2 ^ e) n t := by
  refine ⟨by omega, or_iff_not_imp_right.mpr fun hcoarse => ?_, ?_, hnear⟩
  · have hself : ((2 ^ m.log2 : ℕ) : ℚ) ≤ m :=
      Nat.cast_le.mpr (Nat.log2_self_le (hm.resolve_right hcoarse).ne')
    push_cast at hself
    calc (2 : ℚ) ^ (t + 52) = 2 ^ (m.log2 + e) := by
          congr 1
          omega
      _ = 2 ^ m.log2 * 2 ^ e := by rw [zpow_add₀ two_ne_zero, zpow_natCast]
      _ ≤ (m + r) * 2 ^ e := by
          gcongr
          linarith
  · have hself : ((m + 1 : ℕ) : ℚ) ≤ (2 ^ (m.log2 + 1) : ℕ) := Nat.cast_le.mpr Nat.lt_log2_self
    push_cast at hself
    calc ((m + r) * 2 ^ e : ℚ) < 2 ^ (m.log2 + 1) * 2 ^ e := by
          gcongr
          linarith
      _ = 2 ^ ((m.log2 + 1 : ℕ) + e) := by rw [zpow_add₀ two_ne_zero, zpow_natCast]
      _ ≤ 2 ^ (t + 53) := zpow_le_zpow_right₀ one_le_two (by push_cast; omega)

theorem two_pow_le_div {m n k s : ℕ} (hm : 0 < m) (hn : 0 < n) (h : k + n.log2 + 1 ≤ m.log2 + s) :
    2 ^ k ≤ (m <<< s) / n := by
  rw [Nat.le_div_iff_mul_le hn, Nat.shiftLeft_eq]
  calc 2 ^ k * n ≤ 2 ^ k * 2 ^ (n.log2 + 1) := Nat.mul_le_mul_left _ Nat.lt_log2_self.le
    _ = 2 ^ (k + n.log2 + 1) := by rw [← Nat.pow_add, Nat.add_assoc]
    _ ≤ 2 ^ (m.log2 + s) := Nat.pow_le_pow_right two_pos h
    _ = 2 ^ m.log2 * 2 ^ s := Nat.pow_add ..
    _ ≤ m * 2 ^ s := Nat.mul_le_mul_right _ (Nat.log2_self_le hm.ne')

/-- a significand that has run over is the hidden bit of the next exponent -/
theorem exists_normal {n : ℕ} {e : ℤ} (hlow : -1074 ≤ e) (hsmall : n ≤ 2 * hiddenBit)
    (hfull : hiddenBit ≤ n ∨ e = -1074) (hplace : place n e < 2047 * hiddenBit) :
    ∃ m d, Normal m d ∧ place n e = place m d ∧ (m * 2 ^ d : ℚ) = n * 2 ^ e := by
  rcases Nat.lt_or_eq_of_le hsmall with hlt | rfl
  · refine ⟨n, e, ⟨hlow, ?_, hlt, hfull⟩, rfl, rfl⟩
    simp only [place, hiddenBit] at *
    omega
  · refine ⟨hiddenBit, e + 1, ⟨by omega, ?_, by decide, .inl le_rfl⟩, ?_, ?_⟩
    · simp only [place, hiddenBit] at *
      omega
    · simp only [place, hiddenBit] at *
      omega
    · rw [zpow_add_one₀ two_ne_zero]
      push_cast
      ring

theorem limit_eq : ((2 * hiddenBit : ℕ) : ℚ) * 2 ^ (971 : ℤ) = 2 ^ (1024 : ℤ) := by
  rw [Nat.cast_mul, two_pow_hiddenBit, Nat.cast_ofNat, ← zpow_one_add₀ two_ne_zero,
    ← zpow_add₀ two_ne_zero]
  rfl

theorem Binary.Normal.lt_limit {m : ℕ} {d : ℤ} (h : Normal m d) : (m * 2 ^ d : ℚ) < 2 ^
    (1024 : ℤ) := by
  have hhigh := h.high
  exact h.lt_two_zpow.trans_le (zpow_le_zpow_right₀ one_le_two (by omega))

theorem IsAmount.lt_limit {x : Float} {v : ℚ} (h : IsAmount x v) : v < 2 ^ (1024 : ℤ) := by
  obtain ⟨n, e, hnormal, -, rfl⟩ := h
  exact hnormal.lt_limit

/-- a word that has run over is a value that is too large -/
theorem limit_le {n : ℕ} {e : ℤ} (hlow : -1074 ≤ e) (hsmall : n ≤ 2 * hiddenBit)
    (hfull : hiddenBit ≤ n ∨ e = -1074) (hplace : 2047 * hiddenBit ≤ place n e) :
    2 ^ (1024 : ℤ) ≤ (n * 2 ^ e : ℚ) := by
  have hcases : n = 2 * hiddenBit ∧ e = 971 ∨ hiddenBit ≤ n ∧ 972 ≤ e := by
    simp only [place, hiddenBit] at *
    omega
  rcases hcases with ⟨rfl, rfl⟩ | ⟨hn, he⟩
  · exact limit_eq.ge
  · exact (zpow_le_zpow_right₀ one_le_two (by omega)).trans (two_zpow_le hn)

namespace Rounds

variable {q v w : ℚ} {x y : Float}

theorem amount_or_infinite {n : ℕ} {e : ℤ} (h : Nearest q n e)
    (hword : x.toBits.toNat = min (place n e) (2047 * hiddenBit)) :
    IsAmount x (n * 2 ^ e) ∨ x = infinite ∧ 2 ^ (1024 : ℤ) ≤ (n * 2 ^ e : ℚ) := by
  rcases lt_or_ge (place n e) (2047 * hiddenBit) with hlt | hge
  · obtain ⟨m, d, hnormal, hplace, hvalue⟩ := exists_normal h.low h.le_two_hiddenBit h.full hlt
    exact .inl ⟨m, d, hnormal, by rw [hword, min_eq_left hlt.le, hplace], hvalue⟩
  · refine .inr ⟨eq_of_toBits ?_, limit_le h.low h.le_two_hiddenBit h.full hge⟩
    rw [hword, min_eq_right hge]
    decide

theorem cases (h : Rounds q x) : (∃ v, IsAmount x v) ∨ x = infinite := by
  obtain ⟨n, e, hnearest, hword⟩ := h
  exact (amount_or_infinite hnearest hword).imp (fun h => ⟨_, h⟩) And.left

theorem exists_le (h : Rounds q x) (hy : IsAmount y w) (hle : q ≤ w) :
    ∃ v, IsAmount x v ∧ v ≤ w := by
  obtain ⟨n, e, hnearest, hword⟩ := h
  obtain ⟨m, d, hm, -, rfl⟩ := hy
  have hvalue := hnearest.value_le hm hle
  rcases amount_or_infinite hnearest hword with hx | ⟨-, hlimit⟩
  · exact ⟨_, hx, hvalue⟩
  · exact absurd (hlimit.trans hvalue) (not_le.mpr hm.lt_limit)

theorem le (h : Rounds q x) (hy : IsAmount y w) (hle : q ≤ w) : x ≤ y := by
  obtain ⟨v, hx, hvw⟩ := h.exists_le hy hle
  exact (hx.le_iff hy).mpr hvw

theorem ge (h : Rounds q x) (hx : IsAmount x v) (hy : IsAmount y w) (hle : w ≤ q) : w ≤ v := by
  obtain ⟨n, e, hnearest, hword⟩ := h
  obtain ⟨m, d, hm, -, rfl⟩ := hy
  rcases amount_or_infinite hnearest hword with hamount | ⟨rfl, -⟩
  · exact (hnearest.le_value hm hle).trans_eq (hamount.unique hx)
  · exact absurd hx.isFinite (by decide)

/-- the error is at most half of the last place: of a result of at least `c` of the smallest
doubles, one part in `2 * c` -/
theorem close (h : Rounds q x) (hx : IsAmount x v) {c : ℕ} (hc : c ≤ hiddenBit)
    (hv : c * 2 ^ (-1074 : ℤ) ≤ v) : 2 * c * |q - v| ≤ v := by
  obtain ⟨n, e, hnearest, hword⟩ := h
  rcases amount_or_infinite hnearest hword with hamount | ⟨rfl, -⟩
  · obtain rfl := hamount.unique hx
    have hcn : c ≤ n := by
      rcases hnearest.full with hfull | rfl
      · exact hc.trans hfull
      · exact_mod_cast le_of_mul_le_mul_right hv (by positivity)
    calc (2 * c * |q - n * 2 ^ e| : ℚ) = c * (2 * |q - n * 2 ^ e|) := by ring
      _ ≤ n * 2 ^ e := by
          gcongr
          exact hnearest.near
  · exact absurd hx.isFinite (by decide)

/-- the error is at most half of the last place: half of the smallest double, or one part in `2 ^
53` -/
theorem error (h : Rounds q x) (hx : IsAmount x v) (hq : 0 ≤ q) :
    2 * |q - v| ≤ 2 ^ (-1074 : ℤ) + q / hiddenBit := by
  obtain ⟨n, e, hnearest, hword⟩ := h
  have hhidden : (0 : ℚ) < hiddenBit := by decide
  rcases amount_or_infinite hnearest hword with hamount | ⟨rfl, -⟩
  · obtain rfl := hamount.unique hx
    rcases hnearest.grid with hgrid | rfl
    · have hunit : (2 : ℚ) ^ e ≤ q / hiddenBit := by
        rwa [le_div_iff₀ hhidden, two_pow_hiddenBit, ← zpow_add₀ two_ne_zero]
      have hsmallest : (0 : ℚ) < 2 ^ (-1074 : ℤ) := by positivity
      exact (hnearest.near.trans hunit).trans (le_add_of_nonneg_left hsmallest.le)
    · exact hnearest.near.trans (le_add_of_nonneg_right (div_nonneg hq hhidden.le))
  · exact absurd hx.isFinite (by decide)

/-- what is rounded to one or more is at most half of the last place larger -/
theorem le_of_one_le (h : Rounds q x) (hx : IsAmount x v) (hone : 1 ≤ v) :
    q ≤ v + v / (2 * hiddenBit : ℕ) := by
  have hplace : (hiddenBit * 2 ^ (-1074 : ℤ) : ℚ) ≤ v := by
    refine le_trans ?_ hone
    rw [two_pow_hiddenBit, ← zpow_add₀ two_ne_zero]
    exact zpow_le_one_of_nonpos₀ one_le_two (by decide)
  have hclose := h.close hx le_rfl hplace
  have hhidden : (0 : ℚ) < (2 * hiddenBit : ℕ) := by decide
  rw [← sub_le_iff_le_add', le_div_iff₀' hhidden]
  push_cast
  exact (mul_le_mul_of_nonneg_left (le_abs_self _) (by positivity)).trans hclose

theorem eq_infinite (h : Rounds q x) (hlimit : 2 ^ (1024 : ℤ) ≤ q) : x = infinite := by
  obtain ⟨n, e, hnearest, hword⟩ := h
  rcases amount_or_infinite hnearest hword with ⟨m, d, hm, -, hvalue⟩ | ⟨rfl, -⟩
  · have hexp : 1024 < e + 53 :=
      (zpow_lt_zpow_iff_right₀ one_lt_two).mp (hlimit.trans_lt hnearest.high)
    have hfull : hiddenBit ≤ n := hnearest.full.resolve_right (by omega)
    have hlarge : (2 : ℚ) ^ (1024 : ℤ) ≤ n * 2 ^ e :=
      (zpow_le_zpow_right₀ one_le_two (by omega)).trans (two_zpow_le hfull)
    exact absurd hm.lt_limit (not_lt.mpr (hvalue ▸ hlarge))
  · rfl

end Rounds

theorem IsAmount.le_infinite {x : Float} {v : ℚ} (h : IsAmount x v) : x ≤ infinite := by
  rw [le_iff_rank h.isNaN (by decide), h.rank_eq]
  obtain ⟨n, e, hnormal, hword, -⟩ := h
  have hinfinite : rank infinite = (2047 * hiddenBit : ℕ) := by decide
  rw [hinfinite, hword]
  exact_mod_cast hnormal.place_lt.le

/-- what is at least a double is rounded to at least that double, too large or not -/
theorem Rounds.le_of_ge {q w : ℚ} {x y : Float} (h : Rounds q x) (hy : IsAmount y w) (hle : w ≤ q) :
    y ≤ x := by
  rcases h.cases with ⟨v, hx⟩ | rfl
  · exact (hy.le_iff hx).mpr (h.ge hx hy hle)
  · exact hy.le_infinite

end Figures
