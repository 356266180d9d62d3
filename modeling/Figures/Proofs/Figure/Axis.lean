import Figures.Proofs.Figure.Stride

/-!
# The axis of the bar chart

* `Serves m top step`   the axis reaches `m`, in at most ten steps
* `FallsShort m step`   the number of steps is rounded down, and so is their product
* `Overruns m step`     four of the largest steps are needed, which is more than a double can hold
* `Tops m M S N`        the top of an axis of `N` steps, from the step `S` and the number to reach
* `Tops.reaches_iff`    an axis reaches its number if the steps do not fall short of it
* `Tops.le_of_lt`       it reaches every smaller number anyway
* `Tops.lines`          the lines of an axis are those of its steps
* `Tops.top_infinite`   the top is infinite if the axis overruns, and only then
-/

namespace Figures

namespace BarChart

open Binary

/-- how many lines are drawn along the axis, that of zero included -/
def lineCount (top step : Float) : ℕ := toCount word64 (wholeNearest (top / step)) + 1

/-- an axis that is of use: it reaches `m` in at most ten steps -/
structure Serves (m top step : Float) : Prop where
  step_finite : step.isFinite = true
  step_pos : 0.0 < step
  top_finite : top.isFinite = true
  reaches : m ≤ top
  lines : lineCount top step ≤ 10

/-- the number of steps is rounded to a whole number, and that many steps are rounded to less than
`m` -/
def FallsShort (m step : Float) : Prop := isWhole (m / step) = true ∧ m / step * step < m

/-- three steps of about `5e307` do not reach `m`, and four of them are too large for a double -/
def Overruns (m step : Float) : Prop := 4e307 < step ∧ 3.0 < m / step

/-! ### the top as a number of steps -/

/-- the top of the axis is `N` steps above zero, rounded -/
structure Tops [Platform] (m : Float) (M S : ℚ) (N : ℕ) : Prop where
  pos : 1 ≤ N
  le : N ≤ 7
  three : 3.0 < m / stride m ↔ 3 < N
  rounds : Rounds (N * S) (axis m).1
  whole : isWhole (m / stride m) = true → (axis m).1 = m / stride m * stride m
  least : ∀ k : ℕ, k ≤ 7 → M ≤ k * S → N ≤ k
  reach : M ≤ N * S ∨ isWhole (m / stride m) = true ∧ M / S ≤ N + N / (2 * hiddenBit : ℕ)

theorem lineCount_le_of_top {top step : Float} {T : ℚ} (hT : IsAmount top T) (hS : IsAmount step S)
    (hpos : 0 < S)
    {n : ℕ} (hn : n ≤ 8) (hle : 4 * T ≤ (4 * n + 1 : ℕ) * S) : lineCount top step ≤ n + 1 := by
  have hbits : 4 * n + 1 < 2 * hiddenBit := lt_of_le_of_lt (by omega : 4 * n + 1 ≤ 33) (by decide)
  obtain ⟨Q, hQ, hQhigh⟩ := (rounds_div hT hS hpos).exists_le
    (isAmount_nearest (e := -2) hbits (by decide) (by decide)) (by
      rw [div_le_iff₀ hpos, zpow_neg, zpow_ofNat]
      linarith)
  have hsmall : n < 2 * hiddenBit := hn.trans_lt (by decide)
  rw [zpow_neg, zpow_ofNat] at hQhigh
  push_cast at hQhigh
  exact Nat.succ_le_succ (toCount_wholeNearest_le hQ hsmall (by linarith) _)

section
variable [Platform] {m : Float} {M S : ℚ}

theorem exists_tops (hm : IsAmount m M) (h : Strides m M S) : ∃ N, Tops m M S N := by
  have hSpos := h.pos
  obtain ⟨hS, -, hreach, hnear, -⟩ := h
  have hnonpos : ¬ m ≤ 0.0 := hm.not_le_zero (by linarith)
  have hrounds : Rounds (M / S) (m / stride m) := rounds_div hm hS hSpos
  have hseven : IsAmount 7.0 7 := by
    exact_mod_cast isAmount_numeral (n := 7) (by decide) (by decide)
  obtain ⟨Q, hQ, hQhigh⟩ := hrounds.exists_le hseven ((div_le_iff₀ hSpos).mpr hreach)
  have height : IsAmount 0.125 (1 / 8) := by
    have hexact : ofFloat? 0.125 = some ⟨false, 4503599627370496, -55⟩ := by decide
    convert isAmount_of_ofFloat? hexact using 1
    norm_num
  have hQlow : 1 / 8 ≤ Q := hrounds.ge hQ height (by
    rw [le_div_iff₀ hSpos]
    linarith)
  have hthree : IsAmount 3.0 3 := by
    exact_mod_cast isAmount_numeral (n := 3) (by decide) (by decide)
  have hNhigh : ⌈Q⌉₊ ≤ 7 := Nat.ceil_le.mpr (by exact_mod_cast hQhigh)
  have hNlow : 1 ≤ ⌈Q⌉₊ := Nat.one_le_ceil_iff.mpr (by linarith)
  have hN := isAmount_ceiling hQ (hNhigh.trans_lt (by decide))
  have htop : (axis m).1 = ceiling (m / stride m) * stride m := by rw [axis_eq hnonpos]
  have hexact : ∀ k : ℕ, k ≤ 7 → IsAmount (whole false k) k := fun k hk =>
    isAmount_whole (hk.trans_lt (by decide))
  refine ⟨⌈Q⌉₊, hNlow, hNhigh, ?_, htop ▸ rounds_mul hN hS, fun hwhole => ?_,
    fun k hk hle => ?_, ?_⟩
  · rw [hthree.lt_iff hQ, Nat.lt_ceil, Nat.cast_ofNat]
  · rw [(ceiling_eq_self_iff hQ).mp hwhole] at hN
    rw [htop, hN.eq hQ]
  · obtain ⟨v, hv, hvk⟩ := hrounds.exists_le (hexact k hk) ((div_le_iff₀ hSpos).mpr hle)
    exact Nat.ceil_le.mpr (hv.unique hQ ▸ hvk)
  · rcases le_or_gt M (⌈Q⌉₊ * S) with hle | hlt
    · exact .inl hle
    · -- a quotient above a whole number is not rounded below it
      have hNQ : (⌈Q⌉₊ : ℚ) ≤ Q :=
        hrounds.ge hQ (hexact _ hNhigh) ((le_div_iff₀ hSpos).mpr hlt.le)
      have hNQ' : (⌈Q⌉₊ : ℚ) = Q := le_antisymm hNQ (Nat.le_ceil Q)
      have hone : (1 : ℚ) ≤ Q := hNQ' ▸ Nat.one_le_cast.mpr hNlow
      rw [hNQ']
      exact .inr ⟨(ceiling_eq_self_iff hQ).mpr hNQ', hrounds.le_of_one_le hQ hone⟩

variable {N : ℕ}

theorem Tops.le_top (ht : Tops m M S N) {x : Float} {X : ℚ} (hx : IsAmount x X) (hle : X ≤ N * S) :
    x ≤ (axis m).1 := ht.rounds.le_of_ge hx hle

/-- the axis reaches `m` unless the number of steps and their product are both rounded down -/
theorem Tops.reaches_iff (ht : Tops m M S N) (hm : IsAmount m M) :
    m ≤ (axis m).1 ↔ ¬ FallsShort m (stride m) := by
  have htop : (axis m).1.isNaN = false := by
    rcases ht.rounds.cases with ⟨T, hT⟩ | hinfinite
    · exact hT.isNaN
    · rw [hinfinite]
      decide
  have hlt : m ≤ (axis m).1 ↔ ¬ (axis m).1 < m := by
    rw [le_iff_rank hm.isNaN htop, lt_iff_rank htop hm.isNaN, not_lt]
  rcases Bool.eq_false_or_eq_true (isWhole (m / stride m)) with hwhole | hpart
  · rw [hlt, ht.whole hwhole, FallsShort, hwhole]
    simp
  · have hle := ht.reach.resolve_right (by rw [hpart]; simp)
    rw [FallsShort, hpart]
    simpa using ht.le_top hm hle

/-- a double below `m` is less than `N` steps: no more than the last place is missing -/
theorem Tops.lt_steps (ht : Tops m M S N) (hm : IsAmount m M) (hS : 0 < S) {x : Float} {X : ℚ}
    (hX : IsAmount x X) (h : X < M) : X < N * S := by
  by_contra hle
  rw [not_lt] at hle
  rcases ht.reach with hreach | ⟨-, hreach⟩
  · exact absurd (hreach.trans hle) (not_le.mpr h)
  · have hgap := hX.gap hm h
    have hsmaller : (N * S : ℚ) / (2 * hiddenBit : ℕ) ≤ X / (2 * hiddenBit : ℕ) := by gcongr
    rw [div_le_iff₀ hS, add_mul, div_mul_eq_mul_div] at hreach
    linarith

theorem Tops.le_of_lt (ht : Tops m M S N) (hm : IsAmount m M) (hS : 0 < S) {x : Float} (h : x < m) :
    x ≤ (axis m).1 := by
  by_cases hpos : 0.0 < x
  · rcases exists_amount_of_pos hpos with ⟨X, -, hX⟩ | rfl
    · exact ht.le_top hX (ht.lt_steps hm hS hX ((hX.lt_iff hm).mp h)).le
    · exact absurd h (by
        rw [lt_iff_rank (by decide) hm.isNaN, not_lt, ← le_iff_rank hm.isNaN (by decide)]
        exact hm.le_infinite)
  · have hzero : x ≤ 0.0 := le_of_not_lt (isNaN_of_lt h).1 (by decide) hpos
    exact float_le_trans hzero (ht.le_top isAmount_zero (by positivity))

theorem Tops.top_le (ht : Tops m M S N) (h : Strides m M S) {T : ℚ} (hT : IsAmount (axis m).1 T) :
    16 * T ≤ (16 * N + 1) * S + 8 * smallest := by
  have hSpos := h.pos
  have hplace : (N * S : ℚ) / hiddenBit ≤ S / 8 := by
    have hN : (N : ℚ) * S ≤ 7 * S := by
      have hcast : (N : ℚ) ≤ 7 := by exact_mod_cast ht.le
      gcongr
    rw [div_le_div_iff₀ (by decide) (by norm_num)]
    have hhidden : (56 : ℚ) ≤ hiddenBit := by norm_num [hiddenBit]
    nlinarith
  have herror := (ht.rounds.error hT (by positivity)).trans (add_le_add_right hplace _)
  have hbelow := neg_abs_le (N * S - T)
  rw [smallest]
  linarith

theorem Tops.lines (ht : Tops m M S N) (h : Strides m M S) {T : ℚ} (hT : IsAmount (axis m).1 T) :
    lineCount (axis m).1 (stride m) ≤ 9 := by
  refine lineCount_le_of_top hT h.amount h.pos (n := 8) le_rfl ?_
  have hN : (N : ℚ) * S ≤ 7 * S := by
    have hcast : (N : ℚ) ≤ 7 := by exact_mod_cast ht.le
    have hSpos := h.pos
    gcongr
  have htop := ht.top_le h hT
  push_cast
  linarith [h.low, h.pos]

/-! ### the largest axes -/

theorem Strides.large_iff (h : Strides m M S) :
    4e307 < stride m ↔ 40083367200179448 * lastPlace ≤ S ∧ S ≤ 40083367200179464 * lastPlace := by
  have hplace := lastPlace_pos
  have hlimit : IsAmount 4e307 (32066693760143564 * lastPlace) := by
    exact_mod_cast isAmount_large (k := 2) (n := 8016673440035891) (by simp [largeNumbers])
  rw [hlimit.lt_iff h.amount]
  constructor
  · intro hlt
    exact h.far.resolve_left fun hsmall => by linarith
  · rintro ⟨hlow, -⟩
    linarith

/-- without four of the largest steps the top is finite -/
theorem Tops.steps_le (ht : Tops m M S N) (h : Strides m M S) (hover : ¬ Overruns m (stride m)) :
    N * S ≤ 128266775040574256 * lastPlace := by
  have hplace := lastPlace_pos
  have hSpos := h.pos
  rcases h.far with hsmall | hlarge
  · have hcast : (N : ℚ) ≤ 7 := by exact_mod_cast ht.le
    calc (N * S : ℚ) ≤ 7 * S := by gcongr
      _ ≤ 128266775040574256 * lastPlace := by linarith
  · have hthree : N ≤ 3 := not_lt.mp fun hlt => hover ⟨h.large_iff.mpr hlarge, ht.three.mpr hlt⟩
    have hcast : (N : ℚ) ≤ 3 := by exact_mod_cast hthree
    calc (N * S : ℚ) ≤ 3 * S := by gcongr
      _ ≤ 128266775040574256 * lastPlace := by linarith [hlarge.2]

theorem Tops.exists_top (ht : Tops m M S N) (h : Strides m M S) (hover : ¬ Overruns m (stride m)) :
    ∃ T, IsAmount (axis m).1 T := by
  obtain ⟨T, hT, -⟩ := ht.rounds.exists_le isAmount_high (ht.steps_le h hover)
  exact ⟨T, hT⟩

/-- four of the largest steps are too large -/
theorem Tops.top_infinite (ht : Tops m M S N) (h : Strides m M S) (hover : Overruns m (stride m)) :
    (axis m).1 = infinite := by
  have hplace := lastPlace_pos
  have hcast : (4 : ℚ) ≤ N := by exact_mod_cast ht.three.mp hover.2
  refine ht.rounds.eq_infinite ?_
  rw [two_zpow_limit]
  calc (144115188075855872 * lastPlace : ℚ) ≤ 4 * S := by linarith [(h.large_iff.mp hover.1).1]
    _ ≤ N * S := mul_le_mul_of_nonneg_right hcast h.pos.le

/-- up to `1.4e308`, three of the largest steps are enough -/
theorem Tops.not_overruns (ht : Tops m M S N) (h : Strides m M S) (hm : IsAmount m M)
    (hle : m ≤ 1.4e308) :
    ¬ Overruns m (stride m) := by
  have hplace := lastPlace_pos
  have hlimit : IsAmount 1.4e308 (112233428160502480 * lastPlace) := by
    exact_mod_cast isAmount_large (k := 4) (n := 7014589260031405) (by simp [largeNumbers])
  rw [hm.le_iff hlimit] at hle
  rintro ⟨hlarge, hthree⟩
  have hfew : N ≤ 3 := ht.least 3 (by decide) (by push_cast; linarith [(h.large_iff.mp hlarge).1])
  exact absurd (ht.three.mp hthree) (not_lt.mpr hfew)

theorem Tops.overruns_of_le (ht : Tops m M S N) (h : Strides m M S) (hm : IsAmount m M)
    (hle : 1.6e308 ≤ m) :
    Overruns m (stride m) := by
  have hplace := lastPlace_pos
  rw [isAmount_high.le_iff hm] at hle
  have hlarge := h.far.resolve_left fun hsmall => by linarith [h.reach]
  refine ⟨h.large_iff.mpr hlarge, ht.three.mpr ?_⟩
  have hbetween : IsAmount 1.55e308 (124258438320556320 * lastPlace) := by
    exact_mod_cast isAmount_large (k := 4) (n := 7766152395034770) (by simp [largeNumbers])
  have hsteps := ht.lt_steps hm h.pos hbetween (by linarith)
  have hthree : (3 : ℚ) * S < N * S := by linarith [hlarge.2]
  exact_mod_cast lt_of_mul_lt_mul_right hthree h.pos.le

end

end BarChart

end Figures
