import Figures.Proofs.Except
import Figures.Proofs.Figure.Axis
import Figures.Proofs.Number.Ideal

/-!
# The axis of a chart

* `Sized m`             the numbers an axis may have to reach: none, what is no number, the
                        infinity, those whose power of ten is zero, and all others
* `serves_iff`          the numbers that the axis serves
* `lineCount_le`        an axis has at most ten lines, unless it overruns
* `demand`              the number that the axis of a chart has to reach
* `scene_axis`          the axis of every chart that is drawn
-/

namespace Figures

namespace BarChart

open Binary

section
variable [Platform]

/-- the numbers that an axis may have to reach -/
inductive Sized (m : Float) : Prop where
  | zero (h : m ≤ 0.0)
  | missing (h : m = 0.0 / 0.0)
  | infinite (h : m = infinite)
  | flat (M : ℚ) (hm : IsAmount m M) (hpos : 0 < M) (h : decade (m / 5.0) = 0.0)
  | ample (M : ℚ) (hm : IsAmount m M) (hpos : 0 < M) (h : 0.0 < decade (m / 5.0))

section
variable [Platform.Sound]

/-- the platform has a power of ten for `6.4e-323` and what is above it -/
theorem decade_pos {m : Float} {M : ℚ} (hm : IsAmount m M) (hlow : 13 * smallest ≤ M) :
    0.0 < decade (m / 5.0) := by
  have hsmallest := smallest_pos
  obtain ⟨R, hR, hRlow, -⟩ := exists_raw hm hlow
  obtain ⟨D, hD⟩ := exists_magnitude hR hRlow (raw_le hm hR)
  exact (isAmount_zero.lt_iff hD.amount).mpr (lt_of_lt_of_le (by linarith) hD.low)

theorem sized (m : Float) : Sized m := by
  by_cases hzero : m ≤ 0.0
  · exact .zero hzero
  rcases Bool.eq_false_or_eq_true m.isNaN with hnan | hnumber
  · exact .missing (eq_of_isNaN hnan)
  have hpos : 0.0 < m := by
    by_contra hle
    exact hzero (le_of_not_lt hnumber (by decide) hle)
  rcases exists_amount_of_pos hpos with ⟨M, hM, hm⟩ | hinfinite
  · obtain ⟨k, rfl⟩ : ∃ k : ℕ, M = k * smallest := hm.exists_units
    rcases Nat.lt_or_ge k 13 with hlt | hge
    · obtain ⟨j, hj, hraw, -⟩ := raw_tiny hlt (hm.eq (isAmount_tiny hlt))
      have hjQ : (j : ℚ) ≤ 2 := by exact_mod_cast hj
      have hsmallest := smallest_pos
      rcases decade_tiny hraw (by gcongr) with hnone | hfirst
      · exact .flat _ hm hM hnone
      · exact .ample _ hm hM (by rw [hfirst]; decide +kernel)
    · refine .ample _ hm hM (decade_pos hm ?_)
      have hcast : (13 : ℚ) ≤ k := by exact_mod_cast hge
      exact mul_le_mul_of_nonneg_right hcast smallest_pos.le
  · exact .infinite hinfinite

/-! ### the axes that are of no use -/

theorem axis_infinite : axis infinite = (0.0 / 0.0, infinite) := by
  have hraw : infinite / 5.0 = infinite := by decide
  have hwhole : floor infinite = infinite := by decide
  have hdecade : decade infinite = infinite := by
    rw [decade, Platform.Sound.logarithm_infinite, hwhole, Platform.Sound.power_top]
  have hstride : stride infinite = infinite := by
    rw [stride_eq (by decide), hraw, hdecade]
    decide
  rw [axis_eq (by decide), hstride]
  decide

end

theorem axis_flat {m : Float} {M : ℚ} (hm : IsAmount m M) (hpos : 0 < M)
    (h : decade (m / 5.0) = 0.0) :
    axis m = (0.0 / 0.0, 0.0) := by
  have hnonpos : ¬ m ≤ 0.0 := hm.not_le_zero hpos
  have hzero : ∀ raw : Float, firstStep raw 0.0 = 0.0 := fun raw => by
    have hproducts : (1.0 * 0.0 : Float) = 0.0 ∧ (2.0 * 0.0 : Float) = 0.0 ∧
      (5.0 * 0.0 : Float) = 0.0 ∧ (10.0 * 0.0 : Float) = 0.0 := by decide
    rw [firstStep_eq, hproducts.1, hproducts.2.1, hproducts.2.2.1, hproducts.2.2.2]
    split_ifs <;> rfl
  have hstride : stride m = 0.0 := by rw [stride_eq hnonpos, h, hzero]
  rw [axis_eq hnonpos, hstride, div_zero_eq_infinite hm hpos]
  decide

end

theorem lineCount_useless : lineCount (0.0 / 0.0) infinite = 1 ∧ lineCount (0.0 / 0.0) 0.0 = 1 := by
  decide

/-! ### all axes -/

theorem isAmount_least : IsAmount 6.4e-323 (13 * smallest) := by
  exact_mod_cast isAmount_small (n := 13) (by simp [smallNumbers])

section
variable [Platform] [Platform.Sound] {m : Float} {M : ℚ}

/-- the axis of a number that is neither flat nor infinite -/
theorem exists_axis (hm : IsAmount m M) (hpos : 0 < M) (hdecade : 0.0 < decade (m / 5.0)) :
    ∃ S N, Strides m M S ∧ Tops m M S N := by
  obtain ⟨S, hS⟩ := exists_strides hm hpos hdecade
  obtain ⟨N, hN⟩ := exists_tops hm hS
  exact ⟨S, N, hS, hN⟩

/-- the axis of such a number serves it, unless it overruns or the top is rounded down -/
theorem serves_ample (hm : IsAmount m M) (hpos : 0 < M) (hdecade : 0.0 < decade (m / 5.0)) :
    Serves m (axis m).1 (axis m).2 ↔ ¬ Overruns m (axis m).2 ∧ ¬ FallsShort m (axis m).2 := by
  obtain ⟨S, N, hS, hN⟩ := exists_axis hm hpos hdecade
  constructor
  · intro h
    refine ⟨fun hover => ?_, (hN.reaches_iff hm).mp h.reaches⟩
    have hfinite := h.top_finite
    rw [hN.top_infinite hS hover] at hfinite
    exact absurd hfinite (by decide)
  · rintro ⟨hover, hshort⟩
    obtain ⟨T, hT⟩ := hN.exists_top hS hover
    exact ⟨hS.amount.isFinite, (isAmount_zero.lt_iff hS.amount).mpr hS.pos, hT.isFinite,
      (hN.reaches_iff hm).mpr hshort, (hN.lines hS hT).trans (by decide)⟩

/-- the numbers that the axis serves: zero, and those with a power of ten for which the axis does
not overrun and the top is not rounded down -/
theorem serves_iff (m : Float) : Serves m (axis m).1 (axis m).2 ↔
    m ≤ 0.0 ∨ m.isFinite = true ∧ 0.0 < decade (m / 5.0) ∧ ¬ Overruns m (axis m).2 ∧
      ¬ FallsShort m (axis m).2 := by
  cases sized m with
  | zero h =>
    refine iff_of_true ?_ (.inl h)
    have haxis : axis m = (1.0, 1.0) := if_pos h
    rw [haxis]
    exact ⟨by decide, by decide, by decide, float_le_trans h (by decide), by decide⟩
  | missing h =>
    rw [h]
    refine iff_of_false (fun hserves => absurd hserves.reaches fun hle => ?_) ?_
    · exact absurd (isNaN_of_le hle).1 (by decide)
    · rintro (hle | ⟨hfinite, -⟩)
      · exact absurd hle (by decide)
      · exact absurd hfinite (by decide)
  | infinite h =>
    rw [h, axis_infinite]
    refine iff_of_false (fun hserves => absurd hserves.step_finite (by decide)) ?_
    rintro (hle | ⟨hfinite, -⟩)
    · exact absurd hle (by decide)
    · exact absurd hfinite (by decide)
  | flat M hm hpos h =>
    rw [axis_flat hm hpos h, h]
    refine iff_of_false (fun hserves => absurd hserves.step_pos (by decide)) ?_
    rintro (hle | ⟨-, hdecade, -⟩)
    · exact hm.not_le_zero hpos hle
    · exact absurd hdecade (by decide)
  | ample M hm hpos h =>
    rw [serves_ample hm hpos h]
    have hnonpos : ¬ m ≤ 0.0 := hm.not_le_zero hpos
    exact ⟨fun hserves => .inr ⟨hm.isFinite, h, hserves⟩, fun hserves =>
      (hserves.resolve_left hnonpos).2.2⟩

theorem lineCount_le {m : Float} (hnumber : m.isNaN = false) (hover : ¬ Overruns m (axis m).2) :
    lineCount (axis m).1 (axis m).2 ≤ 10 := by
  cases sized m with
  | zero h =>
    have haxis : axis m = (1.0, 1.0) := if_pos h
    rw [haxis]
    decide
  | missing h => exact absurd (h ▸ hnumber) (by decide)
  | infinite h =>
    rw [h, axis_infinite, lineCount_useless.1]
    decide
  | flat M hm hpos h =>
    rw [axis_flat hm hpos h, lineCount_useless.2]
    decide
  | ample M hm hpos h =>
    obtain ⟨S, N, hS, hN⟩ := exists_axis hm hpos h
    obtain ⟨T, hT⟩ := hN.exists_top hS hover
    exact (hN.lines hS hT).trans (by decide)

theorem exists_axis_of_overruns {m : Float} (hnumber : m.isNaN = false)
    (hover : Overruns m (axis m).2) :
    ∃ M S N, IsAmount m M ∧ Strides m M S ∧ Tops m M S N := by
  cases sized m with
  | zero h =>
    have haxis : axis m = (1.0, 1.0) := if_pos h
    rw [haxis] at hover
    exact absurd hover.1 (by decide +kernel)
  | missing h => exact absurd (h ▸ hnumber) (by decide)
  | infinite h =>
    rw [h, axis_infinite] at hover
    exact absurd hover.2 (by decide)
  | flat M hm hpos h =>
    rw [axis_flat hm hpos h] at hover
    exact absurd hover.1 (by decide +kernel)
  | ample M hm hpos h =>
    obtain ⟨S, N, hS, hN⟩ := exists_axis hm hpos h
    exact ⟨M, S, N, hm, hS, hN⟩

theorem lineCount_of_overruns {m : Float} (hnumber : m.isNaN = false)
    (hover : Overruns m (axis m).2) :
    lineCount (axis m).1 (axis m).2 = word64 + 1 := by
  obtain ⟨M, S, N, -, hS, hN⟩ := exists_axis_of_overruns hnumber hover
  have hquotient : infinite / (axis m).2 = infinite := infinite_div hS.amount hS.pos
  rw [lineCount, hN.top_infinite hS hover, hquotient]
  decide

theorem not_overruns {m : Float} (hnumber : m.isNaN = false) (hle : m ≤ 1.4e308) :
    ¬ Overruns m (axis m).2 := fun hover => by
  obtain ⟨M, S, N, hm, hS, hN⟩ := exists_axis_of_overruns hnumber hover
  exact hN.not_overruns hS hm hle hover

theorem exists_axis_of_le {m : Float} (hlow : 6.4e-323 ≤ m) (hfinite : m.isFinite = true) :
    ∃ M S N, IsAmount m M ∧ Strides m M S ∧ Tops m M S N := by
  have hleast : (0.0 : Float) < 6.4e-323 :=
    (isAmount_zero.lt_iff isAmount_least).mpr (mul_pos (by norm_num) smallest_pos)
  have hpos : 0.0 < m := float_lt_of_lt_of_le hleast hlow
  rcases exists_amount_of_pos hpos with ⟨M, hM, hm⟩ | rfl
  · obtain ⟨S, N, hS, hN⟩ := exists_axis hm hM (decade_pos hm ((isAmount_least.le_iff hm).mp hlow))
    exact ⟨M, S, N, hm, hS, hN⟩
  · exact absurd hfinite (by decide)

theorem overruns_of_le {m : Float} (hle : 1.6e308 ≤ m) (hfinite : m.isFinite = true) :
    Overruns m (axis m).2 := by
  have hlow : (6.4e-323 : Float) ≤ 1.6e308 :=
    (isAmount_least.le_iff isAmount_high).mpr (by linarith [smallest_le_lastPlace, smallest_pos])
  obtain ⟨M, S, N, hm, hS, hN⟩ := exists_axis_of_le (float_le_trans hlow hle) hfinite
  exact hN.overruns_of_le hS hm hle

theorem decade_pos_of_le {m : Float} (hlow : 6.4e-323 ≤ m) (hfinite : m.isFinite = true) :
    0.0 < decade (m / 5.0) := by
  obtain ⟨M, S, N, hm, -, -⟩ := exists_axis_of_le hlow hfinite
  exact decade_pos hm ((isAmount_least.le_iff hm).mp hlow)

/-- the platform has no power of ten for the two smallest doubles -/
theorem decade_least {m : Float} (hpos : 0.0 < m) (hle : m ≤ 1e-323) : decade (m / 5.0) = 0.0 := by
  rcases exists_amount_of_pos hpos with ⟨M, hM, hm⟩ | rfl
  · obtain ⟨k, rfl⟩ : ∃ k : ℕ, M = k * smallest := hm.exists_units
    rw [hm.le_iff isAmount_second] at hle
    have hk : k ≤ 2 := by exact_mod_cast le_of_mul_le_mul_right hle smallest_pos
    obtain ⟨j, -, hraw, hnone⟩ := raw_tiny (k := k) (by omega) (hm.eq (isAmount_tiny (by omega)))
    rw [hnone hk, Nat.cast_zero, zero_mul] at hraw
    rw [hraw.eq isAmount_zero]
    exact decade_zero
  · exact absurd hle (by decide +kernel)

/-- at most the last place of the top is missing -/
theorem le_top_of_lt {m x : Float} (hlow : 6.4e-323 ≤ m) (hfinite : m.isFinite = true) (h : x < m) :
    x ≤ (axis m).1 := by
  obtain ⟨M, S, N, hm, hS, hN⟩ := exists_axis_of_le hlow hfinite
  exact hN.le_of_lt hm hS.pos h

end

/-! ### the axis of a chart -/

/-- the number that the axis of a chart has to reach: the one asked for, else the largest value -/
structure Demands (requested : Float) (values : List Float) (m : Float) : Prop where
  asked : 0.0 < requested → m = requested
  largest : ¬ 0.0 < requested → ∀ v ∈ values, v ≤ m
  attained : ¬ 0.0 < requested → m ∈ 0.0 :: values

/-- the chart has an axis with this top and this step, and a line for each of its steps -/
def DrawsAxis [Platform] (s : Scene) (params : Params) (pen : Pen) (top step : Float) : Prop :=
  ∃ before rest after, s.drawing = before ++ Pen.group "axes"
    ((List.range (lineCount top step)).flatMap (stepMark params pen top step) ++ rest) ++ after

theorem greater_of_number {a b : Float} (ha : a.isNaN = false) :
    greater a b = if a < b then b else a := by
  rw [greater, ha, if_neg Bool.false_ne_true]

/-- the largest of a list of numbers, from a number on -/
theorem foldl_greater (values : List Float) (hvalues : ∀ v ∈ values, v.isNaN = false) {a : Float}
    (ha : a.isNaN = false) : (values.foldl greater a).isNaN = false ∧ a ≤ values.foldl greater a ∧
      (∀ v ∈ values, v ≤ values.foldl greater a) ∧ values.foldl greater a ∈ a :: values := by
  induction values generalizing a with
  | nil => exact ⟨ha, (le_iff_rank ha ha).mpr le_rfl, nofun, List.mem_singleton_self a⟩
  | cons b rest ih =>
    have hb := hvalues b (List.mem_cons_self ..)
    have hrest := fun v hv => hvalues v (List.mem_cons_of_mem b hv)
    rw [List.foldl_cons, greater_of_number ha]
    split_ifs with hlt
    · obtain ⟨hnumber, hle, hall, hmem⟩ := ih hrest hb
      refine ⟨hnumber, float_le_trans (float_le_of_lt hlt) hle, ?_, List.mem_cons_of_mem a hmem⟩
      rintro v (_ | ⟨_, hv⟩)
      · exact hle
      · exact hall v hv
    · obtain ⟨hnumber, hle, hall, hmem⟩ := ih hrest ha
      refine ⟨hnumber, hle, ?_, ?_⟩
      · rintro v (_ | ⟨_, hv⟩)
        · exact float_le_trans (le_of_not_lt hb ha hlt) hle
        · exact hall v hv
      · rcases List.mem_cons.mp hmem with heq | hmem
        · rw [heq]
          exact List.mem_cons_self ..
        · exact List.mem_cons_of_mem a (List.mem_cons_of_mem b hmem)

theorem isFinite_of_frequency {item : String} {v : Float} (h : frequency item = .ok v) :
    v.isFinite = true := by
  rw [frequency] at h
  split at h
  · cases h
  · split at h
    · cases h
    · rename_i hpasses
      cases h
      rw [Bool.or_eq_true, not_or] at hpasses
      simpa using hpasses.2

theorem isFinite_of_frequencies {raw : String} {expected : ℕ} {values : List Float}
    (h : frequencies raw expected = .ok values) : ∀ v ∈ values, v.isFinite = true := by
  intro v hv
  rw [frequencies] at h
  split at h
  · cases h
  · obtain ⟨item, -, hitem⟩ := exists_of_mapM h v hv
    exact isFinite_of_frequency hitem

/-- the number that a chart takes for its axis -/
def demand (requested : Float) (values : List Float) : Float :=
  if 0.0 < requested then requested else values.foldl greater 0.0

theorem demands_demand {raw : String} {n : ℕ} {values : List Float}
    (h : frequencies raw n = .ok values) (requested : Float) :
    (demand requested values).isNaN = false ∧ Demands requested values
      (demand requested values) := by
  have hnumbers : ∀ v ∈ values, v.isNaN = false := fun v hv =>
    isNaN_of_isFinite (isFinite_of_frequencies h v hv)
  obtain ⟨hnumber, -, hlargest, hattained⟩ :=
    foldl_greater values hnumbers (show (0.0 : Float).isNaN = false by decide)
  rw [demand]
  split_ifs with hpos
  · exact ⟨(isNaN_of_lt hpos).2, fun _ => rfl, fun hno => absurd hpos hno,
      fun hno => absurd hpos hno⟩
  · exact ⟨hnumber, fun hyes => absurd hyes hpos, fun _ => hlargest, fun _ => hattained⟩

section
variable [Platform]

/-- the lines of the axis are drawn first -/
theorem drawsAxis_of {s : Scene} {params : Params} {pen : Pen} {top step : Float}
    {before after : Drawing}
    (h : s.drawing = before ++ Pen.group "axes" (axes params pen top step) ++ after) :
    DrawsAxis s params pen top step := by
  have hrest : ∃ rest, axes params pen top step
      = (List.range (lineCount top step)).flatMap (stepMark params pen top step) ++ rest := by
    simp only [axes, List.append_assoc]
    exact ⟨_, rfl⟩
  obtain ⟨rest, heq⟩ := hrest
  exact ⟨before, rest, after, heq ▸ h⟩

theorem scene_ok {params : Params} {pen : Pen} {s : Scene} (h : scene params pen = .ok s) :
    (Text.entries (params.text "categories")).isEmpty = false ∧ ∃ values,
      frequencies (params.text "frequencies") (Text.entries (params.text "categories")).length
        = .ok values ∧
      DrawsAxis s params pen (axis (demand ((params.number? "yMax").getD 0.0) values)).1
        (axis (demand ((params.number? "yMax").getD 0.0) values)).2 := by
  rw [scene] at h
  dsimp only at h
  split at h
  · cases h
  rename_i hcategories
  obtain ⟨values, hvalues, h⟩ := ok_of_bind h
  cases h
  exact ⟨Bool.not_eq_true _ ▸ hcategories, values, hvalues, drawsAxis_of rfl⟩

/-- **The axis of every chart that is drawn.** It is of use for zero, and for the finite numbers
with a power of ten for which it does not overrun and the top is not rounded down; then no more than
the last place is missing. The two smallest doubles have no power of ten, `6.4e-323` and all above
have one, and those between if the platform rounds it up. An axis does not overrun up to `1.4e308`
and does from `1.6e308` on; then the lines do not end before a word has run out. -/
theorem scene_axis [Platform.Sound] (params : Params) (pen : Pen) :
    match scene params pen with
    | .error _ => True
    | .ok s => ∃ values m,
      frequencies (params.text "frequencies") (Text.entries (params.text "categories")).length
        = .ok values ∧
      Demands ((params.number? "yMax").getD 0.0) values m ∧
      DrawsAxis s params pen (axis m).1 (axis m).2 ∧
      (Serves m (axis m).1 (axis m).2 ↔
        m ≤ 0.0 ∨ m.isFinite = true ∧ 0.0 < decade (m / 5.0) ∧ ¬ Overruns m (axis m).2 ∧
          ¬ FallsShort m (axis m).2) ∧
      ((0.0 < m → m ≤ 1e-323 → decade (m / 5.0) = 0.0) ∧
        (6.4e-323 ≤ m → m.isFinite = true → 0.0 < decade (m / 5.0))) ∧
      ((m ≤ 1.4e308 → ¬ Overruns m (axis m).2) ∧
        (1.6e308 ≤ m → m.isFinite = true → Overruns m (axis m).2)) ∧
      (6.4e-323 ≤ m → m.isFinite = true → ∀ x < m, x ≤ (axis m).1) ∧
      (¬ Overruns m (axis m).2 → lineCount (axis m).1 (axis m).2 ≤ 10) ∧
      (Overruns m (axis m).2 → lineCount (axis m).1 (axis m).2 = word64 + 1) := by
  cases h : scene params pen with
  | error e => trivial
  | ok s =>
    obtain ⟨-, values, hvalues, hdraws⟩ := scene_ok h
    obtain ⟨hnumber, hdemands⟩ := demands_demand hvalues ((params.number? "yMax").getD 0.0)
    exact ⟨values, _, hvalues, hdemands, hdraws, serves_iff _, ⟨decade_least, decade_pos_of_le⟩,
      ⟨not_overruns hnumber, overruns_of_le⟩, fun hlow hfinite x hx => le_top_of_lt hlow hfinite hx,
      lineCount_le hnumber, lineCount_of_overruns hnumber⟩

end

theorem isOk_scene [Platform] {params : Params} {pen : Pen} {values : List Float}
    (hcategories : (Text.entries (params.text "categories")).isEmpty = false)
    (hvalues : frequencies (params.text "frequencies")
      (Text.entries (params.text "categories")).length
      = .ok values) : (scene params pen).isOk = true := by
  rw [scene]
  dsimp only
  rw [hcategories, if_neg Bool.false_ne_true, hvalues]
  rfl

def single (frequency : String) : Params where
  values := .ofList [("categories", .text "A"), ("frequencies", .text frequency)]

theorem demands_single {v m : Float} (hpos : 0.0 < v) (h : Demands 0.0 [v] m) : m = v := by
  have hle := h.largest (by decide) v (List.mem_singleton_self v)
  have hmem := h.attained (by decide)
  rw [List.mem_cons, List.mem_singleton] at hmem
  rcases hmem with rfl | rfl
  · exact absurd hpos (not_lt_of_le hle)
  · rfl

theorem stride_seven [Platform] [Platform.Sound] : decade (7.0 / 5.0) = 1.0 ∧
    (axis 7.0).2 = 2.0 := by
  have hraw : IsAmount (7.0 / 5.0) (6305039478318694 / 4503599627370496) := by
    have hexact : ofFloat? (7.0 / 5.0) = some ⟨false, 6305039478318694, -52⟩ := by decide
    convert isAmount_of_ofFloat? hexact using 1
    norm_num
  obtain ⟨k, hbelow, habove, hfaithful⟩ := exists_exponent hraw (by norm_num)
  have hk : k = 0 := by
    have hlow : (10 : ℚ) ^ (0 : ℤ) < 10 ^ (k + 1) := by
      rw [zpow_zero]
      linarith
    have hhigh : (10 : ℚ) ^ k < 10 ^ (1 : ℤ) := by
      rw [zpow_one]
      linarith
    rw [zpow_lt_zpow_iff_right₀ (by norm_num)] at hlow hhigh
    omega
  have hdecade : decade (7.0 / 5.0) = 1.0 := hfaithful.eq isAmount_one (by rw [hk, zpow_zero])
  refine ⟨hdecade, ?_⟩
  rw [← stride, stride_eq (by decide), hdecade]
  decide

theorem scene_axis_seven : @Platform.Sound Platform.ideal ∧
    match @scene _ Platform.ideal (single "7") ⟨2, 3.0⟩ with
    | .error _ => False
    | .ok s => @DrawsAxis Platform.ideal s (single "7") ⟨2, 3.0⟩ (@axis Platform.ideal 7.0).1 2.0 ∧
      Serves 7.0 (@axis Platform.ideal 7.0).1 2.0 := by
  let _ := Platform.ideal
  have hsound := Platform.sound_ideal
  refine ⟨hsound, ?_⟩
  have hfrequencies : frequencies ((single "7").text "frequencies")
      (Text.entries ((single "7").text "categories")).length = .ok [7.0] := by decide
  have hdrawn : (scene (single "7") ⟨2, 3.0⟩).isOk = true := isOk_scene (by decide) hfrequencies
  have haxis := scene_axis (single "7") ⟨2, 3.0⟩
  cases h : scene (single "7") ⟨2, 3.0⟩ with
  | error e =>
    rw [h] at hdrawn
    cases hdrawn
  | ok s =>
    rw [h] at haxis
    obtain ⟨values, m, hvalues, hdemands, hdraws, hserves, -, ⟨hover, -⟩, -⟩ := haxis
    obtain rfl : values = [7.0] := Except.ok.inj (hvalues.symm.trans hfrequencies)
    obtain rfl := demands_single (by decide) hdemands
    obtain ⟨hdecade, hstep⟩ := stride_seven
    rw [hstep, hdecade] at hserves
    rw [hstep] at hdraws hover
    exact ⟨hdraws, hserves.mpr (.inr ⟨by decide, by decide, hover (by decide +kernel), by
      rw [FallsShort]
      decide⟩)⟩

/-- the chart of the smallest double is drawn, and its axis is of no use -/
theorem scene_least : @Platform.Sound Platform.ideal ∧
    (@scene _ Platform.ideal (single "5e-324") ⟨2, 3.0⟩).isOk = true ∧ ∀ values m,
      frequencies ((single "5e-324").text "frequencies")
        (Text.entries ((single "5e-324").text "categories")).length = .ok values →
      Demands (((single "5e-324").number? "yMax").getD 0.0) values m →
        ¬ Serves m (@axis Platform.ideal m).1 (@axis Platform.ideal m).2 := by
  let _ := Platform.ideal
  have hsound := Platform.sound_ideal
  have hfrequencies : frequencies ((single "5e-324").text "frequencies")
      (Text.entries ((single "5e-324").text "categories")).length = .ok [5e-324] := by
        decide +kernel
  refine ⟨hsound, isOk_scene (by decide) hfrequencies, fun values m hvalues hdemands hserves => ?_⟩
  obtain rfl : values = [5e-324] := Except.ok.inj (hvalues.symm.trans hfrequencies)
  obtain rfl := demands_single (by decide +kernel) hdemands
  have hbits : (5e-324 : Float) = Float.ofBits (UInt64.ofNat 1) := by decide +kernel
  have hfirst : IsAmount 5e-324 ((1 : ℕ) * smallest) := hbits ▸ isAmount_tiny (by decide)
  have hnone := decade_least (m := 5e-324) (by decide +kernel) (by decide +kernel)
  have hpos := hserves.step_pos
  rw [axis_flat hfirst (mul_pos (by norm_num) smallest_pos) hnone] at hpos
  exact absurd hpos (by decide)

end BarChart

end Figures
