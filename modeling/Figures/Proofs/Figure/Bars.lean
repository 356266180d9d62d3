import Figures.Proofs.Figure.Steady
import Figures.Proofs.Figure.Chart
import Figures.Proofs.Plane.Fitted

/-!
# Bar charts under other numerals

* `BarChart.Measured m`        `m` is zero, or has a power of ten and an axis that does not overrun
* `BarChart.finite_steps_iff`  the lines of the axis that reaches `m` are finite if and only if it
                               is
* `BarChart.renders`           bar charts are steady if and only if the axis has to reach such a
                               number
-/

namespace Figures

open Binary

namespace BarChart

/-- a number that an axis may have to reach: zero, or neither tiny nor among the largest -/
def Measured [Platform] (m : Float) : Prop :=
  m ≤ 0.0 ∨ m.isFinite = true ∧ 0.0 < decade (m / 5.0) ∧ ¬ Overruns m (axis m).2

/-! ### steps -/

theorem isAmount_limit : IsAmount 1.7e308 (136283448480610144 * lastPlace) := by
  exact_mod_cast isAmount_large (k := 4) (n := 8517715530038134) (by simp [largeNumbers])

section
variable [Platform] {m : Float} {M S : ℚ} {N : ℕ}

/-- a step up to `1.7e308` is not rounded to the infinity -/
theorem finite_step (hS : IsAmount (stride m) S) {i n : ℕ} (hin : i ≤ n) (hn : n < 2 * hiddenBit)
    (hle : n * S ≤ 136283448480610144 * lastPlace) :
    (Float.ofNat i * stride m).isFinite = true ∧ 0 ≤ valueOf (Float.ofNat i * stride m) := by
  obtain ⟨hfinite, hvalue⟩ := valueOf_ofNat (hin.trans_lt hn)
  have hrounds := roundsTo_mul hfinite hS.isFinite
  rw [hvalue, hS.valueOf_eq] at hrounds
  have hcast : (i : ℚ) ≤ n := by exact_mod_cast hin
  have hnonneg : 0 ≤ i * S := mul_nonneg (Nat.cast_nonneg i) hS.nonneg
  have hproduct := (hrounds.abs_le_of_amount isAmount_limit (by
    rw [abs_of_nonneg hnonneg]
    exact (mul_le_mul_of_nonneg_right hcast hS.nonneg).trans hle)).1
  exact ⟨hproduct, hrounds.nonneg hproduct hnonneg⟩

theorem Tops.finite_steps (ht : Tops m M S N) (h : Strides m M S)
    (hover : ¬ Overruns m (stride m)) {i : ℕ} (hi : i < lineCount (axis m).1 (stride m)) :
    (Float.ofNat i * stride m).isFinite = true ∧ 0 ≤ valueOf (Float.ofNat i * stride m) := by
  have hplace := lastPlace_pos
  obtain ⟨T, hT⟩ := ht.exists_top h hover
  rcases h.far with hsmall | hlarge
  · have hlines := ht.lines h hT
    exact finite_step h.amount (n := 8) (by omega) (by decide) (by push_cast; linarith)
  · have hthree : N ≤ 3 := not_lt.mp fun hlt => hover ⟨h.large_iff.mpr hlarge, ht.three.mpr hlt⟩
    have hcast : (N : ℚ) * S ≤ 3 * S :=
      mul_le_mul_of_nonneg_right (by exact_mod_cast hthree) h.pos.le
    have htop := ht.top_le h hT
    have hleast := smallest_le_lastPlace
    have hlines := lineCount_le_of_top hT h.amount h.pos (n := 3) (by decide) (by
      push_cast
      linarith [hlarge.1])
    exact finite_step h.amount (n := 3) (by omega) (by decide) (by push_cast; linarith [hlarge.2])

/-- among the steps to an infinite top there are some that are too large -/
theorem Strides.exists_infinite_step (h : Strides m M S) (hlarge : 4e307 < stride m)
    (hcount : lineCount (axis m).1 (stride m) = word64 + 1) : ∃ i < lineCount (axis m).1 (stride m),
      ¬ (Float.ofNat i * stride m).isFinite = true := by
  have hplace := lastPlace_pos
  refine ⟨word64, by rw [hcount]; exact Nat.lt_succ_self _, fun hfinite => ?_⟩
  have hword : IsAmount (Float.ofNat word64) (2 ^ 64) := by
    have hexact : ofFloat? (Float.ofNat word64) = some ⟨false, 4503599627370496, 12⟩ := by
      decide +kernel
    convert isAmount_of_ofFloat? hexact using 1
    norm_num
  have hrounds := roundsTo_mul hword.isFinite h.amount.isFinite
  rw [hrounds.isFinite_iff, hword.valueOf_eq, h.amount.valueOf_eq, abs_of_nonneg
    (mul_nonneg (by norm_num) h.pos.le)] at hfinite
  have hlimit : doubleLimit ≤ 144115188075855872 * lastPlace := by
    rw [← two_zpow_limit, doubleLimit]
    exact sub_le_self _ (by positivity)
  linarith [(h.large_iff.mp hlarge).1]

end

/-! ### the axis -/

/-- the places of numbers along an axis with a finite top -/
theorem within_yOf {top v : Float} (htop : top.isFinite = true ∧ 0 < valueOf top)
    (hv : v.isFinite = true) (hnonneg : 0 ≤ valueOf v) : Within 10000 (yOf top v) := by
  have hcut : (lesser v top).isFinite = true ∧ 0 ≤ valueOf (lesser v top) := by
    rcases lesser_cases v top with h | h <;> rw [h]
    · exact ⟨hv, hnonneg⟩
    · exact ⟨htop.1, htop.2.le⟩
  have hle := (le_iff_valueOf hcut.1 htop.1).mp (lesser_le_right (isNaN_of_isFinite htop.1))
  have hpart := Within.ratio hcut.1 htop.1 htop.2.ne'
    (by rwa [abs_of_nonneg hcut.2, abs_of_pos htop.2])
  exact ((Within.of_bounds (by decide)).sub (hpart.mul (.of_bounds (by decide)))).mono (by decide)

section
variable [Platform] [Platform.Sound] {m : Float}

theorem Measured.exists_axis (h : Measured m) (hzero : ¬ m ≤ 0.0) :
    ¬ Overruns m (stride m) ∧ ∃ M S N, IsAmount m M ∧ Strides m M S ∧ Tops m M S N := by
  obtain ⟨hfinite, hdecade, hover⟩ := h.resolve_left hzero
  refine ⟨hover, ?_⟩
  have hpos : 0.0 < m := by
    by_contra hle
    exact hzero (le_of_not_lt (isNaN_of_isFinite hfinite) (by decide) hle)
  rcases exists_amount_of_pos hpos with ⟨M, hM, hm⟩ | rfl
  · obtain ⟨S, N, hS, hN⟩ := BarChart.exists_axis hm hM hdecade
    exact ⟨M, S, N, hm, hS, hN⟩
  · exact absurd hfinite (by decide)

theorem top_pos (h : Measured m) : (axis m).1.isFinite = true ∧ 0 < valueOf (axis m).1 := by
  by_cases hzero : m ≤ 0.0
  · have haxis : axis m = (1.0, 1.0) := if_pos hzero
    rw [haxis, isAmount_one.valueOf_eq]
    exact ⟨isAmount_one.isFinite, one_pos⟩
  · obtain ⟨hover, M, S, N, -, hS, hN⟩ := h.exists_axis hzero
    obtain ⟨T, hT⟩ := hN.exists_top hS hover
    have hstep : S ≤ N * S := le_mul_of_one_le_left hS.pos.le (by exact_mod_cast hN.pos)
    refine ⟨hT.isFinite, ?_⟩
    rw [hT.valueOf_eq]
    exact hS.pos.trans_le (hN.rounds.ge hT hS.amount hstep)

/-- the lines of an axis are finite if and only if the number that it has to reach is measured -/
theorem finite_steps_iff (hm : m.isFinite = true) :
    (∀ i ∈ List.range (lineCount (axis m).1 (axis m).2), (Float.ofNat i * (axis m).2).isFinite =
      true ∧ (yOf (axis m).1 (Float.ofNat i * (axis m).2)).isFinite = true) ↔ Measured m := by
  cases sized m with
  | zero h =>
    have haxis : axis m = (1.0, 1.0) := if_pos h
    rw [haxis]
    exact iff_of_true (by decide) (.inl h)
  | missing h => exact absurd (h ▸ hm) (by decide)
  | infinite h => exact absurd (h ▸ hm) (by decide)
  | flat M hM hpos h =>
    have haxis := axis_flat hM hpos h
    have hnone : lineCount (axis m).1 (axis m).2 = 1 := by rw [haxis, lineCount_useless.2]
    refine iff_of_false (fun hall => ?_) fun hmeasured => ?_
    · have hfirst := (hall 0 (by rw [hnone]; decide)).2
      rw [haxis] at hfirst
      exact absurd hfirst (by decide)
    · have hdecade := (hmeasured.resolve_left (hM.not_le_zero hpos)).2.1
      rw [h] at hdecade
      exact absurd hdecade (by decide)
  | ample M hM hpos h =>
    obtain ⟨S, N, hS, hN⟩ := exists_axis hM hpos h
    by_cases hover : Overruns m (stride m)
    · obtain ⟨i, hi, hinfinite⟩ := hS.exists_infinite_step hover.1
        (lineCount_of_overruns hM.isNaN hover)
      exact iff_of_false (fun hall => hinfinite (hall i (List.mem_range.mpr hi)).1)
        fun hmeasured => (hmeasured.resolve_left (hM.not_le_zero hpos)).2.2 hover
    · have hmeasured : Measured m := .inr ⟨hm, h, hover⟩
      refine iff_of_true (fun i hi => ?_) hmeasured
      obtain ⟨hfinite, hnonneg⟩ := hN.finite_steps hS hover (List.mem_range.mp hi)
      exact ⟨hfinite, (within_yOf (top_pos hmeasured) hfinite hnonneg).isFinite (by decide)⟩

end

/-! ### charts -/

variable (params : Params) (pen : Pen)

/-- the numbers of a bar chart are finite if its axis has to reach a measured number, and if the
bars can be counted in doubles -/
def Sound [Platform] : Prop :=
  (∀ values, frequencies (params.text "frequencies")
    (Text.entries (params.text "categories")).length = .ok values →
    Measured (demand ((params.number? "yMax").getD 0.0) values)) ∧
  ∀ i < (Text.entries (params.text "categories")).length, (Float.ofNat i).isFinite = true

theorem steady_stepMark (top step : Float) (i : ℕ) :
    Steady tally (fun w => @stepMark w params pen top step i)
      ((Float.ofNat i * step).isFinite = true ∧
        (yOf top (Float.ofNat i * step)).isFinite = true) := by
  refine ((Steady.when _ (pen.steady_rule ((Phrased.const "grid").append (.tidy 2 _)) _ _ _)).append
    (pen.steady_text ((Phrased.const "tick").append (.tidy 2 _)) (.tidy 2 _) _ _ _)).congr ?_
  have hplaces : left.isFinite = true ∧ (left + plotWidth).isFinite = true ∧
      (left - 8.0).isFinite = true := by decide
  simp only [Point.isFinite_iff, hplaces, tidy_ne_empty, ne_eq, not_false_eq_true,
    true_implies, true_and]
  tauto

theorem steady_yAxisName : Steady tally (fun w => @yAxisName w params pen) True := by
  have hturn := ((((Phrased.const "rotate(-90 ").append (.tidy 2 18.0)).append (.const " ")).append
    (.tidy 2 (top + plotHeight / 2.0))).append (.const ")")
  have hlabel := Steady.labelOf .text (.const "y-axis")
    (.const marks (params.label "yAxis")) Cls.text
    ((Steady.attr "transform" hturn.toSteady).cons (.const attrMarks [])) pen.places
    ⟨18.0, top + plotHeight / 2.0⟩ .middle
  have hplaces : Point.isFinite ⟨18.0, top + plotHeight / 2.0⟩ = true ∧
      (18.0 : Float).isFinite = true ∧ (top + plotHeight / 2.0).isFinite = true := by decide
  refine (Steady.when _ hlabel).congr (iff_true_intro ?_)
  simp only [hplaces, and_self, implies_true]

theorem steady_axes (top step : Float) : Steady tally (fun w => @axes w params pen top step)
    (∀ i ∈ List.range (lineCount top step), (Float.ofNat i * step).isFinite = true ∧
      (yOf top (Float.ofNat i * step)).isFinite = true) := by
  refine (((((Steady.flatMap fun i _ => steady_stepMark params pen top step i).append
    (pen.steady_rule (.const "x-axis") _ _ _)).append
      (pen.steady_rule (.const "y-axis") _ _ _)).append
    (pen.steady_words _ _ _ _ _)).append (steady_yAxisName params pen)).congr ?_
  have hplaces : Point.isFinite ⟨left, baseY⟩ = true ∧ Point.isFinite ⟨left + plotWidth, baseY⟩ =
      true ∧ Point.isFinite ⟨left, BarChart.top⟩ = true ∧
      Point.isFinite ⟨left + plotWidth / 2.0, height - 16.0⟩ = true := by decide
  simp only [hplaces, implies_true, and_true]
  rfl

/-- the bars share the width of the chart -/
theorem slot_spec {n : ℕ} (hn : 0 < n) :
    Within 1000 (plotWidth / Float.ofNat n) ∧ 0 ≤ valueOf (plotWidth / Float.ofNat n) := by
  have hwidth : Within 1000 plotWidth ∧ 0 ≤ valueOf plotWidth := Within.of_room (by decide)
  have hone : (1.0 : Float) ≤ Float.ofNat n := by
    have hexact := roundsTo_self isAmount_one.isFinite
    rw [isAmount_one.valueOf_eq] at hexact
    exact hexact.le (roundsTo_ofNat n) zero_le_one (by exact_mod_cast hn)
  have hslot : Within 1000 (plotWidth / Float.ofNat n) := by
    rcases (roundsTo_ofNat n).finite_or_infinite (Nat.cast_nonneg n) with hfinite | hinfinite
    · rw [le_iff_valueOf isAmount_one.isFinite hfinite, isAmount_one.valueOf_eq] at hone
      exact hwidth.1.div hfinite (hone.trans (le_abs_self _))
    · obtain ⟨hzero, hvalue⟩ := div_infinite (hwidth.1.isFinite (by decide))
      rw [hinfinite]
      exact fun _ => ⟨hzero, by rw [hvalue, abs_zero]; norm_num⟩
  refine ⟨hslot, (zero_le_iff (hslot.isFinite (by decide))).mp ?_⟩
  refine zero_le_div (hwidth.1.isFinite (by decide)) hwidth.2 isAmount_one.isFinite ?_ hone
  rw [isAmount_one.valueOf_eq]
  exact one_pos

theorem within_slots {n i : ℕ} (hi : i < n) (hfinite : (Float.ofNat i).isFinite = true) :
    Within 2001 (plotWidth / Float.ofNat n * Float.ofNat i) := by
  obtain ⟨hslot, hnonneg⟩ := slot_spec (Nat.zero_lt_of_lt hi)
  have hwidth : Within 1000 plotWidth := .of_bounds (by decide)
  have hslotFinite := hslot.isFinite (by decide)
  have hcount := (roundsTo_ofNat i).nonneg hfinite (Nat.cast_nonneg i)
  have hle : Float.ofNat i ≤ Float.ofNat n :=
    (roundsTo_ofNat i).le (roundsTo_ofNat n) (Nat.cast_nonneg i) (Nat.cast_le.mpr hi.le)
  have hscaled := mul_scale_le (hwidth (by decide)) hfinite hcount hle hslotFinite hnonneg
    (le_self (isNaN_of_isFinite hslotFinite))
  intro hsmall
  refine (roundsTo_mul hslotFinite hfinite).abs_le_of_le hsmall ?_
  rw [abs_of_nonneg (mul_nonneg hnonneg hcount), mul_comm]
  push_cast at hscaled ⊢
  linarith

theorem exists_bar (top : Float) (n : ℕ) (category : String) (v : Float) (i : ℕ) :
    ∃ good, Steady tally (fun w => @bar w params pen top (plotWidth / Float.ofNat n) category v i)
      good ∧ (i < n → top.isFinite = true ∧ 0 < valueOf top → v.isFinite = true ∧ 0 ≤ valueOf v →
        (good ↔ (Float.ofNat i).isFinite = true)) := by
  have hbox : ∀ (corner : Point) (breadth length : Float), Steady tally
      (fun w => [@Piece.rect w pen.places
      (Element.bar.look s!"{i}" Cls.bar) corner breadth length]) _ := fun corner breadth length =>
    .element "rect" _ (.rectNumbers pen.places corner breadth length)
  refine ⟨_, ((hbox _ _ _).append (pen.steady_words _ _ _ _ _)).append
    (.when _ (pen.steady_text (.const _) (.tidy 2 v) _ _ _)), fun hi htop hv =>
      ⟨fun hall => ?_, fun hfinite => ?_⟩⟩
  · -- the left edge is as many slots from the axis
    have hedge := (Point.isFinite_iff.mp hall.1.1.1).1
    exact (finite_of_mul (finite_of_add (finite_of_add hedge).1).2).2
  have hslots := within_slots hi hfinite
  have hslot := (slot_spec (Nat.zero_lt_of_lt hi)).1
  generalize plotWidth / Float.ofNat n * Float.ofNat i = before at hslots ⊢
  generalize plotWidth / Float.ofNat n = slot at hslot ⊢
  have hbreadth := hslot.mul (.of_bounds (by decide) : Within 1000 0.6)
  generalize slot * 0.6 = breadth at hbreadth ⊢
  have hx : Within 10000000 (left + before + (slot - breadth) / 2.0) :=
    (((Within.of_bounds (by decide)).add hslots).add (hslot.sub hbreadth).half).mono (by decide)
  generalize left + before + (slot - breadth) / 2.0 = x at hx ⊢
  have hy := within_yOf htop hv.1 hv.2
  generalize yOf top v = y at hy ⊢
  have hcorner := Point.isFinite_of (p := ⟨x, y⟩) (hx.isFinite (by decide))
    (hy.isFinite (by decide))
  have hlength : (baseY - y).isFinite = true :=
    ((Within.of_bounds (by decide) : Within 1000 baseY).sub hy).isFinite (by decide)
  have hmiddle : (x + breadth / 2.0).isFinite = true := (hx.add hbreadth.half).isFinite (by decide)
  have hbelow := Point.isFinite_of (p := ⟨x + breadth / 2.0, baseY + 16.0⟩) hmiddle
    (by decide : (baseY + 16.0).isFinite = true)
  have habove := Point.isFinite_of (p := ⟨x + breadth / 2.0, y - 10.0⟩) hmiddle
    ((hy.sub (.of_bounds (by decide))).isFinite (by decide))
  exact ⟨⟨⟨hcorner, hbreadth.isFinite (by decide), hlength⟩, fun _ => hbelow⟩,
    fun _ => ⟨hv.1, fun _ => ⟨trivial, habove⟩⟩⟩

theorem nonneg_of_frequencies {raw : String} {expected : ℕ} {values : List Float}
    (h : frequencies raw expected = .ok values) : values.length = expected ∧
      ∀ v ∈ values, 0 ≤ valueOf v := by
  rw [frequencies] at h
  split at h
  · cases h
  rename_i hlength
  refine ⟨(length_of_mapM h).trans (not_not.mp hlength), fun v hv => ?_⟩
  obtain ⟨item, -, hitem⟩ := exists_of_mapM h v hv
  rw [frequency] at hitem
  split at hitem
  · cases hitem
  · split at hitem
    · cases hitem
    · rename_i hpasses
      cases hitem
      simp only [Bool.or_eq_true, not_or, Bool.not_eq_true', Bool.not_eq_false,
        decide_eq_true_eq] at hpasses
      obtain ⟨hpos, hfinite⟩ := hpasses
      exact (zero_le_iff hfinite).mp (le_of_not_lt (by decide) (isNaN_of_isFinite hfinite) hpos)

/-- the number that an axis has to reach is one that is asked for, or a frequency -/
theorem isFinite_demand (hfinite : params.Finite) {values : List Float}
    (hvalues : ∀ v ∈ values, v.isFinite = true) :
    (demand ((params.number? "yMax").getD 0.0) values).isFinite = true := by
  rw [demand]
  split
  · cases hread : params.number? "yMax" with
    | none => decide
    | some x => exact hfinite _ _ hread
  · obtain ⟨-, -, -, hmem⟩ := foldl_greater values (fun v hv => isNaN_of_isFinite (hvalues v hv))
      (by decide : (0.0 : Float).isNaN = false)
    rcases List.mem_cons.mp hmem with heq | hmem
    · rw [heq]
      decide
    · exact hvalues _ hmem

theorem renders [Platform] [Platform.Sound] (hfinite : params.Finite) :
    Renders (fun w => @scene w _ params pen) (Sound params) := by
  unfold scene
  dsimp only
  refine .ite (fun _ => .bind nofun) fun hne => .bind fun values hvalues => ?_
  have hfold : (if 0.0 < (params.number? "yMax").getD 0.0 then (params.number? "yMax").getD 0.0
      else values.foldl greater 0.0) = demand ((params.number? "yMax").getD 0.0) values := rfl
  have hv := isFinite_of_frequencies hvalues
  have hm := isFinite_demand params hfinite hv
  simp only [hfold, Sound, hvalues, Except.ok.injEq, forall_eq']
  obtain ⟨hlength, hnonneg⟩ := nonneg_of_frequencies hvalues
  generalize demand ((params.number? "yMax").getD 0.0) values = m at hm ⊢
  generalize Text.entries (params.text "categories") = categories at hlength ⊢
  choose good hsteady hgood using exists_bar params pen (axis m).1 categories.length
  refine .pure (Scene.steady_mk (by decide) (by decide) ?_)
  refine (((pen.steady_label _ _ _).append (.group "axes" (steady_axes params pen _ _))).append
    (.group "bars" (.flatMap fun e _ => hsteady e.1.1 e.1.2 e.2))).congr ?_
  have htitle : Point.isFinite ⟨width / 2.0, BarChart.top / 2.0⟩ = true := by decide
  simp only [finite_steps_iff hm, htitle, implies_true, true_and]
  refine and_congr_right fun hmeasured => ?_
  have hbar : ∀ e ∈ (categories.zip values).zipIdx, e.2 < categories.length ∧
      (good e.1.1 e.1.2 e.2 ↔ (Float.ofNat e.2).isFinite = true) := by
    rintro ⟨⟨category, v⟩, i⟩ he
    obtain ⟨hlt, heq⟩ := List.getElem?_eq_some_iff.mp (List.mem_zipIdx_iff_getElem?.mp he)
    have hvalue : v ∈ values := (List.of_mem_zip (heq ▸ List.getElem_mem hlt)).2
    have hin : i < categories.length := lt_of_lt_of_le hlt (by
      rw [List.length_zip]
      exact min_le_left _ _)
    exact ⟨hin, hgood _ _ _ hin (top_pos hmeasured) ⟨hv v hvalue, hnonneg v hvalue⟩⟩
  constructor
  · intro hall i hi
    have hin : i < (categories.zip values).length := by
      rw [List.length_zip, hlength, min_self]
      exact hi
    have hmem : ((categories.zip values)[i], i) ∈ (categories.zip values).zipIdx :=
      List.mem_zipIdx_iff_getElem?.mpr (List.getElem?_eq_getElem hin)
    exact (hbar _ hmem).2.mp (hall _ hmem)
  · intro hall e he
    obtain ⟨hlt, hiff⟩ := hbar e he
    exact hiff.mpr (hall _ hlt)

end BarChart

end Figures
