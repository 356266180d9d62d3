import Figures.Proofs.Figure.Steady
import Figures.Proofs.Plane.Fitted

/-!
# Axes under other numerals

* `isFinite_add_small`        a number is still finite a little further
* `Params.TicksPlaced`        the ticks between two bounds of the parameters are finite, and so are
                              their places
* `NumberLine.renders`        number lines are steady if and only if the ticks and the point have
                              finite places
* `BoxPlot.renders`           so are box plots, if the numbers of the summary have

A place is a difference times a scale. Bounds that are far apart make the difference infinite, and
bounds that are next to each other the scale.
-/

namespace Figures

variable (params : Params) (pen : Pen)

/-! ### places -/

section
variable {x d : Float} (hx : x.isFinite = true) (hd : -1000.0 ≤ d ∧ d ≤ 1000.0)
include hx hd

/-- the last place of the largest doubles is larger than any step on a canvas -/
theorem abs_add_small_lt : |valueOf x| + |valueOf d| < doubleLimit := by
  have hstep := (Within.of_bounds hd).le (by decide)
  have hplace : (1000 : ℚ) < halfPlace := by
    calc (1000 : ℚ) < 2 ^ (10 : ℤ) := by norm_num
      _ ≤ 2 ^ (970 : ℤ) := zpow_le_zpow_right₀ one_le_two (by decide)
      _ = halfPlace := by rw [halfPlace]
  have hlimit := abs_valueOf_add_halfPlace_le hx
  push_cast at hstep
  linarith

/-- a number is still finite a little further -/
theorem isFinite_add_small : (x + d).isFinite = true := by
  rw [(roundsTo_add hx ((Within.of_bounds hd).isFinite (by decide))).isFinite_iff]
  exact (abs_add_le _ _).trans_lt (abs_add_small_lt hx hd)

theorem isFinite_sub_small : (x - d).isFinite = true := by
  rw [(roundsTo_sub hx ((Within.of_bounds hd).isFinite (by decide))).isFinite_iff]
  exact (abs_sub _ _).trans_lt (abs_add_small_lt hx hd)

end

/-! ### ranges -/

theorem exists_multiple {x : Float} (h : x.isFinite = true) : ∃ k : ℤ, valueOf x = k * 2 ^
    (-1074 : ℤ) := by
  obtain ⟨s, n, e, hnormal, hvalue, -⟩ := exists_parts h
  obtain ⟨k, hk⟩ := Binary.exists_units hnormal.low n
  cases s with
  | positive => exact ⟨k, by rw [hvalue, hk, signFactor, one_mul, Int.cast_natCast]⟩
  | negative => exact ⟨-k, by rw [hvalue, hk, signFactor, Int.cast_neg, Int.cast_natCast]; ring⟩

/-- the difference of distinct doubles is not rounded to zero -/
theorem zero_lt_sub {x y : Float} (hx : x.isFinite = true) (hy : y.isFinite = true)
    (hlt : valueOf y < valueOf x) (h : (x - y).isFinite = true) : 0 < valueOf (x - y) := by
  have hunit : (0 : ℚ) < 2 ^ (-1074 : ℤ) := by positivity
  have hsmallest : valueOf 5e-324 = 2 ^ (-1074 : ℤ) := by
    have hexact : Binary.ofFloat? 5e-324 = some ⟨false, 1, -1074⟩ := by decide +kernel
    rw [valueOf, hexact]
    norm_num [Binary.value]
  obtain ⟨j, hj⟩ := exists_multiple hx
  obtain ⟨k, hk⟩ := exists_multiple hy
  have hle : valueOf 5e-324 ≤ valueOf x - valueOf y := by
    rw [hj, hk] at hlt
    have hless : k + 1 ≤ j := by exact_mod_cast lt_of_mul_lt_mul_right hlt hunit.le
    have hcast : (k : ℚ) + 1 ≤ j := by exact_mod_cast hless
    rw [hsmallest, hj, hk, ← sub_mul]
    exact le_mul_of_one_le_left hunit.le (by linarith)
  exact hunit.trans_le (hsmallest ▸ (roundsTo_sub hx hy).le_valueOf h (by decide +kernel) hle)

section
variable {lo hi room d : Float} (hlo : lo.isFinite = true) (hhi : hi.isFinite = true)
    (hlt : ¬ hi ≤ lo) (hroom : 0.0 ≤ room ∧ room ≤ 1000.0)
include hlo hhi hlt hroom

theorem zero_le_scale : 0.0 ≤ room / (hi - lo) := by
  obtain ⟨hwithin, hpos⟩ := Within.of_room hroom
  have hless : valueOf lo < valueOf hi := by rwa [le_iff_valueOf hhi hlo, not_le] at hlt
  rcases (roundsTo_sub hhi hlo).finite_or_infinite (by linarith) with hfinite | hinfinite
  · exact zero_le_div (hwithin.isFinite (by decide)) hpos hfinite
      (zero_lt_sub hhi hlo hless hfinite) (le_self (isNaN_of_isFinite hfinite))
  · rw [hinfinite]
    obtain ⟨hfinite, hvalue⟩ := div_infinite (hwithin.isFinite (by decide))
    exact (zero_le_iff hfinite).mpr hvalue.ge

/-- what is no longer than a range has a place if and only if its length is finite, and so is the
scale -/
theorem isFinite_place_iff {margin : Float} (hmargin : -1000.0 ≤ margin ∧ margin ≤ 1000.0)
    (hd : 0.0 ≤ d) (hle : d ≤ hi - lo) : (margin + d * (room / (hi - lo))).isFinite = true ↔
      d.isFinite = true ∧ (room / (hi - lo)).isFinite = true := by
  refine ⟨fun h => finite_of_mul (finite_of_add h).2, fun ⟨hfinite, hscale⟩ => ?_⟩
  have hpart := (Within.of_room hroom).1.scaled hfinite ((zero_le_iff hfinite).mp hd) hle hscale
    ((zero_le_iff hscale).mp (zero_le_scale hlo hhi hlt hroom)) (le_self (isNaN_of_isFinite hscale))
  exact ((Within.of_bounds hmargin).add hpart).isFinite (by decide)

end

/-! ### ticks -/

namespace Params

/-- there are ticks between two bounds -/
def Ticked (params : Params) (lo hi step : String) (limit : ℕ) : Prop :=
  ∃ x y d marks, params.number? lo = some x ∧ params.number? hi = some y ∧
    params.number? step = some d ∧ Template.ticks x y d limit = some marks ∧ marks ≠ []

/-- the ticks between two bounds are finite, and so are their places -/
def TicksPlaced (params : Params) (lo hi step : String) (limit : ℕ)
    (place : Float → Float → Float → Float) : Prop :=
  ∀ x y d marks, params.number? lo = some x → params.number? hi = some y →
    params.number? step = some d →
    Template.ticks x y d limit = some marks → ∀ v ∈ marks, v.isFinite = true ∧
    (place x y v).isFinite = true

variable {params : Params}

section
variable {lo hi step : String} {limit : ℕ} {x y d : Float} {marks : List Float}
  (hlo : params.required lo = .ok x) (hhi : params.required hi = .ok y)
  (hstep : params.positive step = .ok d) (hmarks : Template.ticks x y d limit = some marks)
include hlo hhi hstep hmarks

theorem ticked_iff : params.Ticked lo hi step limit ↔ marks ≠ [] := by
  simp only [Ticked, number?_of_required hlo, number?_of_required hhi, number?_of_positive hstep,
    Option.some.injEq, exists_eq_left', exists_and_left, hmarks]

theorem ticksPlaced_iff {place : Float → Float → Float → Float} :
    params.TicksPlaced lo hi step limit place ↔
      ∀ v ∈ marks, v.isFinite = true ∧ (place x y v).isFinite = true := by
  simp only [TicksPlaced, number?_of_required hlo, number?_of_required hhi,
    number?_of_positive hstep, Option.some.injEq, forall_eq', hmarks, forall_comm (α := Float)]

end

end Params

/-! ### number lines -/

namespace NumberLine

/-- the place of a number on a line between two bounds -/
def place (lo hi v : Float) : Float := margin + (v - lo) * ((width - 2.0 * margin) / (hi - lo))

/-- the numbers of a number line that may not be finite are its ticks, their places, and that of the
point -/
def Sound : Prop :=
  params.TicksPlaced "min" "max" "step" tickLimit place ∧
  (params.visible "showPoint" = true → ∀ lo, params.number? "min" = some lo →
    ∀ hi, params.number? "max" = some hi →
    ∀ v, params.number? "point" = some v → (v < lo || hi < v) = false →
    (place lo hi v).isFinite = true)

theorem steady_axis [Platform] [Platform.Sound] : Steady tally
    (fun w => @axis w _ params pen) True := by
  refine ((pen.steady_rule (.const "axis") _ _ _).append
    (.when _ ((pen.steady_polygon _ _ _ _).append
    (pen.steady_polygon _ _ _ _)))).congr (iff_true_intro ?_)
  have hleft : leftEnd.Within 1000 := .of_bounds (by decide)
  have hright : rightEnd.Within 1000 := .of_bounds (by decide)
  have hsize : Within 1000 10.0 := .of_bounds (by decide)
  exact ⟨⟨trivial, hleft.isFinite (by decide), hright.isFinite (by decide)⟩, fun _ =>
    ⟨finite_arrowHead hleft hright hsize (by decide), finite_arrowHead hright hleft hsize
      (by decide)⟩⟩

theorem steady_tick (v x : Float) : Steady tally (fun w => @tick w params pen v x)
    (v.isFinite = true ∧ x.isFinite = true) := by
  refine ((pen.steady_rule ((Phrased.const "tick").append (.tidy 2 v)) _ _ _).append
    (.when _ (pen.steady_text ((Phrased.const "tick").append (.tidy 2 v))
      (.tidy 2 v) _ _ _))).congr ?_
  have hheights : (axisY - 8.0).isFinite = true ∧ (axisY + 8.0).isFinite = true ∧
      (axisY + 26.0).isFinite = true := by decide
  simp only [Point.isFinite_iff, hheights]
  tauto

theorem steady_marked (shade : Shade) (x : Float) :
    Steady tally (fun w => @marked w params pen shade ⟨x, axisY⟩) (x.isFinite = true) := by
  have hpoint : Steady tally (fun w => [@Piece.circle w pen.places
      { Element.point.look "point" Cls.line with
        style := if params.visible "openPoint" then [⟨"fill", "white"⟩] else [] }
          ⟨x, axisY⟩ 7.0]) _ :=
    .element "circle" _ (.circleNumbers pen.places ⟨x, axisY⟩ 7.0)
  have hheights : axisY.isFinite = true ∧ (axisY - 26.0).isFinite = true ∧
      (7.0 : Float).isFinite = true ∧
      leftEnd.x.isFinite = true ∧ rightEnd.x.isFinite = true := by decide
  have hlabel := pen.steady_label "point" (params.label "point") ⟨x, axisY - 26.0⟩
  have hline : ∀ tip : Point, Steady tally (fun w => [@Piece.line w pen.places
      { Element.line.look "shade" Cls.line with style := [⟨"stroke-width", "5"⟩] } ⟨x, axisY⟩ tip])
        _ := fun tip =>
    .element "line" _ (.lineNumbers pen.places ⟨x, axisY⟩ tip)
  have hall : ∀ {d : Numerals → Drawing} {q : Prop}, Steady tally d q → (x.isFinite = true → q) →
      Steady tally (fun w => d w ++
        [@Piece.circle w pen.places { Element.point.look "point" Cls.line with
        style := if params.visible "openPoint" then [⟨"fill", "white"⟩] else [] } ⟨x, axisY⟩ 7.0] ++
        @Pen.label w pen "point" (params.label "point") ⟨x, axisY - 26.0⟩) (x.isFinite = true) := by
    intro d q hd hq
    refine ((hd.append hpoint).append hlabel).congr ?_
    simp only [Point.isFinite_iff, hheights]
    tauto
  cases shade with
  | none => exact hall (.const tally []) fun _ => trivial
  | left =>
    exact hall (hline _) fun hx => ⟨Point.isFinite_of hx hheights.1,
      Point.isFinite_of hheights.2.2.2.1 hheights.1⟩
  | right =>
    exact hall (hline _) fun hx => ⟨Point.isFinite_of hx hheights.1,
      Point.isFinite_of hheights.2.2.2.2 hheights.1⟩

theorem renders [Platform] [Platform.Sound] :
    Renders (fun w => @scene w _ params pen) (Sound params) := by
  refine .bind fun lo hlo => .bind fun hi hhi => .bind fun step hstep => .bind fun shade _ => ?_
  dsimp only
  refine .ite (fun _ => .bind nofun) fun _ => ?_
  cases hmarks : Template.ticks lo hi step tickLimit with
  | none => exact .error _
  | some marks =>
    have hfold : ∀ v, margin + (v - lo) * ((width - 2.0 * margin) / (hi - lo)) = place lo hi v :=
      fun _ => rfl
    simp only [hfold]
    have hline : Steady tally (fun w => @axis w _ params pen ++
        Pen.group "ticks" (marks.flatMap fun v =>
        @tick w params pen v (place lo hi v))) (params.TicksPlaced "min" "max" "step"
          tickLimit place) :=
      ((steady_axis params pen).append (.group "ticks" (.flatMap fun v _ =>
        steady_tick params pen v _))).congr (by
        rw [Params.ticksPlaced_iff hlo hhi hstep hmarks, true_and])
    refine .ite (fun hshown => .bind fun v hv => .ite (fun hout => ?_) fun hin => ?_)
      fun hhidden => ?_
    · refine .pure (Scene.steady_mk (by decide) (by decide) (hline.congr ?_))
      simp only [Sound, Params.number?_of_required hlo, Params.number?_of_required hhi,
        Params.number?_of_required hv, Option.some.injEq, forall_eq', hout, Bool.true_eq_false,
        false_implies, implies_true, and_true]
    · refine .pure (Scene.steady_mk (by decide) (by decide)
        ((hline.append (steady_marked params pen shade _)).congr ?_))
      simp only [Sound, hshown, Params.number?_of_required hlo, Params.number?_of_required hhi,
        Params.number?_of_required hv, Option.some.injEq, forall_eq',
        Bool.eq_false_of_not_eq_true hin, true_implies]
    · refine .pure (Scene.steady_mk (by decide) (by decide) (hline.congr ?_))
      simp only [Sound, eq_false hhidden, false_implies, and_true]

end NumberLine

/-! ### box plots -/

namespace BoxPlot

/-- the place of a number on an axis between two bounds; what lies beyond is at its end -/
def place (lo hi v : Float) : Float :=
    margin + (clamp lo hi v - lo) * ((width - 2.0 * margin) / (hi - lo))

/-- the numbers of a box plot that may not be finite are the ticks of its axis, their places, and
those of the five numbers -/
def Sound : Prop :=
  params.TicksPlaced "axisMin" "axisMax" "step" tickLimit place ∧
  ∀ lo, params.number? "axisMin" = some lo → ∀ hi, params.number? "axisMax" = some hi →
    ∀ name ∈ ["min", "q1", "median", "q3", "max"], ∀ v, params.number? name = some v →
      (place lo hi v).isFinite = true

theorem place_nonneg {lo hi v : Float} (hlo : lo.isFinite = true) (hhi : hi.isFinite = true)
    (hv : v.isFinite = true) (hlt : ¬ hi ≤ lo) (h : (place lo hi v).isFinite = true) :
    0 ≤ valueOf (place lo hi v) := by
  have hless : valueOf lo < valueOf hi := by rwa [le_iff_valueOf hhi hlo, not_le] at hlt
  have hproduct := (finite_of_add h).2
  obtain ⟨hoffset, hscale⟩ := finite_of_mul hproduct
  have hclamped := (finite_of_sub hoffset).1
  obtain ⟨hlow, -⟩ := clamp_bounds ((le_iff_valueOf hlo hhi).mpr hless.le) (isNaN_of_isFinite hv)
  have hscaled : 0.0 ≤ (width - 2.0 * margin) / (hi - lo) := zero_le_scale hlo hhi hlt (by decide)
  have hpart := (roundsTo_mul hoffset hscale).nonneg hproduct
    (mul_nonneg (sub_nonneg_of_le hclamped hlo hlow hoffset) ((zero_le_iff hscale).mp hscaled))
  have hmargin : (0 : ℚ) ≤ valueOf margin := (zero_le_iff (by decide)).mp (by decide)
  exact (roundsTo_add (by decide) hproduct).nonneg h (add_nonneg hmargin hpart)

theorem steady_tick (v x : Float) : Steady tally (fun w => @tick w pen v x)
    (v.isFinite = true ∧ x.isFinite = true) := by
  refine ((pen.steady_rule ((Phrased.const "tick").append (.tidy 2 v)) _ _ _).append
    (pen.steady_text ((Phrased.const "tick").append (.tidy 2 v)) (.tidy 2 v) _ _ _)).congr ?_
  have hheights : axisY.isFinite = true ∧ (axisY + 6.0).isFinite = true ∧
      (axisY + 20.0).isFinite = true := by
    decide
  simp only [Point.isFinite_iff, hheights]
  tauto

theorem steady_plot (s : Summary) (xOf : Float → Float) :
    Steady tally (fun w => @plot w pen s xOf)
      ((xOf s.min).isFinite = true ∧ (xOf s.q1).isFinite = true ∧ (xOf s.median).isFinite = true ∧
        (xOf s.q3).isFinite = true ∧ (xOf s.max).isFinite = true ∧
        (xOf s.q3 - xOf s.q1).isFinite = true) := by
  have hbox : Steady tally (fun w => [@Piece.rect w pen.places (Element.bar.look "box" Cls.bar)
      ⟨xOf s.q1, boxTop⟩ (xOf s.q3 - xOf s.q1) boxHeight]) _ :=
        .element "rect" _ (.rectNumbers pen.places _ _ _)
  refine ((((((pen.steady_segment _ _ _).append (pen.steady_segment _ _ _)).append
    (pen.steady_segment _ _ _)).append
    (pen.steady_segment _ _ _)).append hbox).append (pen.steady_segment _ _ _)).congr ?_
  have hheights : boxTop.isFinite = true ∧ boxHeight.isFinite = true ∧
      (boxTop + boxHeight / 2.0).isFinite = true ∧
      (boxTop + boxHeight).isFinite = true ∧ (boxTop + 15.0).isFinite = true ∧
      (boxTop + boxHeight - 15.0).isFinite = true := by decide
  simp only [Point.isFinite_iff, hheights]
  tauto

theorem number?_of_ofParams {s : Summary} (h : Summary.ofParams params = .ok s) :
    params.number? "min" = some s.min ∧ params.number? "q1" = some s.q1 ∧
      params.number? "median" = some s.median ∧ params.number? "q3" = some s.q3 ∧
      params.number? "max" = some s.max := by
  obtain ⟨a, ha, h⟩ := ok_of_bind h
  obtain ⟨b, hb, h⟩ := ok_of_bind h
  obtain ⟨c, hc, h⟩ := ok_of_bind h
  obtain ⟨d, hd, h⟩ := ok_of_bind h
  obtain ⟨e, he, h⟩ := ok_of_bind h
  dsimp only at h
  split at h
  · cases h
  · cases h
    exact ⟨Params.number?_of_required ha, Params.number?_of_required hb,
      Params.number?_of_required hc, Params.number?_of_required hd, Params.number?_of_required he⟩

theorem renders (hfinite : params.Finite) : Renders (fun w => @scene w params pen)
    (Sound params) := by
  refine .bind fun s hs => .bind fun lo hlo => .bind fun hi hhi => .bind fun step hstep => ?_
  dsimp only
  refine .ite (fun _ => .bind nofun) fun hlt => ?_
  cases hmarks : Template.ticks lo hi step tickLimit with
  | none => exact .error _
  | some marks =>
    have hfold : ∀ v, margin + (clamp lo hi v - lo) * ((width - 2.0 * margin) / (hi - lo)) =
        place lo hi v :=
      fun _ => rfl
    simp only [hfold]
    refine .pure (Scene.steady_mk (by decide) (by decide) ?_)
    refine ((((pen.steady_label _ _ _).append
      (.group "axis" ((pen.steady_rule (.const "axis") _ _ _).append
      (.flatMap fun v _ => steady_tick pen v _)))).append
        (.group "plot" (steady_plot pen s _))).append
      (.when _ (.group "values" (.flatMap fun e _ =>
        pen.steady_text (.const e.1) (.tidy 2 e.2) _ _ _)))).congr ?_
    obtain ⟨hmin, hq1, hmedian, hq3, hmax⟩ := number?_of_ofParams params hs
    have hbox := fun hfirst hthird => isFinite_sub_of_nonneg hthird hfirst
      (place_nonneg (hfinite.required hlo) (hfinite.required hhi) (hfinite _ _ hq3) hlt hthird)
      (place_nonneg (hfinite.required hlo) (hfinite.required hhi) (hfinite _ _ hq1) hlt hfirst)
    have hheights : (width / 2.0).isFinite = true ∧ (26.0 : Float).isFinite = true ∧
        margin.isFinite = true ∧
        axisY.isFinite = true ∧ (width - margin).isFinite = true ∧
        (boxTop - 12.0).isFinite = true := by decide
    simp only [Sound, Params.ticksPlaced_iff hlo hhi hstep hmarks, Params.number?_of_required hlo,
      Params.number?_of_required hhi, Summary.entries, List.forall_mem_cons, hmin, hq1,
      hmedian, hq3, hmax, Option.some.injEq, forall_eq', Point.isFinite_iff, hheights,
      hfinite _ _ hmin, hfinite _ _ hq1, hfinite _ _ hmedian, hfinite _ _ hq3, hfinite _ _ hmax,
      List.not_mem_nil, false_implies, implies_true, true_and, and_true]
    constructor
    · rintro ⟨⟨hticks, h1, h2, h3, h4, h5, -⟩, -⟩
      exact ⟨hticks, h1, h2, h3, h4, h5⟩
    · rintro ⟨hticks, h1, h2, h3, h4, h5⟩
      exact ⟨⟨hticks, h1, h2, h3, h4, h5, hbox h2 h4⟩, fun _ =>
        ⟨fun _ => h1, fun _ => h2, fun _ => h3, fun _ => h4, fun _ => h5⟩⟩

end BoxPlot

end Figures
