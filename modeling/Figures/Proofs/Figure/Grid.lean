import Figures.Proofs.Figure.Axes
import Figures.Proofs.Figure.Points

/-!
# Coordinate grids under other numerals

* `CoordinateGrid.Spans lo hi`     the length of a range is finite, and so is its scale
* `CoordinateGrid.Sound`           what the ranges, the ticks and the points have to be for what is
                                   shown of a grid
* `Frame.Proper.isFinite_place_iff`   when a point inside has a place
* `Frame.Proper.finite_axes_iff`   the axes have places if and only if both ranges are spanned
* `CoordinateGrid.renders`         coordinate grids are steady if and only if they are sound
-/

namespace Figures

namespace CoordinateGrid

def scale (lo hi : Float) : Float := (size - 2.0 * margin) / (hi - lo)

def across (lo hi v : Float) : Float := margin + (v - lo) * scale lo hi

def down (lo hi v : Float) : Float := margin + (hi - v) * scale lo hi

/-- the length of a range is finite, and so is its scale -/
def Spans (lo hi : Float) : Prop := (hi - lo).isFinite = true ∧ (scale lo hi).isFinite = true

/-- The parameters of a grid are fit for what is shown of it: both ranges for the axes, each range
for the lines at the ticks of the other one, the ticks for their lines and numbers, and the points
inside. -/
structure Sound (params : Params) (pen : Pen) : Prop where
  axes : params.visible "showAxes" = true → ∀ f, Framed params f → Spans f.xMin f.xMax ∧
    Spans f.yMin f.yMax
  lines : params.visible "showGrid" = true → ∀ f, Framed params f →
    (params.Ticked "xMin" "xMax" "step" tickLimit → Spans f.yMin f.yMax) ∧
    (params.Ticked "yMin" "yMax" "step" tickLimit → Spans f.xMin f.xMax)
  ticks : params.visible "showGrid" = true ∨
      params.visible "showAxes" = true ∧ params.visible "showTickLabels" = true →
    params.TicksPlaced "xMin" "xMax" "step" tickLimit across ∧
    params.TicksPlaced "yMin" "yMax" "step" tickLimit down
  points : ∀ f, Framed params f → ∀ e ∈ params.positions.entries, ∀ p, e.2.point? =
    some p → f.Holds p → (((p.x - f.xMin).isFinite = true ∧ (scale f.xMin f.xMax).isFinite = true) ∧
      (f.yMax - p.y).isFinite = true ∧ (scale f.yMin f.yMax).isFinite = true) ∧
    pen.pointRadius.isFinite = true

theorem Framed.unique {params : Params} {f g : Frame} (hf : Framed params f)
    (hg : Framed params g) :
    f = g := by
  obtain ⟨h1, h2, h3, h4⟩ := hf
  obtain ⟨g1, g2, g3, g4⟩ := hg
  cases f
  cases g
  simp only [h1, h2, h3, h4, Option.some.injEq] at g1 g2 g3 g4
  rw [g1, g2, g3, g4]

theorem Framed.forall_iff {params : Params} {f : Frame} (hf : Framed params f) {P : Frame → Prop} :
    (∀ g, Framed params g → P g) ↔ P f :=
  ⟨fun h => h f hf, fun h _ hg => hf.unique hg ▸ h⟩

/-! ### places -/

section
variable {lo hi v : Float} (hlo : lo.isFinite = true) (hhi : hi.isFinite = true) (hlt : ¬ hi ≤ lo)
  (hlow : lo ≤ v) (hhigh : v ≤ hi)
include hlo hhi hlow hhigh

theorem sub_le_range : (0.0 ≤ v - lo ∧ v - lo ≤ hi - lo) ∧ 0.0 ≤ hi - v ∧ hi - v ≤ hi - lo := by
  have hv := isFinite_of_between hlo hhi hlow hhigh
  rw [le_iff_valueOf hlo hv] at hlow
  rw [le_iff_valueOf hv hhi] at hhigh
  have hleft := sub_nonneg.mpr hlow
  have hright := sub_nonneg.mpr hhigh
  have hwhole := roundsTo_sub hhi hlo
  exact ⟨⟨zero_le_of_roundsTo (roundsTo_sub hv hlo) hleft,
      (roundsTo_sub hv hlo).le hwhole hleft (sub_le_sub_right hhigh _)⟩,
    zero_le_of_roundsTo (roundsTo_sub hhi hv) hright,
    (roundsTo_sub hhi hv).le hwhole hright (sub_le_sub_left hlow _)⟩

theorem finite_sub_of_range (hspan : (hi - lo).isFinite = true) :
    (v - lo).isFinite = true ∧ (hi - v).isFinite = true := by
  obtain ⟨⟨hleft, hleftle⟩, hright, hrightle⟩ := sub_le_range hlo hhi hlow hhigh
  exact ⟨isFinite_of_between (by decide) hspan hleft hleftle,
    isFinite_of_between (by decide) hspan hright hrightle⟩

include hlt

theorem isFinite_across_iff : (across lo hi v).isFinite = true ↔
    (v - lo).isFinite = true ∧ (scale lo hi).isFinite = true :=
  have ⟨hleft, hle⟩ := (sub_le_range hlo hhi hlow hhigh).1
  isFinite_place_iff hlo hhi hlt (by decide) (by decide) hleft hle

theorem isFinite_down_iff : (down lo hi v).isFinite = true ↔
    (hi - v).isFinite = true ∧ (scale lo hi).isFinite = true :=
  have ⟨hright, hle⟩ := (sub_le_range hlo hhi hlow hhigh).2
  isFinite_place_iff hlo hhi hlt (by decide) (by decide) hright hle

theorem Spans.finite_places (h : Spans lo hi) :
    (across lo hi v).isFinite = true ∧ (down lo hi v).isFinite = true := by
  obtain ⟨hleft, hright⟩ := finite_sub_of_range hlo hhi hlow hhigh h.1
  exact ⟨(isFinite_across_iff hlo hhi hlt hlow hhigh).mpr ⟨hleft, h.2⟩,
    (isFinite_down_iff hlo hhi hlt hlow hhigh).mpr ⟨hright, h.2⟩⟩

end

/-- a frame with finite bounds, whose sides are not empty -/
structure Frame.Proper (f : Frame) : Prop where
  xMin : f.xMin.isFinite = true
  xMax : f.xMax.isFinite = true
  yMin : f.yMin.isFinite = true
  yMax : f.yMax.isFinite = true
  wide : ¬ f.xMax ≤ f.xMin
  high : ¬ f.yMax ≤ f.yMin

namespace Frame.Proper

variable {f : Frame} (h : f.Proper)
include h

theorem le_width : f.xMin ≤ f.xMax := le_of_not_le h.xMax h.xMin h.wide

theorem le_height : f.yMin ≤ f.yMax := le_of_not_le h.yMax h.yMin h.high

theorem numeric : f.Numeric :=
  ⟨isNaN_of_isFinite h.xMin, isNaN_of_isFinite h.xMax, isNaN_of_isFinite h.yMin,
    isNaN_of_isFinite h.yMax⟩

theorem holds_crossing : f.Holds f.crossing :=
  have ⟨hx, hx'⟩ := clamp_bounds h.le_width (by decide)
  have ⟨hy, hy'⟩ := clamp_bounds h.le_height (by decide)
  ⟨hx, hx', hy, hy'⟩

theorem isFinite_place_iff {p : Point} (hp : f.Holds p) : (f.place p.x p.y).isFinite = true ↔
    ((p.x - f.xMin).isFinite = true ∧ (scale f.xMin f.xMax).isFinite = true) ∧
    (f.yMax - p.y).isFinite = true ∧ (scale f.yMin f.yMax).isFinite = true := by
  obtain ⟨hx, hx', hy, hy'⟩ := hp
  rw [Point.isFinite_iff, ← isFinite_across_iff h.xMin h.xMax h.wide hx hx',
    ← isFinite_down_iff h.yMin h.yMax h.high hy hy']
  rfl

theorem finite_across (hspans : Spans f.xMin f.xMax) {v : Float} (hlow : f.xMin ≤ v)
    (hhigh : v ≤ f.xMax) :
    (across f.xMin f.xMax v).isFinite = true :=
  (hspans.finite_places h.xMin h.xMax h.wide hlow hhigh).1

theorem finite_down (hspans : Spans f.yMin f.yMax) {v : Float} (hlow : f.yMin ≤ v)
    (hhigh : v ≤ f.yMax) :
    (down f.yMin f.yMax v).isFinite = true :=
  (hspans.finite_places h.yMin h.yMax h.high hlow hhigh).2

theorem spans_width_iff : (across f.xMin f.xMax f.xMax).isFinite = true ↔ Spans f.xMin f.xMax :=
  isFinite_across_iff h.xMin h.xMax h.wide h.le_width (le_self (isNaN_of_isFinite h.xMax))

theorem spans_height_iff : (down f.yMin f.yMax f.yMin).isFinite = true ↔ Spans f.yMin f.yMax :=
  isFinite_down_iff h.yMin h.yMax h.high (le_self (isNaN_of_isFinite h.yMin)) h.le_height

/-- a line from bottom to top has places if and only if its number has one and the range up is
spanned -/
theorem finite_column_iff {x : Float} :
    (f.place x f.yMin).isFinite = true ∧ (f.place x f.yMax).isFinite = true ↔
      (across f.xMin f.xMax x).isFinite = true ∧ Spans f.yMin f.yMax := by
  rw [Point.isFinite_iff, Point.isFinite_iff, ← h.spans_height_iff]
  refine ⟨fun hline => hline.1, fun hline => ⟨hline, hline.1, ?_⟩⟩
  exact h.finite_down (h.spans_height_iff.mp hline.2) h.le_height
    (le_self (isNaN_of_isFinite h.yMax))

theorem finite_row_iff {y : Float} :
    (f.place f.xMin y).isFinite = true ∧ (f.place f.xMax y).isFinite = true ↔
      (down f.yMin f.yMax y).isFinite = true ∧ Spans f.xMin f.xMax := by
  rw [Point.isFinite_iff, Point.isFinite_iff, ← h.spans_width_iff]
  refine ⟨fun hline => ⟨hline.2.2, hline.2.1⟩, fun hline => ⟨⟨?_, hline.1⟩, hline.2, hline.1⟩⟩
  exact h.finite_across (h.spans_width_iff.mp hline.2)
    (le_self (isNaN_of_isFinite h.xMin)) h.le_width

theorem finite_axes_iff :
    ((f.place f.xMin f.crossing.y).isFinite = true ∧
      (f.place f.xMax f.crossing.y).isFinite = true) ∧
      (f.place f.crossing.x f.yMin).isFinite = true ∧
      (f.place f.crossing.x f.yMax).isFinite = true ↔
    Spans f.xMin f.xMax ∧ Spans f.yMin f.yMax := by
  rw [h.finite_row_iff, h.finite_column_iff]
  obtain ⟨hx, hx', hy, hy'⟩ := h.holds_crossing
  exact ⟨fun hlines => ⟨hlines.1.2, hlines.2.2⟩, fun hspans =>
    ⟨⟨h.finite_down hspans.2 hy hy', hspans.1⟩, h.finite_across hspans.1 hx hx', hspans.2⟩⟩

/-- the numbers beside the axes have places if and only if all ticks have: where no number is
written, the axes cross -/
theorem finite_ticks_iff (hspans : Spans f.xMin f.xMax ∧ Spans f.yMin f.yMax) (xs ys : List Float) :
    ((∀ x ∈ xs, (x != f.crossing.x) = true → x.isFinite = true ∧
      (f.place x f.crossing.y).isFinite = true) ∧
      ∀ y ∈ ys, (y != f.crossing.y) = true → y.isFinite = true ∧
      (f.place f.crossing.x y).isFinite = true) ↔
    (∀ x ∈ xs, x.isFinite = true ∧ (across f.xMin f.xMax x).isFinite = true) ∧
      ∀ y ∈ ys, y.isFinite = true ∧ (down f.yMin f.yMax y).isFinite = true := by
  obtain ⟨hx, hx', hy, hy'⟩ := h.holds_crossing
  refine and_congr (forall₂_congr fun x _ => ?_) (forall₂_congr fun y _ => ?_)
  · cases heq : x == f.crossing.x with
    | false =>
      simp only [bne, heq, Bool.not_false, true_implies, Point.isFinite_iff]
      exact and_congr_right fun _ => and_iff_left (h.finite_down hspans.2 hy hy')
    | true =>
      obtain ⟨hle, hge⟩ := le_of_beq heq
      have hlow := float_le_trans hx hge
      have hhigh := float_le_trans hle hx'
      simp only [bne, heq, Bool.not_true, Bool.false_eq_true, false_implies, true_iff]
      exact ⟨isFinite_of_between h.xMin h.xMax hlow hhigh, h.finite_across hspans.1 hlow hhigh⟩
  · cases heq : y == f.crossing.y with
    | false =>
      simp only [bne, heq, Bool.not_false, true_implies, Point.isFinite_iff]
      exact and_congr_right fun _ => and_iff_right (h.finite_across hspans.1 hx hx')
    | true =>
      obtain ⟨hle, hge⟩ := le_of_beq heq
      have hlow := float_le_trans hy hge
      have hhigh := float_le_trans hle hy'
      simp only [bne, heq, Bool.not_true, Bool.false_eq_true, false_implies, true_iff]
      exact ⟨isFinite_of_between h.yMin h.yMax hlow hhigh, h.finite_down hspans.2 hlow hhigh⟩

end Frame.Proper

/-! ### what is shown -/

variable (params : Params) (pen : Pen) {f : Frame}

theorem isFinite_beside {p : Point} {dx dy : Float}
    (h : (-1000.0 ≤ dx ∧ dx ≤ 1000.0) ∧ -1000.0 ≤ dy ∧ dy ≤ 1000.0) :
    (Point.isFinite ⟨p.x + dx, p.y + dy⟩ = true ↔ p.isFinite = true) := by
  rw [Point.isFinite_iff, Point.isFinite_iff]
  exact ⟨fun hp => ⟨(finite_of_add hp.1).1, (finite_of_add hp.2).1⟩,
    fun hp => ⟨isFinite_add_small hp.1 h.1, isFinite_add_small hp.2 h.2⟩⟩

theorem forall_mem_const_iff {α : Type} {l : List α} {q : Prop} : (∀ a ∈ l, q) ↔ (l ≠ [] → q) := by
  refine ⟨fun h hne => ?_, fun h a ha => h (List.ne_nil_of_mem ha)⟩
  obtain ⟨a, ha⟩ := List.exists_mem_of_ne_nil l hne
  exact h a ha

theorem steady_gridLines (hf : f.Proper) (xs ys : List Float) :
    Steady tally (fun w => @gridLines w pen f xs ys)
      (((xs ≠ [] → Spans f.yMin f.yMax) ∧ (ys ≠ [] → Spans f.xMin f.xMax)) ∧
        (∀ x ∈ xs, x.isFinite = true ∧ (across f.xMin f.xMax x).isFinite = true) ∧
        ∀ y ∈ ys, y.isFinite = true ∧ (down f.yMin f.yMax y).isFinite = true) := by
  refine ((Steady.flatMap fun x _ =>
    pen.steady_rule ((Phrased.const "grid-x").append (.tidy 2 x)) _ _ _).append (.flatMap fun y _ =>
      pen.steady_rule ((Phrased.const "grid-y").append (.tidy 2 y)) _ _ _)).congr ?_
  simp only [true_and, hf.finite_column_iff, hf.finite_row_iff, ← and_assoc, imp_and, forall_and,
    forall_mem_const_iff]
  tauto

theorem steady_tickLabels (xs ys : List Float) : Steady tally (fun w => @tickLabels w pen f xs ys)
    ((∀ x ∈ xs, (x != f.crossing.x) = true → x.isFinite = true ∧
      (f.place x f.crossing.y).isFinite = true) ∧
      ∀ y ∈ ys, (y != f.crossing.y) = true → y.isFinite = true ∧
      (f.place f.crossing.x y).isFinite = true) := by
  refine ((Steady.flatMap fun x _ =>
    pen.steady_text ((Phrased.const "tick-x").append (.tidy 2 x)) (.tidy 2 x)
    _ _ _).append (.flatMap fun y _ =>
      pen.steady_text ((Phrased.const "tick-y").append (.tidy 2 y)) (.tidy 2 y)
    _ _ _)).congr ?_
  have hdown : ∀ p : Point, (p.shift 0.0 14.0).isFinite = true ↔ p.isFinite = true := fun p =>
    isFinite_beside (by decide)
  have hleft : ∀ p : Point, Point.isFinite ⟨p.x - 8.0, p.y⟩ = true ↔ p.isFinite = true := by
    intro p
    rw [Point.isFinite_iff, Point.isFinite_iff]
    exact and_congr_left' ⟨fun h => (finite_of_sub h).1, fun h => isFinite_sub_small h (by decide)⟩
  simp only [List.mem_filter, and_imp, hdown, hleft, tidy_ne_empty, ne_eq, not_false_eq_true,
    true_implies, true_and, and_self_left]

theorem steady_axes (hf : f.Proper) : Steady tally (fun w => @axes w params pen f)
    (Spans f.xMin f.xMax ∧ Spans f.yMin f.yMax) := by
  refine ((((pen.steady_rule (.const "x-axis") _ _ _).append
    (pen.steady_rule (.const "y-axis") _ _ _)).append
    (pen.steady_words _ _ _ _ _)).append (pen.steady_words _ _ _ _ _)).congr ?_
  have hright : ∀ {p : Point}, p.isFinite = true →
      Point.isFinite ⟨p.x + 14.0, p.y⟩ = true := fun hp =>
    Point.isFinite_of (isFinite_add_small (Point.isFinite_iff.mp hp).1 (by decide))
      (Point.isFinite_iff.mp hp).2
  have habove : ∀ {p : Point}, p.isFinite = true →
      Point.isFinite ⟨p.x, p.y - 16.0⟩ = true := fun hp =>
    Point.isFinite_of (Point.isFinite_iff.mp hp).1 (isFinite_sub_small (Point.isFinite_iff.mp hp).2
      (by decide))
  rw [← hf.finite_axes_iff]
  constructor
  · rintro ⟨⟨⟨⟨-, hx⟩, -, hy⟩, -⟩, -⟩
    exact ⟨hx, hy⟩
  · rintro ⟨hx, hy⟩
    exact ⟨⟨⟨⟨trivial, hx⟩, trivial, hy⟩, fun _ => hright hx.2⟩, fun _ => habove hy.2⟩

theorem phrased_plotText (name : String) {p : Point} (hp : p.isFinite = true) :
    Phrased (fun w => @plotText w params name p) True := by
  have hpair : Phrased (fun w => @pairText w p) _ :=
    (((((Phrased.const "(").append (.tidy 2 p.x)).append (.const ", ")).append (.tidy 2 p.y)).append
      (.const ")"))
  obtain ⟨hx, hy⟩ := Point.isFinite_iff.mp hp
  refine (Phrased.ite ((Phrased.const _).append hpair) (.const _)).congr (iff_true_intro ?_)
  split
  · exact ⟨trivial, ⟨⟨⟨trivial, hx⟩, trivial⟩, hy⟩, trivial⟩
  · trivial

theorem steady_plot (hf : f.Proper) (name : String) (given : Position) :
    Steady tally (fun w => (@plot w params pen f name given).1)
      (∀ p, given.point? = some p → f.Holds p →
        (((p.x - f.xMin).isFinite = true ∧ (scale f.xMin f.xMax).isFinite = true) ∧
          (f.yMax - p.y).isFinite = true ∧ (scale f.yMin f.yMax).isFinite = true) ∧
        pen.pointRadius.isFinite = true) := by
  cases hp : given.point? with
  | none =>
    simp only [plot, hp]
    exact (Steady.const tally []).congr (iff_of_true trivial fun p h =>
      absurd h.symm (Option.some_ne_none p))
  | some p =>
    have hfinite := isFinite_of_point? hp
    by_cases hin : f.Holds p
    · have hkept := (excludes_iff hf.numeric hfinite).mpr hin
      simp only [plot, hp, hkept, Bool.false_eq_true, if_false, Option.some.injEq, forall_eq', hin,
        true_implies]
      refine ((pen.steady_dot _ _).append (pen.steady_text (.const _)
        (phrased_plotText params name hfinite) _ _ _)).congr ?_
      rw [← hf.isFinite_place_iff hin]
      constructor
      · rintro ⟨hdot, -⟩
        exact hdot
      · rintro ⟨hplace, hradius⟩
        obtain ⟨hx, hy⟩ := Point.isFinite_iff.mp hplace
        exact ⟨⟨hplace, hradius⟩, trivial, fun _ => ⟨trivial,
          Point.isFinite_of (isFinite_add_small hx (by decide))
          (isFinite_sub_small hy (by decide))⟩⟩
    · have hout : f.excludes p = true := by
        rw [← Bool.not_eq_false, excludes_iff hf.numeric hfinite]
        exact hin
      simp only [plot, hp, hout, if_true, Option.some.injEq, forall_eq', hin, false_implies]
      exact .const tally []

/-- the grid, the axes and the points that are shown, in the frame of the parameters -/
theorem sound_iff {params : Params} {pen : Pen} {f : Frame} (hframed : Framed params f)
    {xs ys : List Float} (hxs : params.Ticked "xMin" "xMax" "step" tickLimit ↔ xs ≠ [])
    (hys : params.Ticked "yMin" "yMax" "step" tickLimit ↔ ys ≠ []) :
    Sound params pen ↔
      ((params.visible "showGrid" = true →
        ((xs ≠ [] → Spans f.yMin f.yMax) ∧ (ys ≠ [] → Spans f.xMin f.xMax)) ∧
          params.TicksPlaced "xMin" "xMax" "step" tickLimit across ∧
          params.TicksPlaced "yMin" "yMax" "step" tickLimit down) ∧
      (params.visible "showAxes" = true →
        (Spans f.xMin f.xMax ∧ Spans f.yMin f.yMax) ∧
          (params.visible "showTickLabels" = true →
            params.TicksPlaced "xMin" "xMax" "step" tickLimit across ∧
            params.TicksPlaced "yMin" "yMax" "step" tickLimit down))) ∧
      ∀ e ∈ params.positions.entries, ∀ p, e.2.point? = some p → f.Holds p →
        (((p.x - f.xMin).isFinite = true ∧ (scale f.xMin f.xMax).isFinite = true) ∧
          (f.yMax - p.y).isFinite = true ∧ (scale f.yMin f.yMax).isFinite = true) ∧
        pen.pointRadius.isFinite = true := by
  constructor
  · rintro ⟨hspans, hlines, hticks, hpoints⟩
    rw [hframed.forall_iff] at hspans hpoints
    rw [hframed.forall_iff, hxs, hys] at hlines
    exact ⟨⟨fun hshown => ⟨hlines hshown, hticks (.inl hshown)⟩,
      fun hshown => ⟨hspans hshown, fun hlabels => hticks (.inr ⟨hshown, hlabels⟩)⟩⟩, hpoints⟩
  · rintro ⟨⟨hgrid, haxes⟩, hpoints⟩
    refine ⟨fun hshown => ?_, fun hshown => ?_, fun hshown => ?_, hframed.forall_iff.mpr hpoints⟩
    · exact hframed.forall_iff.mpr (haxes hshown).1
    · rw [hframed.forall_iff, hxs, hys]
      exact (hgrid hshown).1
    · rcases hshown with hshown | ⟨hshown, hlabels⟩
      · exact (hgrid hshown).2
      · exact (haxes hshown).2 hlabels

theorem renders (hfinite : params.Finite) : Renders (fun w => @scene w params pen)
    (Sound params pen) := by
  refine .bind fun xMin hxMin => .bind fun xMax hxMax => .bind fun yMin hyMin =>
    .bind fun yMax hyMax => .bind fun step hstep => ?_
  dsimp only
  refine .ite (fun _ => .bind nofun) fun hwide => .ite (fun _ => .bind nofun) fun hhigh => ?_
  cases hxs : Template.ticks xMin xMax step tickLimit with
  | none => exact .error _
  | some xs =>
    dsimp only
    cases hys : Template.ticks yMin yMax step tickLimit with
    | none => exact .error _
    | some ys =>
      dsimp only
      obtain ⟨f, hf⟩ : ∃ f : Frame, f = ⟨xMin, xMax, yMin, yMax⟩ := ⟨_, rfl⟩
      have hframed : Framed params f := by
        rw [hf]
        exact ⟨Params.number?_of_required hxMin, Params.number?_of_required hxMax,
          Params.number?_of_required hyMin, Params.number?_of_required hyMax⟩
      have hproper : f.Proper := by
        rw [hf]
        exact ⟨hfinite.required hxMin, hfinite.required hxMax, hfinite.required hyMin,
          hfinite.required hyMax, hwide, hhigh⟩
      have hplaced : params.TicksPlaced "xMin" "xMax" "step" tickLimit across ∧
          params.TicksPlaced "yMin" "yMax" "step" tickLimit down ↔
          (∀ x ∈ xs, x.isFinite = true ∧ (across f.xMin f.xMax x).isFinite = true) ∧
            ∀ y ∈ ys, y.isFinite = true ∧ (down f.yMin f.yMax y).isFinite = true := by
        rw [hf]
        exact and_congr (Params.ticksPlaced_iff hxMin hxMax hstep hxs)
          (Params.ticksPlaced_iff hyMin hyMax hstep hys)
      rw [← hf]
      simp only [List.flatMap_map]
      refine .pure (Scene.steady_mk (by decide) (by decide) ?_)
      refine (((Steady.when _ (.group "grid" (steady_gridLines pen hproper xs ys))).append
        (.when _ (.group "axes" ((steady_axes params pen hproper).append
          (.when _ (steady_tickLabels pen xs ys)))))).append
        (.group "points" (.flatMap fun e _ => steady_plot params pen hproper e.1 e.2))).congr ?_
      have haxes : (Spans f.xMin f.xMax ∧ Spans f.yMin f.yMax) ∧
          (params.visible "showTickLabels" = true → _) ↔ _ :=
        and_congr_right fun hspans => imp_congr_right fun _ => hproper.finite_ticks_iff hspans xs ys
      rw [haxes, ← hplaced]
      exact (sound_iff hframed (Params.ticked_iff hxMin hxMax hstep hxs)
        (Params.ticked_iff hyMin hyMax hstep hys)).symm

end CoordinateGrid

end Figures
