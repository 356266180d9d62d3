import Figures.Proofs.Figure.Steady
import Figures.Proofs.Plane.Fitted

/-!
# Solids under other numerals

* `lesser_rooms`        the smaller of two scales exceeds neither
* `Cuboid.renders`      cuboids are steady if and only if their scale is finite
* `Cylinder.renders`    so are cylinders

The picture of a solid is as large as its canvas. The spans of a solid may be too large for a
double; then it is scaled to nothing. They may also be so small that they fit infinitely often.
-/

namespace Figures

variable (params : Params) (pen : Pen)

/-- the smaller of two scales that are not negative is not negative, and exceeds neither -/
theorem lesser_rooms {x y : Float} (hx : 0.0 ≤ x) (hy : 0.0 ≤ y) :
    0.0 ≤ lesser x y ∧ lesser x y ≤ x ∧ lesser x y ≤ y := by
  refine ⟨?_, lesser_le_left (isNaN_of_le hx).2, lesser_le_right (isNaN_of_le hy).2⟩
  rcases lesser_cases x y with h | h <;> rwa [h]

theorem isFinite_mul_part {x y : Float} (hx : x.isFinite = true) (hy : y.isFinite = true)
    (hle : |valueOf y| ≤ 1) : (x * y).isFinite = true := by
  obtain ⟨z, hz⟩ := exists_isAmount_abs hx
  refine ((roundsTo_mul hx hy).abs_le_of_amount hz ?_).1
  rw [abs_mul]
  exact mul_le_of_le_one_right (abs_nonneg _) hle

namespace Cuboid

def scaleOf (length depth rise : Float) : Float :=
  lesser ((width - 140.0) / (length + depth * Point.obliqueStep))
    ((height - 120.0) / (rise + depth * Point.obliqueStep))

/-- the numbers of a cuboid are finite if its scale is -/
def Sound : Prop :=
  ∀ length, params.number? "length" = some length → ∀ depth, params.number? "width" = some depth →
    ∀ rise, params.number? "height" = some rise → (scaleOf length depth rise).isFinite = true

theorem obliqueStep_bounds : Point.obliqueStep.isFinite = true ∧ 1 / 4 ≤ valueOf Point.obliqueStep ∧
    |valueOf Point.obliqueStep| ≤ 1 := by
  have hexact : Binary.ofFloat? Point.obliqueStep = some ⟨false, 6369051672525773, -54⟩ := by decide
  refine ⟨by decide, ?_⟩
  rw [valueOf, hexact]
  norm_num [Binary.value]

theorem within_sides {length depth rise : Float} (hl : length.isFinite = true ∧ 0 < valueOf length)
    (hd : depth.isFinite = true ∧ 0 < valueOf depth) (hr : rise.isFinite = true ∧ 0 < valueOf rise)
    (hscale : (scaleOf length depth rise).isFinite = true) :
    Within 20000 (length * scaleOf length depth rise) ∧
      Within 20000 (depth * scaleOf length depth rise) ∧
      Within 20000 (rise * scaleOf length depth rise) := by
  obtain ⟨hstep, hlow, hhigh⟩ := obliqueStep_bounds
  have hback := zero_le_mul hd.1 hd.2.le hstep (by linarith)
  have hshort := isFinite_mul_part hd.1 hstep hhigh
  have hroomX : Within 1000 (width - 140.0) ∧ 0 ≤ valueOf (width - 140.0) :=
    Within.of_room (by decide)
  have hroomY : Within 1000 (height - 120.0) ∧ 0 ≤ valueOf (height - 120.0) :=
    Within.of_room (by decide)
  have hspanX := le_add_of_zero_le hl.1 hl.2.le hback
  have hspanY := le_add_of_zero_le hr.1 hr.2.le hback
  obtain ⟨hnonneg, hleX, hleY⟩ := lesser_rooms
    (zero_le_div (hroomX.1.isFinite (by decide)) hroomX.2 hl.1 hl.2 hspanX)
    (zero_le_div (hroomY.1.isFinite (by decide)) hroomY.2 hr.1 hr.2 hspanY)
  have hnonneg := (zero_le_iff hscale).mp hnonneg
  have hspan : depth * Point.obliqueStep ≤ length + depth * Point.obliqueStep :=
    (roundsTo_self hshort).le (roundsTo_add hl.1 hshort) ((zero_le_iff hshort).mp hback)
      (by linarith [hl.2])
  exact ⟨(hroomX.1.scaled hl.1 hl.2.le hspanX hscale hnonneg hleX).mono (by decide),
    (hroomX.1.scaled_part hd.1 hd.2.le hstep hlow hshort hspan hscale hnonneg hleX).mono
    (by decide), (hroomY.1.scaled hr.1 hr.2.le hspanY hscale hnonneg hleY).mono (by decide)⟩

/-- the bounds of the front, which stands on the canvas with the back behind it -/
theorem within_front {l w h : Float} (hl : Within 20000 l) (hw : Within 20000 w)
    (hh : Within 20000 h) :
    (Within 200000000 ((width - (l + w * Point.obliqueStep)) / 2.0) ∧
      Within 200000000 ((width - (l + w * Point.obliqueStep)) / 2.0 + l)) ∧
    Within 200000000 ((height + (h + w * Point.obliqueStep)) / 2.0) ∧
      Within 200000000 ((height + (h + w * Point.obliqueStep)) / 2.0 - h) := by
  have hback := hw.mul (.of_bounds (by decide) : Within 1000 Point.obliqueStep)
  have hleft : Within 100000000 ((width - (l + w * Point.obliqueStep)) / 2.0) :=
    ((Within.of_bounds (by decide)).sub (hl.add hback)).half.mono (by decide)
  have hbottom : Within 100000000 ((height + (h + w * Point.obliqueStep)) / 2.0) :=
    ((Within.of_bounds (by decide)).add (hh.add hback)).half.mono (by decide)
  exact ⟨⟨hleft.mono (by decide), (hleft.add hl).mono (by decide)⟩,
    hbottom.mono (by decide), (hbottom.sub hh).mono (by decide)⟩

theorem within_corner {x y w : Float} (hx : Within 200000000 x) (hy : Within 200000000 y)
    (hw : Within 20000 w) :
    Point.Within 300000000 ⟨x, y⟩ ∧ Point.Within 300000000 (Point.oblique ⟨x, y⟩ w) := by
  have hp : Point.Within 200000000 ⟨x, y⟩ := ⟨hx, hy⟩
  exact ⟨hp.mono (by decide), (hp.oblique hw).mono (by decide)⟩

/-- the three measures are written next to the middles of the edges that meet in `a` and `b` -/
theorem finite_measures {a b d f : Point} (ha : a.Within 300000000) (hb : b.Within 300000000)
    (hd : d.Within 300000000) (hf : f.Within 300000000) :
    Point.isFinite ⟨(a.midpoint b).x, (a.midpoint b).y + 22.0⟩ = true ∧
      Point.isFinite ⟨(b.midpoint f).x + 12.0, (b.midpoint f).y + 12.0⟩ = true ∧
      Point.isFinite ⟨(a.midpoint d).x - 12.0, (a.midpoint d).y⟩ = true := by
  have hAB := (ha.midpoint hb).mono (by decide : _ ≤ 1000000000000)
  have hBF := (hb.midpoint hf).mono (by decide : _ ≤ 1000000000000)
  have hAD := (ha.midpoint hd).mono (by decide : _ ≤ 1000000000000)
  refine ⟨Point.isFinite_of (hAB.x.isFinite (by decide)) ?_, Point.isFinite_of ?_ ?_,
    Point.isFinite_of ?_ (hAD.y.isFinite (by decide))⟩
  · exact (hAB.y.add (.of_bounds (by decide))).isFinite (by decide)
  · exact (hBF.x.add (.of_bounds (by decide))).isFinite (by decide)
  · exact (hBF.y.add (.of_bounds (by decide))).isFinite (by decide)
  · exact (hAD.x.sub (.of_bounds (by decide))).isFinite (by decide)

theorem renders (hfinite : params.Finite) : Renders (fun w => @scene w params pen)
    (Sound params) := by
  refine .bind fun length hlength => .bind fun depth hdepth => .bind fun rise hrise =>
    .pure (Scene.steady_mk (by decide) (by decide) ?_)
  have hsides := within_sides (hfinite.positive hlength) (hfinite.positive hdepth)
    (hfinite.positive hrise)
  have hfold : lesser ((width - 140.0) / (length + depth * Point.obliqueStep))
      ((height - 120.0) / (rise + depth * Point.obliqueStep)) = scaleOf length depth rise := rfl
  simp only [hfold, Sound, Params.number?_of_positive hlength, Params.number?_of_positive hdepth,
    Params.number?_of_positive hrise, Option.some.injEq, forall_eq']
  generalize scaleOf length depth rise = scale at hsides
  have hlost : (length * scale).isFinite = true → scale.isFinite = true :=
    fun h => (finite_of_mul h).2
  generalize length * scale = l at hsides hlost ⊢
  generalize depth * scale = w at hsides ⊢
  generalize rise * scale = h at hsides ⊢
  refine ((((Steady.group "faces"
    (((pen.steady_polygon _ _ _ _).append (pen.steady_polygon _ _ _ _)).append
    (pen.steady_polygon _ _ _ _))).append
    (.when _ (.group "hidden-edges"
      (((pen.steady_hiddenSegment _ _ _).append (pen.steady_hiddenSegment _ _ _)).append
      (pen.steady_hiddenSegment _ _ _))))).append
    (.when _ (.group "dimensions"
      (((pen.steady_text (.const _) (params.phrased_measured "length" _) _ _ _).append
      (pen.steady_text (.const _) (params.phrased_measured "width" _) _ _ _)).append
      (pen.steady_text (.const _) (params.phrased_measured "height" _) _ _ _))))).append
    (.when _ (.group "vertices"
      ((((((((pen.steady_label _ _ _).append (pen.steady_label _ _ _)).append
      (pen.steady_label _ _ _)).append (pen.steady_label _ _ _)).append
        (pen.steady_label _ _ _)).append
      (pen.steady_label _ _ _)).append (pen.steady_label _ _ _)).append
        (pen.steady_label _ _ _))))).congr ?_
  refine ⟨fun hall => hlost ?_, fun hscale => ?_⟩
  · -- the front is drawn from its lower left corner
    have hcorner := (Point.isFinite_iff.mp (hall.1.1.1.1.1 _ List.mem_cons_self)).1
    exact (finite_of_add (finite_of_sub (finite_of_div hcorner)).2).1
  obtain ⟨hl, hw, hh⟩ := hsides hscale
  obtain ⟨⟨hleft, hright⟩, hbottom, htop⟩ := within_front hl hw hh
  generalize (width - (l + w * Point.obliqueStep)) / 2.0 = left at hleft hright ⊢
  generalize (height + (h + w * Point.obliqueStep)) / 2.0 = bottom at hbottom htop ⊢
  obtain ⟨ha, he⟩ := within_corner hleft hbottom hw
  obtain ⟨hb, hf⟩ := within_corner hright hbottom hw
  obtain ⟨hc, hg⟩ := within_corner hright htop hw
  obtain ⟨hd, hk⟩ := within_corner hleft htop hw
  generalize Point.oblique ⟨left, bottom⟩ w = e at he ⊢
  generalize Point.oblique ⟨left + l, bottom⟩ w = f at hf ⊢
  generalize Point.oblique ⟨left + l, bottom - h⟩ w = g at hg ⊢
  generalize Point.oblique ⟨left, bottom - h⟩ w = k at hk ⊢
  generalize (⟨left, bottom⟩ : Point) = a at ha ⊢
  generalize (⟨left + l, bottom⟩ : Point) = b at hb ⊢
  generalize (⟨left + l, bottom - h⟩ : Point) = c at hc ⊢
  generalize (⟨left, bottom - h⟩ : Point) = d at hd ⊢
  obtain ⟨hbelow, hbehind, hbeside⟩ := finite_measures ha hb hd hf
  have hname : ∀ {p : Point} {dx dy : Float}, p.Within 300000000 →
      (-1000.0 ≤ dx ∧ dx ≤ 1000.0) ∧ -1000.0 ≤ dy ∧ dy ≤ 1000.0 →
      (p.shift dx dy).isFinite = true := fun hp h =>
    (hp.shift (.of_bounds h.1) (.of_bounds h.2)).isFinite (by decide)
  simp (disch := first | assumption | decide) only [List.forall_mem_cons, List.not_mem_nil,
    false_implies, implies_true, and_true, hname, hbelow, hbehind, hbeside,
    ha.isFinite (by decide), hb.isFinite (by decide), hc.isFinite (by decide),
    hd.isFinite (by decide), he.isFinite (by decide), hf.isFinite (by decide),
    hg.isFinite (by decide), hk.isFinite (by decide), (hfinite.positive hlength).1,
    (hfinite.positive hdepth).1, (hfinite.positive hrise).1]

end Cuboid

namespace Cylinder

def scaleOf (radius rise : Float) : Float :=
  lesser ((width - 140.0) / (2.0 * radius)) ((height - 120.0) / (rise + 2.0 * radius * flatness))

/-- the numbers of a cylinder that may not be finite are its scale, and the dot of a centre -/
def Sound : Prop :=
  (∀ radius, params.number? "radius" = some radius → ∀ rise, params.number? "height" = some rise →
    (scaleOf radius rise).isFinite = true) ∧
  (params.visible "showRadius" = true → pen.pointRadius.isFinite = true)

theorem within_sides {radius rise : Float} (hr : radius.isFinite = true ∧ 0 < valueOf radius)
    (hh : rise.isFinite = true ∧ 0 < valueOf rise)
      (hscale : (scaleOf radius rise).isFinite = true) :
    Within 2001 (radius * scaleOf radius rise) ∧ Within 2001 (rise * scaleOf radius rise) := by
  have hdouble := roundsTo_mul (by decide : Float.isFinite 2.0 = true) hr.1
  rw [valueOf_two] at hdouble
  have hspanX : radius ≤ 2.0 * radius := (roundsTo_self hr.1).le hdouble hr.2.le
    (by linarith [hr.2])
  have hflat : 0.0 ≤ 2.0 * radius * flatness := by
    rcases hdouble.finite_or_infinite (by linarith [hr.2]) with hfinite | hinfinite
    · exact zero_le_mul hfinite (hdouble.nonneg hfinite (by linarith [hr.2])) (by decide)
        ((zero_le_iff (by decide)).mp (by decide))
    · rw [hinfinite]
      decide
  have hroomX : Within 1000 (width - 140.0) ∧ 0 ≤ valueOf (width - 140.0) :=
    Within.of_room (by decide)
  have hroomY : Within 1000 (height - 120.0) ∧ 0 ≤ valueOf (height - 120.0) :=
    Within.of_room (by decide)
  have hspanY := le_add_of_zero_le hh.1 hh.2.le hflat
  obtain ⟨hnonneg, hleX, hleY⟩ := lesser_rooms
    (zero_le_div (hroomX.1.isFinite (by decide)) hroomX.2 hr.1 hr.2 hspanX)
    (zero_le_div (hroomY.1.isFinite (by decide)) hroomY.2 hh.1 hh.2 hspanY)
  have hnonneg := (zero_le_iff hscale).mp hnonneg
  exact ⟨hroomX.1.scaled hr.1 hr.2.le hspanX hscale hnonneg hleX,
    hroomY.1.scaled hh.1 hh.2.le hspanY hscale hnonneg hleY⟩

theorem renders (hfinite : params.Finite) : Renders (fun w => @scene w params pen)
    (Sound params pen) := by
  refine .bind fun radius hradius => .bind fun rise hrise =>
    .pure (Scene.steady_mk (by decide) (by decide) ?_)
  have hsides := within_sides (hfinite.positive hradius) (hfinite.positive hrise)
  have hfold : lesser ((width - 140.0) / (2.0 * radius))
      ((height - 120.0) / (rise + 2.0 * radius * flatness))
      = scaleOf radius rise := rfl
  simp only [hfold, Sound, Params.number?_of_positive hradius, Params.number?_of_positive hrise,
    Option.some.injEq, forall_eq']
  generalize scaleOf radius rise = scale at hsides
  have hlost : (radius * scale).isFinite = true → scale.isFinite = true :=
    fun h => (finite_of_mul h).2
  generalize radius * scale = rx at hsides hlost ⊢
  generalize rise * scale = h at hsides ⊢
  have hface : ∀ (center : Point) (ry : Float),
      Steady tally (fun w =>
        [@Piece.ellipse w pen.places (Element.face.look "top" Cls.face) center rx ry]) _ :=
    fun center ry => .element "ellipse" _ (.ellipseNumbers pen.places center rx ry)
  refine (((((((hface _ _).append (pen.steady_segment _ _ _)).append
    (pen.steady_segment _ _ _)).append
    (pen.steady_path _ _ _ _)).append (.when _ (pen.steady_path _ _ _ _))).append
    (.when _ (((pen.steady_dot _ _).append (pen.steady_segment _ _ _)).append
      (pen.steady_text (.const _) (params.phrased_measured "radius" _) _ _ _)))).append
    (.when _ (pen.steady_text (.const _) (params.phrased_measured "height" _) _ _ _))).congr ?_
  refine ⟨fun hall => ⟨hlost hall.1.1.1.1.1.1.2.1, fun hshown => (hall.1.2 hshown).1.1.2⟩, ?_⟩
  rintro ⟨hscale, hdot⟩
  obtain ⟨hrx, hh⟩ := hsides hscale
  have hry := hrx.mul (.of_bounds (by decide) : Within 1000 flatness)
  have htop : Within 10000 ((height - h) / 2.0) :=
    ((Within.of_bounds (by decide)).sub hh).half.mono (by decide)
  generalize rx * flatness = ry at hry ⊢
  generalize (height - h) / 2.0 = top at htop ⊢
  have hbottom := htop.add hh
  have hmiddle := (htop.add hbottom).half
  generalize (top + (top + h)) / 2.0 = middle at hmiddle ⊢
  generalize top + h = bottom at hbottom ⊢
  have hcx : Within 1000 (width / 2.0) := .of_bounds (by decide)
  have hleft := hcx.sub hrx
  have hright := hcx.add hrx
  have hspot : ∀ {x y : Float} {m n : ℕ}, Within m x → Within n y → m + n < 2 * hiddenBit →
      Point.isFinite ⟨x, y⟩ = true := fun hx hy h => (Point.Within.mk' hx hy).isFinite h
  have hlabel :=
    hspot (hcx.add hrx.half) (htop.sub (.of_bounds (by decide : -1000.0 ≤ 14.0 ∧ 14.0 ≤ 1000.0)))
    (by decide)
  have hside := hspot (hright.add (.of_bounds (by decide : -1000.0 ≤ 12.0 ∧ 12.0 ≤ 1000.0)))
    hmiddle (by decide)
  refine ⟨⟨⟨?_, ?_⟩, fun hshown => ?_⟩, fun _ => ?_⟩
  all_goals simp only [hspot hcx htop (by decide), hspot hleft htop (by decide),
    hspot hleft hbottom (by decide), hspot hright htop (by decide),
    hspot hright hbottom (by decide), hlabel, hside, Segment.isFinite,
    hrx.isFinite (by decide), hry.isFinite (by decide), (hfinite.positive hradius).1,
    (hfinite.positive hrise).1, List.forall_mem_cons, List.not_mem_nil, false_implies, implies_true,
    and_true, true_and, Bool.and_self]
  exact hdot hshown

end Cylinder

end Figures
