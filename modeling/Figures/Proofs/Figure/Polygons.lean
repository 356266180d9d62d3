import Figures.Proofs.Figure.Sides
import Figures.Proofs.Figure.Steady
import Figures.Proofs.Plane.Fitted

/-!
# Polygons under other numerals

* `Rectangle.renders`   rectangles are steady if and only if a diagonal that is written is finite
* `Triangle.renders`    triangles are steady if and only if the cosine of an angle is a number

Both are fitted onto their canvas, however large they are.
-/

namespace Figures

variable [Platform] (params : Params) (pen : Pen)

namespace Rectangle

/-- the numbers of a rectangle that may not be finite are a diagonal that is written, and the dots
of its vertices -/
def Sound : Prop :=
  (params.visible "showDiagonal" = true → Text.isBlank (params.label "diagonal") = true →
    ∀ w, params.number? "width" = some w → ∀ h, params.number? "height" = some h →
      (hypotenuse w h).isFinite = true) ∧
  pen.pointRadius.isFinite = true

variable [Platform.Sound]

theorem steady_rightMark {k : Corner} (hv : k.vertex.Within 10000) (hn : k.next.Within 10000)
    (hp : k.previous.Within 10000) : Steady tally (fun w => @rightMark w _ pen k) True := by
  refine (pen.steady_rightAngle _ _ _ _ _).congr (iff_true_intro ?_)
  have hsize :=
    ((Within.of_bounds (by decide : -1000.0 ≤ (14.0 : Float) ∧ (14.0 : Float) ≤ 1000.0)).lesser
    (hv.distance hn).third).lesser (hv.distance hp).third
  exact Path.finite_rightAngle hv hn hp hsize (by decide) (by decide)

theorem steady_vertexMark {center : Point} {k : Corner} (hv : k.vertex.Within 10000)
    (hcenter : center.Within 50000) :
    Steady tally (fun w => @vertexMark w _ params pen center k)
      (pen.pointRadius.isFinite = true) := by
  refine ((pen.steady_dot _ _).append (.when _ (pen.steady_label _ _ _))).congr ?_
  have hspot := (hv.outward hcenter (.of_bounds (by decide : -1000.0 ≤ (22.0 : Float) ∧
    (22.0 : Float) ≤ 1000.0))).isFinite (by decide)
  simp only [hv.isFinite (by decide), hspot, true_and, and_true, implies_true]

theorem renders (hfinite : params.Finite) :
    Renders (fun w => @scene w _ params pen) (Sound params pen) := by
  refine .bind fun w hw => .bind fun h hh => .pure (Scene.steady_mk (by decide) (by decide) ?_)
  obtain ⟨hwidth, hwpos⟩ := hfinite.positive hw
  obtain ⟨hheight, hhpos⟩ := hfinite.positive hh
  have hplace : ∀ q ∈ [Point.origin, ⟨w, 0.0⟩, ⟨w, h⟩, ⟨0.0, h⟩], Point.Within 10000
      (fitting epsilon width height 70.0 Point.origin [⟨w, 0.0⟩, ⟨w, h⟩, ⟨0.0, h⟩] q) := by
    have hzero : (0.0 : Float).isFinite = true ∧ 0 ≤ valueOf 0.0 :=
      ⟨by decide, ((beq_zero_iff (by decide)).mp (by decide)).ge⟩
    have hpoints : ∀ q ∈ [Point.origin, ⟨w, 0.0⟩, ⟨w, h⟩, ⟨0.0, h⟩],
        (q.x.isFinite = true ∧ 0 ≤ valueOf q.x) ∧ q.y.isFinite = true ∧ 0 ≤ valueOf q.y := by
      simp [Point.origin, hzero, hwidth, hheight, hwpos.le, hhpos.le]
    refine .fitting (by decide) (by decide)
      (fun q hq => Point.isFinite_of (hpoints q hq).1.1 (hpoints q hq).2.1) fun q hq r hr => ?_
    obtain ⟨⟨hqx, hqxpos⟩, hqy, hqypos⟩ := hpoints q hq
    obtain ⟨⟨hrx, hrxpos⟩, hry, hrypos⟩ := hpoints r hr
    exact ⟨isFinite_sub_of_nonneg hqx hrx hqxpos hrxpos,
      isFinite_sub_of_nonneg hqy hry hqypos hrypos⟩
  generalize fitting epsilon width height 70.0 Point.origin [⟨w, 0.0⟩, ⟨w, h⟩, ⟨0.0, h⟩]
    = place at hplace
  simp only [List.forall_mem_cons] at hplace
  obtain ⟨ha, hb, hc, hd, -⟩ := hplace
  generalize place Point.origin = a at ha
  generalize place ⟨w, 0.0⟩ = b at hb
  generalize place ⟨w, h⟩ = c at hc
  generalize place ⟨0.0, h⟩ = d at hd
  have hcorners : ∀ k ∈ ([⟨"A", a, b, d⟩, ⟨"B", b, c, a⟩, ⟨"C", c, d, b⟩,
      ⟨"D", d, a, c⟩] : List Corner), k.vertex.Within 10000 ∧ k.next.Within 10000 ∧
      k.previous.Within 10000 := by simp [ha, hb, hc, hd]
  have hcenter : (Point.centroid [a, b, c, d]).Within 50000 :=
    (Point.Within.centroid (n := 10000) (by simp) (by simp [ha, hb, hc, hd])).mono (by simp)
  refine ((((((Steady.group "sides"
    ((((pen.steady_segment _ _ _).append (pen.steady_segment _ _ _)).append
    (pen.steady_segment _ _ _)).append (pen.steady_segment _ _ _))).append
    (.when _ ((pen.steady_hiddenSegment _ _ _).append
      (pen.steady_sideLabel _ (params.phrased_measured "diagonal" _) _ _ _)))).append
    (.when _ (.group _ (.flatMap fun k hk => steady_rightMark pen (hcorners k hk).1
      (hcorners k hk).2.1
      (hcorners k hk).2.2)))).append
    (.when _ (.group _
      ((((pen.steady_equalTicks _ _ _ _).append (pen.steady_equalTicks _ _ _ _)).append
      (pen.steady_equalTicks _ _ _ _)).append (pen.steady_equalTicks _ _ _ _))))).append
    (.when _ (.group _ ((pen.steady_sideLabel _ (params.phrased_measured "width" _) _ _ _).append
      (pen.steady_sideLabel _ (params.phrased_measured "height" _) _ _ _))))).append
    (.group _ (.flatMap fun k hk => steady_vertexMark params pen (hcorners k hk).1
      hcenter))).congr ?_
  have hstrokes : ∀ {p q : Point} {count : ℕ}, p.Within 10000 → q.Within 10000 → count ≤ 1000 →
      ∀ s ∈ Path.ticks p q 0.5 count 10.0 5.0, s.isFinite = true := fun hp hq hcount =>
    Path.finite_ticks hp hq (.of_bounds (by decide)) (.of_bounds (by decide))
      (.of_bounds (by decide)) hcount (by decide)
  have hdiagonal : (Pen.sideSpot a (Point.lerp a c 0.35) d).isFinite = true :=
    Pen.finite_sideSpot (ha.mono (by decide))
      (ha.lerp hc (.of_bounds (by decide : -1000.0 ≤ (0.35 : Float) ∧ (0.35 : Float) ≤ 1000.0)))
        (by decide)
  simp only [Sound, Params.number?_of_positive hw, Params.number?_of_positive hh,
    Option.some.injEq, forall_eq', ha.isFinite (by decide), hb.isFinite (by decide),
    hc.isFinite (by decide), hd.isFinite (by decide), eq_true
    (hstrokes ha hb (by decide : 1 ≤ 1000)), eq_true (hstrokes hc hd (by decide : 1 ≤ 1000)),
    eq_true (hstrokes hb hc (by decide : 2 ≤ 1000)),
    eq_true (hstrokes hd ha (by decide : 2 ≤ 1000)), hdiagonal,
    Pen.finite_sideSpot ha hb (by decide), Pen.finite_sideSpot hb hc (by decide), hwidth, hheight,
    true_and, and_true, implies_true, List.forall_mem_cons, List.not_mem_nil,
    false_implies, and_self]

end Rectangle

namespace Triangle

/-- the numbers of a triangle that may not be finite are the place of its third vertex, for which
the cosine of an angle must be a number, and the dots of its vertices -/
def Sound : Prop :=
  (∀ a, params.number? "a" = some a → ∀ b, params.number? "b" = some b →
    ∀ c, params.number? "c" = some c → (ratio a b c).isNaN = false) ∧
  pen.pointRadius.isFinite = true

variable [Platform.Sound]

theorem exists_angleMark (name : String) (vertex p q : Point) : ∃ good,
    Steady tally (fun w => @angleMark w _ params pen name vertex p q) good ∧
      (vertex.Within 10000 → p.Within 10000 → q.Within 10000 → good) := by
  refine ⟨_, .ite (pen.steady_rightAngle _ _ _ _ _) (.ite ((pen.steady_arc _ _).append
    (pen.steady_arcLabel _ (Template.phrased_degreesText _) _ _)) (.const _ [])),
      fun hv hp hq => ?_⟩
  have hcorner := Path.finite_rightAngle hv hp hq
    (.of_bounds (by decide : -1000.0 ≤ (16.0 : Float) ∧ (16.0 : Float) ≤ 1000.0)) (by decide)
      (by decide)
  have harc := AngleArc.sized_between hv hp hq
    (.of_bounds (by decide : -1000.0 ≤ (28.0 : Float) ∧ (28.0 : Float) ≤ 1000.0)) (by decide)
  have hlabel := harc.labelAt ((Within.of_bounds (by decide : -1000.0 ≤ (28.0 + 16.0 : Float) ∧
    (28.0 + 16.0 : Float) ≤ 1000.0)).mono (by decide))
  split
  · exact hcorner
  · split
    · exact ⟨harc.path, harc.degrees, fun _ => hlabel⟩
    · trivial

/-- with a cosine that is a number, the triangle is placed on its canvas -/
theorem within_corners {a b c : Float} (ha : a.isFinite = true ∧ 0 < valueOf a)
    (hb : b.isFinite = true ∧ 0 < valueOf b) (hc : c.isFinite = true ∧ 0 < valueOf c)
    (hsides : ¬ a + b ≤ c ∧ ¬ a + c ≤ b ∧ ¬ b + c ≤ a) (hnumber : (ratio a b c).isNaN = false)
      {third : Point} (hthird : third = ⟨b * cosine (angleA a b c), b * sine (angleA a b c)⟩) :
    ∀ q ∈ [Point.origin, ⟨c, 0.0⟩, third], Point.Within 10000
      (fitting epsilon width height 70.0 Point.origin [⟨c, 0.0⟩, third] q) := by
  obtain ⟨hblt, hclt⟩ := moderate_sides ha hb hc hsides hnumber
  have hangle := (within_angleA hnumber).isFinite (by decide)
  have hpoints : ∀ q ∈ [Point.origin, ⟨c, 0.0⟩, third], Moderate q.x ∧ Moderate q.y := by
    simp [hthird, Point.origin, moderate_zero, moderate_side hc hclt,
      moderate_leg hb hblt (.cosine hangle), moderate_leg hb hblt (.sine hangle)]
  exact .fitting (by decide) (by decide)
    (fun q hq => Point.isFinite_of (hpoints q hq).1.1 (hpoints q hq).2.1)
    fun q hq r hr => ⟨(hpoints q hq).1.sub (hpoints r hr).1, (hpoints q hq).2.sub (hpoints r hr).2⟩

theorem renders (hfinite : params.Finite) :
    Renders (fun w => @scene w _ params pen) (Sound params pen) := by
  refine .bind fun a ha => .bind fun b hb => .bind fun c hc => .bind fun t ht => ?_
  obtain ⟨hsides, rfl⟩ := corners_ok ht
  dsimp only
  have hplaced := within_corners (hfinite.positive ha) (hfinite.positive hb)
    (hfinite.positive hc) hsides
  obtain ⟨third, hthird⟩ : ∃ third : Point, third = ⟨b * cosine (angleA a b c),
    b * sine (angleA a b c)⟩ := ⟨_, rfl⟩
  rw [← hthird]
  -- a cosine that is no number is that of no angle, and no vertex is there
  have hmissing : (ratio a b c).isNaN = true → ¬ third.isFinite = true := by
    intro hnan h
    rw [hthird, Point.isFinite_iff] at h
    exact not_isFinite_cosine_angleA hnan (finite_of_mul h.1).2
  have hback : Point.isFinite (fitting epsilon width height 70.0 Point.origin [⟨c, 0.0⟩, third]
      third) = true → third.isFinite = true := Point.isFinite_of_fitting
  have hplaced := fun hnumber => hplaced hnumber hthird
  generalize fitting epsilon width height 70.0 Point.origin [⟨c, 0.0⟩, third]
    = place at hplaced hback
  simp only [List.forall_mem_cons] at hplaced
  generalize place Point.origin = pa at hplaced
  generalize place ⟨c, 0.0⟩ = pb at hplaced
  generalize place third = pc at hplaced hback
  refine .pure (Scene.steady_mk (by decide) (by decide) ?_)
  obtain ⟨goodA, hA, hgoodA⟩ := exists_angleMark params pen "A" pa pb pc
  obtain ⟨goodB, hB, hgoodB⟩ := exists_angleMark params pen "B" pb pc pa
  obtain ⟨goodC, hC, hgoodC⟩ := exists_angleMark params pen "C" pc pa pb
  refine ((((Steady.group "sides"
    (((pen.steady_segment _ _ _).append (pen.steady_segment _ _ _)).append
    (pen.steady_segment _ _ _))).append (.group "angles" ((hA.append hB).append hC))).append
    (.when _ (.group "side-lengths"
      (((pen.steady_sideLabel _ (params.phrased_measured "c" _) _ _ _).append
      (pen.steady_sideLabel _ (params.phrased_measured "a" _) _ _ _)).append
      (pen.steady_sideLabel _ (params.phrased_measured "b" _) _ _ _))))).append
    (.group "vertices" ((((pen.steady_dot _ _).append (.when _ (pen.steady_label _ _ _))).append
      ((pen.steady_dot _ _).append (.when _ (pen.steady_label _ _ _)))).append
      ((pen.steady_dot _ _).append (.when _ (pen.steady_label _ _ _)))))).congr ?_
  simp only [Sound, Params.number?_of_positive ha, Params.number?_of_positive hb,
    Params.number?_of_positive hc, Option.some.injEq, forall_eq']
  refine ⟨fun h => ⟨?_, h.2.1.1.1.2⟩, fun ⟨hnumber, hradius⟩ => ?_⟩
  · by_contra hnan
    exact hmissing (Bool.not_eq_false _ ▸ hnan) (hback h.1.1.1.1.2.2)
  obtain ⟨hpa, hpb, hpc, -⟩ := hplaced hnumber
  have hcenter : (Point.centroid [pa, pb, pc]).Within 50000 :=
    (Point.Within.centroid (n := 10000) (by simp) (by simp [hpa, hpb, hpc])).mono (by simp)
  have hspot : ∀ {p : Point}, p.Within 10000 →
      (p.outward (Point.centroid [pa, pb, pc]) 22.0).isFinite = true :=
    fun hp => (hp.outward hcenter (.of_bounds (by decide))).isFinite (by decide)
  simp only [hpa.isFinite (by decide), hpb.isFinite (by decide), hpc.isFinite (by decide), hradius,
    eq_true (hgoodA hpa hpb hpc), eq_true (hgoodB hpb hpc hpa), eq_true (hgoodC hpc hpa hpb),
    hspot hpa, hspot hpb, hspot hpc, Pen.finite_sideSpot hpa hpb (by decide),
    Pen.finite_sideSpot hpb hpc (by decide), Pen.finite_sideSpot hpc hpa (by decide),
    (hfinite.positive ha).1, (hfinite.positive hb).1, (hfinite.positive hc).1, and_true,
    implies_true]

end Triangle

end Figures
