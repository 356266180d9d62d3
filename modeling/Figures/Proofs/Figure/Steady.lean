import Figures.Proofs.Figure.TickIds
import Figures.Proofs.Plane.Within

/-!
# Figures under other numerals

* `Scene.Steady s q`    the scenes under all numerals have one frame, and what is drawn is steady if
                        `q`
* `Renders x q`         under all numerals a figure fails alike, or its scenes are steady if and
                        only if `q`
* `Params.Finite`       every number among the parameters is finite
* `Circle.renders`, …   when circles, angles and circuits are steady

The numbers that are drawn depend on how they are written in no other way than this: so a picture is
the same under all numerals that agree on finite numbers if and only if only finite ones are
written.
-/

namespace Figures

/-- the scenes have one frame, and what is drawn is steady -/
structure Scene.Steady (s : Numerals → Scene) (q : Prop) : Prop where
  width : ∀ w, (s w).width = (s .standard).width
  height : ∀ w, (s w).height = (s .standard).height
  root : ∀ w, (s w).root = (s .standard).root
  finite : (s .standard).width.isFinite = true ∧ (s .standard).height.isFinite = true
  drawing : Figures.Steady tally (fun w => (s w).drawing) q

theorem Scene.steady_mk {width height : Float} {root : String} {d : Numerals → Drawing}
    {warnings : Numerals → List String} {q : Prop} (hwidth : width.isFinite = true)
    (hheight : height.isFinite = true) (h : Figures.Steady tally d q) :
    Scene.Steady (fun w => ⟨width, height, root, d w, warnings w⟩) q :=
  ⟨fun _ => rfl, fun _ => rfl, fun _ => rfl, ⟨hwidth, hheight⟩, h⟩

theorem Scene.Steady.image {s : Numerals → Scene} {q : Prop} (h : Scene.Steady s q)
    (ctx : Context) :
    Figures.Steady marks (fun w => (@Scene.image w (s w) ctx).svg) q := by
  have hsame : ∀ w, (@Scene.image w (s w) ctx).svg = @Markup.document w ctx.layout
      (s .standard).width
      (s .standard).height [ctx.palette.styleBlock]
        (Pen.group (s .standard).root (s w).drawing) := by
    intro w
    rw [Scene.image, h.width, h.height, h.root]
  simp only [hsame]
  exact (h.drawing.group _).document ctx.layout h.finite.1 h.finite.2 _

/-- a figure fails under all numerals alike, or its scenes are steady if and only if `q` -/
def Renders (x : Numerals → Except TemplateError Scene) (q : Prop) : Prop :=
  (∃ err, ∀ w, x w = .error err) ∨ ∃ s, (∀ w, x w = .ok (s w)) ∧ Scene.Steady s q

namespace Renders

variable {q : Prop} {x y : Numerals → Except TemplateError Scene}

theorem error (err : TemplateError) : Renders (fun _ => .error err) q := .inl ⟨err, fun _ => rfl⟩

theorem pure {s : Numerals → Scene} (h : Scene.Steady s q) : Renders (fun w => Pure.pure (s w)) q :=
  .inr ⟨s, fun _ => rfl, h⟩

theorem bind {α : Type} {a : Except TemplateError α} {f : Numerals → α → Except TemplateError Scene}
    (h : ∀ b, a = .ok b → Renders (fun w => f w b) q) : Renders (fun w => a >>= f w) q := by
  cases a with
  | error err => exact error err
  | ok b => exact h b rfl

theorem ite {c : Prop} [Decidable c] (hx : c → Renders x q) (hy : ¬ c → Renders y q) :
    Renders (fun w => if c then x w else y w) q := by
  by_cases hc : c
  · simp only [if_pos hc]
    exact hx hc
  · simp only [if_neg hc]
    exact hy hc

end Renders

/-! ### parameters -/

def Params.Finite (p : Params) : Prop := ∀ name x, p.number? name = some x → x.isFinite = true

namespace Params.Finite

variable {p : Params} (h : p.Finite) {name : String} {x : Float}
include h

theorem required (hx : p.required name = .ok x) : x.isFinite = true :=
    h name x (number?_of_required hx)

theorem positive (hx : p.positive name = .ok x) : x.isFinite = true ∧ 0 < valueOf x := by
  have hfinite := h name x (number?_of_positive hx)
  refine ⟨hfinite, ?_⟩
  obtain ⟨y, -, hx⟩ := ok_of_bind hx
  split at hx
  · cases hx
  · rename_i hpos
    cases hx
    have hzero : valueOf 0.0 = 0 := (beq_zero_iff (by decide)).mp (by decide)
    rwa [le_iff_valueOf hfinite (by decide), hzero, not_le] at hpos

end Params.Finite

/-! ### texts with numbers -/

theorem Template.phrased_measure (x : Float) (unit : String) :
    Phrased (fun w => @measure w x unit) (x.isFinite = true) := by
  unfold measure
  dsimp only
  split
  · exact .tidy 2 x
  · exact (((Phrased.tidy 2 x).append (.const " ")).append (.const _)).congr
      (by rw [and_true, and_true])

theorem Template.phrased_degreesText (x : Float) :
    Phrased (fun w => @degreesText w x) (x.isFinite = true) :=
  ((Phrased.tidy 1 x).append (.const "°")).congr (and_iff_left trivial)

theorem Params.phrased_labelOr (p : Params) (name : String) {text : Numerals → String} {q : Prop}
    (h : Phrased text q) :
    Phrased (fun w => p.labelOr name (text w)) (Text.isBlank (p.label name) = true → q) := by
  unfold labelOr
  dsimp only
  by_cases hblank : Text.isBlank (p.label name) = true
  · simp only [if_pos hblank]
    exact h.congr ⟨fun hq _ => hq, fun hq => hq hblank⟩
  · simp only [if_neg hblank]
    exact (Phrased.const _).congr (iff_of_true trivial fun h => absurd h hblank)

theorem Params.phrased_measured (p : Params) (name : String) (x : Float) :
    Phrased (fun w => p.labelOr name (@Template.measure w x (p.text "unit")))
      (Text.isBlank (p.label name) = true → x.isFinite = true) :=
  p.phrased_labelOr name (Template.phrased_measure x _)

variable (params : Params) (pen : Pen)

/-! ### circles and angles -/

namespace Circle

/-- the numbers of a circle are finite: a diameter that is written, and the dot of a centre -/
def Sound : Prop :=
  (params.visible "showDiameter" = true → Text.isBlank (params.label "diameter") = true →
    ∀ radius, params.number? "radius" = some radius → (radius * 2.0).isFinite = true) ∧
  (params.visible "showCenter" = true → pen.pointRadius.isFinite = true)

theorem renders [Platform] [Platform.Sound] (hfinite : params.Finite) :
    Renders (fun w => @scene w _ params pen) (Sound params pen) := by
  refine .bind fun radius hradius => .pure (Scene.steady_mk (by decide) (by decide) ?_)
  set angle := if params.visible "showDiameter" = true then -(pi / 4.0) else 0.0 with hangle
  have hcircle : Steady tally (fun w =>
      [@Piece.circle w pen.places (Element.path.look "circle" Cls.line) center
      drawnRadius]) _ := .element "circle" _ (.circleNumbers pen.places center drawnRadius)
  refine (((hcircle.append (.when _ ((pen.steady_segment _ _ _).append
    (pen.steady_text (.const _) (params.phrased_measured "diameter" _) _ _ _)))).append
    (.when _ ((pen.steady_segment _ _ _).append
      (pen.steady_text (.const _) (params.phrased_measured "radius" _) _ _ _)))).append
    (.when _ ((pen.steady_dot _ _).append (pen.steady_label _ _ _)))).congr ?_
  -- all of it lies on the canvas
  have hcenter : center.Within 1000 := .of_bounds (by decide)
  have hdrawn : Within 1000 drawnRadius := .of_bounds (by decide)
  have hturn : Within 1000 angle := by
    rw [hangle]
    split
    · exact .of_bounds (by decide)
    · exact .of_bounds (by decide)
  have htip := hcenter.polar hdrawn hturn
  have hmid := hcenter.midpoint htip
  have hends : (center.shift (-drawnRadius) 0.0).isFinite = true ∧
      (center.shift drawnRadius 0.0).isFinite = true ∧
      (center.shift (drawnRadius / 2.0) 18.0).isFinite = true ∧
      Point.isFinite ⟨center.x - 16.0, center.y + 18.0⟩ = true := by decide
  have hlabel : Point.isFinite ⟨(center.midpoint (center.polar drawnRadius angle)).x,
      (center.midpoint (center.polar drawnRadius angle)).y - 16.0⟩ = true :=
    Point.isFinite_of (hmid.x.isFinite (by decide))
      ((hmid.y.sub (.of_bounds (by decide : -1000.0 ≤ 16.0 ∧ 16.0 ≤ 1000.0))).isFinite (by decide))
  have hread := Params.number?_of_positive hradius
  simp only [Sound, hread, Option.some.injEq, forall_eq', hends, hlabel,
    (hfinite.positive hradius).1, hcenter.isFinite (by decide), hdrawn.isFinite (by decide),
    htip.isFinite (by decide), true_and, and_true, implies_true]

end Circle

namespace Angle

theorem within_of_size (hfinite : params.Finite) {x : Float} (h : size params = .ok x) :
    Within 1000 x := by
  obtain ⟨y, hy, h⟩ := ok_of_bind h
  split at h
  · cases h
  · rename_i hbounds
    cases h
    have hnumber := isNaN_of_isFinite (hfinite.required hy)
    rw [Bool.or_eq_true, decide_eq_true_eq, decide_eq_true_eq, not_or] at hbounds
    have hx := hfinite.required hy
    exact .of_bounds
      ⟨float_le_trans (by decide : -1000.0 ≤ (0.0 : Float)) (le_of_not_le hx (by decide) hbounds.1),
        float_le_trans (le_of_not_le (by decide) hx hbounds.2)
        (by decide : (360.0 : Float) ≤ 1000.0)⟩

/-- the one number of an angle that may not be finite is the dot of its vertex -/
def Sound : Prop := pen.pointRadius.isFinite = true

theorem renders [Platform] [Platform.Sound] (hfinite : params.Finite) :
    Renders (fun w => @scene w _ params pen) (Sound pen) := by
  refine .bind fun x hx => .pure (Scene.steady_mk (by decide) (by decide) ?_)
  refine ((((((pen.steady_segment _ _ _).append (pen.steady_segment _ _ _)).append
    (.ite (pen.steady_rightAngle _ _ _ _ _) (pen.steady_path _ _ _ _))).append
    (.when _ (pen.steady_text (.const _) (params.phrased_labelOr "angle"
      (Template.phrased_degreesText _)) _ _ _))).append
    (pen.steady_dot _ _)).append
    (.when _ (((pen.steady_label _ _ _).append (pen.steady_label _ _ _)).append
      (pen.steady_label _ _ _)))).congr ?_
  have hsize := within_of_size params hfinite hx
  have htheta : Within 1002001 (-(radians x)) :=
    (hsize.mul (.of_bounds (by decide : -1000.0 ≤ pi / 180.0 ∧ pi / 180.0 ≤ 1000.0))).neg
  generalize -(radians x) = theta at htheta
  have hvertex : Point.Within 1000
      (if 90.0 < x then ⟨width * 0.55, height * 0.55⟩ else ⟨width * 0.25, height * 0.8⟩) := by
    split
    · exact .of_bounds (by decide)
    · exact .of_bounds (by decide)
  generalize (if 90.0 < x then (⟨width * 0.55, height * 0.55⟩ : Point) else ⟨width * 0.25,
    height * 0.8⟩)
    = vertex at hvertex
  have harmB : Within 1000 (if 90.0 < x then 120.0 else arm * 0.9) := by
    split
    · exact .of_bounds (by decide)
    · exact .of_bounds (by decide)
  generalize (if 90.0 < x then 120.0 else arm * 0.9) = armB at harmB
  have harmA : Within 10000 (lesser arm (width - vertex.x - 20.0)) :=
    (Within.lesser (.of_bounds (by decide)) (((Within.of_bounds (by decide)).sub hvertex.x).sub
      (.of_bounds (by decide)))).mono (by decide)
  have hspot : ∀ {r t : Float}, Within 10000 r → Within 2000000 t →
      Point.Within 20000000 (Point.polar vertex r t) := fun hr ht =>
      (hvertex.polar hr ht).mono (by decide)
  have hzero : Within 2000000 0.0 := (Within.of_bounds (by decide)).mono (by decide)
  have hturn := htheta.mono (by decide : _ ≤ 2000000)
  have ha := hspot harmA hzero
  have hb := hspot (harmB.mono (by decide)) hturn
  have hright := Path.finite_rightAngle (hvertex.mono (by decide)) ha hb
    (.of_bounds (by decide : -1000.0 ≤ (18.0 : Float) ∧ (18.0 : Float) ≤ 1000.0)) (by decide)
      (by decide)
  have harc : ∀ s ∈ arcPath vertex theta (decide (180.0 < x)), s.isFinite = true := by
    have hradius : Within 10000 arcRadius := (Within.of_bounds (by decide)).mono (by decide)
    simp only [arcPath, List.forall_mem_cons, Segment.isFinite,
      (hspot hradius hzero).isFinite (by decide), (hspot hradius hturn).isFinite (by decide),
      hradius.isFinite (by decide)]
    simp
  have hmeasure : (Point.polar vertex (arcRadius + 22.0) (theta / 2.0)).isFinite = true :=
    (hspot ((Within.of_bounds (by decide)).mono (by decide)) hturn.half).isFinite (by decide)
  have hbehind : (Point.polar vertex 22.0 (theta / 2.0 + pi)).isFinite = true :=
    (hspot ((Within.of_bounds (by decide)).mono (by decide))
      ((htheta.half.add (.of_bounds (by decide))).mono (by decide))).isFinite (by decide)
  have hlabelA : Point.isFinite ⟨(Point.polar vertex (lesser arm (width - vertex.x - 20.0)) 0.0).x,
      (Point.polar vertex (lesser arm (width - vertex.x - 20.0)) 0.0).y + 20.0⟩ = true :=
    Point.isFinite_of (ha.x.isFinite (by decide))
      ((ha.y.add (.of_bounds (by decide : -1000.0 ≤ (20.0 : Float) ∧
        (20.0 : Float) ≤ 1000.0))).isFinite
        (by decide))
  have hlabelB : (Point.polar vertex (armB + 20.0) theta).isFinite = true :=
    (hspot ((harmB.add (.of_bounds (by decide))).mono (by decide)) hturn).isFinite (by decide)
  simp only [Sound, hvertex.isFinite (by decide), ha.isFinite (by decide), hb.isFinite (by decide),
    eq_true hright, eq_true harc, hmeasure, hbehind, hlabelA, hlabelB, hsize.isFinite (by decide),
    true_and, and_true, implies_true, ite_self]

end Angle

/-! ### circuits -/

namespace SeriesCircuit

/-- the one number of a circuit that may not be finite is a current that is shown -/
def Sound : Prop :=
  params.visible "showCurrent" = true → ∀ voltage, params.number? "voltage" = some voltage →
    ∀ rs, resistances (params.text "resistors") = .ok rs →
    (voltage / rs.foldl (· + ·) 0.0).isFinite = true

theorem of_resistances {raw : String} {rs : List Float} (h : resistances raw = .ok rs) :
    rs ≠ [] ∧ ∀ r ∈ rs, r.isFinite = true := by
  rw [resistances] at h
  split at h
  · cases h
  rename_i hitems
  refine ⟨fun hnone => hitems ?_, fun r hr => ?_⟩
  · rw [List.isEmpty_iff_length_eq_zero, ← length_of_mapM h, hnone, List.length_nil]
  · obtain ⟨item, -, hitem⟩ := exists_of_mapM h r hr
    rw [resistance] at hitem
    split at hitem
    · rename_i hsome
      cases hitem
      exact (Bool.and_eq_true _ _ ▸ (Option.filter_eq_some_iff.mp hsome).2).2
    · cases hitem

theorem length_le {n : ℕ} (h : ¬ right - left < Float.ofNat n * (resistorLength + 20.0)) :
    n ≤ 5 := by
  by_contra hmany
  have hlong : Float.ofNat 480 ≤ Float.ofNat n * (resistorLength + 20.0) := by
    rcases (roundsTo_ofNat n).finite_or_infinite (Nat.cast_nonneg n) with hfinite | hinfinite
    · have hsix := (roundsTo_ofNat 6).le (roundsTo_ofNat n) (Nat.cast_nonneg 6)
        (Nat.cast_le.mpr (by omega : 6 ≤ n))
      have heach : valueOf (resistorLength + 20.0) = 80 := by
        have hexact : Binary.ofFloat? (resistorLength + 20.0) =
            some ⟨false, 5629499534213120, -46⟩ := by
          decide
        rw [valueOf, hexact]
        norm_num [Binary.value]
      rw [le_iff_valueOf (by decide) hfinite, (valueOf_ofNat (by decide)).2] at hsix
      have hproduct := roundsTo_mul hfinite (by decide : (resistorLength + 20.0).isFinite = true)
      rw [heach] at hproduct
      refine (roundsTo_ofNat 480).le hproduct (Nat.cast_nonneg 480) ?_
      push_cast at hsix ⊢
      linarith
    · rw [hinfinite]
      decide
  exact h (float_lt_of_lt_of_le (by decide : right - left < Float.ofNat 480) hlong)

section
variable {slot : Float} (hslot : Within 1000 slot) {i : ℕ} (hi : i ≤ 5)
include hslot hi

theorem within_startX : Within 1010000 (startX slot i) := by
  have hcount : Within 5 (Float.ofNat i) := (Within.ofNat i).mono hi
  exact (((Within.of_bounds (by decide)).add (hslot.mul hcount)).add
    (hslot.sub (.of_bounds (by decide))).half).mono (by decide)

theorem within_wireStart :
    Point.Within 1011000 (wireStart slot i) := by
  have htop : Within 1000 top := .of_bounds (by decide)
  cases i with
  | zero =>
    have hleft : Within 1000 left := .of_bounds (by decide)
    exact ⟨hleft.mono (by decide), htop.mono (by decide)⟩
  | succ i =>
    exact ⟨((within_startX hslot (by omega)).add (.of_bounds (by decide))).mono (by decide),
      htop.mono (by decide)⟩

end

theorem finite_zigzag {p : Point} (hp : p.Within 1010000) :
    ∀ s ∈ zigzag p resistorLength, s.isFinite = true := by
  have hlength : Within 1000 resistorLength := .of_bounds (by decide)
  have hstep : Within 1000 (resistorLength / (Float.ofNat peaks + 1.0)) := .of_bounds (by decide)
  simp only [zigzag, List.forall_mem_append, List.forall_mem_cons, List.forall_mem_map,
    List.mem_range, Segment.isFinite]
  refine ⟨⟨hp.isFinite (by decide), fun i hi => ?_⟩, ?_⟩
  · have hcount : Within 6 (Float.ofNat (i + 1)) := (Within.ofNat (i + 1)).mono hi
    have hrise : Within 1000 (if i % 2 = 0 then -10.0 else 10.0) := by
      split
      · exact .of_bounds (by decide)
      · exact .of_bounds (by decide)
    exact Point.isFinite_of ((hp.x.add (hstep.mul hcount)).isFinite (by decide))
      ((hp.y.add hrise).isFinite (by decide))
  · exact ⟨Point.isFinite_of ((hp.x.add hlength).isFinite (by decide)) (hp.y.isFinite (by decide)),
      fun s hs => absurd hs List.not_mem_nil⟩

theorem steady_resistor {slot r : Float} {i : ℕ} (hslot : Within 1000 slot) (hi : i ≤ 5)
    (hr : r.isFinite = true) :
    Steady tally (fun w => @resistor w params pen slot r i) True := by
  have hname : Phrased (fun w => s!"R{i + 1}" ++ " = " ++ @tidy w 2 r ++ " Ω") _ :=
    ((Phrased.const (s!"R{i + 1}" ++ " = ")).append (.tidy 2 r)).append (.const " Ω")
  refine (((pen.steady_segment _ _ _).append (pen.steady_path _ _ _ _)).append
    (.when _ (pen.steady_text (.const _) hname _ _ _))).congr ?_
  have htop : Within 1000 top := .of_bounds (by decide)
  have hstart : Point.Within 1010000 ⟨startX slot i, top⟩ :=
    ⟨within_startX hslot hi, htop.mono (by decide)⟩
  have hspot : Point.isFinite ⟨startX slot i + resistorLength / 2.0, top - 28.0⟩ = true :=
    Point.isFinite_of ((hstart.x.add (.of_bounds (by decide))).isFinite (by decide))
      (by decide : (top - 28.0).isFinite = true)
  simp only [(within_wireStart hslot hi).isFinite (by decide), hstart.isFinite (by decide),
    eq_true (finite_zigzag hstart), hspot, hr, and_true, implies_true]

theorem steady_cell {voltage : Float} (hvoltage : voltage.isFinite = true) :
    Steady tally (fun w => @cell w params pen voltage) True := by
  have hcontent : Phrased (fun w => if (params.label "cell").isEmpty then @tidy w 2 voltage ++ " V"
      else params.label "cell") _ := .ite ((Phrased.tidy 2 voltage).append (.const " V")) (.const _)
  refine (((((pen.steady_segment _ _ _).append (pen.steady_segment _ _ _)).append
    (pen.steady_segment _ _ _)).append (pen.steady_segment _ _ _)).append
    (pen.steady_text (.const _) hcontent _ _ _)).congr ?_
  have hplaces : (Point.isFinite ⟨right, bottom⟩ ∧ Point.isFinite ⟨(left + right) / 2.0 + 6.0,
      bottom⟩) ∧ (Point.isFinite ⟨(left + right) / 2.0 - 6.0, bottom - 22.0⟩ ∧
        Point.isFinite ⟨(left + right) / 2.0 - 6.0, bottom + 22.0⟩) ∧
      (Point.isFinite ⟨(left + right) / 2.0 + 6.0, bottom - 11.0⟩ ∧
        Point.isFinite ⟨(left + right) / 2.0 + 6.0, bottom + 11.0⟩) ∧
      (Point.isFinite ⟨(left + right) / 2.0 - 6.0, bottom⟩ ∧ Point.isFinite ⟨left, bottom⟩) ∧
      Point.isFinite ⟨(left + right) / 2.0, bottom + 40.0⟩ := by decide
  simp only [hplaces, hvoltage, and_true, implies_true, ite_self]

theorem steady_currentMark [Platform] [Platform.Sound] (current : Float) :
    Steady tally (fun w => @currentMark w _ pen current) (current.isFinite = true) := by
  refine ((pen.steady_polygon _ _ _ _).append (pen.steady_text (.const _)
    (((Phrased.const "I = ").append (.tidy 2 current)).append (.const " A")) _ _ _)).congr ?_
  have htip : ∀ p ∈ arrowHead ⟨left, (top + bottom) / 2.0 + 10.0⟩ ⟨left,
      (top + bottom) / 2.0 - 10.0⟩ 12.0, p.isFinite = true :=
    finite_arrowHead (.of_bounds (by decide)) (.of_bounds (by decide))
      (.of_bounds (by decide)) (by decide)
  have hspot : Point.isFinite ⟨left + 16.0, (top + bottom) / 2.0⟩ = true := by decide
  simp only [eq_true htip, hspot, true_and, and_true, implies_true]

theorem renders [Platform] [Platform.Sound] (hfinite : params.Finite) :
    Renders (fun w => @scene w _ params pen) (Sound params) := by
  refine .bind fun voltage hvoltage => .bind fun rs hrs =>
    .ite (fun _ => .bind nofun) fun hfit => ?_
  refine .pure (Scene.steady_mk (by decide) (by decide) ?_)
  have hn := length_le hfit
  obtain ⟨hne, hresistances⟩ := of_resistances hrs
  have hpos := List.length_pos_iff.mpr hne
  have hslot : Within 1000 ((right - left) / Float.ofNat rs.length) := by
    generalize rs.length = n at hn hpos
    interval_cases n <;> exact .of_bounds (by decide)
  have hresistors : Steady tally (fun w => rs.zipIdx.flatMap fun e =>
      @resistor w params pen ((right - left) / Float.ofNat rs.length) e.1 e.2) True := by
    refine (Steady.flatMap fun e he => ?_).congr (iff_true_intro fun _ _ => trivial)
    obtain ⟨-, hlt, heq⟩ := List.mem_zipIdx he
    exact steady_resistor params pen hslot (by omega) (hresistances e.1 (heq ▸ List.getElem_mem _))
  refine ((((Steady.group "resistors" (hresistors.append (pen.steady_segment _ _ _))).append
    (pen.steady_segment _ _ _)).append
      (.group "cell" (steady_cell params pen (hfinite.positive hvoltage).1))).append
    (pen.steady_segment _ _ _) |>.append (.when _ (steady_currentMark pen _))).congr ?_
  have hwires : (Point.isFinite ⟨right, top⟩ ∧ Point.isFinite ⟨right, bottom⟩) ∧
      (Point.isFinite ⟨left, bottom⟩ ∧ Point.isFinite ⟨left, top⟩) := by decide
  have hread := Params.number?_of_positive hvoltage
  simp only [Sound, hread, hrs, Option.some.injEq, Except.ok.injEq, forall_eq', hwires,
    (within_wireStart hslot hn).isFinite (by decide), true_and, and_true]

end SeriesCircuit

end Figures
