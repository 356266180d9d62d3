import Figures.Proofs.Attempt.Basic
import Figures.Proofs.Blueprint.Drawing
import Figures.Proofs.Figure.Scenes
import Figures.Proofs.Figure.Chart
import Figures.Proofs.Figure.Steady

/-!
# Room for drawings

* `Drawing.Fits n d`              a drawing of at most `n` pieces
* `Params.room`                   how many pieces the figures with some parameters may have
* `BarChart.Endless params`       there is an axis to draw, and it overruns
* `BarChart.lineCount_le_length`  each line of an axis is a piece of the chart
* `FigureKind.fits_scene`         every figure fits the room for its parameters, unless it is such a
                                  chart
* `Subject.fits_draw`             every shape fits the room for a grid of `201` lines each way

Ticks, resistors and grid lines are counted before they are drawn. The lines of a bar chart are not.
-/

namespace Figures

/-! ### drawings of few pieces -/

def Drawing.Fits (n : ℕ) (d : Drawing) : Prop := d.length ≤ n

namespace Drawing.Fits

variable {m n : ℕ} {d e : Drawing}

theorem mono (h : Fits m d) (hle : m ≤ n) : Fits n d := h.trans hle

theorem nil : Fits 0 [] := le_rfl

theorem one (p : Piece) : Fits 1 [p] := le_rfl

theorem append (hd : Fits m d) (he : Fits n e) : Fits (m + n) (d ++ e) := by
  rw [Fits, List.length_append]
  exact Nat.add_le_add hd he

theorem group (h : Fits n d) (name : String) : Fits (n + 2) (Pen.group name d) := by
  rw [Fits, Pen.group, List.length_append]
  exact Nat.add_le_add_right h 2

theorem ite {c : Prop} [Decidable c] (hd : Fits n d) (he : Fits n e) :
    Fits n (if c then d else e) := by
  split
  · exact hd
  · exact he

theorem when (h : Fits n d) (b : Bool) : Fits n (Drawing.when b d) := .ite h (nil.mono n.zero_le)

theorem flatMap {α : Type} {l : List α} {f : α → Drawing} (h : ∀ a ∈ l, Fits n (f a)) :
    Fits (n * l.length) (l.flatMap f) := by
  induction l with
  | nil => exact nil
  | cons a l ih =>
    have hrest := ih fun b hb => h b (List.mem_cons_of_mem a hb)
    rw [List.flatMap_cons, List.length_cons, Nat.mul_succ, Nat.add_comm]
    exact (h a List.mem_cons_self).append hrest

/-- a list with a limit, and a drawing for each of its items -/
theorem flatMap_le {α : Type} {l : List α} {f : α → Drawing} (hl : l.length ≤ m)
    (h : ∀ a ∈ l, Fits n (f a)) : Fits (n * m) (l.flatMap f) :=
  (flatMap h).mono (Nat.mul_le_mul_left n hl)

end Drawing.Fits

/-- a list with a drawing of some piece for each of its items -/
theorem length_le_flatMap {α : Type} {f : α → Drawing} (h : ∀ a, 1 ≤ (f a).length) (l : List α) :
    l.length ≤ (l.flatMap f).length := by
  induction l with
  | nil => exact le_rfl
  | cons a l ih =>
    rw [List.flatMap_cons, List.length_append, List.length_cons, Nat.add_comm]
    exact Nat.add_le_add (h a) ih

/-! ### figures -/

theorem Template.length_of_ticks {lo hi step : Float} {limit : ℕ} (hlimit : limit < 2 * hiddenBit)
    {marks : List Float} (h : ticks lo hi step limit = some marks) : marks.length ≤ limit := by
  rw [ticks] at h
  split at h
  · cases h
  dsimp only at h
  split_ifs at h with hinfinite hnone hmany
  · cases h
    exact limit.zero_le
  · cases h
    rw [List.length_map, List.length_range]
    exact toCount_le hlimit hmany word64

section
variable [Numerals] (params : Params) (pen : Pen) {s : Scene}

open Drawing (Fits)

theorem Pen.fits_text (name content : String) (p : Point) (anchor : Anchor) (cls : String) :
    (pen.text name content p anchor cls).Fits 1 := .ite (.mono .nil (Nat.zero_le 1)) (.one _)

theorem Pen.fits_sideLabel [Platform] (name content : String) (a b inside : Point) :
    (pen.sideLabel name content a b inside).Fits 1 := pen.fits_text _ _ _ _ _

namespace Circle

variable [Platform]

theorem fits_scene (h : scene params pen = .ok s) : s.drawing.Fits 100 := by
  obtain ⟨radius, -, h⟩ := ok_of_bind h
  cases h
  have htext := pen.fits_text
  exact ((((Fits.one _).append (.when ((Fits.one _).append (htext _ _ _ _ _)) _)).append
    (.when ((Fits.one _).append (htext _ _ _ _ _)) _)).append
    (.when ((Fits.one _).append (htext _ _ _ _ _)) _)).mono (by decide)

end Circle

namespace Angle

variable [Platform]

theorem fits_scene (h : scene params pen = .ok s) : s.drawing.Fits 100 := by
  obtain ⟨x, -, h⟩ := ok_of_bind h
  cases h
  have htext := pen.fits_text
  exact ((((((Fits.one _).append (.one _)).append (.ite (.one _) (.one _))).append
    (.when (htext _ _ _ _ _) _)).append (.one _)).append
    (.when (((htext _ _ _ _ _).append (htext _ _ _ _ _)).append (htext _ _ _ _ _)) _)).mono
      (by decide)

end Angle

namespace Cylinder

theorem fits_scene (h : scene params pen = .ok s) : s.drawing.Fits 100 := by
  obtain ⟨radius, -, h⟩ := ok_of_bind h
  obtain ⟨rise, -, h⟩ := ok_of_bind h
  cases h
  have htext := pen.fits_text
  exact (((((((Fits.one _).append (.one _)).append (.one _)).append (.one _)).append
    (.when (.one _) _)).append
    (.when (((Fits.one _).append (.one _)).append (htext _ _ _ _ _)) _)).append
    (.when (htext _ _ _ _ _) _)).mono (by decide)

end Cylinder

namespace Cuboid

theorem fits_scene (h : scene params pen = .ok s) : s.drawing.Fits 100 := by
  obtain ⟨length, -, h⟩ := ok_of_bind h
  obtain ⟨depth, -, h⟩ := ok_of_bind h
  obtain ⟨rise, -, h⟩ := ok_of_bind h
  cases h
  have htext := pen.fits_text
  have hname : ∀ v p dx dy, Fits 1 (pen.label v (params.label v) (Point.shift p dx dy)) :=
    fun _ _ _ _ => htext _ _ _ _ _
  exact ((((((Fits.one _).append (.one _)).append (.one _)).group _).append
    (.when (.group (((Fits.one _).append (.one _)).append (.one _)) _) _)).append
    (.when (.group
      (((htext _ _ _ _ _).append (htext _ _ _ _ _)).append (htext _ _ _ _ _)) _) _)).append
    (.when (.group ((((((((hname _ _ _ _).append (hname _ _ _ _)).append (hname _ _ _ _)).append
      (hname _ _ _ _)).append (hname _ _ _ _)).append (hname _ _ _ _)).append
        (hname _ _ _ _)).append
      (hname _ _ _ _)) _) _) |>.mono (by decide)

end Cuboid

namespace Rectangle

variable [Platform]

theorem fits_vertexMark (center : Point) (k : Corner) : (vertexMark params pen center k).Fits 2 :=
  (Fits.one _).append (.when (pen.fits_text _ _ _ _ _) _)

theorem fits_scene (h : scene params pen = .ok s) : s.drawing.Fits 100 := by
  obtain ⟨w, -, h⟩ := ok_of_bind h
  obtain ⟨rise, -, h⟩ := ok_of_bind h
  cases h
  have hside := pen.fits_sideLabel
  have hright : ∀ k, (rightMark pen k).Fits 1 := fun _ => .one _
  have hticks : ∀ name a b count, (pen.equalTicks name a b count).Fits 1 := fun _ _ _ _ => .one _
  have four : ∀ a b c d : Corner, [a, b, c, d].length ≤ 4 := fun _ _ _ _ => le_rfl
  exact ((((((((Fits.one _).append (.one _)).append (.one _)).append (.one _)).group _).append
    (.when ((Fits.one _).append (hside _ _ _ _ _)) _)).append
    (.when (.group (.flatMap_le (four _ _ _ _) fun k _ => hright k) _) _)).append
    (.when (.group ((((hticks _ _ _ _).append (hticks _ _ _ _)).append (hticks _ _ _ _)).append
      (hticks _ _ _ _)) _) _)).append
    (.when (.group ((hside _ _ _ _ _).append (hside _ _ _ _ _)) _) _) |>.append
    (.group (.flatMap_le (four _ _ _ _) fun _ _ => fits_vertexMark params pen _ _) _) |>.mono
      (by decide)

end Rectangle

namespace Triangle

variable [Platform]

theorem fits_angleMark (name : String) (vertex p q : Point) :
    (angleMark params pen name vertex p q).Fits 2 :=
  .ite (.mono (.one _) one_le_two)
    (.ite ((Fits.one _).append (pen.fits_text _ _ _ _ _)) (.mono .nil zero_le_two))

theorem fits_vertexMark (center : Point) (name : String) (p : Point) :
    (vertexMark params pen center name p).Fits 2 :=
  (Fits.one _).append (.when (pen.fits_text _ _ _ _ _) _)

theorem fits_scene (h : scene params pen = .ok s) : s.drawing.Fits 100 := by
  obtain ⟨a, -, h⟩ := ok_of_bind h
  obtain ⟨b, -, h⟩ := ok_of_bind h
  obtain ⟨c, -, h⟩ := ok_of_bind h
  obtain ⟨model, -, h⟩ := ok_of_bind h
  cases h
  have hangle := fits_angleMark params pen
  have hvertex := fits_vertexMark params pen
  have hside := pen.fits_sideLabel
  exact ((((((Fits.one _).append (.one _)).append (.one _)).group _).append
    (.group (((hangle _ _ _ _).append (hangle _ _ _ _)).append (hangle _ _ _ _)) _)).append
    (.when (.group
      (((hside _ _ _ _ _).append (hside _ _ _ _ _)).append (hside _ _ _ _ _)) _) _)).append
    (.group (((hvertex _ _ _).append (hvertex _ _ _)).append (hvertex _ _ _)) _) |>.mono (by decide)

end Triangle

namespace NumberLine

theorem fits_tick (v x : Float) : (tick params pen v x).Fits 2 :=
  (Fits.one _).append (.when (pen.fits_text _ _ _ _ _) _)

theorem fits_marked (shade : Shade) (p : Point) : (marked params pen shade p).Fits 3 := by
  unfold marked
  cases shade.tip? with
  | none => exact ((Fits.nil.append (.one _)).append (pen.fits_text _ _ _ _ _)).mono (by decide)
  | some tip => exact ((Fits.one _).append (.one _)).append (pen.fits_text _ _ _ _ _)

variable [Platform]

theorem fits_line {marks : List Float} (hcount : marks.length ≤ tickLimit) (xOf : Float → Float) :
    Fits 87 (axis params pen ++ Pen.group "ticks" (marks.flatMap fun v =>
      tick params pen v (xOf v))) :=
  ((Fits.one _).append (.when ((Fits.one _).append (.one _)) _)).append
    (.group (.flatMap_le hcount fun _ _ => fits_tick params pen _ _) _)

theorem fits_scene (h : scene params pen = .ok s) : s.drawing.Fits 100 := by
  obtain ⟨lo, -, h⟩ := ok_of_bind h
  obtain ⟨hi, -, h⟩ := ok_of_bind h
  obtain ⟨step, -, h⟩ := ok_of_bind h
  obtain ⟨shade, -, h⟩ := ok_of_bind h
  by_cases hbounds : hi ≤ lo
  · rw [if_pos hbounds] at h
    cases h
  rw [if_neg hbounds] at h
  cases hmarks : Template.ticks lo hi step tickLimit with
  | none =>
    rw [hmarks] at h
    cases h
  | some marks =>
    rw [hmarks] at h
    have hcount := Template.length_of_ticks (by decide) hmarks
    dsimp only at h
    split at h
    · obtain ⟨v, -, h⟩ := ok_of_bind h
      split at h
      · cases h
        exact (fits_line params pen hcount _).mono (by decide)
      · cases h
        exact ((fits_line params pen hcount _).append (fits_marked params pen shade _)).mono
          (by decide)
    · cases h
      exact (fits_line params pen hcount _).mono (by decide)

end NumberLine

namespace BoxPlot

theorem fits_tick (v x : Float) : (tick pen v x).Fits 2 := (Fits.one _).append
    (pen.fits_text _ _ _ _ _)

theorem fits_scene (h : scene params pen = .ok s) : s.drawing.Fits 120 := by
  obtain ⟨summary, -, h⟩ := ok_of_bind h
  obtain ⟨lo, -, h⟩ := ok_of_bind h
  obtain ⟨hi, -, h⟩ := ok_of_bind h
  obtain ⟨step, -, h⟩ := ok_of_bind h
  by_cases hbounds : hi ≤ lo
  · rw [if_pos hbounds] at h
    cases h
  rw [if_neg hbounds] at h
  cases hmarks : Template.ticks lo hi step tickLimit with
  | none =>
    rw [hmarks] at h
    cases h
  | some marks =>
    rw [hmarks] at h
    cases h
    have hcount := Template.length_of_ticks (by decide) hmarks
    have hfive : summary.entries.length ≤ 5 := le_rfl
    exact (((pen.fits_text _ _ _ _ _).append
      (.group ((Fits.one _).append (.flatMap_le hcount fun _ _ => fits_tick pen _ _)) _)).append
      (.group ((((((Fits.one _).append (.one _)).append (.one _)).append (.one _)).append
        (.one _)).append
        (.one _)) _)).append
      (.when (.group (.flatMap_le hfive fun _ _ => pen.fits_text _ _ _ _ _) _) _) |>.mono
        (by decide)

end BoxPlot

namespace SeriesCircuit

theorem fits_resistor (slot r : Float) (i : ℕ) : (resistor params pen slot r i).Fits 3 :=
  ((Fits.one _).append (.one _)).append (.when (pen.fits_text _ _ _ _ _) _)

theorem fits_cell (voltage : Float) : (cell params pen voltage).Fits 5 :=
  ((((Fits.one _).append (.one _)).append (.one _)).append (.one _)).append
    (pen.fits_text _ _ _ _ _)

variable [Platform]

theorem fits_currentMark (current : Float) : (currentMark pen current).Fits 2 :=
  (Fits.one _).append (pen.fits_text _ _ _ _ _)

theorem fits_scene (h : scene params pen = .ok s) : s.drawing.Fits 100 := by
  obtain ⟨voltage, -, h⟩ := ok_of_bind h
  obtain ⟨rs, -, h⟩ := ok_of_bind h
  dsimp only at h
  split at h
  · cases h
  · rename_i hmany
    cases h
    have hfive : rs.zipIdx.length ≤ 5 := by
      rw [List.length_zipIdx]
      exact length_le hmany
    exact ((((((Fits.flatMap_le hfive fun _ _ => fits_resistor params pen _ _ _).append
      (.one _)).group _).append
      (.one _)).append (.group (fits_cell params pen _) _)).append (.one _)).append
        (.when (fits_currentMark pen _) _) |>.mono (by decide)

end SeriesCircuit

namespace CoordinateGrid

theorem fits_plot (f : Frame) (name : String) (given : Position) :
    (plot params pen f name given).1.Fits 2 := by
  rw [plot]
  split
  · exact .mono .nil (Nat.zero_le 2)
  · split
    · exact .mono .nil (Nat.zero_le 2)
    · exact (Fits.one _).append (pen.fits_text _ _ _ _ _)

theorem fits_scene (h : scene params pen = .ok s) :
    s.drawing.Fits (200 + 2 * params.positions.entries.length) := by
  obtain ⟨xMin, -, h⟩ := ok_of_bind h
  obtain ⟨xMax, -, h⟩ := ok_of_bind h
  obtain ⟨yMin, -, h⟩ := ok_of_bind h
  obtain ⟨yMax, -, h⟩ := ok_of_bind h
  obtain ⟨step, -, h⟩ := ok_of_bind h
  by_cases hx : xMax ≤ xMin
  · rw [if_pos hx] at h
    cases h
  by_cases hy : yMax ≤ yMin
  · rw [if_neg hx, if_pos hy] at h
    cases h
  rw [if_neg hx, if_neg hy] at h
  cases hxs : Template.ticks xMin xMax step tickLimit with
  | none =>
    rw [hxs] at h
    cases h
  | some xs =>
    cases hys : Template.ticks yMin yMax step tickLimit with
    | none =>
      rw [hxs, hys] at h
      cases h
    | some ys =>
      rw [hxs, hys] at h
      cases h
      have hacross := Template.length_of_ticks (by decide) hxs
      have hdown := Template.length_of_ticks (by decide) hys
      have htext := pen.fits_text
      have hkept : ∀ {marks : List Float} (p : Float → Bool), marks.length ≤ tickLimit →
          (marks.filter p).length ≤ tickLimit := fun p hmarks =>
          (List.length_filter_le p _).trans hmarks
      have hplots := Fits.flatMap (n := 2) (f := Prod.fst)
        (l := params.positions.entries.map fun e => plot params pen ⟨xMin, xMax, yMin,
          yMax⟩ e.1 e.2)
        (List.forall_mem_map.mpr fun e _ => fits_plot params pen _ e.1 e.2)
      rw [List.length_map] at hplots
      refine ((Fits.when (.group ((Fits.flatMap_le hacross fun _ _ => .one _).append
        (.flatMap_le hdown fun _ _ => .one _)) _) _).append
        (.when (.group (((((Fits.one _).append (.one _)).append (htext _ _ _ _ _)).append
          (htext _ _ _ _ _)).append
            (.when ((Fits.flatMap_le (hkept _ hacross) fun _ _ => htext _ _ _ _ _).append
            (.flatMap_le (hkept _ hdown) fun _ _ => htext _ _ _ _ _)) _)) _) _)).append
        (.group hplots _) |>.mono ?_
      simp only [tickLimit]
      omega

end CoordinateGrid

namespace BarChart

theorem fits_stepMark (top step : Float) (i : ℕ) : (stepMark params pen top step i).Fits 2 :=
  (Fits.when (.one _) _).append (pen.fits_text _ _ _ _ _)

theorem fits_axes {top step : Float} {n : ℕ} (hn : lineCount top step ≤ n) :
    (axes params pen top step).Fits (2 * n + 4) := by
  have hlines : (List.range (lineCount top step)).length ≤ n := by
    rw [List.length_range]
    exact hn
  exact ((((Fits.flatMap_le hlines fun _ _ => fits_stepMark params pen _ _ _).append
    (.one _)).append
    (.one _)).append (pen.fits_text _ _ _ _ _)).append (.when (.one _) _)

theorem fits_bar (top slot : Float) (category : String) (value : Float) (i : ℕ) :
    (bar params pen top slot category value i).Fits 3 :=
  ((Fits.one _).append (pen.fits_text _ _ _ _ _)).append (.when (pen.fits_text _ _ _ _ _) _)

end BarChart

end

/-! ### bar charts that do not end -/

namespace BarChart

variable [Platform] {params : Params} {pen : Pen} {s : Scene}

open Drawing (Fits)

/-- there is an axis to draw, and it overruns -/
def Endless (params : Params) : Prop :=
  (Text.entries (params.text "categories")).isEmpty = false ∧ ∃ values,
    frequencies (params.text "frequencies") (Text.entries (params.text "categories")).length =
    .ok values ∧ Overruns (demand ((params.number? "yMax").getD 0.0) values)
      (axis (demand ((params.number? "yMax").getD 0.0) values)).2

theorem endless_iff {values : List Float}
    (hcategories : (Text.entries (params.text "categories")).isEmpty = false)
    (hvalues : frequencies (params.text "frequencies")
      (Text.entries (params.text "categories")).length
      = .ok values) :
    Endless params ↔ Overruns (demand ((params.number? "yMax").getD 0.0) values)
      (axis (demand ((params.number? "yMax").getD 0.0) values)).2 := by
  refine ⟨fun ⟨_, values', hvalues', hover⟩ => ?_, fun hover =>
    ⟨hcategories, values, hvalues, hover⟩⟩
  obtain rfl : values = values' := Except.ok.inj (hvalues.symm.trans hvalues')
  exact hover

/-- unless its axis overruns, a chart has three pieces for each bar, and not many others -/
theorem fits_scene [Platform.Sound] (hends : ¬ Endless params) (h : scene params pen = .ok s) :
    s.drawing.Fits (100 + 3 * (Text.entries (params.text "categories")).length) := by
  rw [scene] at h
  dsimp only at h
  split at h
  · cases h
  rename_i hcategories
  obtain ⟨values, hvalues, h⟩ := ok_of_bind h
  have hover : ¬ Overruns (demand ((params.number? "yMax").getD 0.0) values) _ := fun hover =>
    hends ⟨Bool.not_eq_true _ ▸ hcategories, values, hvalues, hover⟩
  have hlines := lineCount_le (demands_demand hvalues _).1 hover
  cases h
  have hbars : (((Text.entries (params.text "categories")).zip values).zipIdx).length
      ≤ (Text.entries (params.text "categories")).length := by
    rw [List.length_zipIdx, List.length_zip]
    exact Nat.min_le_left _ _
  refine .mono (.append (.append (pen.fits_text _ _ _ _ _) ?axes) ?bars)
    (by omega : 1 + (2 * 10 + 4 + 2) + (3 * (Text.entries (params.text "categories")).length + 2) ≤
      _)
  case axes => exact .group (fits_axes params pen hlines) _
  case bars => exact .group (.flatMap_le hbars fun _ _ => fits_bar params pen _ _ _ _ _) _

theorem lineCount_le_length {top step : Float} (h : DrawsAxis s params pen top step) :
    lineCount top step ≤ s.drawing.length := by
  obtain ⟨before, rest, after, hdrawing⟩ := h
  have hmark : ∀ i, 1 ≤ (stepMark params pen top step i).length := fun i => by
    rw [stepMark, Pen.text, if_neg]
    · rw [List.length_append]
      exact Nat.le_add_left 1 _
    · rw [String.isEmpty_iff]
      exact tidy_ne_empty 2 _
  have hlines := length_le_flatMap hmark (List.range (lineCount top step))
  rw [List.length_range] at hlines
  rw [hdrawing, List.length_append, List.length_append, Pen.group, List.length_append,
    List.length_cons, List.length_append]
  omega

/-- parameters of a chart without end are as good as others -/
theorem exists_scene_endless [Platform.Sound] (hends : Endless params) :
    ∃ s, scene params pen = .ok s ∧ word64 < s.drawing.length := by
  obtain ⟨hcategories, values, hvalues, hover⟩ := hends
  obtain ⟨s, hs⟩ : ∃ s, scene params pen = .ok s := ok_of_isOk (isOk_scene hcategories hvalues)
  obtain ⟨-, values', hvalues', hdraws⟩ := scene_ok hs
  obtain rfl : values = values' := Except.ok.inj (hvalues.symm.trans hvalues')
  have hlength := lineCount_le_length hdraws
  rw [lineCount_of_overruns (demands_demand hvalues _).1 hover] at hlength
  exact ⟨s, hs, hlength⟩

end BarChart

/-- how many pieces the figures with some parameters may have -/
def Params.room (params : Params) : ℕ :=
  200 + 3 * (Text.entries (params.text "categories")).length + 2 * params.positions.entries.length

namespace FigureKind

variable [Platform]

/-- a bar chart whose axis overruns -/
def Endless (k : FigureKind) (params : Params) : Prop := k = barChart ∧ BarChart.Endless params

/-- all other figures fit the room for their parameters -/
theorem fits_scene [Platform.Sound] (k : FigureKind) {params : Params} {pen : Pen} {s : Scene}
    (hends : ¬ k.Endless params) (h : k.scene params pen = .ok s) : s.drawing.Fits params.room := by
  have hroom : ∀ {n : ℕ}, s.drawing.Fits n → n ≤ 200 → s.drawing.Fits params.room := fun hfits hn =>
    hfits.mono (by rw [Params.room]; omega)
  cases k with
  | coordinateGrid =>
    exact (CoordinateGrid.fits_scene params pen h).mono (by rw [Params.room]; omega)
  | numberLine => exact hroom (NumberLine.fits_scene params pen h) (by decide)
  | triangle => exact hroom (Triangle.fits_scene params pen h) (by decide)
  | rectangle => exact hroom (Rectangle.fits_scene params pen h) (by decide)
  | circle => exact hroom (Circle.fits_scene params pen h) (by decide)
  | angle => exact hroom (Angle.fits_scene params pen h) (by decide)
  | cuboid => exact hroom (Cuboid.fits_scene params pen h) (by decide)
  | cylinder => exact hroom (Cylinder.fits_scene params pen h) (by decide)
  | barChart =>
    exact (BarChart.fits_scene (fun hover => hends ⟨rfl, hover⟩) h).mono
      (by rw [Params.room]; omega)
  | boxPlot => exact hroom (BoxPlot.fits_scene params pen h) (by decide)
  | seriesCircuit => exact hroom (SeriesCircuit.fits_scene params pen h) (by decide)

end FigureKind

/-! ### shapes -/

section
variable (pen : Pen)

open Drawing (Fits)

theorem Pen.fits_gridLines (corner : Point) {width height step : Float} {n : ℕ}
    (hn : n < 2 * hiddenBit) (hacross : ¬ Float.ofNat n < width / step)
    (hdown : ¬ Float.ofNat n < height / step) (look : Look) :
    (pen.gridLines corner width height step look).Fits (2 * (n + 1)) := by
  rw [Pen.gridLines, Fits, List.length_append, List.length_map, List.length_map, List.length_range,
    List.length_range]
  have hfirst := toCount_floor_le hn hacross word64
  have hsecond := toCount_floor_le hn hdown word64
  omega

namespace Subject

variable [Platform] (s : Subject)

theorem fits_drawText : Yields (Fits 404) (s.drawText pen) := by
  refine .bind fun p => .bind fun content => ?_
  split
  · exact .bind fun anchor => .bind fun cls => .bind fun style => .pure (.mono (.one _) (by decide))
  · exact .throw _

theorem fits_drawGrid : Yields (Fits 404) (s.drawGrid pen) := by
  refine .bind fun x => .bind fun y => .bind fun width => .bind fun height => .bind fun step => ?_
  by_cases hmany : (200.0 < width / step || 200.0 < height / step) = true
  · rw [if_pos hmany]
    exact .bind_of (P := fun _ => False) (.throw _) nofun
  · rw [if_neg hmany]
    rw [Bool.or_eq_true, decide_eq_true_eq, decide_eq_true_eq, not_or] at hmany
    refine .bind fun cls => .bind fun style => .pure ?_
    exact .group (pen.fits_gridLines _ (n := 200) (by decide) hmany.1 hmany.2 _) _

theorem fits_drawAxes : Yields (Fits 404) (s.drawAxes pen) := by
  refine .bind fun o => .bind fun xLength => .bind fun yLength => .bind fun xLabel =>
    .bind fun yLabel =>
    .bind fun cls => .bind fun style => .pure ?_
  have harrow : ∀ name a b head, (pen.arrow name a b head cls style).Fits 2 := fun _ _ _ _ => le_rfl
  have htext := pen.fits_text
  exact ((((harrow _ _ _ _).append (harrow _ _ _ _)).append (htext _ _ _ _ _)).append
    (htext _ _ _ _ _)).group _ |>.mono (by decide)

theorem fits_draw (kind : ShapeKind) : Yields (Fits 404) (s.draw pen kind) := by
  have one : ∀ p : Piece, Fits 404 [p] := fun p => .mono (.one p) (by decide)
  cases kind with
  | line => exact .bind fun a => .bind fun b => .bind fun cls => .bind fun style => .pure (one _)
  | polyline => exact .bind fun points => .bind fun style => .bind fun cls => .pure (one _)
  | polygon => exact .bind fun points => .bind fun style => .bind fun cls => .pure (one _)
  | rect =>
    exact .bind fun x => .bind fun y => .bind fun width => .bind fun height => .bind fun cls =>
      .bind fun style => .pure (one _)
  | circle =>
    exact .bind fun center => .bind fun r => .bind fun cls => .bind fun style => .pure (one _)
  | ellipse =>
    exact .bind fun center => .bind fun rx => .bind fun ry => .bind fun cls => .bind fun style =>
      .pure (one _)
  | text => exact s.fits_drawText pen
  | arrow =>
    exact .bind fun a => .bind fun b => .bind fun head => .bind fun cls => .bind fun style =>
      .pure (.mono (n := 404) (m := 2) le_rfl (by decide))
  | arc =>
    exact .bind fun center => .bind fun r => .bind fun first => .bind fun last => .bind fun cls =>
      .bind fun style => .pure (one _)
  | angleMarker =>
    exact .bind fun vertex => .bind fun p => .bind fun q => .bind fun r => .bind fun degrees =>
      .bind fun label => .bind fun cls => .bind fun style =>
        .pure (.mono (.append (.one _) (pen.fits_text _ _ _ _ _)) (by decide : 1 + 1 ≤ 404))
  | tickMark =>
    exact .bind fun a => .bind fun b => .bind fun t => .bind fun count => .bind fun size =>
      .bind fun cls => .bind fun style => .pure (one _)
  | grid => exact s.fits_drawGrid pen
  | axes => exact s.fits_drawAxes pen

end Subject

end

end Figures
