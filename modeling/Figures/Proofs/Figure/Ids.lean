import Figures.Proofs.Figure.PointIds

/-!
# The ids of all figures

* `FigureKind.IdsApart`      when no id of a figure occurs twice, said of its parameters
* `FigureKind.read_image`    the text of an image is read as the marks of its scene
* `FigureKind.ids_image`     the ids in the text of an image are those of the scene
* `FigureKind.ids_apart_iff` no id occurs twice in the picture of a figure if and only if they are
                             apart

Six of the eleven figures never repeat an id. Number line, box plot and bar chart repeat the ids of
ticks that are rounded alike, the coordinate grid does so too and takes any name for a point, and
the triangle has one name for the size of an angle and the label of its vertex.
-/

namespace Figures

open Markup

namespace FigureKind

/-- the parameters of a figure by which no id of it occurs twice -/
def IdsApart (params : Params) : FigureKind → Prop
  | coordinateGrid => ∀ f step xs ys, CoordinateGrid.Ruled params f step xs ys →
      CoordinateGrid.Clear params f xs ys
  | numberLine => params.TicksApart "min" "max" "step" NumberLine.tickLimit
  | triangle => Triangle.Unshared params
  | barChart => BarChart.StepsApart params
  | boxPlot => params.TicksApart "axisMin" "axisMax" "step" BoxPlot.tickLimit
  | rectangle => True
  | circle => True
  | angle => True
  | cuboid => True
  | cylinder => True
  | seriesCircuit => True

theorem nodup_ids_iff (params : Params) (pen : Pen) (k : FigureKind) :
    Gives (fun s => s.ids.Nodup ↔ k.IdsApart params) (k.scene params pen) := by
  cases k with
  | coordinateGrid => exact CoordinateGrid.nodup_ids_iff params pen
  | numberLine => exact NumberLine.nodup_ids_iff params pen
  | triangle => exact Triangle.nodup_ids_iff params pen
  | barChart => exact BarChart.nodup_ids_iff params pen
  | boxPlot => exact BoxPlot.nodup_ids_iff params pen
  | rectangle => exact fun s hs => iff_true_intro (Rectangle.nodup_ids params pen s hs)
  | circle => exact fun s hs => iff_true_intro (Circle.nodup_ids params pen s hs)
  | angle => exact fun s hs => iff_true_intro (Angle.nodup_ids params pen s hs)
  | cuboid => exact fun s hs => iff_true_intro (Cuboid.nodup_ids params pen s hs)
  | cylinder => exact fun s hs => iff_true_intro (Cylinder.nodup_ids params pen s hs)
  | seriesCircuit => exact fun s hs => iff_true_intro (SeriesCircuit.nodup_ids params pen s hs)

variable {k : FigureKind} {params : Params} {ctx : Context}

/-- the text of an image is read as the marks of its scene, wherever the style rules are no
markup -/
theorem read_image {s : Scene} (hs : k.scene params (Pen.of ctx) = .ok s)
    (hplain : ctx.palette.Plain) :
    read? (s.image ctx).svg = some (documentMarks ctx.layout s.width s.height
      [ctx.palette.styleBlock] (Pen.group s.root s.drawing)) := by
  refine read_document ctx.layout _ _ (fun rules hrules hc => ?_) ?_
  · obtain rfl := List.mem_singleton.mp hrules
    exact (Palette.plain_styleBlock hplain).not_mem rfl hc
  · have hstyled := draws_scene params (Pen.of ctx) k s hs
    exact ((Drawn.group hstyled s.root).sound (fun _ h => h) fun _ h => h).named

/-- the ids in the text of an image are those of its scene, wherever the style rules are no
markup -/
theorem ids_image {s : Scene} (hs : k.scene params (Pen.of ctx) = .ok s)
    (hplain : ctx.palette.Plain) :
    ∃ marks, read? (s.image ctx).svg = some marks ∧ ids marks = s.ids.map String.toList :=
  ⟨_, read_image hs hplain, ids_documentMarks _ _ _ _ _⟩

/-- No id occurs twice in the picture of a figure if and only if they are apart by its parameters:
so it is with the tags that are drawn, and with those of the text wherever the style rules are no
markup. -/
theorem ids_apart_iff (k : FigureKind) (params : Params) (ctx : Context) (image : Image)
    (h : k.template.draw params ctx = .drawn image) :
    ∃ s : Scene, image = s.image ctx ∧ (s.ids.Nodup ↔ k.IdsApart params) ∧
      (ctx.palette.Plain → ∃ marks, read? image.svg = some marks ∧
        ((ids marks).Nodup ↔ k.IdsApart params)) := by
  rw [draw_template] at h
  split at h
  · rename_i s hs
    cases h
    have hnodup : s.ids.Nodup ↔ k.IdsApart params := nodup_ids_iff params (Pen.of ctx) k s hs
    refine ⟨s, rfl, hnodup, fun hplain => ?_⟩
    obtain ⟨marks, hread, hids⟩ := ids_image hs hplain
    refine ⟨marks, hread, ?_⟩
    rw [hids, List.nodup_map_iff fun _ _ => String.toList_inj.mp, hnodup]
  · cases h

def fiveCircle : Params := ({} : Params).withValue "radius" (.number 5.0)

/-- no id of a circle occurs twice -/
theorem ids_apart_iff_circle : ∃ image marks, circle.template.draw fiveCircle {} = .drawn image ∧
    read? image.svg = some marks ∧ (ids marks).Nodup := by
  obtain ⟨image, himage⟩ : ∃ image, circle.template.draw fiveCircle {} = .drawn image := by
    have hradius : fiveCircle.positive "radius" = .ok 5.0 := by rfl
    rw [draw_template, scene, Circle.scene, hradius]
    exact ⟨_, rfl⟩
  obtain ⟨s, -, -, hplain⟩ := ids_apart_iff circle fiveCircle {} image himage
  obtain ⟨marks, hread, hiff⟩ := hplain Palette.plain_standard
  exact ⟨image, marks, himage, hread, hiff.mpr trivial⟩

/-- a number line with a fine step, on which the ticks at `0` and `0.004` are rounded alike -/
def fineLine : Params where
  values := .ofList [("max", .number 0.01), ("min", .number 0.0), ("step", .number 0.004)]

/-- it is drawn, and some id occurs twice -/
theorem not_ids_apart : ¬ ∀ (k : FigureKind) (params : Params) (ctx : Context) (image : Image),
    ctx.palette.Plain → k.template.draw params ctx = .drawn image →
      ∃ marks, read? image.svg = some marks ∧ (ids marks).Nodup := by
  intro hall
  obtain ⟨s, hs⟩ : ∃ s, numberLine.scene fineLine (Pen.of {}) = .ok s := ok_of_isOk (by decide)
  have hdraw : numberLine.template.draw fineLine {} = .drawn (s.image {}) := by
    rw [draw_template, hs]
  obtain ⟨marks, hread, hnodup⟩ := hall numberLine fineLine {} _ Palette.plain_standard hdraw
  obtain ⟨marks', hread', hids⟩ := ids_image hs Palette.plain_standard
  obtain rfl := Option.some.inj (hread.symm.trans hread')
  rw [hids, List.nodup_map_iff fun _ _ => String.toList_inj.mp] at hnodup
  have hspread := (nodup_ids_iff fineLine (Pen.of {}) numberLine s hs).mp hnodup
  have hticks : Template.ticks 0.0 0.01 0.004 NumberLine.tickLimit = some [0.0, 0.004, 0.008] := by
    decide +kernel
  have hapart := hspread 0.0 0.01 0.004 _ rfl rfl rfl hticks
  exact absurd hapart (by unfold RoundedApart; decide +kernel)

end FigureKind

end Figures
