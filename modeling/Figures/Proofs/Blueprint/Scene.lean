import Figures.Blueprint.Image
import Figures.Proofs.Sheet.Canvas

/-!
# The scene of a blueprint

* `Subject.draw`          what a shape of some kind reads its fields for: its drawing
* `Emitting.Emits x r`    the steps of `x` come to reading all that `r` reads, and then writing its
                          drawing
* `Subject.emits_draw`    that is so of the emitter of every kind
* `Shape.render`          what becomes of one shape: its drawing, or nothing, and its warnings
* `Blueprint.scene`       the layers by ascending `z`, those with one `z` as declared

A shape reads all of its fields before the first step that writes, so nothing is left of one that
fails.
-/

namespace Figures

/-! ### what is read -/

def Pen.gridLines (pen : Pen) (corner : Point) (width height step : Float)
    (look : Look) : Drawing :=
  (List.range (toCount word64 (floor (width / step)) + 1)).map
    (pen.column corner height step look) ++
    (List.range (toCount word64 (floor (height / step)) + 1)).map (pen.row corner width step look)

namespace Subject

variable [Platform] (s : Subject) (pen : Pen)

def drawLine : Reading Drawing := do
  let a ← s.point "from"
  let b ← s.point "to"
  let cls ← s.cls Cls.line
  let style ← s.style
  return [.line pen.places (Element.line.styled s.name cls style) a b]

def drawPolyline : Reading Drawing := do
  let points ← s.chain
  let style ← s.style
  let cls ← s.cls Cls.line
  return [.polyline pen.places (Element.path.styled s.name cls style) points]

def drawPolygon : Reading Drawing := do
  let points ← s.chain
  let style ← s.style
  let cls ← s.cls Cls.face
  return [.polygon pen.places (Element.polygon.styled s.name cls style) points]

def drawRect : Reading Drawing := do
  let x ← s.number "x"
  let y ← s.number "y"
  let width ← s.positive "width"
  let height ← s.positive "height"
  let cls ← s.cls Cls.face
  let style ← s.style
  return [.rect pen.places (Element.face.styled s.name cls style) ⟨x, y⟩ width height]

def drawCircle : Reading Drawing := do
  let center ← s.point "center"
  let r ← s.positive "r"
  let cls ← s.cls Cls.line
  let style ← s.style
  return [.circle pen.places (Element.path.styled s.name cls style) center r]

def drawEllipse : Reading Drawing := do
  let center ← s.point "center"
  let rx ← s.positive "rx"
  let ry ← s.positive "ry"
  let cls ← s.cls Cls.line
  let style ← s.style
  return [.ellipse pen.places (Element.path.styled s.name cls style) center rx ry]

def drawText : Reading Drawing := do
  let p ← s.point "at"
  let some content ← s.text? "text" | throw (.missingField "text")
  let anchor ← s.anchor
  let cls ← s.cls Cls.text
  let style ← s.style
  return [.label pen.places (Element.text.styled s.name cls style) content p anchor]

def drawArrow : Reading Drawing := do
  let a ← s.point "from"
  let b ← s.point "to"
  let head ← s.numberOr "headSize" 10.0
  let cls ← s.cls Cls.line
  let style ← s.style
  return pen.arrow s.name a b head cls style

def drawArc : Reading Drawing := do
  let center ← s.point "center"
  let r ← s.positive "r"
  let first ← s.number "startAngle"
  let last ← s.number "endAngle"
  let cls ← s.cls Cls.arc
  let style ← s.style
  return [.path pen.places (Element.arc.styled s.name cls style) (arcPath center r first last)]

def drawAngleMarker : Reading Drawing := do
  let vertex ← s.point "vertex"
  let p ← s.point "from"
  let q ← s.point "to"
  let r ← s.numberOr "r" 30.0
  let showDegrees ← s.flag "showDegrees" false
  let label ← s.text? "label"
  let cls ← s.cls Cls.arc
  let style ← s.style
  let arc := AngleArc.between vertex p q r
  return .path pen.places (Element.arc.styled s.name cls style) arc.path ::
    pen.text s.name (angleText arc showDegrees label) (arc.labelAt vertex (r + 16.0)) .middle
      Cls.angleText

def drawTickMark : Reading Drawing := do
  let a ← s.point "from"
  let b ← s.point "to"
  let t ← s.numberOr "t" 0.5
  let count ← s.numberOr "count" 1.0
  let size ← s.numberOr "size" 10.0
  let cls ← s.cls Cls.equalMark
  let style ← s.style
  let strokes := toCount word64 (clamp 1.0 5.0 (wholeNearest count))
  return [.path pen.places (Element.mark.styled s.name cls style)
    (Path.ticks a b t strokes size (size / 2.0))]

def drawGrid : Reading Drawing := do
  let x ← s.number "x"
  let y ← s.number "y"
  let width ← s.positive "width"
  let height ← s.positive "height"
  let step ← s.positive "step"
  if 200.0 < width / step || 200.0 < height / step then
    throw (.invalidField "step" "is too small for the grid size")
  let cls ← s.cls Cls.grid
  let style ← s.style
  return Pen.group s.name (pen.gridLines ⟨x, y⟩ width height step { cls := some cls, style })

def drawAxes : Reading Drawing := do
  let o ← s.point "origin"
  let xLength ← s.positive "xLength"
  let yLength ← s.positive "yLength"
  let xLabel ← s.text? "xLabel"
  let yLabel ← s.text? "yLabel"
  let cls ← s.cls Cls.axis
  let style ← s.style
  let xEnd : Point := ⟨o.x + xLength, o.y⟩
  let yEnd : Point := ⟨o.x, o.y - yLength⟩
  return Pen.group s.name
    (pen.arrow (s.name ++ "-x") o xEnd 8.0 cls style ++
      pen.arrow (s.name ++ "-y") o yEnd 8.0 cls style ++
      pen.text (s.name ++ "-x") (xLabel.getD "") ⟨xEnd.x + 12.0, xEnd.y⟩ .start Cls.text ++
      pen.text (s.name ++ "-y") (yLabel.getD "") ⟨yEnd.x, yEnd.y - 14.0⟩ .middle Cls.text)

def draw : ShapeKind → Reading Drawing
  | .line => s.drawLine pen
  | .polyline => s.drawPolyline pen
  | .polygon => s.drawPolygon pen
  | .rect => s.drawRect pen
  | .circle => s.drawCircle pen
  | .ellipse => s.drawEllipse pen
  | .text => s.drawText pen
  | .arrow => s.drawArrow pen
  | .arc => s.drawArc pen
  | .angleMarker => s.drawAngleMarker pen
  | .tickMark => s.drawTickMark pen
  | .grid => s.drawGrid pen
  | .axes => s.drawAxes pen

end Subject

/-! ### and then written -/

namespace Emitting

/-- the steps of `x` write a drawing, and do nothing else -/
def Writes (x : Emitting Unit) (d : Drawing) : Prop :=
  ∀ stage, x.run.run stage = (.ok (), { stage with canvas := stage.canvas.draw d })

namespace Writes

variable {x y : Emitting Unit} {d e : Drawing}

theorem put (p : Piece) : Writes (Emitting.put p) [p] := fun _ => rfl

theorem nil : Writes (pure ()) [] := fun _ => rfl

theorem append (hx : Writes x d) (hy : Writes y e) : Writes (x >>= fun _ => y) (d ++ e) := by
  intro stage
  rw [ExceptT.run_bind, StateT.run_bind, hx stage]
  exact (hy _).trans (by rw [Canvas.draw, Canvas.draw, Canvas.draw, List.foldl_append])

theorem cons (p : Piece) (hy : Writes y e) : Writes (Emitting.put p >>= fun _ => y) (p :: e) :=
  (put p).append hy

theorem congr (hx : Writes x d) (h : d = e) : Writes x e := h ▸ hx

theorem forM {α : Type} (f : α → Piece) (l : List α) : Writes (l.forM fun a => Emitting.put (f a))
    (l.map f) := by
  induction l with
  | nil => exact nil
  | cons a l ih => exact cons (f a) ih

theorem draw (d : Drawing) : Writes (Emitting.draw d) d := by
  have h := forM id d
  rwa [List.map_id] at h

end Writes

/-- the steps of `x` come to reading all that `r` reads, and then writing its drawing -/
def Emits (x : Emitting Unit) (r : Reading Drawing) : Prop :=
  ∀ stage, x.run.run stage = match r.run.run stage.notes with
    | (.ok d, notes) => (.ok (), ⟨stage.canvas.draw d, notes⟩)
    | (.error e, notes) => (.error e, ⟨stage.canvas, notes⟩)

namespace Emits

variable {α : Type} {x y : Emitting Unit} {r r' : Reading Drawing} {d : Drawing}

theorem pure (h : Writes x d) : Emits x (Pure.pure d) := fun stage => h stage

theorem throw (e : ShapeError) : Emits (MonadExcept.throw e) (MonadExcept.throw e) := fun _ => rfl

theorem throw_bind (e : ShapeError) (f : α → Emitting Unit) (g : α → Reading Drawing) :
    Emits (MonadExcept.throw e >>= f) (MonadExcept.throw e >>= g) := fun _ => rfl

theorem bind {a : Reading α} {f : α → Emitting Unit} {g : α → Reading Drawing}
    (h : ∀ b, Emits (f b) (g b)) : Emits (liftM a >>= f) (a >>= g) := by
  intro stage
  have hlift : (liftM a : Emitting α).run.run stage
      = ((a.run.run stage.notes).1, { stage with notes := (a.run.run stage.notes).2 }) := rfl
  rw [ExceptT.run_bind, StateT.run_bind, hlift, ExceptT.run_bind, StateT.run_bind]
  rcases a.run.run stage.notes with ⟨e | b, notes⟩
  · rfl
  · exact h b { stage with notes }

theorem ite {c : Prop} [Decidable c] (hx : Emits x r) (hy : Emits y r') :
    Emits (if c then x else y) (if c then r else r') := by
  split
  · exact hx
  · exact hy

end Emits

end Emitting

namespace Subject

open Emitting (Emits Writes)

variable [Platform] (s : Subject) (pen : Pen)

theorem emits_drawText : Emits (s.emitText pen) (s.drawText pen) := by
  refine .bind fun _ => .bind fun content => ?_
  cases content with
  | none => exact .throw _
  | some content => exact .bind fun _ => .bind fun _ => .bind fun _ => .pure (.put _)

theorem emits_drawAngleMarker : Emits (s.emitAngleMarker pen) (s.drawAngleMarker pen) :=
  .bind fun _ => .bind fun _ => .bind fun _ => .bind fun _ => .bind fun _ => .bind fun _ =>
    .bind fun _ => .bind fun _ => .pure (.cons _ (.draw _))

/-- a step that is too small is noticed before the group is opened -/
theorem emits_drawGrid : Emits (s.emitGrid pen) (s.drawGrid pen) := by
  refine .bind fun _ => .bind fun _ => .bind fun _ => .bind fun _ => .bind fun _ => ?_
  refine .ite (.throw_bind _ _ _) (.bind fun _ => .bind fun _ => .pure ?_)
  refine .congr (.cons _ (.append (.forM _ _) (.append (.forM _ _) (.put _)))) ?_
  simp only [Pen.group, Pen.gridLines, List.cons_append, List.append_assoc]

theorem emits_drawAxes : Emits (s.emitAxes pen) (s.drawAxes pen) := by
  refine .bind fun _ => .bind fun _ => .bind fun _ => .bind fun _ => .bind fun _ => .bind fun _ =>
    .bind fun _ => .pure ?_
  refine .congr (.cons _ (.append (.draw _) (.append (.draw _) (.append (.draw _)
    (.append (.draw _) (.put _)))))) ?_
  simp only [Pen.group, List.cons_append, List.append_assoc]

/-- every shape is read, and then written -/
theorem emits_draw (kind : ShapeKind) : Emits (s.emit pen kind) (s.draw pen kind) := by
  cases kind with
  | line => exact .bind fun _ => .bind fun _ => .bind fun _ => .bind fun _ => .pure (.put _)
  | polyline => exact .bind fun _ => .bind fun _ => .bind fun _ => .pure (.put _)
  | polygon => exact .bind fun _ => .bind fun _ => .bind fun _ => .pure (.put _)
  | rect =>
    exact .bind fun _ => .bind fun _ => .bind fun _ => .bind fun _ => .bind fun _ => .bind fun _ =>
      .pure (.put _)
  | circle => exact .bind fun _ => .bind fun _ => .bind fun _ => .bind fun _ => .pure (.put _)
  | ellipse =>
    exact .bind fun _ => .bind fun _ => .bind fun _ => .bind fun _ => .bind fun _ => .pure (.put _)
  | text => exact s.emits_drawText pen
  | arrow =>
    exact .bind fun _ => .bind fun _ => .bind fun _ => .bind fun _ => .bind fun _ => .pure (.draw _)
  | arc =>
    exact .bind fun _ => .bind fun _ => .bind fun _ => .bind fun _ => .bind fun _ => .bind fun _ =>
      .pure (.put _)
  | angleMarker => exact s.emits_drawAngleMarker pen
  | tickMark =>
    exact .bind fun _ => .bind fun _ => .bind fun _ => .bind fun _ => .bind fun _ => .bind fun _ =>
      .bind fun _ => .pure (.put _)
  | grid => exact s.emits_drawGrid pen
  | axes => exact s.emits_drawAxes pen

end Subject

/-! ### the scene -/

namespace Shape

variable [Platform] (scope : Scope) (pen : Pen) (name : String) (item : Shape)

def reading : Reading Drawing :=
  match ShapeKind.ofName? item.kind with
  | some kind => Subject.draw ⟨scope, name, item.fields⟩ pen kind
  | none => throw (.invalidField "type" s!"\"{item.kind}\" is not a known shape type")

/-- the drawing and the warnings of a shape; a shape that is skipped has no drawing -/
def render : Drawing × List String :=
  match (reading scope pen name item).run.run [] with
  | (.ok drawing, notes) => (drawing, notes.map (Note.message name))
  | (.error e, notes) => ([], notes.map (Note.message name) ++ [skipMessage name item.kind e])

theorem emits_reading : Emitting.Emits (item.emit scope pen name)
    (reading scope pen name item) := by
  rw [emit, reading]
  cases ShapeKind.ofName? item.kind with
  | none => exact .throw _
  | some kind => exact Subject.emits_draw _ pen kind

end Shape

namespace Layer

variable [Platform]

def rendered (scope : Scope) (pen : Pen) (layer : Layer) : List (Drawing × List String) :=
  layer.named.map fun e => e.2.render scope pen e.1

def drawing (scope : Scope) (pen : Pen) (layer : Layer) : Drawing :=
  Pen.group layer.id ((layer.rendered scope pen).flatMap Prod.fst)

def warnings (scope : Scope) (pen : Pen) (layer : Layer) : List String :=
  (layer.rendered scope pen).flatMap Prod.snd

end Layer

namespace Canvas

variable [Platform] (scope : Scope) (pen : Pen)

theorem shape_eq (canvas : Canvas) (name : String) (item : Shape) :
    canvas.shape scope pen name item
      = (canvas.draw (item.render scope pen name).1).warn (item.render scope pen name).2 := by
  rw [Canvas.shape, item.emits_reading scope pen name { canvas }, Shape.render]
  rcases (item.reading scope pen name).run.run [] with ⟨e | d, notes⟩
  · exact (warn_append canvas _ _).symm
  · rfl

theorem shapes_eq (canvas : Canvas) (named : List (String × Shape)) :
    named.foldl (fun canvas e => canvas.shape scope pen e.1 e.2) canvas
      = (canvas.draw (named.flatMap fun e => (e.2.render scope pen e.1).1)).warn
          (named.flatMap fun e => (e.2.render scope pen e.1).2) := by
  induction named generalizing canvas with
  | nil => exact (warn_nil canvas).symm
  | cons e named ih =>
    rw [List.foldl_cons, ih, shape_eq, draw_warn, ← draw_append, ← warn_append]
    rfl

end Canvas

def Blueprint.scene [Platform] (b : Blueprint) (scope : Scope) (pen : Pen) : Scene where
  width := b.viewBox.width
  height := b.viewBox.height
  root := "blueprint"
  drawing := b.ordered.flatMap fun layer => layer.drawing scope pen
  warnings := b.ordered.flatMap fun layer => layer.warnings scope pen

section
variable [Platform] (scope : Scope) (pen : Pen)

theorem Layer.drawing_eq (layer : Layer) :
    layer.drawing scope pen
      = Pen.group layer.id (layer.named.flatMap fun e => (e.2.render scope pen e.1).1) := by
  rw [drawing, rendered, List.flatMap_map]

theorem Layer.warnings_eq (layer : Layer) :
    layer.warnings scope pen = layer.named.flatMap fun e => (e.2.render scope pen e.1).2 := by
  rw [warnings, rendered, List.flatMap_map]

namespace Canvas

theorem layer_eq (canvas : Canvas) (layer : Layer) :
    canvas.layer scope pen layer
      = (canvas.draw (layer.drawing scope pen)).warn (layer.warnings scope pen) := by
  rw [Canvas.layer, shapes_eq, layer.drawing_eq, layer.warnings_eq, draw_group]
  rfl

theorem layers_eq (canvas : Canvas) (layers : List Layer) :
    canvas.layers scope pen layers
      = (canvas.draw (layers.flatMap fun layer => layer.drawing scope pen)).warn
          (layers.flatMap fun layer => layer.warnings scope pen) := by
  induction layers generalizing canvas with
  | nil => exact (warn_nil canvas).symm
  | cons layer layers ih =>
    rw [Canvas.layers, List.foldl_cons, ← Canvas.layers, ih, layer_eq, draw_warn, ← draw_append,
      ← warn_append]
    rfl

end Canvas

end

end Figures
