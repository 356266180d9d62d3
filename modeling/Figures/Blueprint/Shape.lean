import Figures.Blueprint.Field
import Figures.Sheet.Canvas

/-!
# Drawing shapes

* `ShapeKind`        the kinds of shapes
* `Emitting α`       reads the fields of a shape, and writes on the canvas that all shapes share
* `Subject.emit`     a shape of some kind, written step by step
* `Pen.arrow`        a line with a head

What has been written stays on the canvas, whatever becomes of the steps behind it. So a shape has
to read all of its fields first.
-/

namespace Figures

inductive ShapeKind where
  | line
  | polyline
  | polygon
  | rect
  | circle
  | ellipse
  | text
  | arrow
  | arc
  | angleMarker
  | tickMark
  | grid
  | axes
  deriving Repr, DecidableEq

namespace ShapeKind

def all : List ShapeKind :=
  [line, polyline, polygon, rect, circle, ellipse, text, arrow, arc, angleMarker,
    tickMark, grid, axes]

def name : ShapeKind → String
  | line => "line"
  | polyline => "polyline"
  | polygon => "polygon"
  | rect => "rect"
  | circle => "circle"
  | ellipse => "ellipse"
  | text => "text"
  | arrow => "arrow"
  | arc => "arc"
  | angleMarker => "angleMarker"
  | tickMark => "tickMark"
  | grid => "grid"
  | axes => "axes"

def ofName? (s : String) : Option ShapeKind := all.find? fun k => k.name == s

end ShapeKind

/-- the look of a named element with a class and style attributes -/
def Element.styled (e : Element) (name cls : String) (style : List Attr) : Look :=
  { e.look name cls with style }

def Pen.arrow [Platform] (pen : Pen) (name : String) (a b : Point) (head : Float) (cls : String)
    (style : List Attr) : Drawing :=
  [.line pen.places (Element.line.styled name cls style) a b,
   .polygon pen.places (Element.mark.look (name ++ "-head") Cls.point) (arrowHead a b head)]

/-- a line of a grid from the top down, at the `i`-th step -/
def Pen.column (pen : Pen) (corner : Point) (height step : Float) (look : Look) (i : Nat) : Piece :=
  let x := corner.x + Float.ofNat i * step
  .line pen.places look ⟨x, corner.y⟩ ⟨x, corner.y + height⟩

/-- a line of a grid from left to right, at the `j`-th step -/
def Pen.row (pen : Pen) (corner : Point) (width step : Float) (look : Look) (j : Nat) : Piece :=
  let y := corner.y + Float.ofNat j * step
  .line pen.places look ⟨corner.x, y⟩ ⟨corner.x + width, y⟩

/-! ### on a canvas -/

/-- a canvas, and what is noted on the shape that is written on it -/
structure Stage where
  canvas : Canvas
  notes : List Note := []

/-- reads the fields of a shape and writes on a canvas -/
abbrev Emitting := ExceptT ShapeError (StateM Stage)

namespace Emitting

/-- reading does not touch the canvas -/
instance : MonadLift Reading Emitting where
  monadLift x := ExceptT.mk fun stage =>
    let (result, notes) := x.run.run stage.notes
    (result, { stage with notes })

/-- writes a piece -/
def put (p : Piece) : Emitting Unit :=
  ExceptT.mk fun stage => (.ok (), { stage with canvas := stage.canvas.put p })

def draw (d : Drawing) : Emitting Unit := d.forM put

end Emitting

namespace Subject

open Emitting (put draw)

variable [Platform] (s : Subject) (pen : Pen)

def emitLine : Emitting Unit := do
  let a ← s.point "from"
  let b ← s.point "to"
  let cls ← s.cls Cls.line
  let style ← s.style
  put (.line pen.places (Element.line.styled s.name cls style) a b)

/-- the points of a chain; a single point is no chain -/
def chain : Reading (List Point) := do
  let points ← s.points "points"
  if points.length < 2 then throw (.invalidField "points" "needs at least two points")
  return points

def emitPolyline : Emitting Unit := do
  let points ← s.chain
  let style ← s.style
  let cls ← s.cls Cls.line
  put (.polyline pen.places (Element.path.styled s.name cls style) points)

def emitPolygon : Emitting Unit := do
  let points ← s.chain
  let style ← s.style
  let cls ← s.cls Cls.face
  put (.polygon pen.places (Element.polygon.styled s.name cls style) points)

def emitRect : Emitting Unit := do
  let x ← s.number "x"
  let y ← s.number "y"
  let width ← s.positive "width"
  let height ← s.positive "height"
  let cls ← s.cls Cls.face
  let style ← s.style
  put (.rect pen.places (Element.face.styled s.name cls style) ⟨x, y⟩ width height)

def emitCircle : Emitting Unit := do
  let center ← s.point "center"
  let r ← s.positive "r"
  let cls ← s.cls Cls.line
  let style ← s.style
  put (.circle pen.places (Element.path.styled s.name cls style) center r)

def emitEllipse : Emitting Unit := do
  let center ← s.point "center"
  let rx ← s.positive "rx"
  let ry ← s.positive "ry"
  let cls ← s.cls Cls.line
  let style ← s.style
  put (.ellipse pen.places (Element.path.styled s.name cls style) center rx ry)

/-- where the text stands relative to its point; in the middle if nothing is said -/
def anchor : Reading Anchor := do
  match ← s.text? "anchor" with
  | none => return .middle
  | some name =>
    match Anchor.ofName? name with
    | some a => return a
    | none => throw (.invalidField "anchor" s!"must be start, middle or end (got \"{name}\")")

def emitText : Emitting Unit := do
  let p ← s.point "at"
  let some content ← s.text? "text" | throw (.missingField "text")
  let anchor ← s.anchor
  let cls ← s.cls Cls.text
  let style ← s.style
  put (.label pen.places (Element.text.styled s.name cls style) content p anchor)

def emitArrow : Emitting Unit := do
  let a ← s.point "from"
  let b ← s.point "to"
  let head ← s.numberOr "headSize" 10.0
  let cls ← s.cls Cls.line
  let style ← s.style
  draw (pen.arrow s.name a b head cls style)

/-- an arc from the direction `first` to `last`, both in degrees -/
def arcPath (center : Point) (r first last : Float) : Path :=
  let sweep := last - first
  [.move (Point.polar center r (radians first)),
   .arc (Point.polar center r (radians last)) r (decide (180.0 < sweep.abs)) (decide (0.0 < sweep))]

def emitArc : Emitting Unit := do
  let center ← s.point "center"
  let r ← s.positive "r"
  let first ← s.number "startAngle"
  let last ← s.number "endAngle"
  let cls ← s.cls Cls.arc
  let style ← s.style
  put (.path pen.places (Element.arc.styled s.name cls style) (arcPath center r first last))

/-- the text at the mark of an angle: its label, or else its size if that is shown -/
def angleText (arc : AngleArc) (showDegrees : Bool) (label : Option String) : String :=
  let computed := if showDegrees then tidy 1 arc.degrees ++ "°" else ""
  (label.filter fun t => !t.isEmpty).getD computed

def emitAngleMarker : Emitting Unit := do
  let vertex ← s.point "vertex"
  let p ← s.point "from"
  let q ← s.point "to"
  let r ← s.numberOr "r" 30.0
  let showDegrees ← s.flag "showDegrees" false
  let label ← s.text? "label"
  let cls ← s.cls Cls.arc
  let style ← s.style
  let arc := AngleArc.between vertex p q r
  put (.path pen.places (Element.arc.styled s.name cls style) arc.path)
  draw (pen.text s.name (angleText arc showDegrees label) (arc.labelAt vertex (r + 16.0)) .middle
    Cls.angleText)

def emitTickMark : Emitting Unit := do
  let a ← s.point "from"
  let b ← s.point "to"
  let t ← s.numberOr "t" 0.5
  let count ← s.numberOr "count" 1.0
  let size ← s.numberOr "size" 10.0
  let cls ← s.cls Cls.equalMark
  let style ← s.style
  let strokes := toCount word64 (clamp 1.0 5.0 (wholeNearest count))
  put (.path pen.places (Element.mark.styled s.name cls style)
    (Path.ticks a b t strokes size (size / 2.0)))

def emitGrid : Emitting Unit := do
  let x ← s.number "x"
  let y ← s.number "y"
  let width ← s.positive "width"
  let height ← s.positive "height"
  let step ← s.positive "step"
  if 200.0 < width / step || 200.0 < height / step then
    throw (.invalidField "step" "is too small for the grid size")
  let cls ← s.cls Cls.grid
  let style ← s.style
  let look : Look := { cls := some cls, style }
  put (Pen.groupStart s.name)
  (List.range (toCount word64 (floor (width / step)) + 1)).forM fun i =>
    put (pen.column ⟨x, y⟩ height step look i)
  (List.range (toCount word64 (floor (height / step)) + 1)).forM fun j =>
    put (pen.row ⟨x, y⟩ width step look j)
  put .groupEnd

def emitAxes : Emitting Unit := do
  let o ← s.point "origin"
  let xLength ← s.positive "xLength"
  let yLength ← s.positive "yLength"
  let xLabel ← s.text? "xLabel"
  let yLabel ← s.text? "yLabel"
  let cls ← s.cls Cls.axis
  let style ← s.style
  let xEnd : Point := ⟨o.x + xLength, o.y⟩
  let yEnd : Point := ⟨o.x, o.y - yLength⟩
  put (Pen.groupStart s.name)
  draw (pen.arrow (s.name ++ "-x") o xEnd 8.0 cls style)
  draw (pen.arrow (s.name ++ "-y") o yEnd 8.0 cls style)
  draw (pen.text (s.name ++ "-x") (xLabel.getD "") ⟨xEnd.x + 12.0, xEnd.y⟩ .start Cls.text)
  draw (pen.text (s.name ++ "-y") (yLabel.getD "") ⟨yEnd.x, yEnd.y - 14.0⟩ .middle Cls.text)
  put .groupEnd

def emit : ShapeKind → Emitting Unit
  | .line => s.emitLine pen
  | .polyline => s.emitPolyline pen
  | .polygon => s.emitPolygon pen
  | .rect => s.emitRect pen
  | .circle => s.emitCircle pen
  | .ellipse => s.emitEllipse pen
  | .text => s.emitText pen
  | .arrow => s.emitArrow pen
  | .arc => s.emitArc pen
  | .angleMarker => s.emitAngleMarker pen
  | .tickMark => s.emitTickMark pen
  | .grid => s.emitGrid pen
  | .axes => s.emitAxes pen

end Subject

end Figures
