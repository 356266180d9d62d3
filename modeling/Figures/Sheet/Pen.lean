import Figures.Markup.Document
import Figures.Palette
import Figures.Plane.Mark
import Figures.Plane.Opening
import Figures.Sheet.Image

/-!
# Pens and scenes

* `Context`        the palette and the layout that every drawing is made with
* `Element`        the kinds of elements, with the first part of their ids
* `Pen`            what the drawing functions need of a context
* `Pen.dot`, …     named parts of figures as drawings
* `Scene`          a drawing with its size, the name of its root group and its warnings
* `Scene.image`    the image of a scene

Every part of a figure is named; the id of its element is the name behind the kind of the element.
-/

namespace Figures

/-- what a drawing depends on besides its parameters -/
structure Context where
  palette : Palette := .standard
  layout : Markup.Layout := {}

inductive Element where
  | point
  | line
  | text
  | group
  | mark
  | polygon
  | arc
  | path
  | face
  | bar
  deriving Repr, DecidableEq

namespace Element

/-- the first part of an id -/
def code : Element → String
  | point => "pt"
  | line => "ln"
  | text => "txt"
  | group => "grp"
  | mark => "mk"
  | polygon => "poly"
  | arc => "arc"
  | path => "path"
  | face => "face"
  | bar => "bar"

def id (e : Element) (name : String) : String := e.code ++ ":" ++ name

def look (e : Element) (name cls : String) : Look := { id := some (e.id name), cls := some cls }

end Element

/-! ### the shared classes -/

namespace Cls

def line : String := "diagram-line"
def hiddenLine : String := "diagram-line diagram-hidden"
def point : String := "diagram-point"
def text : String := "diagram-text"
def sideText : String := "diagram-text-side"
def angleText : String := "diagram-text-angle"
def arc : String := "diagram-arc"
def rightAngle : String := "diagram-right-angle"
def equalMark : String := "diagram-equal-mark"
def face : String := "diagram-face"
def bar : String := "diagram-bar"
def axis : String := "diagram-axis"
def grid : String := "diagram-grid"

end Cls

def Drawing.when (b : Bool) (d : Drawing) : Drawing := if b then d else []

/-- places of coordinates and the radius of dots -/
structure Pen where
  places : Nat
  pointRadius : Float

namespace Pen

def of (ctx : Context) : Pen := ⟨ctx.layout.places, ctx.palette.number "point-radius"⟩

variable [Numerals] [Platform] (pen : Pen)

def groupStart (name : String) : Piece := .groupOf { id := some (Element.group.id name) }

def group (name : String) (content : Drawing) : Drawing :=
  groupStart name :: content ++ [.groupEnd]

def dot (name : String) (p : Point) : Drawing :=
  [.circle pen.places (Element.point.look name Cls.point) p pen.pointRadius]

def rule (name : String) (a b : Point) (cls : String) : Drawing :=
  [.line pen.places (Element.line.look name cls) a b]

def segment (name : String) (a b : Point) : Drawing := pen.rule name a b Cls.line

def hiddenSegment (name : String) (a b : Point) : Drawing := pen.rule name a b Cls.hiddenLine

/-- a text; nothing is drawn for an empty one -/
def text (name content : String) (p : Point) (anchor : Anchor) (cls : String) : Drawing :=
  if content.isEmpty then []
  else [.label pen.places (Element.text.look name cls) content p anchor]

def label (name content : String) (p : Point) : Drawing := pen.text name content p .middle Cls.text

/-- a label beside the middle of a segment, on the side away from `inside` -/
def sideLabel (name content : String) (a b inside : Point) : Drawing :=
  let mid := Point.midpoint a b
  let n := Point.normal a b
  let near := Point.distance (mid.shift n.x n.y) inside < Point.distance mid inside
  let sign : Float := if near then -1.0 else 1.0
  pen.text name content ⟨mid.x + n.x * 18.0 * sign, mid.y + n.y * 18.0 * sign⟩ .middle Cls.sideText

def arc (name : String) (arc : AngleArc) : Drawing :=
  [.path pen.places (Element.arc.look name Cls.arc) arc.path]

def arcLabel (name content : String) (vertex : Point) (arc : AngleArc) : Drawing :=
  pen.text name content (arc.labelAt vertex (arc.radius + 16.0)) .middle Cls.angleText

def rightAngle (name : String) (vertex p q : Point) (size : Float) : Drawing :=
  [.path pen.places (Element.mark.look name Cls.rightAngle) (Path.rightAngle vertex p q size)]

/-- strokes across the middle of a segment -/
def equalTicks (name : String) (a b : Point) (count : Nat) : Drawing :=
  [.path pen.places (Element.mark.look name Cls.equalMark) (Path.ticks a b 0.5 count 10.0 5.0)]

def polygon (e : Element) (name : String) (points : List Point) (cls : String) : Drawing :=
  [.polygon pen.places (e.look name cls) points]

def path (e : Element) (name : String) (p : Path) (cls : String) : Drawing :=
  [.path pen.places (e.look name cls) p]

end Pen

/-- a drawing of some size inside a root group -/
structure Scene where
  width : Float
  height : Float
  root : String
  drawing : Drawing
  warnings : List String := []

/-- the image of a scene: the palette's rules, and everything inside the root group -/
def Scene.image [Numerals] (scene : Scene) (ctx : Context) : Image where
  svg := Markup.document ctx.layout scene.width scene.height [ctx.palette.styleBlock]
    (Pen.group scene.root scene.drawing)
  width := scene.width
  height := scene.height
  warnings := scene.warnings

end Figures
