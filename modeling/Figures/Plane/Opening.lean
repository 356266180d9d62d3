import Figures.Plane.Path

/-!
# The angle between two rays

* `wrap rem half a`     an angle brought into `[-half, half]` by whole turns, over any numbers with
                        a remainder that cuts towards zero
* `Opening α`           the turn from one direction to another, never more than half a turn
* `AngleArc`            the arc of an opening around a vertex

`Opening` is stated over any numbers, so what it says can be read over exact arithmetic too.
-/

namespace Figures

variable {α : Type} [Add α] [Sub α] [Neg α] [LT α] [DecidableLT α]

/-- an angle brought into `[-half, half]` by whole turns -/
def wrap (rem : α → α → α) (half a : α) : α :=
  let r := rem a (half + half)
  if half < r then r - (half + half)
  else if r < -half then r + (half + half)
  else r

/-- a direction and the signed turn from it to another direction -/
structure Opening (α : Type) where
  first : α
  delta : α
  deriving Repr

namespace Opening

def between (rem : α → α → α) (half a b : α) : Opening α := ⟨a, wrap rem half (b - a)⟩

/-- the direction at the end of the turn -/
def last (o : Opening α) : α := o.first + o.delta

def bisector [Div α] [OfNat α 2] (o : Opening α) : α := o.first + o.delta / 2

/-- the turn goes in the direction of growing angles -/
def sweep [OfNat α 0] (o : Opening α) : Bool := decide (0 < o.delta)

end Opening

/-- an angle of doubles brought into half a turn either way -/
def normalizeAngle (a : Float) : Float := wrap remainder pi a

/-- the arc of an opening at some distance from a vertex -/
structure AngleArc where
  opening : Opening Float
  start : Point
  finish : Point
  radius : Float

namespace AngleArc

/-- the interior arc between the rays from `vertex` through `p` and through `q` -/
def between [Platform] (vertex p q : Point) (radius : Float) : AngleArc :=
  let o := Opening.between remainder pi (Point.direction vertex p) (Point.direction vertex q)
  ⟨o, Point.polar vertex radius o.first, Point.polar vertex radius o.last, radius⟩

def span (arc : AngleArc) : Float := arc.opening.delta.abs

def degrees (arc : AngleArc) : Float := Figures.degrees arc.span

def path (arc : AngleArc) : Path :=
  [.move arc.start, .arc arc.finish arc.radius false arc.opening.sweep]

def labelAt [Platform] (arc : AngleArc) (vertex : Point) (distance : Float) : Point :=
  Point.polar vertex distance arc.opening.bisector

end AngleArc

end Figures
