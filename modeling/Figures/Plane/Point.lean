import Figures.Number.Elementary

/-!
# Points of the drawing plane

* `Vec α`, `Point`    pairs of coordinates; a `Point` has doubles, `x` to the right and `y` down
* `distance`, `lerp`, `polar`, `direction`, `normal`, `outward`, `centroid`, `oblique`

Angles are in radians. As `y` points down, a growing angle turns clockwise on the screen.
-/

namespace Figures

structure Vec (α : Type) where
  x : α
  y : α
  deriving Repr

/-- a point in user units, `y` pointing down -/
abbrev Point := Vec Float

namespace Point

variable [Platform]

def origin : Point := ⟨0.0, 0.0⟩

def isFinite (p : Point) : Bool := p.x.isFinite && p.y.isFinite

def distance (a b : Point) : Float := hypotenuse (b.x - a.x) (b.y - a.y)

/-- the point at parameter `t` of the segment from `a` to `b` -/
def lerp (a b : Point) (t : Float) : Point :=
  ⟨a.x + (b.x - a.x) * t, a.y + (b.y - a.y) * t⟩

def midpoint (a b : Point) : Point := lerp a b 0.5

def polar (center : Point) (radius angle : Float) : Point :=
  ⟨center.x + radius * cosine angle, center.y + radius * sine angle⟩

def direction (a b : Point) : Float := bearing (b.y - a.y) (b.x - a.x)

/-- the unit normal of the segment from `a` to `b`, a quarter turn on; zero for a single point -/
def normal (a b : Point) : Point :=
  let len := distance a b
  if len == 0.0 then origin else ⟨-(b.y - a.y) / len, (b.x - a.x) / len⟩

/-- `anchor` pushed away from `center` by `offset`; upwards if the two coincide -/
def outward (anchor center : Point) (offset : Float) : Point :=
  let len := distance center anchor
  if len == 0.0 then ⟨anchor.x, anchor.y - offset⟩
  else
    ⟨anchor.x + (anchor.x - center.x) / len * offset,
     anchor.y + (anchor.y - center.y) / len * offset⟩

/-- the mean of a list of points; the origin for none -/
def centroid : List Point → Point
  | [] => origin
  | points =>
    let n := Float.ofNat points.length
    ⟨points.foldl (fun s p => s + p.x) 0.0 / n, points.foldl (fun s p => s + p.y) 0.0 / n⟩

/-- half of the cosine of an eighth turn: how far one unit of depth moves a point on either axis -/
def obliqueStep : Float := 0.5 * 0.707106781186547524400844362104849039

/-- a point moved back by `depth` in the oblique picture of a solid: right and up -/
def oblique (p : Point) (depth : Float) : Point :=
  ⟨p.x + depth * obliqueStep, p.y - depth * obliqueStep⟩

def shift (p : Point) (dx dy : Float) : Point := ⟨p.x + dx, p.y + dy⟩

end Point

end Figures
