import Figures.Plane.Path

/-!
# Marks on figures

* `Path.rightAngle`    the corner of a small square at a vertex
* `Path.ticks`         short strokes across a segment, for segments of equal length
* `arrowHead`          the triangle at the tip of an arrow
-/

namespace Figures

namespace Path

/-- the corner of a square with side `size` between the rays from `vertex` through `p` and `q` -/
def rightAngle [Platform] (vertex p q : Point) (size : Float) : Path :=
  let u := Point.polar Point.origin size (Point.direction vertex p)
  let v := Point.polar Point.origin size (Point.direction vertex q)
  [.move ⟨vertex.x + u.x, vertex.y + u.y⟩,
   .line ⟨vertex.x + u.x + v.x, vertex.y + u.y + v.y⟩,
   .line ⟨vertex.x + v.x, vertex.y + v.y⟩]

/-- `count` strokes of length `size` across the segment from `a` to `b`, `spacing` apart and centred
on the point at parameter `t`; nothing for a segment without length -/
def ticks [Platform] (a b : Point) (t : Float) (count : Nat) (size spacing : Float) : Path :=
  let len := Point.distance a b
  if len == 0.0 then []
  else
    let n := Point.normal a b
    let along : Point := ⟨(b.x - a.x) / len, (b.y - a.y) / len⟩
    let center := Point.lerp a b t
    let first := -(Float.ofNat count - 1.0) / 2.0
    (List.range count).flatMap fun i =>
      let offset := (first + Float.ofNat i) * spacing
      let c : Point := ⟨center.x + along.x * offset, center.y + along.y * offset⟩
      [.move ⟨c.x - n.x * size / 2.0, c.y - n.y * size / 2.0⟩,
       .line ⟨c.x + n.x * size / 2.0, c.y + n.y * size / 2.0⟩]

end Path

/-- the tip of an arrow from `source` and the two corners behind it, a sixth of half a turn to
either side -/
def arrowHead [Platform] (source tip : Point) (size : Float) : List Point :=
  let theta := Point.direction source tip
  let spread := pi / 6.0
  let corner (angle : Float) : Point := ⟨tip.x - size * cosine angle, tip.y - size * sine angle⟩
  [tip, corner (theta - spread), corner (theta + spread)]

end Figures
