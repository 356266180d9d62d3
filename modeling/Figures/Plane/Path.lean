import Figures.Plane.Point
import Figures.Number.Fixed

/-!
# Paths

* `Segment`       a step of a path: move, line, circular or elliptical arc, close
* `Path`          a list of segments
* `Path.text`     the path data of a markup attribute, numbers rounded to some places
-/

namespace Figures

/-- a step of a path. `large` picks the longer arc, `sweep` the direction of growing angles -/
inductive Segment where
  | move (stop : Point)
  | line (stop : Point)
  | arc (stop : Point) (radius : Float) (large sweep : Bool)
  | ellipse (stop : Point) (rx ry : Float) (large sweep : Bool)
  | close
  deriving Repr

abbrev Path := List Segment

namespace Path

variable [Numerals]

def pair (places : Nat) (x y : Float) : String := tidy places x ++ " " ++ tidy places y

def bit (b : Bool) : String := if b then "1" else "0"

/-- an arc with its radii, no rotation, its two choices and its end -/
def arcText (places : Nat) (rx ry : Float) (large sweep : Bool) (stop : Point) : String :=
  "A" ++ pair places rx ry ++ " 0 " ++ bit large ++ " " ++ bit sweep ++ " " ++
    pair places stop.x stop.y

def segmentText (places : Nat) : Segment → String
  | .move p => "M" ++ pair places p.x p.y
  | .line p => "L" ++ pair places p.x p.y
  | .arc p r large sweep => arcText places r r large sweep p
  | .ellipse p rx ry large sweep => arcText places rx ry large sweep p
  | .close => "Z"

def text (places : Nat) (path : Path) : String :=
  " ".intercalate (path.map (segmentText places))

end Path

end Figures
