import Figures.Plane.Point

/-!
# Fitting a figure onto a canvas

* `Extremes α`    the smaller and the larger of two numbers
* `fitting`       the map that scales a model (`y` up) evenly, flips it and centres it on a canvas
                  (`y` down)
* `fit`           the points of a model on a canvas

Both are stated over any numbers, so what they say can be read over exact arithmetic too.
-/

namespace Figures

/-- the smaller and the larger of two numbers -/
class Extremes (α : Type) where
  lesser : α → α → α
  greater : α → α → α

instance : Extremes Float := ⟨lesser, greater⟩

section

variable {α : Type} [Add α] [Sub α] [Mul α] [Div α] [OfNat α 2] [Extremes α]

/-- the place on a canvas of `width` by `height` of each point of the model `p :: rest`: its larger
span fills the space between the margins, the other is centred. A span counts as at least `tiny` -/
def fitting (tiny width height margin : α) (p : Vec α) (rest : List (Vec α)) : Vec α → Vec α :=
  let minX := rest.foldl (fun m q => Extremes.lesser m q.x) p.x
  let maxX := rest.foldl (fun m q => Extremes.greater m q.x) p.x
  let minY := rest.foldl (fun m q => Extremes.lesser m q.y) p.y
  let maxY := rest.foldl (fun m q => Extremes.greater m q.y) p.y
  let spanX := Extremes.greater (maxX - minX) tiny
  let spanY := Extremes.greater (maxY - minY) tiny
  let scale := Extremes.lesser ((width - 2 * margin) / spanX) ((height - 2 * margin) / spanY)
  let offsetX := (width - spanX * scale) / 2
  let offsetY := (height - spanY * scale) / 2
  fun q => ⟨offsetX + (q.x - minX) * scale, height - offsetY - (q.y - minY) * scale⟩

/-- the points of a model on a canvas -/
def fit (tiny width height margin : α) : List (Vec α) → List (Vec α)
  | [] => []
  | p :: rest => (p :: rest).map (fitting tiny width height margin p rest)

end

/-- the distance from one to the next double -/
def epsilon : Float := 2.220446049250313e-16

end Figures
