/-!
# Functions of the platform

* `Platform`           the mathematical functions that are left to the platform
* `Platform.native`    those of the machine that the program runs on

Sums, products, quotients, roots and remainders of doubles are fixed to the last bit. The functions
gathered here are not: their last places differ from one mathematical library to another, so every
drawing that needs them takes them as a parameter.
-/

namespace Figures

/-- the mathematical functions that are left to the platform -/
class Platform where
  /-- the logarithm to the base ten -/
  logarithm : Float → Float
  /-- a power, by its base and its exponent -/
  power : Float → Float → Float
  /-- the length of the hypotenuse over two legs -/
  hypotenuse : Float → Float → Float
  cosine : Float → Float
  sine : Float → Float
  /-- the angle from zero to half a turn with a given cosine -/
  arccosine : Float → Float
  /-- the direction of the vector `(x, y)`, from `y` and `x` -/
  bearing : Float → Float → Float

export Platform (logarithm power hypotenuse cosine sine arccosine bearing)

namespace Platform

/-- `√(a² + b²)` for `b ≤ a`, neither of them so large or so small that its square is lost: the
root, less what its square is too large by -/
def root (a b : Float) : Float :=
  let h := (a * a + b * b).sqrt
  if h ≤ 2.0 * b then
    let d := h - b
    h - (a * (2.0 * d - a) + (d - 2.0 * (a - b)) * d) / (2.0 * h)
  else
    let d := h - a
    h - (2.0 * d * (a - 2.0 * b) + ((4.0 * d - b) * b + d * d)) / (2.0 * h)

/-- the longer leg and the shorter one are scaled if their squares would be lost -/
def length (a b : Float) : Float :=
  let unit := Float.scaleB 1.0 (-600)
  let tiny := Float.scaleB 1.0 (-54)
  if Float.scaleB 1.0 511 < a then
    if b ≤ a * tiny then a + b else root (a * unit) (b * unit) / unit
  else if b < Float.scaleB 1.0 (-459) then
    if b / tiny ≤ a then a + b else root (a / unit) (b / unit) * unit
  else if b ≤ a * tiny then a + b
  else root a b

/-- the mathematical library of the machine; it has no `hypotenuse`, so that is computed here -/
instance native : Platform where
  logarithm := Float.log10
  power := Float.pow
  hypotenuse x y :=
    if x.isInf || y.isInf then 1.0 / 0.0
    else if x.isNaN || y.isNaN then 0.0 / 0.0
    else if x.abs < y.abs then length y.abs x.abs
    else length x.abs y.abs
  cosine := Float.cos
  sine := Float.sin
  arccosine := Float.acos
  bearing := Float.atan2

end Platform

end Figures
