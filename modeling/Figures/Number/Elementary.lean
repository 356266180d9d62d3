import Figures.Number.Platform
import Figures.Number.Whole

/-!
# Elementary functions of doubles

* `lesser`, `greater`     of two doubles; a NaN gives way to the other argument
* `clamp lo hi x`         `x` kept between two bounds
* `remainder x y`         what is left of `x` after whole multiples of `y` towards zero, exactly
* `radians`, `degrees`    conversion of angles
-/

namespace Figures

def pi : Float := 3.14159265358979323846264338327950288

/-- the smaller argument; a NaN gives way -/
def lesser (a b : Float) : Float :=
  if a.isNaN then b else if b < a then b else a

/-- the larger argument; a NaN gives way -/
def greater (a b : Float) : Float :=
  if a.isNaN then b else if a < b then b else a

/-- `x` moved to the nearer bound if it lies outside -/
def clamp (lo hi x : Float) : Float :=
  if x < lo then lo else if hi < x then hi else x

/-- the remainder of `x` after whole multiples of `y`; it has the sign of `x` -/
def remainder (x y : Float) : Float :=
  match Binary.ofFloat? x, Binary.ofFloat? y with
  | some a, some b =>
    if b.significand = 0 then 0.0 / 0.0
    else
      let e := min a.exponent b.exponent
      let m := a.significand <<< (a.exponent - e).toNat
      let n := b.significand <<< (b.exponent - e).toNat
      (Binary.mk a.negative (m % n) e).toFloat
  | some _, none => if y.isInf then x else y
  | none, _ => 0.0 / 0.0

def radians (x : Float) : Float := x * (pi / 180.0)

def degrees (x : Float) : Float := x * 57.2957795130823208767981548141051703

end Figures
