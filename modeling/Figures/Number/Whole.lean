import Figures.Number.Binary

/-!
# Whole numbers next to a double

* `Binary.truncated`, `Binary.isWhole`   the integer part of an exact value, and whether it is all
* `floor`, `ceiling`                     the whole neighbours of a double, as doubles
* `wholeNearest`                         the nearest whole number, a half going away from zero
* `toCount limit x`                      a double cut to a natural number: NaN and negative values
                                         count as `0`, what lies above the limit as the limit

A result of zero keeps the sign of its argument; what is not finite is its own neighbour.
-/

namespace Figures

namespace Binary

/-- the magnitude's integer part -/
def truncated (b : Binary) : Nat :=
  let (num, den) := fraction b.significand b.exponent
  num / den

/-- no part of the magnitude lies behind the point -/
def isWhole (b : Binary) : Bool :=
  let (num, den) := fraction b.significand b.exponent
  num % den == 0

/-- a whole number with a sign, as a double -/
def whole (negative : Bool) (n : Nat) : Float :=
  let x := nearest n 0
  if negative then -x else x

end Binary

/-- the greatest whole number that is not above `x` -/
def floor (x : Float) : Float :=
  match Binary.ofFloat? x with
  | none => x
  | some b =>
    let up := if b.negative && !b.isWhole then 1 else 0
    Binary.whole b.negative (b.truncated + up)

/-- the least whole number that is not below `x` -/
def ceiling (x : Float) : Float :=
  match Binary.ofFloat? x with
  | none => x
  | some b =>
    let up := if !b.negative && !b.isWhole then 1 else 0
    Binary.whole b.negative (b.truncated + up)

/-- the whole number nearest to `x`; a half goes away from zero -/
def wholeNearest (x : Float) : Float :=
  match Binary.ofFloat? x with
  | none => x
  | some b =>
    let (num, den) := Binary.fraction b.significand b.exponent
    Binary.whole b.negative ((2 * num + den) / (2 * den))

def isWhole (x : Float) : Bool :=
  match Binary.ofFloat? x with
  | none => false
  | some b => b.isWhole

/-- `x` cut to a natural number of at most `limit` -/
def toCount (limit : Nat) (x : Float) : Nat :=
  match Binary.ofFloat? x with
  | none => if 0.0 < x then limit else 0
  | some b => if b.negative then 0 else min limit b.truncated

/-- the largest natural number of 64 bits -/
def word64 : Nat := 0xFFFFFFFFFFFFFFFF

end Figures
