import Figures.Number.Binary

/-!
# Decimals with a fixed number of places

* `Fixed`            `± units / 10 ^ places`; a zero carries no sign
* `Fixed.round`      an exact value rounded to some places, ties to even
* `Fixed.text`       all places written out
* `Fixed.shorten`    the same value without trailing zeros in its places
* `Numerals`         how numbers are written in markup and captions
* `Numerals.standard`   rounded, no trailing zeros, never `-0`; NaN and the infinities are written
                        `0`
* `tidy p x`         the text of a double in markup and captions, rounded to `p` places

What figures draw is stated over any numerals, so it can be said what a picture would be if numbers
were written in another way. There is one way in which they are.
-/

namespace Figures

/-- the decimal `± units / 10 ^ places` -/
structure Fixed where
  negative : Bool
  units : Nat
  places : Nat
  deriving Repr, DecidableEq

namespace Fixed

/-- an exact value rounded to `places` decimal places, a half going to the even neighbour -/
def round (places : Nat) (b : Binary) : Fixed :=
  let (num, den) := Binary.fraction b.significand b.exponent
  let units := halfEven (num * powerOfTen places) den
  ⟨b.negative && units != 0, units, places⟩

/-- trailing zeros of the places dropped -/
def shortenAux (negative : Bool) (units : Nat) : Nat → Fixed
  | 0 => ⟨negative, units, 0⟩
  | p + 1 => if units % 10 = 0 then shortenAux negative (units / 10) p else ⟨negative, units, p + 1⟩

/-- the same value with no trailing zero among its places -/
def shorten (d : Fixed) : Fixed := shortenAux d.negative d.units d.places

def lastDigits (n : Nat) : Nat → List Char → List Char
  | 0, acc => acc
  | w + 1, acc => lastDigits (n / 10) w (Nat.digitChar (n % 10) :: acc)

/-- integer part, point and all places; no point without places -/
def text (d : Fixed) : String :=
  let whole := Nat.repr (d.units / powerOfTen d.places)
  let signed := if d.negative then "-" ++ whole else whole
  if d.places = 0 then signed
  else signed ++ "." ++ String.ofList (lastDigits d.units d.places [])

end Fixed

/-- how numbers are written, rounded to some places -/
class Numerals where
  written : Nat → Float → String

/-- a double is rounded and written without trailing zeros; what is not finite is `0` -/
instance Numerals.standard : Numerals where
  written places x :=
    match Binary.ofFloat? x with
    | none => "0"
    | some b => (Fixed.round places b).shorten.text

/-- a double in markup and captions, rounded to `places` -/
def tidy [Numerals] (places : Nat) (x : Float) : String := Numerals.written places x

theorem tidy_standard (places : Nat) (x : Float) : tidy places x =
    match Binary.ofFloat? x with
    | none => "0"
    | some b => (Fixed.round places b).shorten.text := rfl

def nonFiniteName (x : Float) : String :=
  if x.isNaN then "NaN" else if x < 0.0 then "-inf" else "inf"

/-- a double with exactly `places` places -/
def fixedText (places : Nat) (x : Float) : String :=
  match Binary.ofFloat? x with
  | none => nonFiniteName x
  | some b => (Fixed.round places b).text

end Figures
