import Figures.Number.Fixed

/-!
# The fewest digits that read back

* `Digits`           `digits * 10 ^ exponent`
* `Spread`           a double's exact value with the interval of reals that round to it
* `shortest`         of all decimals in the interval, one with the fewest digits, and of those the
                     nearest to the value; on a tie the format decides
* `plain x`          positional notation without an exponent: `0.1`, `5`, `-0`, `NaN`, `inf`
* `precise x`        the notation of JSON documents: `5.0`, `1e-7`, `1e+16`
-/

namespace Figures

/-- which of two equally near decimals is taken -/
inductive Tie where
  | up
  | even
  deriving Repr, DecidableEq

structure Digits where
  digits : Nat
  exponent : Int
  deriving Repr, DecidableEq

/-- a positive double and its rounding interval, all in units of `2 ^ exponent` -/
structure Spread where
  value : Nat
  low : Nat
  high : Nat
  exponent : Int
  closed : Bool

namespace Spread

/-- the interval of reals that round to `m * 2 ^ e`; below a power of two the neighbour is nearer,
and the ends belong to the interval if `m` is even -/
def of (m : Nat) (e : Int) : Spread where
  value := 4 * m
  low := if m = hiddenBit ∧ e ≠ -1074 then 4 * m - 1 else 4 * m - 2
  high := 4 * m + 2
  exponent := e - 2
  closed := m % 2 = 0

/-- `n` units over `10 ^ t`, as a fraction -/
def ratio (s : Spread) (t : Int) (n : Nat) : Nat × Nat :=
  let (num, den) := Binary.fraction n s.exponent
  (num * powerOfTen (-t).toNat, den * powerOfTen t.toNat)

/-- whether `c * 10 ^ t` rounds to the value -/
def holds (s : Spread) (t : Int) (c : Nat) : Bool :=
  let (low, den) := s.ratio t s.low
  let (high, _) := s.ratio t s.high
  if s.closed then low ≤ c * den && c * den ≤ high else low < c * den && c * den < high

/-- the better of the value's two neighbours on the grid of `10 ^ t`, if one rounds to the value -/
def onGrid? (s : Spread) (tie : Tie) (t : Int) : Option Nat :=
  let (num, den) := s.ratio t s.value
  let c := num / den
  let r := num % den
  match s.holds t c, s.holds t (c + 1) with
  | true, false => some c
  | false, true => some (c + 1)
  | false, false => none
  | true, true =>
    if 2 * r < den then some c
    else if den < 2 * r then some (c + 1)
    else match tie with
      | .up => some (c + 1)
      | .even => some (if c % 2 = 0 then c else c + 1)

/-- the first hit on the grids of `10 ^ t`, `10 ^ (t - 1)`, … -/
def search (s : Spread) (tie : Tie) : Nat → Int → Digits
  | 0, t => ⟨(s.ratio t s.value).1 / (s.ratio t s.value).2, t⟩
  | fuel + 1, t =>
    match s.onGrid? tie t with
    | some c => ⟨c, t⟩
    | none => search s tie fuel (t - 1)

end Spread

/-- the fewest digits that read back as `m * 2 ^ e`. The search starts at a grid above the value; at
most 17 digits are needed, so 24 grids are enough -/
def shortest (tie : Tie) (m : Nat) (e : Int) : Digits :=
  let top := (e + (m.log2 : Int) + 1) * 30103 / 100000 + 2
  (Spread.of m e).search tie 24 top

namespace Digits

def zeros (n : Nat) : String := String.ofList (List.replicate n '0')

/-- positional notation; `whole` is appended when there are no places -/
def positional (whole : String) (d : Digits) : String :=
  let ds := Nat.repr d.digits
  if 0 ≤ d.exponent then ds ++ zeros d.exponent.toNat ++ whole
  else
    let places := (-d.exponent).toNat
    let cs := ds.toList
    if places < cs.length then
      String.ofList (cs.take (cs.length - places)) ++ "." ++
        String.ofList (cs.drop (cs.length - places))
    else "0." ++ zeros (places - cs.length) ++ ds

/-- the power of ten of the leading digit -/
def magnitude (d : Digits) : Int :=
  d.exponent + ((Nat.repr d.digits).length : Int) - 1

/-- one digit, a point, the other digits and a signed power of ten -/
def scientific (d : Digits) : String :=
  let e := d.magnitude
  let power := if e < 0 then "e-" ++ Nat.repr (-e).toNat else "e+" ++ Nat.repr e.toNat
  match (Nat.repr d.digits).toList with
  | [] => power
  | [c] => String.ofList [c] ++ power
  | c :: cs => String.ofList [c] ++ "." ++ String.ofList cs ++ power

end Digits

def signed (negative : Bool) (s : String) : String :=
  if negative then "-" ++ s else s

/-- positional notation without an exponent; of two equally near decimals the upper one -/
def plain (x : Float) : String :=
  match Binary.ofFloat? x with
  | none => nonFiniteName x
  | some b =>
    if b.significand = 0 then signed b.negative "0"
    else signed b.negative ((shortest .up b.significand b.exponent).positional "")

/-- the text of a finite double in a JSON document: positional from `1e-5` up to below `1e16`, a
whole number with `.0`; of two equally near decimals the even one -/
def precise? (x : Float) : Option String :=
  (Binary.ofFloat? x).map fun b =>
    if b.significand = 0 then signed b.negative "0.0"
    else
      let d := shortest .even b.significand b.exponent
      signed b.negative <|
        if -5 ≤ d.magnitude ∧ d.magnitude < 16 then d.positional ".0" else d.scientific

end Figures
