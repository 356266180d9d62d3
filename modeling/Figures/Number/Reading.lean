import Figures.Number.Binary

/-!
# Reading doubles

* `readNumber? cs`   the double that a text denotes: an optional sign, then `inf`, `infinity` or
                     `nan` in any case, or digits with at most one point and an optional power of
                     ten; at least one digit, no blanks, no separators
* `nearestDecimal`   the double nearest to `m * 10 ^ e`
-/

namespace Figures

def digitsValue (acc : Nat) (cs : List Char) : Nat :=
  cs.foldl (fun n c => 10 * n + (c.toNat - '0'.toNat)) acc

/-- the double nearest to `m * 10 ^ e`; `len` is a bound on the number of digits of `m`, so that
values far outside the range of doubles are seen without computing the power -/
def nearestDecimal (m len : Nat) (e : Int) : Float :=
  if m = 0 then 0.0
  else if 400 < e then Float.ofBits (UInt64.ofNat (2047 * hiddenBit))
  else if e + (len : Int) < -400 then 0.0
  else nearestRatio (m * powerOfTen e.toNat) (powerOfTen (-e).toNat)

/-- a sign and what follows it -/
def splitSign : List Char → Bool × List Char
  | '-' :: rest => (true, rest)
  | '+' :: rest => (false, rest)
  | cs => (false, cs)

/-- the power of ten after a number's digits: nothing, or `e`, an optional sign and digits -/
def readPower? : List Char → Option Int
  | [] => some 0
  | c :: rest =>
    if c = 'e' ∨ c = 'E' then
      let (negative, ds) := splitSign rest
      if ds.isEmpty || !ds.all Char.isDigit then none
      else
        let n : Int := digitsValue 0 ds
        some (if negative then -n else n)
    else none

/-- digits with at most one point, then a power of ten -/
def readDecimal? (cs : List Char) : Option Float :=
  let whole := cs.takeWhile Char.isDigit
  let rest := cs.dropWhile Char.isDigit
  let (places, rest) := match rest with
    | '.' :: r => (r.takeWhile Char.isDigit, r.dropWhile Char.isDigit)
    | r => ([], r)
  if whole.isEmpty && places.isEmpty then none
  else (readPower? rest).map fun power =>
    let ds := whole ++ places
    nearestDecimal (digitsValue 0 ds) ds.length (power - (places.length : Int))

/-- the double that a text denotes -/
def readNumber? (s : String) : Option Float :=
  let (negative, cs) := splitSign s.toList
  let lower := String.ofList (cs.map Char.toLower)
  let magnitude :=
    if lower = "inf" ∨ lower = "infinity" then some (1.0 / 0.0)
    else if lower = "nan" then some (0.0 / 0.0)
    else readDecimal? cs
  magnitude.map fun x => if negative then -x else x

end Figures
