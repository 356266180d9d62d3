/-!
# Finite doubles, exactly

* `Binary`             a finite double as `± significand * 2 ^ exponent`
* `Binary.ofFloat?`    the exact value of a double; NaN and the infinities have none
* `halfEven n d`       the integer nearest to `n / d`, a half going to the even neighbour
* `Binary.nearest m e` the double nearest to `m * 2 ^ e`, ties to even
* `nearestRatio n d`   the double nearest to `n / d`, ties to even

Everything that turns a double into text or back is computed on these exact values.
-/

namespace Figures

/-- a finite double, exactly: `significand * 2 ^ exponent` with a sign -/
structure Binary where
  negative : Bool
  significand : Nat
  exponent : Int
  deriving Repr, DecidableEq

/-- `2 ^ 52`, the bit that a normal double has without storing it -/
def hiddenBit : Nat := 0x10000000000000

/-- `2 ^ 63`, the bit of the sign in a word of 64 bits -/
def signBit : Nat := 0x8000000000000000

def powerOfTen (k : Nat) : Nat := Nat.pow 10 k

/-- the integer nearest to `num / den`; a tie goes to the even neighbour -/
def halfEven (num den : Nat) : Nat :=
  let q := num / den
  let r := num % den
  if 2 * r < den then q
  else if den < 2 * r then q + 1
  else if q % 2 = 0 then q else q + 1

namespace Binary

/-- the exact value of a finite double -/
def ofFloat? (x : Float) : Option Binary :=
  let bits : Nat := x.toBits.toNat
  let negative := decide (signBit ≤ bits)
  let field : Nat := (bits >>> 52) % 2048
  let fraction : Nat := bits % hiddenBit
  if field = 2047 then none
  else if field = 0 then some ⟨negative, fraction, -1074⟩
  else some ⟨negative, hiddenBit + fraction, (field : Int) - 1075⟩

/-- `m * 2 ^ e` as a fraction of natural numbers -/
def fraction (m : Nat) (e : Int) : Nat × Nat :=
  (m <<< e.toNat, 1 <<< (-e).toNat)

/-- the nonnegative double nearest to `m * 2 ^ e`, ties to even; too large a value is infinite -/
def nearest (m : Nat) (e : Int) : Float :=
  if m = 0 then 0.0
  else
    let q : Int := max (e + (m.log2 : Int) - 52) (-1074)
    let n := halfEven (m <<< (e - q).toNat) (1 <<< (q - e).toNat)
    let bits := (q + 1074).toNat * hiddenBit + n
    Float.ofBits (UInt64.ofNat (min bits (2047 * hiddenBit)))

/-- the value as a double again -/
def toFloat (b : Binary) : Float :=
  let x := nearest b.significand b.exponent
  if b.negative then -x else x

end Binary

/-- the double nearest to `num / den`, ties to even: the quotient is taken to at least 64 bits and a
last bit says whether anything was left over -/
def nearestRatio (num den : Nat) : Float :=
  let shift := 64 + den.log2 - num.log2
  let n := num <<< shift
  let rest := if n % den = 0 then 0 else 1
  Binary.nearest (2 * (n / den) + rest) (-(shift : Int) - 1)

end Figures
