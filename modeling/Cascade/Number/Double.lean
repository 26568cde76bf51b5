/-!
# Binary floating-point numbers

Numbers of 53 significant bits with exponents from -1074 to 971: what a decimal numeral with a
point or an exponent denotes. A finite number is `mantissa * 2 ^ exponent`, in the one form with a
full mantissa or the least exponent, so equal numbers of one sign are equal values.

`Double.ofDecimal` rounds a decimal to the nearest such number by exact integer arithmetic. There
is no other arithmetic on them here: the numbers are read, asked whether they are whole, and
written.
-/

namespace Cascade

inductive Double where
  | nan
  | infinity (negative : Bool)
  | finite (negative : Bool) (mantissa : Nat) (exponent : Int)
  deriving DecidableEq, Repr

namespace Double

/-- The least exponent; numbers with a short mantissa have it. -/
def minExponent : Int := -1074

/-- The greatest exponent of a finite number. -/
def maxExponent : Int := 971

def zero (negative : Bool) : Double :=
  .finite negative 0 minExponent

/-- The whole number nearest to `n / d`; a half goes to the even neighbour. -/
def roundHalfEven (n d : Nat) : Nat :=
  let q := n / d
  let r := n % d
  if 2 * r < d then q
  else if d < 2 * r then q + 1
  else if q % 2 = 0 then q else q + 1

/-- The greatest `k` with `2 ^ k ≤ n / d`. -/
def floorLog2 (n d : Nat) : Int :=
  let k : Int := (n.log2 : Int) - d.log2
  if d * Nat.pow 2 k.toNat ≤ n * Nat.pow 2 (-k).toNat then k else k - 1

/-- The number nearest to `n / d`, for positive `n` and `d`. -/
def ofRatio (negative : Bool) (n d : Nat) : Double :=
  let e := max minExponent (floorLog2 n d - 52)
  let m := roundHalfEven (n * Nat.pow 2 (-e).toNat) (d * Nat.pow 2 e.toNat)
  -- Rounding up may fill the mantissa: the next power of two has one more bit of exponent.
  let (m, e) := if m = Nat.pow 2 53 then (Nat.pow 2 52, e + 1) else (m, e)
  if maxExponent < e then .infinity negative else .finite negative m e

/-- The number nearest to `digits * 10 ^ exponent`.

The two cuts only spare work: below `10 ^ -400` everything rounds to zero and above `10 ^ 400` to
infinity, whatever the digits are. -/
def ofDecimal (negative : Bool) (digits : Nat) (exponent : Int) : Double :=
  let magnitude : Int := (Nat.toDigits 10 digits).length + exponent
  if digits = 0 || magnitude < -400 then zero negative
  else if 400 < magnitude then .infinity negative
  else ofRatio negative (digits * Nat.pow 10 exponent.toNat) (Nat.pow 10 (-exponent).toNat)

/-- The value as a whole number, if it is one. -/
def toInt? : Double → Option Int
  | .nan => none
  | .infinity _ => none
  | .finite negative m e =>
    let scale := Nat.pow 2 (-e).toNat
    if m % scale = 0 then
      let n : Int := (m * Nat.pow 2 e.toNat / scale : Nat)
      some (if negative then -n else n)
    else none

def isZero : Double → Bool
  | .finite _ m _ => m = 0
  | _ => false

end Double

end Cascade
