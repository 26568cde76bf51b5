import Cascade.Number.Double

/-!
# Shortest decimals

A floating-point number is written with the fewest significant digits that still denote it, and
among decimals of that length with the one nearest to it.

The reals that round to a number form an interval around it, from halfway to the neighbour below
to halfway to the neighbour above; the two ends belong to it exactly when the mantissa is even.
For one, two, ... digits the search looks at the two points of that decimal grid next to the
number. If any point of the grid lies in the interval, one of these two does.
-/

namespace Cascade.Double

/-- The decimal `digits * 10 ^ exponent`. -/
structure Decimal where
  digits : Nat
  exponent : Int
  deriving DecidableEq, Repr

/-- The number of decimal digits before the point, or minus the number of zeros behind it: the
least `k` with `n / d < 10 ^ k`, except that exact negative powers of ten count one more. -/
def decimalPlaces (n d : Nat) : Int :=
  if d ≤ n then (Nat.toDigits 10 (n / d)).length else 1 - (Nat.toDigits 10 (d / n)).length

/-- The point of the decimal grid `10 ^ grid` that denotes `m * 2 ^ e` and is nearest to it, if
one does. All lengths are in units of a quarter of the last binary place, so that the halfway
points are whole: `4 * m` is the number itself. -/
def gridPoint? (m : Nat) (e grid : Int) : Option Nat :=
  let quarter := Nat.pow 2 (e - 2).toNat * Nat.pow 10 (-grid).toNat
  let step := Nat.pow 10 grid.toNat * Nat.pow 2 (2 - e).toNat
  -- Below a power of two the neighbour is half as far away.
  let below := if m = Nat.pow 2 52 && minExponent < e then 4 * m - 1 else 4 * m - 2
  let above := 4 * m + 2
  let inside (c : Nat) : Bool :=
    if m % 2 = 0 then below * quarter ≤ c * step && c * step ≤ above * quarter
    else below * quarter < c * step && c * step < above * quarter
  let c := 4 * m * quarter / step
  match inside c, inside (c + 1) with
  | true, true =>
    match compare (2 * (4 * m * quarter)) ((2 * c + 1) * step) with
    | .lt => some c
    | .gt => some (c + 1)
    | .eq => some (if c % 2 = 0 then c else c + 1)
  | true, false => some c
  | false, true => some (c + 1)
  | false, false => none

/-- Moves trailing zeros of the digits into the exponent. -/
def Decimal.normalize (d : Decimal) : Decimal :=
  let zeros := ((Nat.toDigits 10 d.digits).reverse.takeWhile (· = '0')).length
  ⟨d.digits / Nat.pow 10 zeros, d.exponent + zeros⟩

/-- The shortest decimal that denotes `m * 2 ^ e`, for positive `m`. Seventeen digits always
suffice; the exact value stands behind them only to make the function total. -/
def shortest (m : Nat) (e : Int) : Decimal :=
  let places := decimalPlaces (m * Nat.pow 2 e.toNat) (Nat.pow 2 (-e).toNat)
  let search := (List.range 17).findSome? fun (i : Nat) =>
    let grid := places - 1 - i
    (gridPoint? m e grid).map fun c => Decimal.normalize ⟨c, grid⟩
  search.getD (if 0 ≤ e then ⟨m * Nat.pow 2 e.toNat, 0⟩ else ⟨m * Nat.pow 5 (-e).toNat, e⟩)

/-- Numbers whose leading digit counts from `10 ^ -4` to `10 ^ 15` are written positionally, a
whole one with `.0` behind it; all others with an exponent of a sign and at least two digits. -/
def Decimal.text (d : Decimal) : String :=
  let digits := Nat.toDigits 10 d.digits
  let point : Int := digits.length + d.exponent
  let zeros (n : Int) := List.replicate n.toNat '0'
  String.ofList <|
    if point ≤ -4 || 16 < point then
      let exponent := point - 1
      let size := Nat.toDigits 10 exponent.natAbs
      digits.take 1 ++ (if digits.length = 1 then [] else '.' :: digits.drop 1)
        ++ ['e', if exponent < 0 then '-' else '+'] ++ zeros (2 - size.length) ++ size
    else if point ≤ 0 then ['0', '.'] ++ zeros (-point) ++ digits
    else if digits.length ≤ point then digits ++ zeros d.exponent ++ ['.', '0']
    else digits.take point.toNat ++ '.' :: digits.drop point.toNat

/-- The shortest text that denotes the number. -/
def text : Double → String
  | .nan => "nan"
  | .infinity negative => (if negative then "-" else "") ++ "inf"
  | .finite negative m e =>
    (if negative then "-" else "") ++ (if m = 0 then "0.0" else (shortest m e).text)

end Cascade.Double
