import DocGraph.Number.Double

/-!
# Shortest decimals

The shortest decimal that reads back as a given double: of all decimals in the
interval of reals that round to the double, those on the coarsest decimal grid,
and of these the nearest; of two equally near ones the one with the even last
digit. Digits are found in exact natural arithmetic.
-/

namespace DocGraph

/-- The positive decimal `digits * 10 ^ exponent`. -/
structure Decimal where
  digits : Nat
  exponent : Int
deriving DecidableEq

namespace Decimal

/-- The value in halves of a unit of `2 ^ -1074` is `numerator / denominator`. -/
def numerator (decimal : Decimal) : Nat :=
  decimal.digits * Nat.pow 10 decimal.exponent.toNat * (2 * Double.unit)

def denominator (decimal : Decimal) : Nat := Nat.pow 10 (-decimal.exponent).toNat

end Decimal

namespace Double

/-- Twice the lower end of the interval that rounds to the magnitude, in units. -/
def lowerEnd (magnitude : Nat) : Nat := unitsOf (magnitude - 1) + unitsOf magnitude

/-- Twice the upper end of the interval that rounds to the magnitude, in units. -/
def upperEnd (magnitude : Nat) : Nat := unitsOf magnitude + unitsOf (magnitude + 1)

/-- Whether a decimal rounds to the magnitude. The ends belong to the interval
of an even magnitude. -/
def roundsFrom (magnitude : Nat) (decimal : Decimal) : Bool :=
  let low := lowerEnd magnitude * decimal.denominator
  let high := upperEnd magnitude * decimal.denominator
  if magnitude % 2 = 0 then low ≤ decimal.numerator && decimal.numerator ≤ high
  else low < decimal.numerator && decimal.numerator < high

/-- The nearer of the two grid neighbours of the magnitude that round to it. -/
def nearestOnGrid? (magnitude : Nat) (exponent : Int) : Option Decimal :=
  let step : Decimal := ⟨1, exponent⟩
  let value := 2 * unitsOf magnitude * step.denominator
  let below : Decimal := ⟨value / step.numerator, exponent⟩
  let above : Decimal := ⟨value / step.numerator + 1, exponent⟩
  match roundsFrom magnitude below, roundsFrom magnitude above with
  | false, false => none
  | true, false => some below
  | false, true => some above
  | true, true =>
    let twice := 2 * (value % step.numerator)
    if twice < step.numerator then some below
    else if step.numerator < twice then some above
    else if below.digits % 2 = 0 then some below
    else some above

/-- The decimal of the coarsest grid that is no coarser than the given one. The
finest grid is `10 ^ -324`, finer than the gap between any two doubles. -/
def coarsest (magnitude : Nat) : Nat → Decimal
  | 0 => (nearestOnGrid? magnitude (-324)).getD ⟨0, 0⟩
  | grid + 1 =>
    match nearestOnGrid? magnitude ((grid + 1 : Nat) - 324 : Int) with
    | some decimal => decimal
    | none => coarsest magnitude grid

/-- The shortest decimal that reads back as the absolute value of a double. -/
def shortest (value : Double) : Decimal :=
  if value.magnitude = 0 then ⟨0, 0⟩ else coarsest value.magnitude 633

/-- The text of a double: a sign if it is negative, then the shortest digits.
Scientific exponents from -5 to 15 are written positionally with at least one
digit on each side of the point, all others with an exponent of explicit sign. -/
def toText (value : Double) : String :=
  let decimal := value.shortest
  let digits := (Nat.repr decimal.digits).toList
  let scientific := decimal.exponent + (digits.length : Int) - 1
  let body : List Char :=
    if value.magnitude = 0 then "0.0".toList
    else if -5 ≤ scientific ∧ scientific ≤ 15 then
      if 0 ≤ decimal.exponent then
        digits ++ List.replicate decimal.exponent.toNat '0' ++ ".0".toList
      else if 0 ≤ scientific then
        digits.take (scientific.toNat + 1) ++ '.' :: digits.drop (scientific.toNat + 1)
      else
        "0.".toList ++ List.replicate ((-scientific).toNat - 1) '0' ++ digits
    else
      let mantissa := match digits with
        | first :: second :: rest => first :: '.' :: second :: rest
        | short => short
      let sign := if scientific < 0 then '-' else '+'
      mantissa ++ 'e' :: sign :: (Nat.repr scientific.natAbs).toList
  String.ofList (if value.negative then '-' :: body else body)

end Double

end DocGraph
