/-!
# Finite double-precision numbers

A finite binary64 number is a sign and a magnitude. The magnitude is the biased
exponent and the fraction read as one natural number, so magnitudes are ordered
as the absolute values they stand for. Every finite double is a whole number of
units of `2 ^ -1074`; rounding is done in exact natural arithmetic on units.
-/

namespace DocGraph

/-- A finite binary64 number. The two zeros are different values. -/
structure Double where
  negative : Bool
  magnitude : Nat
  finite : magnitude < 2047 * Nat.pow 2 52
deriving DecidableEq

namespace Double

/-- The least magnitude that no finite double has. -/
def limit : Nat := 2047 * Nat.pow 2 52

def zero : Double := ⟨false, 0, by decide⟩

instance : Inhabited Double := ⟨zero⟩

def isZero (value : Double) : Bool := value.magnitude == 0

def neg (value : Double) : Double := { value with negative := !value.negative }

/-- The double with its sign set to positive when it is a zero. -/
def canonical (value : Double) : Double :=
  if value.magnitude = 0 then zero else value

/-- The absolute value of a magnitude, in units of `2 ^ -1074`. -/
def unitsOf (magnitude : Nat) : Nat :=
  let scale := magnitude / Nat.pow 2 52 - 1
  (magnitude - scale * Nat.pow 2 52) * Nat.pow 2 scale

def units (value : Double) : Nat := unitsOf value.magnitude

/-- The number of units in one. -/
def unit : Nat := Nat.pow 2 1074

/-- The whole number nearest to `numerator / denominator`; a half goes to the
even neighbour. -/
def divideToEven (numerator denominator : Nat) : Nat :=
  let quotient := numerator / denominator
  let twice := 2 * (numerator % denominator)
  if twice < denominator then quotient
  else if denominator < twice then quotient + 1
  else quotient + quotient % 2

/-- The magnitude nearest to `numerator / denominator` units. It is at least
`limit` when the quotient is beyond the finite doubles. -/
def roundMagnitude (numerator denominator : Nat) : Nat :=
  let scale := (numerator / denominator).log2 - 52
  scale * Nat.pow 2 52 + divideToEven numerator (denominator * Nat.pow 2 scale)

/-- The double nearest to `numerator / denominator` units, if it is finite. -/
def ofUnits? (negative : Bool) (numerator denominator : Nat) : Option Double :=
  let magnitude := roundMagnitude numerator denominator
  if finite : magnitude < 2047 * Nat.pow 2 52 then some ⟨negative, magnitude, finite⟩ else none

/-- The double nearest to a natural number, if it is finite. -/
def ofNat? (value : Nat) : Option Double := ofUnits? false (value * unit) 1

/-- The double nearest to an integer; zero is positive. Integers of 64 bits are
always in range. -/
def ofInt (value : Int) : Double :=
  (ofUnits? (value < 0) (value.natAbs * unit) 1).getD zero

/-- The double nearest to a power of ten. -/
def powerOfTen (exponent : Nat) : Double := (ofNat? (Nat.pow 10 exponent)).getD zero

/-- The rounded product of two absolute values, if it is finite. -/
def mul? (left right : Double) : Option Double :=
  ofUnits? (left.negative != right.negative) (left.units * right.units) unit

/-- The rounded quotient of two absolute values, if it is finite. -/
def div? (left right : Double) : Option Double :=
  ofUnits? (left.negative != right.negative) (left.units * unit) right.units

/-- The place of a double in the total order: negative numbers come first, the
larger magnitude before the smaller, and negative zero precedes zero. -/
def orderKey (value : Double) : Int :=
  if value.negative then -(value.magnitude : Int) - 1 else value.magnitude

end Double

end DocGraph
