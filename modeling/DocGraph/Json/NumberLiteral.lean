import DocGraph.Json.Value

/-!
# Number literals

What the digits of a JSON number stand for. An integer literal of 64 bits is an
integer; every other literal is a double. A double is read from the leading
digits that fit 64 bits: later digits only count for the scale, and the scaling
by a power of ten rounds once more.
-/

namespace DocGraph.Json

/-- A number as written: its sign, its whole digits, the digits behind the point
if there is one, and the exponent if there is one. -/
structure NumberLiteral where
  negative : Bool
  whole : List Nat
  fraction : Option (List Nat)
  exponent : Option Int

namespace NumberLiteral

/-- Appends digits to a number while it stays below `2 ^ 64`, and returns the
digits from the first that does not fit. -/
def absorb (number : Nat) : List Nat → Nat × List Nat
  | [] => (number, [])
  | digit :: rest =>
    let next := number * 10 + digit
    if next < Nat.pow 2 64 then absorb next rest else (number, digit :: rest)

/-- Scales a number below `2 ^ 64` by a power of ten. A scale beyond `10 ^ -308`
is reached by two divisions, and beyond `10 ^ -616` nothing but zero is left. -/
def scale? (value : Double) (exponent : Int) : Option Double :=
  if 0 ≤ exponent then
    if exponent ≤ 308 then value.mul? (.powerOfTen exponent.toNat)
    else if value.isZero then some value
    else none
  else if -308 ≤ exponent then value.div? (.powerOfTen (-exponent).toNat)
  else if -616 ≤ exponent then
    (value.div? (.powerOfTen 308)).bind (·.div? (.powerOfTen (-exponent - 308).toNat))
  else some .zero

/-- The double that a literal stands for, unless it is beyond the finite ones. -/
def double? (literal : NumberLiteral) : Option Double :=
  let (whole, skipped) := absorb 0 literal.whole
  let fraction := literal.fraction.getD []
  let (significand, ignored) := absorb whole fraction
  let places : Int := skipped.length - (fraction.length - ignored.length : Nat)
  match (Double.ofNat? significand).bind (scale? · (places + literal.exponent.getD 0)) with
  | some value => some (if literal.negative then value.neg else value)
  | none => none

/-- The number that a literal stands for, if any. A negative zero is a double. -/
def number? (literal : NumberLiteral) : Option Number :=
  let (whole, skipped) := absorb 0 literal.whole
  if literal.fraction.isNone && literal.exponent.isNone && skipped.isEmpty then
    if !literal.negative then some (.integer whole)
    else if 0 < whole ∧ whole ≤ Nat.pow 2 63 then some (.integer (-whole))
    else literal.double?.map .double
  else literal.double?.map .double

end NumberLiteral

end DocGraph.Json
