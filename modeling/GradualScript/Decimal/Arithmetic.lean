import GradualScript.Decimal.Basic

/-!
# Arithmetic of decimals

An operation finds the exact result first and then fits it into a decimal: it drops as few digits as
needed, rounding to nearest with ties to the even neighbour. There is no result when even the whole
part has more than 96 bits.
-/

namespace GradualScript.Decimal

/-- The quotient rounded to nearest, ties to the even neighbour. -/
def roundDiv (numerator denominator : Nat) : Nat :=
  let quotient := numerator / denominator
  let twice := 2 * (numerator % denominator)
  if twice > denominator ∨ (twice = denominator ∧ quotient % 2 = 1) then quotient + 1 else quotient

/-- A rounded mantissa as a decimal. Rounding may have brought it to the limit; then one more digit
is dropped. -/
def settle (negative : Bool) (mantissa scale : Nat) : Option Decimal :=
  if mantissa < mantissaLimit then ofParts? negative mantissa scale
  else
    match scale with
    | 0 => none
    | scale + 1 => ofParts? negative (roundDiv mantissa 10) scale

/-- The decimal nearest to `± mantissa / 10 ^ scale`: of the digits after the point the fewest are
dropped that leave a scale and a mantissa in range. -/
def fit (negative : Bool) (mantissa scale : Nat) : Option Decimal := do
  let dropped ← (List.range (scale + 1)).find? fun count =>
    scale - count ≤ maxScale && mantissa / tenPower count < mantissaLimit
  settle negative (roundDiv mantissa (tenPower dropped)) (scale - dropped)

/-- The mantissa with its sign, at a scale that is no smaller than the decimal's own. -/
def signedAt (d : Decimal) (scale : Nat) : Int :=
  let magnitude : Int := d.mantissa * tenPower (scale - d.scale)
  if d.negative then -magnitude else magnitude

/-- The decimal of opposite sign. Zero is left as it is. -/
def negate (d : Decimal) : Decimal :=
  if d.isZero then d else { d with negative := !d.negative }

/-- The sum. A zero operand gives back the other one, with its scale. -/
def add? (left right : Decimal) : Option Decimal :=
  if left.isZero then some right
  else if right.isZero then some left
  else
    let scale := max left.scale right.scale
    let sum := left.signedAt scale + right.signedAt scale
    fit (sum < 0) sum.natAbs scale

/-- The difference. -/
def sub? (left right : Decimal) : Option Decimal := add? left right.negate

/-- Whether the mantissa fits into 32 bits. -/
def isShort (d : Decimal) : Bool := d.mantissa < 4294967296

/-- The product. Two short operands with more than 47 places between them give zero; a product that
rounds to zero has no sign if both operands are short, and else keeps it. -/
def mul? (left right : Decimal) : Option Decimal :=
  let short := left.isShort && right.isShort
  let scale := left.scale + right.scale
  if left.isZero || right.isZero || (short && 47 < scale) then some zero
  else do
    let product ← fit (left.negative != right.negative) (left.mantissa * right.mantissa) scale
    some (if short && product.isZero then { product with negative := false } else product)

/-- The largest scale at which the quotient of two numbers has a mantissa in range. -/
def quotientScale (numerator denominator : Nat) : Option Nat :=
  (List.range (maxScale + 1)).reverse.find? fun scale =>
    numerator * tenPower scale / denominator < mantissaLimit

/-- The quotient of two decimals that are not zero, with as many places as fit. -/
def quotient? (left right : Decimal) : Option Decimal := do
  let numerator := left.mantissa * tenPower right.scale
  let denominator := right.mantissa * tenPower left.scale
  let scale ← quotientScale numerator denominator
  settle (left.negative != right.negative) (roundDiv (numerator * tenPower scale) denominator) scale

/-- A mantissa and a scale without trailing zeros after the point. -/
def trimZeros (mantissa : Nat) : Nat → Nat × Nat
  | 0 => (mantissa, 0)
  | scale + 1 =>
    if mantissa % 10 = 0 then trimZeros (mantissa / 10) scale else (mantissa, scale + 1)

/-- A mantissa and a scale with up to `count` zeros more, as many as fit. -/
def padZeros (mantissa scale : Nat) : Nat → Nat × Nat
  | 0 => (mantissa, scale)
  | count + 1 =>
    if mantissa * 10 < mantissaLimit then padZeros (mantissa * 10) (scale + 1) count
    else (mantissa, scale)

/-- A decimal rounded half to even to `places` places when it has more, and filled up with zeros
when it has fewer. Trailing zeros do not count, and zero loses its sign. -/
def toPlaces? (d : Decimal) (places : Nat) : Option Decimal :=
  let (mantissa, scale) := trimZeros d.mantissa d.scale
  let (mantissa, scale) :=
    if places < scale then (roundDiv mantissa (tenPower (scale - places)), places)
    else padZeros mantissa scale (places - scale)
  ofParts? (d.negative && mantissa ≠ 0) mantissa scale

/-- The quotient with `places` places, for a divisor that is not zero. The quotient is rounded
twice: to the places that fit into a decimal, and from there to `places`. -/
def div? (left right : Decimal) (places : Nat) : Option Decimal :=
  if left.isZero then toPlaces? zero places
  else (quotient? left right).bind (·.toPlaces? places)

end GradualScript.Decimal
