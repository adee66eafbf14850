import GradualScript.Text.Number

/-!
# Decimal numbers

A decimal has a sign, a mantissa of 96 bits and a scale of at most 28: it stands for the mantissa
divided by ten to the power of the scale. The scale is part of a decimal, so that `1.5` and `1.50`
are different decimals of the same value, and zero may have a sign.
-/

namespace GradualScript

/-- The first number that needs more than 96 bits, and so is no mantissa: two to the power of 96. -/
def Decimal.mantissaLimit : Nat := 79228162514264337593543950336

/-- The largest scale. -/
def Decimal.maxScale : Nat := 28

/-- A decimal number: `± mantissa / 10 ^ scale`. -/
structure Decimal where
  negative : Bool
  mantissa : Nat
  scale : Nat
  mantissa_lt : mantissa < Decimal.mantissaLimit
  scale_le : scale ≤ Decimal.maxScale
deriving DecidableEq

namespace Decimal

/-- The powers of ten. -/
def tenPower (exponent : Nat) : Nat := Nat.pow 10 exponent

/-- The decimal with the given parts, when they are in range. -/
def ofParts? (negative : Bool) (mantissa scale : Nat) : Option Decimal :=
  if h : mantissa < mantissaLimit ∧ scale ≤ maxScale then
    some ⟨negative, mantissa, scale, h.1, h.2⟩
  else none

/-- The decimal zero without sign and places. -/
def zero : Decimal := ⟨false, 0, 0, by decide, by decide⟩

/-- A whole number as a decimal without places. -/
def ofInteger (n : Int64) : Decimal :=
  ⟨n.toInt < 0, n.toInt.natAbs, 0, by
    have lower := n.le_toInt
    have upper := n.toInt_lt
    unfold mantissaLimit
    omega, by decide⟩

/-- The value in units of `10 ^ -28`, of which every decimal is a whole number. -/
def units (d : Decimal) : Int :=
  let magnitude : Int := d.mantissa * tenPower (maxScale - d.scale)
  if d.negative then -magnitude else magnitude

/-- Whether a decimal is zero, with whatever sign and scale. -/
def isZero (d : Decimal) : Bool := d.mantissa = 0

/-- Whether two decimals have the same value. -/
def sameValue (left right : Decimal) : Bool := left.units = right.units

/-- Orders two decimals by value. -/
def compareValue (left right : Decimal) : Ordering := compare left.units right.units

end Decimal

end GradualScript
