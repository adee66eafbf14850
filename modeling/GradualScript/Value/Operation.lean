import GradualScript.Decimal.Arithmetic
import GradualScript.Diagnostic.Basic
import GradualScript.Integer
import GradualScript.Value.Basic

/-!
# Operators on values

What an operator makes of two values. Sums with a string join texts; otherwise arithmetic takes two
whole numbers or two decimals, and never mixes them. The quotient of whole numbers is a decimal
without places.
-/

namespace GradualScript.Value

/-- The failure of an operator that does not take operands of these kinds. -/
def illegal (operator : Operator) (left right : Value) : Cause :=
  .illegalOperation operator.symbol left.kindName right.kindName

/-- Whether an order between two operands is what an operator asks for. -/
def holds (operator : Operator) (ordering : Ordering) : Bool :=
  match operator with
  | .less => ordering = .lt
  | .lessEqual => ordering ≠ .gt
  | .greater => ordering = .gt
  | _ => ordering ≠ .lt

/-- Which operand comes first, as an operator asks. -/
def order (operator : Operator) (left right : Value) : Except Cause Value :=
  match left.compare? right with
  | some ordering => .ok (.boolean (holds operator ordering))
  | none => .error (illegal operator left right)

/-- A whole number, if it is in range. -/
def ofInteger : Option Int64 → Except Cause Value
  | some value => .ok (.integer value)
  | none => .error .integerOverflow

/-- A decimal, if it is in range. -/
def ofDecimal : Option Decimal → Except Cause Value
  | some value => .ok (.decimal value)
  | none => .error .decimalOverflow

/-- The sum, or the texts of both operands when one of them is a string. -/
def add (left right : Value) : Except Cause Value :=
  match left, right with
  | .string text, right => .ok (.string (text ++ right.render))
  | left, .string text => .ok (.string (left.render ++ text))
  | .integer a, .integer b => ofInteger (Integer.add? a b)
  | .decimal a, .decimal b => ofDecimal (Decimal.add? a b)
  | left, right => .error (illegal .add left right)

/-- The difference. -/
def subtract (left right : Value) : Except Cause Value :=
  match left, right with
  | .integer a, .integer b => ofInteger (Integer.sub? a b)
  | .decimal a, .decimal b => ofDecimal (Decimal.sub? a b)
  | left, right => .error (illegal .subtract left right)

/-- The product. -/
def multiply (left right : Value) : Except Cause Value :=
  match left, right with
  | .integer a, .integer b => ofInteger (Integer.mul? a b)
  | .decimal a, .decimal b => ofDecimal (Decimal.mul? a b)
  | left, right => .error (illegal .multiply left right)

/-- The quotient: of whole numbers with no places, of decimals with the places of the dividend. -/
def divide (left right : Value) : Except Cause Value :=
  match left, right with
  | .integer a, .integer b =>
    if b = 0 then .error .divisionByZero
    else ofDecimal (Decimal.div? (.ofInteger a) (.ofInteger b) 0)
  | .decimal a, .decimal b =>
    if b.isZero then .error .divisionByZero else ofDecimal (Decimal.div? a b a.scale)
  | left, right => .error (illegal .divide left right)

/-- The power of whole numbers, for an exponent of 32 bits without sign. -/
def power (left right : Value) : Except Cause Value :=
  match left, right with
  | .integer base, .integer exponent =>
    if 0 ≤ exponent.toInt ∧ exponent.toInt < Integer.exponentLimit then
      ofInteger (Integer.pow? base exponent.toInt.toNat)
    else .error (illegal .power left right)
  | left, right => .error (illegal .power left right)

/-- A connective of two truth values. -/
def connect (operator : Operator) (combine : Bool → Bool → Bool) (left right : Value) :
    Except Cause Value :=
  match left, right with
  | .boolean a, .boolean b => .ok (.boolean (combine a b))
  | left, right => .error (illegal operator left right)

/-- What an operator makes of two values. -/
def apply (operator : Operator) (left right : Value) : Except Cause Value :=
  match operator with
  | .equal => .ok (.boolean (left.same right))
  | .notEqual => .ok (.boolean (!left.same right))
  | .less | .lessEqual | .greater | .greaterEqual => order operator left right
  | .add => add left right
  | .subtract => subtract left right
  | .multiply => multiply left right
  | .divide => divide left right
  | .power => power left right
  | .and => connect .and (· && ·) left right
  | .or => connect .or (· || ·) left right

/-- The slot of a list of `length` elements that an index names. -/
def slot (index : Int64) (length : Nat) : Except Cause Nat :=
  if 0 ≤ index.toInt ∧ index.toInt < length then .ok index.toInt.toNat
  else .error (.indexOutOfBounds index.toInt length)

end GradualScript.Value
