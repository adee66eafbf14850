import GradualScript.Program.Operator
import GradualScript.Ty

/-!
# Types of operations

The type of an operation follows from the operator and the types of its operands. An operand of type
`Any` is let through wherever some value could stand, and arithmetic with it is of type `Any`.
-/

namespace GradualScript.Ty

/-- Whether values of a type may be numbers. -/
def mayBeNumber : Ty → Bool
  | integer | decimal | any => true
  | _ => false

/-- Whether values of a type may be whole numbers. -/
def mayBeInteger : Ty → Bool
  | integer | any => true
  | _ => false

/-- Whether values of a type may have an order. -/
def mayHaveOrder (ty : Ty) : Bool := ty = any || ty.isOrdered

/-- Whether values of two types may be put in order. -/
def mayBeCompared (left right : Ty) : Bool :=
  if left = any || right = any then left.mayHaveOrder && right.mayHaveOrder
  else left.isOrdered && left = right

/-- The type of a sum, difference, product or quotient. -/
def ofArithmetic? (left right : Ty) : Option Ty :=
  match left, right with
  | integer, integer => some integer
  | decimal, decimal => some decimal
  | left, right =>
    if (left = any || right = any) && left.mayBeNumber && right.mayBeNumber then some any else none

/-- The type of an operation on operands of two types; none if it does not take them. -/
def ofOperation? (operator : Operator) (left right : Ty) : Option Ty :=
  match operator with
  | .and | .or => if boolean.allows left && boolean.allows right then some boolean else none
  | .equal | .notEqual => some boolean
  | .less | .lessEqual | .greater | .greaterEqual =>
    if left.mayBeCompared right then some boolean else none
  | .add => if left = string || right = string then some string else ofArithmetic? left right
  | .subtract | .multiply | .divide => ofArithmetic? left right
  | .power => if left.mayBeInteger && right.mayBeInteger then some integer else none

end GradualScript.Ty
