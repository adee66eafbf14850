import GradualScript.Machine.Basic
import GradualScript.Value.Operation

/-!
# The value of an expression

Operands are evaluated from left to right. What a call runs is a parameter, so that the value of an
expression is defined along the expression.

The checker leaves values of type `Any` to be tested here: one that is stored where another type is
expected must fit it. An expression that was not checked has no type, and its value is not tested.
-/

namespace GradualScript

/-- Runs the function that a name means, on arguments, for a caller at a position. -/
abbrev Caller := String → List Value → Option Position → Run Value

namespace Value

/-- The failure of a value that is not of the expected kind. -/
def mismatch (expected : String) (value : Value) : Cause := .valueMismatch expected value.kindName

/-- The truth value, which is all that a condition may be. -/
def asBoolean : Value → Except Cause Bool
  | .boolean value => .ok value
  | value => .error (value.mismatch "Boolean")

/-- The whole number, which is all that an index may be. -/
def asInteger : Value → Except Cause Int64
  | .integer value => .ok value
  | value => .error (value.mismatch "Integer")

/-- The elements of a list. -/
def asList : Value → Except Cause (List Value)
  | .list values => .ok values
  | value => .error (value.mismatch "List")

/-- The element of a list at an index. -/
def elementAt (value : Value) (index : Int64) : Except Cause Value := do
  let values ← value.asList
  let slot ← slot index values.length
  return values.getD slot .nil

/-- A list with a new element at an index. -/
def setElement (value : Value) (index : Int64) (element : Value) : Except Cause Value := do
  let values ← value.asList
  let slot ← slot index values.length
  return .list (values.set slot element)

end Value

namespace Run

/-- Tests a value that is stored where a type is expected, if its expression is known to be `Any`.
-/
def enforce (expr : Expr) (target : Option Ty) (value : Value) : Run Unit :=
  match target with
  | some target =>
    if expr.ty = some .any && !value.fits target then
      report (value.mismatch target.name) expr.start
    else pure ()
  | none => pure ()

/-- The value of an operation whose left operand is known and that may do without the right one. -/
def connective (operator : Operator) (left : Bool) (right : Run Value) (position : Position) :
    Run Value := do
  if left = (operator = .or : Bool) then return .boolean left
  else ofCause position (Value.apply operator (.boolean left) (← right))

mutual

/-- The value of an expression. -/
def evaluate (call : Caller) : Expr → Run Value
  | .literal _ _ value => return value.value
  | .group _ _ inner => evaluate call inner
  | .binary span _ operator left right => do
    let leftValue ← evaluate call left
    if operator.isLogical then
      let leftValue ← ofCause left.start leftValue.asBoolean
      connective operator leftValue (evaluate call right) span.start
    else
      let rightValue ← evaluate call right
      ofCause span.start (Value.apply operator leftValue rightValue)
  | .access span _ name _ => return (← cellAt name span.start).value
  | .element span _ name _ offset => do
    let index ← evaluate call offset
    let index ← ofCause offset.start index.asInteger
    let cell ← cellAt name span.start
    ofCause span.start (cell.value.elementAt index)
  | .call span _ name binding arguments => do
    let targets := (binding.map Signature.parameters).getD []
    let values ← evaluateArguments call targets arguments
    call name values (some span.start)
  | .list _ _ elements => return .list (← evaluateArguments call [] elements)

/-- The values of arguments, each tested against the type expected for it, as far as types are
given. -/
def evaluateArguments (call : Caller) (targets : List Ty) : List Expr → Run (List Value)
  | [] => return []
  | argument :: others => do
    let value ← evaluate call argument
    enforce argument targets.head? value
    return value :: (← evaluateArguments call targets.tail others)

end

/-- The truth value of a condition. -/
def condition (call : Caller) (expr : Expr) : Run Bool := do
  ofCause expr.start (← evaluate call expr).asBoolean

/-- The whole number that an index is. -/
def index (call : Caller) (expr : Expr) : Run Int64 := do
  ofCause expr.start (← evaluate call expr).asInteger

end Run

end GradualScript
