import GradualScript.Decimal.Text
import GradualScript.Program.Tree

/-!
# Values

What a running script works with. Values are equal by what they stand for: decimals of the same
value are equal whatever their scales, and lists when their elements are. Two values can be put in
order when they are of the same kind and that kind has an order.
-/

namespace GradualScript

/-- The values of a running script. -/
inductive Value where
  | nil
  | boolean (value : Bool)
  | integer (value : Int64)
  | decimal (value : Decimal)
  | character (value : Char)
  | string (value : String)
  | list (values : List Value)

/-- The value that a literal stands for. -/
def Literal.value : Literal → Value
  | nil => .nil
  | boolean value => .boolean value
  | integer value => .integer value
  | decimal value => .decimal value
  | character value => .character value
  | string value => .string value

namespace Value

/-- The name of a value's kind. -/
def kindName : Value → String
  | nil => "Nil"
  | boolean _ => "Boolean"
  | integer _ => "Integer"
  | decimal _ => "Decimal"
  | character _ => "Character"
  | string _ => "String"
  | list _ => "List"

mutual

/-- Whether two values are equal. -/
def same : Value → Value → Bool
  | nil, nil => true
  | boolean left, boolean right => left = right
  | integer left, integer right => left = right
  | decimal left, decimal right => left.sameValue right
  | character left, character right => left = right
  | string left, string right => left = right
  | list left, list right => sameList left right
  | _, _ => false

/-- Whether two lists have equal elements. -/
def sameList : List Value → List Value → Bool
  | [], [] => true
  | left :: lefts, right :: rights => same left right && sameList lefts rights
  | _, _ => false

end

/-- Puts two values of one kind in order, if that kind has an order. -/
def compare? : Value → Value → Option Ordering
  | integer left, integer right => some (compare left.toInt right.toInt)
  | decimal left, decimal right => some (left.compareValue right)
  | character left, character right => some (compare left.toNat right.toNat)
  | string left, string right => some (compare left right)
  | _, _ => none

mutual

/-- Whether a value may be stored where a type is expected. Nil fits `Any` only, and a list fits a
list type when each element fits the type of its elements. -/
def fits (ty : Ty) : Value → Bool
  | nil => ty = .any
  | boolean _ => ty = .any || ty = .boolean
  | integer _ => ty = .any || ty = .comparable || ty = .integer
  | decimal _ => ty = .any || ty = .comparable || ty = .decimal
  | character _ => ty = .any || ty = .comparable || ty = .character
  | string _ => ty = .any || ty = .comparable || ty = .string
  | list values =>
    match ty with
    | .any => true
    | .list element => allFit element values
    | _ => false

/-- Whether each of the values fits a type. -/
def allFit (ty : Ty) : List Value → Bool
  | [] => true
  | value :: values => fits ty value && allFit ty values

end

mutual

/-- The pieces of the text of a value, in the order in which they are written. -/
def pieces : Value → List String
  | nil => ["NIL"]
  | boolean value => [if value then "true" else "false"]
  | integer value => [Text.integer value.toInt]
  | decimal value => [value.render]
  | character value => [value.toString]
  | string value => [value]
  | list values => "[" :: (piecesOfElements values ++ ["]"])

/-- The pieces of the texts of values, with commas between them. -/
def piecesOfElements : List Value → List String
  | [] => []
  | [value] => pieces value
  | value :: next :: values => pieces value ++ ", " :: piecesOfElements (next :: values)

end

/-- The text of a value. -/
def render (value : Value) : String := String.join value.pieces

end Value

end GradualScript
