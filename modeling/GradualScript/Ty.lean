/-!
# Types

The types of the language: the kinds of values, `Any` for what is only known when the script runs,
`Comparable` for whatever has an order, and lists of a type.

A type `target` *admits* a type when every value of it may be stored where `target` is expected. It
*allows* one also when that is left to be seen at run time, which is so for `Any`.
-/

namespace GradualScript

/-- The types. -/
inductive Ty where
  | nil
  | boolean
  | integer
  | decimal
  | character
  | string
  | any
  | comparable
  | list (element : Ty)
deriving DecidableEq

namespace Ty

/-- The name of a type. -/
def name : Ty → String
  | nil => "Nil"
  | boolean => "Boolean"
  | integer => "Integer"
  | decimal => "Decimal"
  | character => "Character"
  | string => "String"
  | any => "Any"
  | comparable => "Comparable"
  | list element => "List<" ++ element.name ++ ">"

/-- The type that a script means by a name. List types cannot be named. -/
def ofName? (name : String) : Option Ty :=
  [nil, boolean, integer, decimal, character, string, any, comparable].find? (·.name = name)

/-- Whether the values of a type have an order. -/
def isOrdered : Ty → Bool
  | integer | decimal | character | string => true
  | _ => false

/-- The type of what is found at an index. -/
def element? : Ty → Option Ty
  | list element => some element
  | any => some any
  | _ => none

/-- Whether every value of a type may be stored where `target` is expected. -/
def admits (target value : Ty) : Bool :=
  match target, value with
  | any, _ => true
  | _, nil => false
  | comparable, value => value.isOrdered
  | list target, list value => target.admits value
  | target, value => target = value

/-- Whether values of a type may be stored where `target` is expected, as far as is known before the
script runs. -/
def allows (target value : Ty) : Bool := value = any || target.admits value

end Ty

end GradualScript
