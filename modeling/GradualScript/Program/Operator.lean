/-!
# Operators

The operators between two operands, and how tightly each binds.
-/

namespace GradualScript

/-- The operators. -/
inductive Operator where
  | and
  | or
  | equal
  | notEqual
  | less
  | lessEqual
  | greater
  | greaterEqual
  | add
  | subtract
  | multiply
  | divide
  | power
deriving DecidableEq

namespace Operator

/-- How an operator is written. -/
def symbol : Operator → String
  | and => "&&"
  | or => "||"
  | equal => "=="
  | notEqual => "!="
  | less => "<"
  | lessEqual => "<="
  | greater => ">"
  | greaterEqual => ">="
  | add => "+"
  | subtract => "-"
  | multiply => "*"
  | divide => "/"
  | power => "^"

/-- All operators. -/
def all : List Operator :=
  [and, or, equal, notEqual, less, lessEqual, greater, greaterEqual, add, subtract, multiply,
    divide, power]

/-- The operator that is written as `symbol`. -/
def ofSymbol? (symbol : String) : Option Operator := all.find? (·.symbol = symbol)

/-- Whether an operator asks which operand comes first. -/
def asksOrder : Operator → Bool
  | less | lessEqual | greater | greaterEqual => true
  | _ => false

/-- Whether the right operand may be left out of account. -/
def isLogical : Operator → Bool
  | and | or => true
  | _ => false

end Operator

/-- How tightly an operator binds, loosest first. -/
inductive Power where
  | loosest
  | logical
  | equality
  | relational
  | additive
  | multiplicative
  | primary
deriving DecidableEq

namespace Power

/-- The place of a power in the order. -/
def rank : Power → Nat
  | loosest => 0
  | logical => 1
  | equality => 2
  | relational => 3
  | additive => 4
  | multiplicative => 5
  | primary => 6

instance : LT Power := ⟨fun left right => left.rank < right.rank⟩

instance (left right : Power) : Decidable (left < right) :=
  inferInstanceAs (Decidable (left.rank < right.rank))

end Power

/-- How tightly an operator binds its operands. -/
def Operator.bindingPower : Operator → Power
  | and | or => .logical
  | equal | notEqual => .equality
  | less | lessEqual | greater | greaterEqual => .relational
  | add | subtract => .additive
  | multiply | divide | power => .multiplicative

end GradualScript
