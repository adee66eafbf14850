import GradualScript.Proofs.Value.Admission
import GradualScript.Proofs.Value.Operation
import GradualScript.Typing.Operation

/-!
# Values that conform to a type

A value *fits* a type when it may be stored where the type is expected. What an expression of a type
really comes to is a little more: a variable without a value holds nil, and so does the value of a
function that ends without one; and the quotient of two whole numbers counts as a whole number for
the checker, but is a decimal. A value *conforms* to a type when it fits it up to these two
exceptions, in lists as well as by itself.

Whether quotients count is a parameter, since a program that divides no whole numbers does without
them. The main statement is `Reliance.conformance`: conforming values are closed under everything
that a running script does with values of known types.
-/

namespace GradualScript

namespace Value

/-- Whether a value conforms to a type, where a decimal may stand for a whole number if `quotients`
holds. -/
inductive ConformsGiven (quotients : Prop) : Value → Ty → Prop
  | any {value : Value} : ConformsGiven quotients value .any
  | nil {ty : Ty} : ConformsGiven quotients .nil ty
  | fits {value : Value} {ty : Ty} (fitting : value.fits ty = true) :
      ConformsGiven quotients value ty
  | quotient {value : Decimal} (allowed : quotients) :
      ConformsGiven quotients (.decimal value) .integer
  | list {values : List Value} {element : Ty}
      (each : ∀ value ∈ values, ConformsGiven quotients value element) :
      ConformsGiven quotients (.list values) (.list element)

/-- Whether a value conforms to a type. -/
abbrev Conforms (value : Value) (ty : Ty) : Prop := value.ConformsGiven True ty

namespace ConformsGiven

variable {quotients : Prop} {value : Value}

theorem element {values : List Value} {ty : Ty}
    (conforms : (Value.list values).ConformsGiven quotients (.list ty)) :
    ∀ value ∈ values, value.ConformsGiven quotients ty := by
  cases conforms with
  | fits fitting => exact fun value member => .fits (allFit_iff.mp fitting value member)
  | list each => exact each

/-- What conforms to a type conforms to every type that admits it. -/
theorem admitted {target ty : Ty} (conforms : value.ConformsGiven quotients ty)
    (admits : target.admits ty = true) : value.ConformsGiven quotients target := by
  rw [Ty.admits_iff] at admits
  induction admits generalizing value with
  | any => exact .any
  | comparable ordered =>
      cases conforms with
      | any => cases ordered
      | nil => exact .nil
      | fits fitting => exact .fits (fits_comparable fitting ordered)
      | quotient _ => exact .fits rfl
      | list _ => cases ordered
  | plain _ => exact conforms
  | list _ ih =>
      cases value with
      | nil => exact .nil
      | list values => exact .list fun value member => ih (conforms.element value member)
      | _ => cases conforms with | fits fitting => cases fitting

theorem of_string (conforms : value.ConformsGiven quotients .string) :
    value = .nil ∨ ∃ text, value = .string text := by
  cases value with
  | nil => exact .inl rfl
  | string text => exact .inr ⟨text, rfl⟩
  | _ => cases conforms with | fits fitting => cases fitting

theorem of_decimal (conforms : value.ConformsGiven quotients .decimal) :
    value = .nil ∨ ∃ number, value = .decimal number := by
  cases value with
  | nil => exact .inl rfl
  | decimal number => exact .inr ⟨number, rfl⟩
  | _ => cases conforms with | fits fitting => cases fitting

theorem of_integer (conforms : value.ConformsGiven quotients .integer) :
    value = .nil ∨ (∃ number, value = .integer number) ∨
      (∃ number, value = .decimal number) ∧ quotients := by
  cases value with
  | nil => exact .inl rfl
  | integer number => exact .inr (.inl ⟨number, rfl⟩)
  | decimal number =>
      cases conforms with
      | fits fitting => cases fitting
      | quotient allowed => exact .inr (.inr ⟨⟨number, rfl⟩, allowed⟩)
  | _ => cases conforms with | fits fitting => cases fitting

theorem calculated {left right result : Value} {ty : Ty} (known : ty = .integer ∨ ty = .decimal)
    (leftConforms : left.ConformsGiven quotients ty) (made : Calculated left right result) :
    result.ConformsGiven quotients ty := by
  rcases known with rfl | rfl
  · cases made with
    | integer => exact .fits rfl
    | decimal =>
        rcases leftConforms.of_integer with h | ⟨_, h⟩ | ⟨_, allowed⟩
        · cases h
        · cases h
        · exact .quotient allowed
  · cases made with
    | integer => rcases leftConforms.of_decimal with h | ⟨_, h⟩ <;> cases h
    | decimal => exact .fits rfl

end ConformsGiven

end Value

theorem Ty.ofArithmetic?_eq_some {left right ty : Ty} (found : ofArithmetic? left right = some ty) :
    ty = .any ∨ left = ty ∧ right = ty ∧ (ty = .integer ∨ ty = .decimal) := by
  unfold ofArithmetic? at found
  split at found
  · cases found
    exact .inr ⟨rfl, rfl, .inl rfl⟩
  · cases found
    exact .inr ⟨rfl, rfl, .inr rfl⟩
  · split at found
    · cases found
      exact .inl rfl
    · cases found

theorem Ty.eq_boolean_of_isLogical {operator : Operator} {left right ty : Ty}
    (logical : operator.isLogical = true) (found : ofOperation? operator left right = some ty) :
    ty = .boolean := by
  cases operator with
  | and | or =>
      simp only [ofOperation?] at found
      split at found
      · cases found
        rfl
      · cases found
  | _ => cases logical

namespace Value.ConformsGiven

variable {quotients : Prop} {left right result : Value} {leftType rightType ty : Ty}

theorem sum (leftConforms : left.ConformsGiven quotients leftType)
    (rightConforms : right.ConformsGiven quotients rightType)
    (operation : Ty.ofOperation? .add leftType rightType = some ty)
    (made : add left right = .ok result) : result.ConformsGiven quotients ty := by
  simp only [Ty.ofOperation?] at operation
  split at operation
  · rename_i text
    cases operation
    -- Operands of which one is a text cannot be two numbers, so the sum is a text.
    rcases (add_gives left right).of_ok made with calculated | ⟨⟨_, rfl⟩, _⟩
    · simp only [Bool.or_eq_true, decide_eq_true_eq] at text
      rcases text with rfl | rfl
      · rcases leftConforms.of_string with rfl | ⟨_, rfl⟩ <;> cases calculated
      · rcases rightConforms.of_string with rfl | ⟨_, rfl⟩ <;> cases calculated
    · exact .fits rfl
  · rcases Ty.ofArithmetic?_eq_some operation with rfl | ⟨rfl, rfl, known⟩
    · exact .any
    · rcases (add_gives left right).of_ok made with calculated | ⟨_, ⟨_, rfl⟩ | ⟨_, rfl⟩⟩
      · exact leftConforms.calculated known calculated
      · rcases known with rfl | rfl
        · rcases leftConforms.of_integer with h | ⟨_, h⟩ | ⟨⟨_, h⟩, _⟩ <;> cases h
        · rcases leftConforms.of_decimal with h | ⟨_, h⟩ <;> cases h
      · rcases known with rfl | rfl
        · rcases rightConforms.of_integer with h | ⟨_, h⟩ | ⟨⟨_, h⟩, _⟩ <;> cases h
        · rcases rightConforms.of_decimal with h | ⟨_, h⟩ <;> cases h

theorem quotient_of (operation : Ty.ofOperation? .divide leftType rightType = some ty)
    (permitted : ty = .integer → quotients) (made : divide left right = .ok result) :
    result.ConformsGiven quotients ty := by
  rcases (divide_gives left right).of_ok made with ⟨_, rfl⟩
  rcases Ty.ofArithmetic?_eq_some operation with rfl | ⟨_, _, rfl | rfl⟩
  · exact .any
  · exact .quotient (permitted rfl)
  · exact .fits rfl

/-- The result of an operation conforms to the type of the operation. -/
theorem applied {operator : Operator} (leftConforms : left.ConformsGiven quotients leftType)
    (rightConforms : right.ConformsGiven quotients rightType)
    (operation : Ty.ofOperation? operator leftType rightType = some ty)
    (permitted : operator = .divide → ty = .integer → quotients)
    (made : apply operator left right = .ok result) : result.ConformsGiven quotients ty := by
  cases operator with
  | equal | notEqual =>
      cases operation
      cases made
      exact .fits rfl
  | less | lessEqual | greater | greaterEqual =>
      rcases (order_gives _ left right).of_ok made with ⟨_, rfl⟩
      simp only [Ty.ofOperation?] at operation
      split at operation
      · cases operation
        exact .fits rfl
      · cases operation
  | and | or =>
      rcases (connect_gives _ _ left right).of_ok made with ⟨_, rfl⟩
      simp only [Ty.ofOperation?] at operation
      split at operation
      · cases operation
        exact .fits rfl
      · cases operation
  | power =>
      rcases (power_gives left right).of_ok made with ⟨_, rfl⟩
      simp only [Ty.ofOperation?] at operation
      split at operation
      · cases operation
        exact .fits rfl
      · cases operation
  | add => exact sum leftConforms rightConforms operation made
  | divide => exact quotient_of operation (permitted rfl) made
  | subtract =>
      rcases Ty.ofArithmetic?_eq_some operation with rfl | ⟨rfl, _, known⟩
      · exact .any
      · exact leftConforms.calculated known ((subtract_gives left right).of_ok made)
  | multiply =>
      rcases Ty.ofArithmetic?_eq_some operation with rfl | ⟨rfl, _, known⟩
      · exact .any
      · exact leftConforms.calculated known ((multiply_gives left right).of_ok made)

end Value.ConformsGiven

/-- What is known of values by the types of their expressions while a script runs: a relation that
everything which makes, keeps or combines values respects. -/
structure Reliance where
  holds : Value → Ty → Prop
  /-- The operations that may occur, by the type of their result. -/
  permits : Operator → Ty → Prop
  nil (ty : Ty) : holds .nil ty
  fits {value : Value} {ty : Ty} (fitting : value.fits ty = true) : holds value ty
  admitted {value : Value} {target ty : Ty} (known : holds value ty)
    (admits : target.admits ty = true) : holds value target
  list {values : List Value} {element : Ty} (each : ∀ value ∈ values, holds value element) :
    holds (.list values) (.list element)
  element {values : List Value} {element : Ty} (known : holds (.list values) (.list element)) :
    ∀ value ∈ values, holds value element
  applied {operator : Operator} {left right result : Value} {leftType rightType ty : Ty}
    (leftKnown : holds left leftType) (rightKnown : holds right rightType)
    (operation : Ty.ofOperation? operator leftType rightType = some ty)
    (permitted : permits operator ty) (made : Value.apply operator left right = .ok result) :
    holds result ty

namespace Reliance

theorem any (reliance : Reliance) (value : Value) : reliance.holds value .any :=
  reliance.fits value.fits_any

theorem literal (reliance : Reliance) (literal : Literal) :
    reliance.holds literal.value literal.ty := by
  cases literal with
  | nil => exact reliance.nil _
  | _ => exact reliance.fits rfl

/-- Values conform to the types of their expressions, where whole numbers may be divided only if
quotients count as whole numbers. -/
def conformance (quotients : Prop) : Reliance where
  holds := Value.ConformsGiven quotients
  permits operator ty := operator = .divide → ty = .integer → quotients
  nil _ := .nil
  fits := .fits
  admitted := .admitted
  list := .list
  element := .element
  applied leftKnown rightKnown operation permitted made :=
    leftKnown.applied rightKnown operation permitted made

/-- Nothing is known of values. -/
def nothing : Reliance where
  holds _ _ := True
  permits _ _ := True
  nil _ := trivial
  fits _ := trivial
  admitted _ _ := trivial
  list _ := trivial
  element _ _ _ := trivial
  applied _ _ _ _ _ := trivial

end Reliance

end GradualScript
