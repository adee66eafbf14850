import GradualScript.Proofs.Decimal.Quotient
import GradualScript.Proofs.Integer
import GradualScript.Typing.Operation

/-!
# The two tables of operators

Which operands an operator takes is said twice: for types, before a script runs, and for values,
when it runs. The tables agree: an operation is refused for the types of two values exactly if it is
illegal for the values, and otherwise the values give what the types promise, unless a number gets
too large or a divisor is zero. There are two exceptions. Powers are legal for types of whole
numbers, but not for every exponent; and a quotient of whole numbers is promised to be a whole
number, but is a decimal without places.
-/

namespace GradualScript

namespace Value

/-- Whether a value is of the kind that a type stands for. A list is of the kind of every list
type. -/
inductive OfKind : Value → Ty → Prop
  | nil : OfKind .nil .nil
  | boolean {value : Bool} : OfKind (.boolean value) .boolean
  | integer {value : Int64} : OfKind (.integer value) .integer
  | decimal {value : Decimal} : OfKind (.decimal value) .decimal
  | character {value : Char} : OfKind (.character value) .character
  | string {value : String} : OfKind (.string value) .string
  | list {values : List Value} {element : Ty} : OfKind (.list values) (.list element)

/-- Whether an operation is the quotient of two whole numbers. -/
def dividesIntegers : Operator → Value → Value → Bool
  | .divide, .integer _, .integer _ => true
  | _, _, _ => false

/-- Whether an operation is a power of whole numbers with an exponent that is negative or needs more
than 32 bits. -/
def exceedsExponent : Operator → Value → Value → Bool
  | .power, .integer _, .integer exponent => ¬(0 ≤ exponent.toInt ∧ exponent.toInt < 2 ^ 32)
  | _, _, _ => false

/-- Whether the outcome of an operation is what a type promises: a value that fits it, or a failure
of arithmetic. -/
def Delivers (operator : Operator) (left right : Value) (ty : Ty) : Except Cause Value → Prop
  | .ok value =>
    if dividesIntegers operator left right then
      ty = .integer ∧ ∃ number : Decimal, value = .decimal number ∧ number.scale = 0
    else value.fits ty = true
  | .error cause =>
    cause = .integerOverflow ∨ cause = .decimalOverflow ∨ cause = .divisionByZero ∨
      exceedsExponent operator left right = true ∧ cause = illegal operator left right

/-- Whether the outcome of an operation goes with what its types say of it. -/
def GoesWith (operator : Operator) (left right : Value) (promised : Option Ty)
    (outcome : Except Cause Value) : Prop :=
  match promised with
  | some ty => Delivers operator left right ty outcome
  | none => outcome = .error (illegal operator left right)

variable {operator : Operator} {left right : Value} {leftType rightType : Ty}

/-! ## What the types of a kind tell -/

theorem OfKind.eq_string_iff (kind : left.OfKind leftType) :
    leftType = .string ↔ ∃ text, left = .string text := by
  cases kind <;> simp

theorem OfKind.mayBeInteger_iff (kind : left.OfKind leftType) :
    leftType.mayBeInteger = true ↔ ∃ number, left = .integer number := by
  cases kind <;> simp [Ty.mayBeInteger]

theorem OfKind.allows_boolean_iff (kind : left.OfKind leftType) :
    Ty.boolean.allows leftType = true ↔ ∃ truth, left = .boolean truth := by
  cases kind <;> simp [Ty.allows, Ty.admits]

theorem mayBeCompared_iff (leftKind : left.OfKind leftType) (rightKind : right.OfKind rightType) :
    leftType.mayBeCompared rightType = true ↔ ∃ ordering, left.compare? right = some ordering := by
  cases leftKind <;> cases rightKind <;> simp [Ty.mayBeCompared, Ty.isOrdered, compare?]

theorem ofArithmetic?_eq_none (leftKind : left.OfKind leftType)
    (rightKind : right.OfKind rightType)
    (notIntegers : ∀ a b, left = .integer a → right = .integer b → False)
    (notDecimals : ∀ a b, left = .decimal a → right = .decimal b → False) :
    Ty.ofArithmetic? leftType rightType = none := by
  cases leftKind with
  | integer =>
      cases rightKind with
      | integer => exact (notIntegers _ _ rfl rfl).elim
      | _ => rfl
  | decimal =>
      cases rightKind with
      | decimal => exact (notDecimals _ _ rfl rfl).elim
      | _ => rfl
  | _ => cases rightKind <;> rfl

/-! ## One operator after the other -/

theorem GoesWith.of_fits {ty : Ty} {value : Value} (fitting : value.fits ty = true)
    (notQuotient : dividesIntegers operator left right = false) :
    GoesWith operator left right (some ty) (.ok value) := by
  simp only [GoesWith, Delivers, notQuotient]
  exact fitting

theorem GoesWith.of_integer (number : Option Int64)
    (notQuotient : dividesIntegers operator left right = false) :
    GoesWith operator left right (some .integer) (ofInteger number) := by
  cases number with
  | none => exact .inl rfl
  | some value => exact of_fits rfl notQuotient

theorem GoesWith.of_decimal (number : Option Decimal)
    (notQuotient : dividesIntegers operator left right = false) :
    GoesWith operator left right (some .decimal) (ofDecimal number) := by
  cases number with
  | none => exact .inr (.inl rfl)
  | some value => exact of_fits rfl notQuotient

section Families

variable (leftKind : left.OfKind leftType) (rightKind : right.OfKind rightType)
include leftKind rightKind

theorem order_goesWith (notQuotient : dividesIntegers operator left right = false) :
    GoesWith operator left right
      (if leftType.mayBeCompared rightType then some .boolean else none)
      (order operator left right) := by
  have compared_iff := mayBeCompared_iff leftKind rightKind
  unfold order
  cases compared : left.compare? right with
  | some ordering =>
      rw [if_pos (compared_iff.mpr ⟨ordering, compared⟩)]
      exact .of_fits rfl notQuotient
  | none =>
      rw [if_neg]
      · rfl
      · rw [compared_iff, compared]
        simp

theorem connect_goesWith (combine : Bool → Bool → Bool)
    (notQuotient : dividesIntegers operator left right = false) :
    GoesWith operator left right
      (if Ty.boolean.allows leftType && Ty.boolean.allows rightType then some .boolean else none)
      (connect operator combine left right) := by
  have both_iff := and_congr leftKind.allows_boolean_iff rightKind.allows_boolean_iff
  rw [← Bool.and_eq_true] at both_iff
  fun_cases connect operator combine left right with
  | case1 a b =>
      rw [if_pos (both_iff.mpr ⟨⟨a, rfl⟩, ⟨b, rfl⟩⟩)]
      exact .of_fits rfl notQuotient
  | case2 _ _ notBoth =>
      rw [if_neg]
      · rfl
      · rw [both_iff]
        rintro ⟨⟨a, isLeft⟩, ⟨b, isRight⟩⟩
        exact notBoth a b isLeft isRight

theorem subtract_goesWith :
    GoesWith .subtract left right (Ty.ofArithmetic? leftType rightType) (subtract left right) := by
  fun_cases subtract left right with
  | case1 a b =>
      cases leftKind
      cases rightKind
      exact .of_integer _ rfl
  | case2 a b =>
      cases leftKind
      cases rightKind
      exact .of_decimal _ rfl
  | case3 _ _ notIntegers notDecimals =>
      rw [ofArithmetic?_eq_none leftKind rightKind notIntegers notDecimals]
      rfl

theorem multiply_goesWith :
    GoesWith .multiply left right (Ty.ofArithmetic? leftType rightType) (multiply left right) := by
  fun_cases multiply left right with
  | case1 a b =>
      cases leftKind
      cases rightKind
      exact .of_integer _ rfl
  | case2 a b =>
      cases leftKind
      cases rightKind
      exact .of_decimal _ rfl
  | case3 _ _ notIntegers notDecimals =>
      rw [ofArithmetic?_eq_none leftKind rightKind notIntegers notDecimals]
      rfl

theorem add_goesWith :
    GoesWith .add left right
      (if leftType = .string || rightType = .string then some .string
        else Ty.ofArithmetic? leftType rightType)
      (add left right) := by
  have text_iff : (leftType = .string || rightType = .string) = true ↔
      (∃ text, left = .string text) ∨ ∃ text, right = .string text := by
    rw [Bool.or_eq_true, decide_eq_true_eq, decide_eq_true_eq]
    exact or_congr leftKind.eq_string_iff rightKind.eq_string_iff
  fun_cases add left right with
  | case1 text =>
      rw [if_pos (text_iff.mpr (.inl ⟨text, rfl⟩))]
      exact .of_fits rfl rfl
  | case2 _ text =>
      rw [if_pos (text_iff.mpr (.inr ⟨text, rfl⟩))]
      exact .of_fits rfl rfl
  | case3 a b =>
      cases leftKind
      cases rightKind
      exact .of_integer _ rfl
  | case4 a b =>
      cases leftKind
      cases rightKind
      exact .of_decimal _ rfl
  | case5 _ _ notLeft notRight notIntegers notDecimals =>
      rw [if_neg, ofArithmetic?_eq_none leftKind rightKind notIntegers notDecimals]
      · rfl
      · rw [text_iff]
        rintro (⟨text, isText⟩ | ⟨text, isText⟩)
        · exact notLeft text isText
        · exact notRight text isText

/-- A quotient of whole numbers always is found, and is a decimal without places. -/
theorem divide_goesWith :
    GoesWith .divide left right (Ty.ofArithmetic? leftType rightType) (divide left right) := by
  fun_cases divide left right with
  | case1 a =>
      cases leftKind
      cases rightKind
      exact .inr (.inr (.inl rfl))
  | case2 a b nonzero =>
      cases leftKind
      cases rightKind
      have divisor : b.toInt ≠ 0 := fun zero => nonzero (Int64.toInt_inj.mp zero)
      rcases Decimal.exists_div? a divisor with ⟨number, divided, noPlaces, _⟩
      rw [divided]
      exact ⟨rfl, number, rfl, noPlaces⟩
  | case3 a b zero =>
      cases leftKind
      cases rightKind
      exact .inr (.inr (.inl rfl))
  | case4 a b nonzero =>
      cases leftKind
      cases rightKind
      exact .of_decimal _ rfl
  | case5 _ _ notIntegers notDecimals =>
      rw [ofArithmetic?_eq_none leftKind rightKind notIntegers notDecimals]
      rfl

theorem power_goesWith :
    GoesWith .power left right
      (if leftType.mayBeInteger && rightType.mayBeInteger then some .integer else none)
      (power left right) := by
  have both_iff := and_congr leftKind.mayBeInteger_iff rightKind.mayBeInteger_iff
  rw [← Bool.and_eq_true] at both_iff
  fun_cases power left right with
  | case1 base exponent inRange =>
      rw [if_pos (both_iff.mpr ⟨⟨base, rfl⟩, ⟨exponent, rfl⟩⟩)]
      exact .of_integer _ rfl
  | case2 base exponent outOfRange =>
      rw [if_pos (both_iff.mpr ⟨⟨base, rfl⟩, ⟨exponent, rfl⟩⟩)]
      exact .inr (.inr (.inr ⟨decide_eq_true outOfRange, rfl⟩))
  | case3 _ _ notBoth =>
      rw [if_neg]
      · rfl
      · rw [both_iff]
        rintro ⟨⟨a, isLeft⟩, ⟨b, isRight⟩⟩
        exact notBoth a b isLeft isRight

/-- Every operator goes with its types. -/
theorem apply_goesWith (operator : Operator) :
    GoesWith operator left right (Ty.ofOperation? operator leftType rightType)
      (apply operator left right) := by
  cases operator with
  | equal | notEqual => exact .of_fits rfl rfl
  | less | lessEqual | greater | greaterEqual => exact order_goesWith leftKind rightKind rfl
  | add => exact add_goesWith leftKind rightKind
  | subtract => exact subtract_goesWith leftKind rightKind
  | multiply => exact multiply_goesWith leftKind rightKind
  | divide => exact divide_goesWith leftKind rightKind
  | power => exact power_goesWith leftKind rightKind
  | and | or => exact connect_goesWith leftKind rightKind _ rfl

end Families

theorem exists_of_exceedsExponent (exceeds : exceedsExponent operator left right = true) :
    operator = .power ∧ ∃ base exponent, left = .integer base ∧ right = .integer exponent ∧
      ¬(0 ≤ exponent.toInt ∧ exponent.toInt < 2 ^ 32) := by
  unfold exceedsExponent at exceeds
  split at exceeds
  · exact ⟨rfl, _, _, rfl, rfl, of_decide_eq_true exceeds⟩
  · cases exceeds

/-- The table for types and the table for values agree. An operation is illegal exactly if the types
are refused or an exponent is out of range, which the types do not tell; and if the types are not
refused, the operation delivers what they promise. -/
theorem operator_tables_agree (operator : Operator) {left right : Value} {leftType rightType : Ty}
    (leftKind : left.OfKind leftType) (rightKind : right.OfKind rightType) :
    ((∃ symbol leftName rightName,
        apply operator left right = .error (.illegalOperation symbol leftName rightName)) ↔
      Ty.ofOperation? operator leftType rightType = none ∨
        exceedsExponent operator left right = true) ∧
    (exceedsExponent operator left right = true →
      Ty.ofOperation? operator leftType rightType = some .integer) ∧
    ∀ ty, Ty.ofOperation? operator leftType rightType = some ty →
      Delivers operator left right ty (apply operator left right) := by
  have goes := apply_goesWith leftKind rightKind operator
  refine ⟨⟨?_, ?_⟩, ?_, fun ty promised => by rwa [promised] at goes⟩
  · rintro ⟨symbol, leftName, rightName, failed⟩
    cases promised : Ty.ofOperation? operator leftType rightType with
    | none => exact .inl rfl
    | some ty =>
        rw [promised, failed] at goes
        rcases goes with overflow | overflow | zero | ⟨exceeds, _⟩
        · cases overflow
        · cases overflow
        · cases zero
        · exact .inr exceeds
  · rintro (refused | exceeds)
    · rw [refused] at goes
      exact ⟨_, _, _, goes⟩
    · rcases exists_of_exceedsExponent exceeds with ⟨rfl, base, exponent, rfl, rfl, outOfRange⟩
      have illegal : apply .power (.integer base) (.integer exponent) =
          .error (illegal .power (.integer base) (.integer exponent)) := by
        rw [apply, power_integer, if_neg outOfRange]
      exact ⟨_, _, _, illegal⟩
  · intro exceeds
    rcases exists_of_exceedsExponent exceeds with ⟨rfl, base, exponent, rfl, rfl, _⟩
    cases leftKind
    cases rightKind
    rfl

/-- A power with a negative exponent is legal for its types and illegal for its values. -/
theorem operator_tables_agree_exponent :
    OfKind (.integer 2) .integer ∧ OfKind (.integer (-1)) .integer ∧
      Ty.ofOperation? .power .integer .integer = some .integer ∧
      ∃ symbol leftName rightName, apply .power (.integer 2) (.integer (-1)) =
        .error (.illegalOperation symbol leftName rightName) := by
  have base : OfKind (.integer 2) .integer := .integer
  have exponent : OfKind (.integer (-1)) .integer := .integer
  rcases operator_tables_agree .power base exponent with ⟨illegal_iff, legal, _⟩
  exact ⟨base, exponent, legal (by decide), illegal_iff.mpr (.inr (by decide))⟩

end Value

end GradualScript
