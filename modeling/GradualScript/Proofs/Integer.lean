import GradualScript.Value.Operation
import Mathlib.Algebra.Order.Ring.Abs
import Mathlib.Tactic.Ring

/-!
# Exact arithmetic of whole numbers

An operation on whole numbers gives the exact result, or fails if 64 bits do not hold it. For sums,
differences and products this is how they are defined. A power is found by repeated squaring, which
passes through other numbers: that one of them is too large says that the power is too large, since
no square is made that the power does not need.
-/

namespace GradualScript.Integer

/-! ## Numbers that 64 bits hold -/

theorem exists_ofInt? {n : Int} (fits : -2 ^ 63 ≤ n ∧ n < 2 ^ 63) :
    ∃ value, ofInt? n = some value ∧ value.toInt = n := by
  have bounds : Int64.minValue.toInt ≤ n ∧ n ≤ Int64.maxValue.toInt := by
    rw [Int64.toInt_minValue, Int64.toInt_maxValue]
    omega
  exact ⟨_, dif_pos bounds, Int64.toInt_ofIntLE⟩

theorem ofInt?_eq_none {n : Int} (overflows : ¬(-2 ^ 63 ≤ n ∧ n < 2 ^ 63)) : ofInt? n = none := by
  apply dif_neg
  rw [Int64.toInt_minValue, Int64.toInt_maxValue]
  omega

theorem ofInt?_toInt (n : Int64) : ofInt? n.toInt = some n := by
  have fits : -2 ^ 63 ≤ n.toInt ∧ n.toInt < 2 ^ 63 := ⟨n.le_toInt, n.toInt_lt⟩
  rcases exists_ofInt? fits with ⟨value, found, toInt_eq⟩
  rw [found, Int64.toInt_inj.mp toInt_eq]

theorem toInt_of_ofInt? {n : Int} {value : Int64} (found : ofInt? n = some value) :
    value.toInt = n := by
  by_cases fits : -2 ^ 63 ≤ n ∧ n < 2 ^ 63
  · rcases exists_ofInt? fits with ⟨other, also, toInt_eq⟩
    rw [also, Option.some_inj] at found
    rw [← found, toInt_eq]
  · rw [ofInt?_eq_none fits] at found
    cases found

theorem not_fits_of_ofInt? {n : Int} (missing : ofInt? n = none) :
    ¬(-2 ^ 63 ≤ n ∧ n < 2 ^ 63) := by
  intro fits
  rcases exists_ofInt? fits with ⟨value, found, _⟩
  rw [found] at missing
  cases missing

/-! ## Powers -/

variable {n factor : Int}

/-- A number out of range is not brought back into it by a positive factor. -/
theorem ofInt?_mul_eq_none (overflows : ofInt? n = none) (positive : 0 < factor) :
    ofInt? (n * factor) = none := by
  have outside := not_fits_of_ofInt? overflows
  apply ofInt?_eq_none
  rcases lt_or_ge n 0 with negative | notNegative
  · have below : n < -2 ^ 63 := by omega
    have farther : n * factor ≤ n := mul_le_of_one_le_right negative.le positive
    omega
  · have above : 2 ^ 63 ≤ n := by omega
    have farther : n ≤ n * factor := le_mul_of_one_le_right notNegative positive
    omega

/-- A square out of range is not brought back into it by any factor but zero. No square is just out
of range, so that its opposite would be in range. -/
theorem ofInt?_square_mul_eq_none (overflows : ofInt? (n * n) = none) (nonzero : factor ≠ 0) :
    ofInt? (n * n * factor) = none := by
  have outside := not_fits_of_ofInt? overflows
  have nonneg := mul_self_nonneg n
  have above : 2 ^ 63 < n * n := by
    have root : 3037000499 < |n| := by
      by_contra small
      have bound : |n| * |n| ≤ 3037000499 * 3037000499 :=
        mul_self_le_mul_self (abs_nonneg n) (not_lt.mp small)
      rw [abs_mul_abs_self] at bound
      omega
    have bound : 3037000500 * 3037000500 ≤ |n| * |n| := mul_self_le_mul_self (by decide) root
    rw [abs_mul_abs_self] at bound
    omega
  apply ofInt?_eq_none
  rcases lt_or_gt_of_ne nonzero with negative | positive
  · have farther : n * n ≤ n * n * -factor := le_mul_of_one_le_right nonneg (by omega)
    rw [mul_neg] at farther
    omega
  · have farther : n * n ≤ n * n * factor := le_mul_of_one_le_right nonneg positive
    omega

/-- The base is squared and the rest of the exponent is left. A factor of zero would hide that the
square is out of range, but there is none unless the base is zero. -/
theorem bind_square {taken base : Int64} {half : Nat} (positive : 0 < half)
    (nonzero : taken.toInt = 0 → base.toInt = 0)
    (rest : ∀ square : Int64, (taken.toInt = 0 → square.toInt = 0) →
      mulPow? taken square half = ofInt? (taken.toInt * square.toInt ^ half)) :
    (mul? base base).bind (mulPow? taken · half) =
      ofInt? (taken.toInt * base.toInt ^ (2 * half)) := by
  unfold mul?
  cases squared : ofInt? (base.toInt * base.toInt) with
  | none =>
      rcases Nat.exists_eq_add_of_lt positive with ⟨less, rfl⟩
      have base_ne : base.toInt ≠ 0 := by
        intro zero
        rw [zero] at squared
        cases squared
      have power : taken.toInt * base.toInt ^ (2 * (0 + less + 1)) =
          base.toInt * base.toInt * (taken.toInt * base.toInt ^ (2 * less)) := by ring
      rw [power, ofInt?_square_mul_eq_none squared]
      · rfl
      · exact mul_ne_zero (fun zero => base_ne (nonzero zero)) (pow_ne_zero _ base_ne)
  | some square =>
      have square_eq := toInt_of_ofInt? squared
      rw [Option.bind_some, rest, square_eq, ← pow_two, ← pow_mul]
      intro zero
      rw [square_eq, nonzero zero, mul_zero]

/-- Repeated squaring gives the exact result, or fails because of it. -/
theorem mulPow?_eq {result base : Int64} {exponent : Nat}
    (nonzero : result.toInt = 0 → base.toInt = 0) :
    mulPow? result base exponent = ofInt? (result.toInt * base.toInt ^ exponent) := by
  fun_induction mulPow? result base exponent with
  | case1 result base => rw [pow_zero, mul_one, ofInt?_toInt]
  | case2 result base => rw [pow_one, mul?]
  | case3 result base exponent notZero notOne _ odd ih =>
      have exponent_eq : exponent = 2 * (exponent / 2) + 1 := by omega
      have power : result.toInt * base.toInt ^ exponent =
          result.toInt * base.toInt * base.toInt ^ (2 * (exponent / 2)) := by
        conv_lhs => rw [exponent_eq, pow_succ]
        ring
      rw [power, mul?]
      cases product : ofInt? (result.toInt * base.toInt) with
      | none =>
          have base_ne : base.toInt ≠ 0 := by
            intro zero
            rw [zero, mul_zero] at product
            cases product
          -- The factor that is left is a square, so the product stays out of range.
          exact (ofInt?_mul_eq_none product ((even_two_mul _).pow_pos base_ne)).symm
      | some taken =>
          have taken_eq := toInt_of_ofInt? product
          rw [← taken_eq]
          refine bind_square (by omega) ?_ (ih taken)
          rw [taken_eq]
          intro zero
          rcases mul_eq_zero.mp zero with resultZero | baseZero
          · exact nonzero resultZero
          · exact baseZero
  | case4 result base exponent notZero notOne _ even ih =>
      have exponent_eq : exponent = 2 * (exponent / 2) := by omega
      conv_rhs => rw [exponent_eq]
      exact bind_square (by omega) nonzero (ih result)

theorem pow?_eq (base : Int64) (exponent : Nat) :
    pow? base exponent = ofInt? (base.toInt ^ exponent) := by
  have one : (1 : Int64).toInt = 1 := rfl
  rw [pow?, mulPow?_eq, one, one_mul]
  rw [one]
  intro absurd
  cases absurd

end GradualScript.Integer

namespace GradualScript.Value

/-- Whether an outcome is a whole number, or the failure that says that 64 bits do not hold it. -/
def IsExact (outcome : Except Cause Value) (n : Int) : Prop :=
  if -2 ^ 63 ≤ n ∧ n < 2 ^ 63 then ∃ value : Int64, value.toInt = n ∧ outcome = .ok (.integer value)
  else outcome = .error .integerOverflow

theorem isExact_ofInt? (n : Int) : IsExact (ofInteger (Integer.ofInt? n)) n := by
  unfold IsExact
  split
  · rename_i fits
    rcases Integer.exists_ofInt? fits with ⟨value, found, toInt_eq⟩
    exact ⟨value, toInt_eq, by rw [found]; rfl⟩
  · rename_i overflows
    rw [Integer.ofInt?_eq_none overflows]
    rfl

theorem power_integer (a b : Int64) :
    power (.integer a) (.integer b) =
      if 0 ≤ b.toInt ∧ b.toInt < 2 ^ 32 then ofInteger (Integer.ofInt? (a.toInt ^ b.toInt.toNat))
      else .error (illegal .power (.integer a) (.integer b)) := by
  have limit : ((Integer.exponentLimit : Nat) : Int) = 2 ^ 32 := rfl
  rw [power, limit, Integer.pow?_eq]

/-- Sums, differences, products and powers of whole numbers are exact or fail because 64 bits do not
hold them. A power whose exponent is negative or needs more than 32 bits is refused. -/
theorem integer_arithmetic (a b : Int64) :
    IsExact (apply .add (.integer a) (.integer b)) (a.toInt + b.toInt) ∧
    IsExact (apply .subtract (.integer a) (.integer b)) (a.toInt - b.toInt) ∧
    IsExact (apply .multiply (.integer a) (.integer b)) (a.toInt * b.toInt) ∧
    if 0 ≤ b.toInt ∧ b.toInt < 2 ^ 32 then
      IsExact (apply .power (.integer a) (.integer b)) (a.toInt ^ b.toInt.toNat)
    else apply .power (.integer a) (.integer b) =
      .error (.illegalOperation "^" "Integer" "Integer") := by
  refine ⟨isExact_ofInt? _, isExact_ofInt? _, isExact_ofInt? _, ?_⟩
  rw [apply, power_integer]
  split
  · exact isExact_ofInt? _
  · rfl

end GradualScript.Value
