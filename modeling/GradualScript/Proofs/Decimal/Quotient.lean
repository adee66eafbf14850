import GradualScript.Proofs.Decimal.Division

/-!
# The quotient of whole numbers

Whole numbers are divided as decimals: the quotient is rounded to the nearest with as many places as
a decimal has room for, and then to none. The result is what rounding the exact quotient once would
have given, since the first rounding never misleads the second. A quotient by `b` that is not a half
itself is at least `1 / 2b` away from the next half, and the places that are kept are always fine
enough to see that far: the whole part of a quotient takes up room, but then the divisor is small.
-/

namespace GradualScript.Decimal

theorem value_ofInteger (n : Int64) : (ofInteger n).value = n.toInt := by
  have absolute : (n.toInt.natAbs : ℚ) = |(n.toInt : ℚ)| := by rw [Nat.cast_natAbs, Int.cast_abs]
  unfold value magnitude signed ofInteger
  simp only [pow_zero, div_one, decide_eq_true_eq, absolute]
  split
  · rename_i negative
    rw [abs_of_neg (by exact_mod_cast negative), neg_neg]
  · rename_i notNegative
    rw [abs_of_nonneg (by exact_mod_cast not_lt.mp notNegative)]

/-- A quotient that is not in the middle of two whole numbers is not close to it. -/
theorem le_abs_sub_middle {a b k : ℤ} (nonzero : b ≠ 0) (apart : (a : ℚ) / b ≠ k + 1 / 2) :
    1 / (2 * |(b : ℚ)|) ≤ |(a : ℚ) / b - (k + 1 / 2)| := by
  have nonzeroRat : (b : ℚ) ≠ 0 := by exact_mod_cast nonzero
  -- The distance, as a whole number of parts of which `2 * b` make one.
  have distance : (a : ℚ) / b - (k + 1 / 2) = ((2 * a - (2 * k + 1) * b : ℤ) : ℚ) / (2 * b) := by
    push_cast
    field_simp
  have parts : (2 * a - (2 * k + 1) * b : ℤ) ≠ 0 := by
    intro none
    rw [none, Int.cast_zero, zero_div, sub_eq_zero] at distance
    exact apart distance
  rw [distance, abs_div, abs_mul, abs_two]
  gcongr
  exact_mod_cast Int.one_le_abs parts

/-- The places of a quotient of whole numbers of 64 bits are fine enough for its divisor. -/
theorem NearestAt.abs_lt {a b : ℤ} {d : Decimal} {scale : ℕ} (isNear : d.NearestAt (a / b) scale)
    (nonzero : b ≠ 0) (a_le : |a| ≤ 2 ^ 63) (b_le : |b| ≤ 2 ^ 63) : |(b : ℚ)| < 10 ^ scale := by
  have a_le_rat : |(a : ℚ)| ≤ 2 ^ 63 := by exact_mod_cast a_le
  have b_le_rat : |(b : ℚ)| ≤ 2 ^ 63 := by exact_mod_cast b_le
  rcases Nat.lt_or_ge scale maxScale with fewer | most
  · have full := outgrows_iff.mp (isNear.full (scale + 1) (Nat.lt_succ_self _) fewer)
    by_contra coarse
    apply full
    have positive : 0 < |(b : ℚ)| := abs_pos.mpr (by exact_mod_cast nonzero)
    rw [hasRoom_iff, abs_div, div_mul_eq_mul_div, div_lt_iff₀ positive, pow_succ]
    calc |(a : ℚ)| * (10 ^ scale * 10) ≤ 2 ^ 63 * (|(b : ℚ)| * 10) := by
          gcongr
          exact not_lt.mp coarse
      _ < (mantissaLimit - 1 / 2) * |(b : ℚ)| := by
          norm_num [mantissaLimit]
          linarith
  · have scale_eq : scale = 28 := le_antisymm isNear.scale_le most
    rw [scale_eq]
    exact b_le_rat.trans_lt (by norm_num)

/-- A quotient of whole numbers of 64 bits is never brought to a middle. -/
theorem NearestAt.not_misleading {a b : ℤ} {d : Decimal} {scale : ℕ}
    (isNear : d.NearestAt (a / b) scale) (nonzero : b ≠ 0) (a_le : |a| ≤ 2 ^ 63)
    (b_le : |b| ≤ 2 ^ 63) : ¬Misleading (a / b) d.value := by
  rintro ⟨k, middle, side⟩
  rw [middle] at side
  have apart : (a : ℚ) / b ≠ k + 1 / 2 := by
    rcases side with ⟨_, above⟩ | ⟨_, below⟩
    · exact above.ne'
    · exact below.ne
  have far := le_abs_sub_middle nonzero apart
  have fine := isNear.abs_lt nonzero a_le b_le
  rcases isNear.nearest with ⟨n, value_eq, nearest⟩
  have near := nearest.abs_le_half
  have unit : (0 : ℚ) < 10 ^ scale := by positivity
  rw [← value_eq, ← sub_mul, abs_mul, abs_of_pos unit, middle] at near
  have positive : 0 < |(b : ℚ)| := abs_pos.mpr (by exact_mod_cast nonzero)
  have reach := mul_le_mul_of_nonneg_right far unit.le
  have beyond : 1 / 2 < 1 / (2 * |(b : ℚ)|) * 10 ^ scale := by
    rw [div_mul_eq_mul_div, div_lt_div_iff₀ two_pos (by positivity)]
    linarith
  linarith

theorem abs_toInt_le (n : Int64) : |n.toInt| ≤ 2 ^ 63 := by
  have lower := n.le_toInt
  have upper := n.toInt_lt
  rw [abs_le]
  omega

theorem isZero_ofInteger {n : Int64} (nonzero : n.toInt ≠ 0) : (ofInteger n).isZero = false := by
  rw [← Bool.not_eq_true, isZero_iff, value_ofInteger]
  exact_mod_cast nonzero

/-- Rounding to whole numbers what is near to a quotient of whole numbers of 64 bits. -/
theorem NearestAt.exists_toPlaces? {a b : ℤ} {d : Decimal} {scale : ℕ}
    (isNear : d.NearestAt (a / b) scale) (nonzero : b ≠ 0) (a_le : |a| ≤ 2 ^ 63)
    (b_le : |b| ≤ 2 ^ 63) :
    ∃ quotient, d.toPlaces? 0 = some quotient ∧ quotient.scale = 0 ∧ quotient.Rounds (a / b) := by
  rcases Decimal.exists_toPlaces? d (Nat.zero_le maxScale) with ⟨quotient, rounded, within⟩
  have noPlaces : quotient.scale = 0 := Nat.le_zero.mp within.scale.1.1
  have somePlaces : 0 < scale := by
    by_contra none
    have fine := isNear.abs_lt nonzero a_le b_le
    rw [Nat.eq_zero_of_not_pos none, pow_zero] at fine
    have whole : (1 : ℚ) ≤ |(b : ℚ)| := by exact_mod_cast Int.one_le_abs nonzero
    linarith
  rcases isNear.nearest with ⟨n, value_eq, nearest⟩
  refine ⟨quotient, rounded, noPlaces, ?_⟩
  rw [within.rounds.twice_iff value_eq nearest (by omega), noPlaces, pow_zero, mul_one, mul_one]
  exact isNear.not_misleading nonzero a_le b_le

/-- Wherever a division takes a middle, there is a quotient of any whole numbers of 64 bits. -/
theorem DividesToNearest.exists_quotient {divide : Decimal → Decimal → Option Decimal}
    (divides : DividesToNearest divide) (a : Int64) {b : Int64} (nonzero : b.toInt ≠ 0) :
    ∃ d scale, divide (ofInteger a) (ofInteger b) = some d ∧
      d.NearestAt (a.toInt / b.toInt) scale := by
  rw [← value_ofInteger a, ← value_ofInteger b]
  cases divided : divide (ofInteger a) (ofInteger b) with
  | some d =>
      rcases divides.quotient (isZero_ofInteger nonzero) divided with ⟨scale, isNear⟩
      exact ⟨d, scale, rfl, isNear⟩
  | none =>
      have full := outgrows_iff.mp (divides.overflow (isZero_ofInteger nonzero) divided)
      have divisor : 1 ≤ |(b.toInt : ℚ)| := by exact_mod_cast Int.one_le_abs nonzero
      have dividend : |(a.toInt : ℚ)| ≤ 2 ^ 63 := by exact_mod_cast abs_toInt_le a
      refine absurd ?_ full
      rw [hasRoom_iff, pow_zero, mul_one, abs_div, value_ofInteger, value_ofInteger]
      refine (div_le_self (abs_nonneg _) divisor).trans_lt (dividend.trans_lt ?_)
      norm_num [mantissaLimit]

/-- Dividing whole numbers as decimals always gives a result, which is the exact quotient rounded
half to even. Nothing but `DividesToNearest` is used of the division. -/
theorem exists_div? (a : Int64) {b : Int64} (nonzero : b.toInt ≠ 0) :
    ∃ quotient, div? (ofInteger a) (ofInteger b) 0 = some quotient ∧ quotient.scale = 0 ∧
      quotient.Rounds (a.toInt / b.toInt) := by
  unfold div?
  split
  · rename_i isZero
    have zero_value : zero.value = 0 := isZero_iff.mp rfl
    have dividend : (a.toInt : ℚ) = 0 := by rw [← value_ofInteger, isZero_iff.mp isZero]
    rcases Decimal.exists_toPlaces? zero (Nat.zero_le maxScale) with ⟨quotient, padded, within⟩
    rw [dividend, zero_div, ← zero_value]
    exact ⟨quotient, padded, Nat.le_zero.mp within.scale.1.1, within.rounds⟩
  · rcases quotient?_dividesToNearest.exists_quotient a nonzero with ⟨d, scale, divided, isNear⟩
    rw [divided, Option.bind_some]
    exact isNear.exists_toPlaces? nonzero (abs_toInt_le a) (abs_toInt_le b)

end GradualScript.Decimal

namespace GradualScript.Value

/-- The quotient of two whole numbers is the exact quotient, rounded to the nearest whole number and
from the middle to the even one. There is always a result, though it may need more than 64 bits. -/
theorem integer_quotient (a b : Int64) (nonzero : b ≠ 0) :
    ∃ quotient, apply .divide (.integer a) (.integer b) = .ok (.decimal quotient) ∧
      quotient.scale = 0 ∧
      ∀ n : ℤ, quotient.value = n ↔ Decimal.RoundsHalfEven ((a.toInt : ℚ) / b.toInt) n := by
  have divisor : b.toInt ≠ 0 := fun zero => nonzero (Int64.toInt_inj.mp zero)
  rcases Decimal.exists_div? a divisor with
    ⟨quotient, divided, noPlaces, rounded, value_eq, rounds⟩
  rw [noPlaces, pow_zero, mul_one] at value_eq rounds
  refine ⟨quotient, ?_, noPlaces, fun n => ?_⟩
  · simp only [apply, divide, if_neg nonzero, divided]
    rfl
  · rw [value_eq, Int.cast_inj]
    exact ⟨fun same => same ▸ rounds, fun also => rounds.unique also⟩

/-- The largest number divided by -2 is in the middle between two whole numbers. -/
theorem integer_quotient_middle :
    (-2 : Int64) ≠ 0 ∧
    ∃ quotient, apply .divide (.integer Int64.maxValue) (.integer (-2)) = .ok (.decimal quotient) ∧
      quotient.scale = 0 ∧ quotient.value = (-4611686018427387904 : ℤ) := by
  have nonzero : (-2 : Int64) ≠ 0 := by decide
  rcases integer_quotient Int64.maxValue (-2) nonzero with ⟨quotient, applied, noPlaces, exact⟩
  refine ⟨nonzero, quotient, applied, noPlaces, (exact _).mpr ?_⟩
  have dividend : Int64.maxValue.toInt = 9223372036854775807 := by decide
  have divisor : (-2 : Int64).toInt = -2 := by decide
  rw [dividend, divisor, Decimal.RoundsHalfEven.iff_abs_le]
  refine ⟨by norm_num [abs_le], fun _ => by decide⟩

end GradualScript.Value
