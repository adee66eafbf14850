import GradualScript.Decimal.Arithmetic
import Mathlib.Data.Rat.Floor
import Mathlib.Tactic.FieldSimp
import Mathlib.Tactic.Linarith
import Mathlib.Tactic.NormNum
import Mathlib.Tactic.Positivity

/-!
# Rounding to the even neighbour

What it means to round a rational number half to even, and that `roundDiv` does it. Rounding twice
is not rounding once in general: a number just below a half may be brought to the half first, and
from there to the wrong side. `RoundsHalfEven.iff_not_misleading` says that nothing else can happen.
It does not matter where the first rounding takes a middle of its own.
-/

namespace GradualScript.Decimal

/-- Whether no whole number is nearer to a rational number. -/
def Nearest (x : ℚ) (n : ℤ) : Prop := ∀ k : ℤ, |x - n| ≤ |x - k|

/-- Whether a whole number is nearest to a rational number, and even if another one is as near. -/
structure RoundsHalfEven (x : ℚ) (n : ℤ) : Prop where
  nearest : Nearest x n
  even : ∀ k : ℤ, k ≠ n → |x - k| = |x - n| → Even n

namespace Nearest

variable {x : ℚ} {n k : ℤ}

theorem abs_le_half (nearest : Nearest x n) : |x - n| ≤ 1 / 2 :=
  (nearest (round x)).trans (abs_sub_round x)

theorem le_of_le (nearest : Nearest x n) (below : x ≤ k) : n ≤ k := by
  have half := abs_le.mp nearest.abs_le_half
  have less : (n : ℚ) < k + 1 := by linarith
  exact Int.lt_add_one_iff.mp (by exact_mod_cast less)

theorem le_of_ge (nearest : Nearest x n) (above : k ≤ x) : k ≤ n := by
  have half := abs_le.mp nearest.abs_le_half
  have less : (k : ℚ) < n + 1 := by linarith
  exact Int.lt_add_one_iff.mp (by exact_mod_cast less)

end Nearest

namespace RoundsHalfEven

variable {x y : ℚ} {n m : ℤ}

theorem even_of_half (rounds : RoundsHalfEven x n) (isHalf : |x - n| = 1 / 2) : Even n := by
  -- The neighbour on the other side is as near.
  rcases eq_or_eq_neg_of_abs_eq isHalf with above | below
  · have other : x - (n + 1 : ℤ) = -(1 / 2) := by
      push_cast
      linarith
    apply rounds.even (n + 1) (by omega)
    rw [isHalf, other, abs_neg, abs_of_pos one_half_pos]
  · have other : x - (n - 1 : ℤ) = 1 / 2 := by
      push_cast
      linarith
    apply rounds.even (n - 1) (by omega)
    rw [isHalf, other, abs_of_pos one_half_pos]

/-- Two whole numbers are not both closer than a half. -/
theorem one_le_add_abs {k : ℤ} (differs : k ≠ n) (x : ℚ) : 1 ≤ |x - n| + |x - k| := by
  have whole : (1 : ℚ) ≤ |(n : ℚ) - k| := by
    exact_mod_cast Int.one_le_abs (sub_ne_zero.mpr differs.symm)
  have triangle := abs_sub_le (n : ℚ) x k
  rw [abs_sub_comm (n : ℚ) x] at triangle
  linarith

/-- The nearest number is at most a half away, and the only one that is nearer than a half. -/
theorem iff_abs_le : RoundsHalfEven x n ↔ |x - n| ≤ 1 / 2 ∧ (|x - n| = 1 / 2 → Even n) := by
  constructor
  · intro rounds
    exact ⟨rounds.nearest.abs_le_half, rounds.even_of_half⟩
  · rintro ⟨half, even⟩
    constructor
    · intro k
      by_cases same : k = n
      · rw [same]
      · linarith [one_le_add_abs same x]
    · intro k differs equal
      apply even
      linarith [one_le_add_abs differs x]

theorem self (n : ℤ) : RoundsHalfEven n n := by
  rw [iff_abs_le, sub_self, abs_zero]
  norm_num

/-- The same for a distance that is given as a fraction. -/
theorem iff_of_distance {part whole : ℕ} (positive : 0 < whole)
    (distance : |x - n| = (part : ℚ) / whole) :
    RoundsHalfEven x n ↔ 2 * part ≤ whole ∧ (2 * part = whole → Even n) := by
  have positiveRat : (0 : ℚ) < whole := by exact_mod_cast positive
  have le_half : |x - n| ≤ 1 / 2 ↔ 2 * part ≤ whole := by
    rw [distance, div_le_div_iff₀ positiveRat two_pos, ← @Nat.cast_le ℚ]
    push_cast
    constructor <;> intro le <;> linarith
  have eq_half : |x - n| = 1 / 2 ↔ 2 * part = whole := by
    rw [distance, div_eq_div_iff positiveRat.ne' two_ne_zero, ← @Nat.cast_inj ℚ]
    push_cast
    constructor <;> intro eq <;> linarith
  rw [iff_abs_le, le_half, eq_half]

theorem neg (rounds : RoundsHalfEven x n) : RoundsHalfEven (-x) (-n) := by
  rw [iff_abs_le] at rounds ⊢
  have same : |(-x) - ((-n : ℤ) : ℚ)| = |x - n| := by
    push_cast
    rw [← abs_neg]
    congr 1
    ring
  rw [same, even_neg]
  exact rounds

/-- There is one way to round. -/
theorem unique (left : RoundsHalfEven x n) (right : RoundsHalfEven x m) : n = m := by
  by_contra differs
  have equal : |x - n| = |x - m| := le_antisymm (left.nearest m) (right.nearest n)
  have leftEven := left.even m (fun same => differs same.symm) equal.symm
  have rightEven := right.even n differs equal
  have leftHalf := left.nearest.abs_le_half
  have rightHalf := right.nearest.abs_le_half
  have close : |(n : ℚ) - m| ≤ 1 := by
    have triangle := abs_sub_le (n : ℚ) x m
    rw [abs_sub_comm (n : ℚ) x] at triangle
    linarith
  have closeInt : |n - m| ≤ 1 := by exact_mod_cast close
  rw [abs_le] at closeInt
  rcases leftEven with ⟨i, rfl⟩
  rcases rightEven with ⟨j, rfl⟩
  omega

end RoundsHalfEven

/-- Whether `y` is in the middle between two whole numbers of which the odd one is nearer to `x`. -/
def Misleading (x y : ℚ) : Prop :=
  ∃ k : ℤ, y = k + 1 / 2 ∧ (Even k ∧ y < x ∨ Odd k ∧ x < y)

/-- A whole number is no middle. -/
theorem not_misleading_whole (x : ℚ) (n : ℤ) : ¬Misleading x n := by
  rintro ⟨k, middle, _⟩
  have twice : ((2 * n : ℤ) : ℚ) = (2 * k + 1 : ℤ) := by
    push_cast
    linarith
  have twiceInt : 2 * n = 2 * k + 1 := by exact_mod_cast twice
  omega

/-- Whether a number is brought to another one without passing the middle between two whole
numbers. -/
structure KeepsMiddles (x y : ℚ) : Prop where
  below (k : ℤ) (le : x ≤ k + 1 / 2) : y ≤ k + 1 / 2
  above (k : ℤ) (le : k + 1 / 2 ≤ x) : k + 1 / 2 ≤ y

/-- Rounding to parts, of which an even number make a whole, does not pass a middle, since a middle
is a whole number of parts. -/
theorem Nearest.keepsMiddles {x : ℚ} {m : ℤ} {parts : ℕ} (nearest : Nearest (x * (2 * parts)) m)
    (positive : 0 < parts) : KeepsMiddles x (m / (2 * parts)) := by
  have partsPos : (0 : ℚ) < 2 * parts := by positivity
  have middle (k : ℤ) : ((k + 1 / 2 : ℚ) * (2 * parts)) = ((2 * k + 1) * parts : ℤ) := by
    push_cast
    ring
  constructor
  · intro k below
    rw [div_le_iff₀ partsPos, middle]
    exact_mod_cast nearest.le_of_le (by rw [← middle]; gcongr)
  · intro k above
    rw [le_div_iff₀ partsPos, middle]
    exact_mod_cast nearest.le_of_ge (by rw [← middle]; gcongr)

namespace RoundsHalfEven

variable {x y : ℚ} {n m : ℤ}

/-- A number is not rounded like a misleading middle. -/
theorem not_of_misleading (rounds : RoundsHalfEven y n) (misleading : Misleading x y) :
    ¬RoundsHalfEven x n := by
  intro also
  have half := abs_le.mp also.nearest.abs_le_half
  rcases misleading with ⟨k, rfl, ⟨even, above⟩ | ⟨odd, below⟩⟩
  · have lower : RoundsHalfEven (k + 1 / 2) k := by
      rw [iff_abs_le, add_sub_cancel_left, abs_of_pos one_half_pos]
      exact ⟨le_refl _, fun _ => even⟩
    rw [rounds.unique lower] at half
    linarith
  · have upper : RoundsHalfEven (k + 1 / 2) (k + 1) := by
      have distance : (k + 1 / 2 : ℚ) - (k + 1 : ℤ) = -(1 / 2) := by
        push_cast
        ring
      rw [iff_abs_le, distance, abs_neg, abs_of_pos one_half_pos]
      exact ⟨le_refl _, fun _ => odd.add_one⟩
    rw [rounds.unique upper] at half
    push_cast at half
    linarith

/-- A number may be brought to another one before it is rounded, if that does not mislead. -/
theorem of_not_misleading (rounds : RoundsHalfEven y n) (keeps : KeepsMiddles x y)
    (reliable : ¬Misleading x y) : RoundsHalfEven x n := by
  have half := abs_le.mp rounds.nearest.abs_le_half
  have below := keeps.below (n - 1)
  have above := keeps.above (n - 1)
  push_cast at below above
  -- A number beyond one of the middles next to `n` would have been brought to that middle.
  have notAbove : x ≤ n + 1 / 2 := by
    by_contra beyond
    have isMiddle : y = n + 1 / 2 := by linarith [keeps.above n (by linarith)]
    have even := rounds.even_of_half (by
      rw [isMiddle, add_sub_cancel_left, abs_of_pos one_half_pos])
    exact reliable ⟨n, isMiddle, .inl ⟨even, by linarith⟩⟩
  have notBelow : (n : ℚ) - 1 / 2 ≤ x := by
    by_contra beyond
    have isMiddle : y = n - 1 / 2 := by linarith [below (by linarith)]
    have even := rounds.even_of_half (by
      rw [isMiddle, sub_sub_cancel_left, abs_neg, abs_of_pos one_half_pos])
    refine reliable ⟨n - 1, ?_, .inr ⟨even.sub_odd odd_one, by linarith⟩⟩
    push_cast
    linarith
  have kept : |x - n| = 1 / 2 → y = x := by
    intro isHalf
    rcases eq_or_eq_neg_of_abs_eq isHalf with isAbove | isBelow
    · linarith [keeps.above n (by linarith), keeps.below n (by linarith)]
    · linarith [above (by linarith), below (by linarith)]
  rw [iff_abs_le]
  refine ⟨abs_le.mpr ⟨by linarith, by linarith⟩, fun isHalf => rounds.even_of_half ?_⟩
  rw [kept isHalf, isHalf]

/-- Rounding to parts first and then to whole numbers is what rounding once would have been, unless
the first rounding ends in a misleading middle. -/
theorem iff_not_misleading {parts : ℕ} (second : RoundsHalfEven (m / (2 * parts)) n)
    (first : Nearest (x * (2 * parts)) m) (positive : 0 < parts) :
    RoundsHalfEven x n ↔ ¬Misleading x (m / (2 * parts)) := by
  constructor
  · intro rounds misleading
    exact second.not_of_misleading misleading rounds
  · intro reliable
    exact second.of_not_misleading (first.keepsMiddles positive) reliable

end RoundsHalfEven

/-- The quotient is rounded half to even. -/
theorem roundDiv_rounds (numerator : ℕ) {denominator : ℕ} (positive : 0 < denominator) :
    RoundsHalfEven ((numerator : ℚ) / denominator) (roundDiv numerator denominator) := by
  have divided : (numerator : ℚ) =
      denominator * (numerator / denominator : ℕ) + (numerator % denominator : ℕ) := by
    exact_mod_cast (Nat.div_add_mod numerator denominator).symm
  have remains := Nat.mod_lt numerator positive
  unfold roundDiv
  generalize numerator / denominator = quotient at divided ⊢
  generalize numerator % denominator = remainder at divided remains ⊢
  have positiveRat : (0 : ℚ) < denominator := by exact_mod_cast positive
  have exact : (numerator : ℚ) / denominator = quotient + remainder / denominator := by
    rw [divided]
    field_simp
  rw [exact]
  simp only
  split
  · rename_i upward
    -- The distance to the quotient above is what the remainder lacks of the denominator.
    have distance : |(quotient + remainder / denominator : ℚ) - ((quotient + 1 : ℕ) : ℤ)| =
        (denominator - remainder : ℕ) / denominator := by
      have le : (remainder : ℚ) / denominator ≤ 1 := by
        rw [div_le_one positiveRat]
        exact_mod_cast remains.le
      push_cast [remains.le]
      rw [abs_of_nonpos (by linarith)]
      field_simp
      ring
    rw [RoundsHalfEven.iff_of_distance positive distance, Int.even_iff]
    omega
  · rename_i downward
    have distance : |(quotient + remainder / denominator : ℚ) - ((quotient : ℕ) : ℤ)| =
        remainder / denominator := by
      push_cast
      rw [add_sub_cancel_left, abs_of_nonneg (by positivity)]
    rw [RoundsHalfEven.iff_of_distance positive distance, Int.even_iff]
    omega

/-- Every number can be rounded. -/
theorem exists_rounds (x : ℚ) : ∃ n, RoundsHalfEven x n := by
  have magnitude : RoundsHalfEven |x| (roundDiv x.num.natAbs x.den) := by
    have absolute : |x| = (x.num.natAbs : ℚ) / x.den := by
      conv_lhs => rw [← x.num_div_den]
      rw [abs_div, Nat.abs_cast, Nat.cast_natAbs, Int.cast_abs]
    rw [absolute]
    exact roundDiv_rounds x.num.natAbs x.den_pos
  rcases abs_choice x with same | opposite
  · exact ⟨_, same ▸ magnitude⟩
  · rw [opposite] at magnitude
    exact ⟨_, neg_neg x ▸ magnitude.neg⟩

end GradualScript.Decimal
