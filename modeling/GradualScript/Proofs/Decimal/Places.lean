import GradualScript.Proofs.Decimal.Rounding
import Mathlib.Order.Bounds.Basic

/-!
# Numbers as decimals

A number is made a decimal by rounding it half to even to some places. With too many places the
mantissa has no room in 96 bits, so what a decimal can be is the number rounded to as many places as
there is room for. `RoundsWithin` says that a decimal is this, and `exists_toPlaces?` that this is
how a decimal is brought to a given number of places.
-/

namespace GradualScript.Decimal

/-! ## The value of a decimal -/

/-- The absolute value of a decimal. -/
def magnitude (d : Decimal) : ℚ := d.mantissa / 10 ^ d.scale

/-- A number with a sign, or without one. -/
def signed {α : Type} [Neg α] (negative : Bool) (x : α) : α := if negative then -x else x

/-- The value of a decimal. -/
def value (d : Decimal) : ℚ := signed d.negative d.magnitude

theorem signed_mul (negative : Bool) (x y : ℚ) :
    signed negative x * y = signed negative (x * y) := by
  cases negative <;> simp [signed]

theorem abs_signed (negative : Bool) (x : ℚ) : |signed negative x| = |x| := by
  cases negative <;> simp [signed]

theorem cast_signed (negative : Bool) (n : ℤ) :
    ((signed negative n : ℤ) : ℚ) = signed negative (n : ℚ) := by
  cases negative <;> simp [signed]

theorem RoundsHalfEven.signed {x : ℚ} {n : ℤ} (rounds : RoundsHalfEven x n) (negative : Bool) :
    RoundsHalfEven (Decimal.signed negative x) (Decimal.signed negative n) := by
  cases negative with
  | false => exact rounds
  | true => exact rounds.neg

theorem cast_tenPower (exponent : ℕ) : (tenPower exponent : ℚ) = 10 ^ exponent := by
  simp [tenPower]

theorem tenPower_pos (exponent : ℕ) : 0 < tenPower exponent := Nat.pow_pos (by decide)

theorem abs_value (d : Decimal) : |d.value| = d.magnitude := by
  rw [value, abs_signed, abs_of_nonneg]
  unfold magnitude
  positivity

theorem abs_value_mul (d : Decimal) : |d.value| * 10 ^ d.scale = d.mantissa := by
  rw [abs_value, magnitude, div_mul_cancel₀ _ (by positivity)]

/-! ## Room for places -/

/-- Whether there is room for a number with some places: rounded half to even to them, it has a
mantissa in range. -/
def HasRoom (x : ℚ) (places : ℕ) : Prop :=
  ∀ n : ℤ, RoundsHalfEven (x * 10 ^ places) n → n.natAbs < mantissaLimit

/-- Whether a decimal is a number rounded half to even to the places of the decimal. -/
def Rounds (d : Decimal) (x : ℚ) : Prop :=
  ∃ n : ℤ, d.value * 10 ^ d.scale = n ∧ RoundsHalfEven (x * 10 ^ d.scale) n

/-- Whether a decimal is a number rounded half to even to as many places as there is room for, and
at most to `places`. -/
structure RoundsWithin (d : Decimal) (x : ℚ) (places : ℕ) : Prop where
  scale : IsGreatest {count | count ≤ places ∧ HasRoom x count} d.scale
  rounds : d.Rounds x

variable {x : ℚ} {places count : ℕ}

/-- The largest mantissa is odd, so the middle above it is rounded out of range. -/
theorem RoundsHalfEven.natAbs_lt_iff {n : ℤ} (rounds : RoundsHalfEven x n) :
    n.natAbs < mantissaLimit ↔ |x| < mantissaLimit - 1 / 2 := by
  have half := rounds.nearest.abs_le_half
  have absolute : |(n : ℚ)| = n.natAbs := by rw [Nat.cast_natAbs, Int.cast_abs]
  constructor
  · intro less
    by_contra large
    have triangle := abs_sub_abs_le_abs_sub x n
    have mantissa_le : (n.natAbs : ℚ) ≤ mantissaLimit - 1 := by
      rw [le_sub_iff_add_le]
      exact_mod_cast less
    have isHalf : |x - n| = 1 / 2 := by linarith
    have largest : (n.natAbs : ℚ) = mantissaLimit - 1 := by linarith
    rw [eq_sub_iff_add_eq] at largest
    have largestNat : n.natAbs + 1 = mantissaLimit := by exact_mod_cast largest
    have even := Int.even_iff.mp (rounds.even_of_half isHalf)
    unfold mantissaLimit at largestNat
    omega
  · intro less
    have triangle := abs_sub_abs_le_abs_sub (n : ℚ) x
    rw [abs_sub_comm] at triangle
    have lessRat : (n.natAbs : ℚ) < mantissaLimit := by linarith
    exact_mod_cast lessRat

theorem hasRoom_iff : HasRoom x places ↔ |x| * 10 ^ places < mantissaLimit - 1 / 2 := by
  rcases exists_rounds (x * 10 ^ places) with ⟨n, rounds⟩
  have scaled : |x * 10 ^ places| = |x| * 10 ^ places := by
    rw [abs_mul, abs_of_pos (show (0 : ℚ) < 10 ^ places by positivity)]
  rw [← scaled, ← rounds.natAbs_lt_iff]
  exact ⟨fun room => room n rounds, fun less k also => also.unique rounds ▸ less⟩

theorem HasRoom.mono (room : HasRoom x places) (fewer : count ≤ places) : HasRoom x count := by
  rw [hasRoom_iff] at room ⊢
  refine room.trans_le' ?_
  gcongr
  norm_num

theorem not_hasRoom (large : mantissaLimit ≤ x * 10 ^ places) : ¬HasRoom x places := by
  rw [hasRoom_iff, not_lt]
  calc (mantissaLimit : ℚ) - 1 / 2 ≤ mantissaLimit := sub_le_self _ one_half_pos.le
    _ ≤ x * 10 ^ places := large
    _ ≤ |x| * 10 ^ places := by
        gcongr
        exact le_abs_self x

theorem hasRoom_signed (negative : Bool) :
    HasRoom (signed negative x) places ↔ HasRoom x places := by
  rw [hasRoom_iff, hasRoom_iff, abs_signed]

theorem hasRoom_value (d : Decimal) : HasRoom d.value d.scale := by
  rw [hasRoom_iff, abs_value_mul]
  have less : (d.mantissa : ℚ) + 1 ≤ mantissaLimit := by exact_mod_cast d.mantissa_lt
  linarith

theorem rounds_iff {d : Decimal} {n : ℤ} (value_eq : d.value * 10 ^ d.scale = n) :
    d.Rounds x ↔ RoundsHalfEven (x * 10 ^ d.scale) n := by
  refine ⟨?_, fun rounds => ⟨n, value_eq, rounds⟩⟩
  rintro ⟨other, other_eq, rounds⟩
  rw [other_eq, Int.cast_inj] at value_eq
  rwa [← value_eq]

/-- The number of places is told by where there is no more room. -/
theorem RoundsWithin.hasRoom_iff {d : Decimal} (within : d.RoundsWithin x places)
    (le : count ≤ places) : HasRoom x count ↔ count ≤ d.scale :=
  ⟨fun room => within.scale.2 ⟨le, room⟩, fun fewer => within.scale.1.2.mono fewer⟩

/-- A decimal is known by its sign, its mantissa and that there is no room for one more place. -/
theorem RoundsWithin.of_mantissa {d : Decimal} {negative : Bool} {y : ℚ}
    (value_eq : d.value = signed negative d.magnitude)
    (rounds : RoundsHalfEven (y * 10 ^ d.scale) d.mantissa) (le : d.scale ≤ places)
    (full : d.scale < places → ¬HasRoom y (d.scale + 1)) :
    d.RoundsWithin (signed negative y) places := by
  have room : HasRoom y d.scale := fun n also => by
    rw [also.unique rounds]
    exact d.mantissa_lt
  refine ⟨⟨⟨le, (hasRoom_signed negative).mpr room⟩, ?_⟩, signed negative d.mantissa, ?_, ?_⟩
  · rintro count ⟨count_le, more⟩
    by_contra beyond
    rw [hasRoom_signed] at more
    exact full (by omega) (more.mono (by omega))
  · rw [value_eq, signed_mul, magnitude, div_mul_cancel₀ _ (by positivity)]
    exact (cast_signed _ _).symm
  · rw [signed_mul]
    exact rounds.signed negative

/-! ## Bringing a decimal to places -/

theorem trimZeros_spec (mantissa scale : ℕ) :
    (trimZeros mantissa scale).1 ≤ mantissa ∧
      ((trimZeros mantissa scale).1 : ℚ) / 10 ^ (trimZeros mantissa scale).2 =
        mantissa / 10 ^ scale := by
  induction scale generalizing mantissa with
  | zero => simp [trimZeros]
  | succ scale ih =>
      unfold trimZeros
      split
      · rename_i trailing
        rcases ih (mantissa / 10) with ⟨le, same⟩
        refine ⟨le.trans (Nat.div_le_self _ _), same.trans ?_⟩
        have exact : (mantissa : ℚ) = (mantissa / 10 : ℕ) * 10 := by
          exact_mod_cast (Nat.div_mul_cancel (Nat.dvd_of_mod_eq_zero trailing)).symm
        rw [exact, pow_succ]
        field_simp
      · exact ⟨le_refl _, rfl⟩

/-- As many zeros are added as fit. -/
theorem exists_padZeros {mantissa : ℕ} (fits : mantissa < mantissaLimit) (scale count : ℕ) :
    ∃ added ≤ count, padZeros mantissa scale count = (mantissa * 10 ^ added, scale + added) ∧
      mantissa * 10 ^ added < mantissaLimit ∧
      (added < count → mantissaLimit ≤ mantissa * 10 ^ (added + 1)) := by
  induction count generalizing mantissa scale with
  | zero => exact ⟨0, le_refl _, by simp [padZeros], by simpa using fits, by omega⟩
  | succ count ih =>
      unfold padZeros
      split
      · rename_i more
        rcases ih more (scale + 1) with ⟨added, le, padded, stillFits, full⟩
        have shifted (n : ℕ) : mantissa * 10 * 10 ^ n = mantissa * 10 ^ (n + 1) := by
          rw [pow_succ]
          ring
        simp only [shifted] at padded stillFits full
        refine ⟨added + 1, by omega, ?_, stillFits, fun less => full (by omega)⟩
        rw [padded, Nat.add_assoc, Nat.add_comm 1]
      · rename_i last
        exact ⟨0, Nat.zero_le _, by simp, by simpa using fits, fun _ => by simpa using last⟩

theorem roundDiv_le_self (numerator : ℕ) {denominator : ℕ} (positive : 0 < denominator) :
    roundDiv numerator denominator ≤ numerator := by
  have divided := Nat.div_add_mod numerator denominator
  have le := Nat.le_mul_of_pos_left (numerator / denominator) positive
  unfold roundDiv
  simp only
  split <;> omega

/-- A decimal that is made of parts. A zero has lost its sign, which does not change its value. -/
theorem exists_ofParts? (negative : Bool) {y : ℚ} {mantissa scale : ℕ}
    (fits : mantissa < mantissaLimit) (inRange : scale ≤ maxScale) (le : scale ≤ places)
    (rounds : RoundsHalfEven (y * 10 ^ scale) mantissa)
    (full : scale < places → ¬HasRoom y (scale + 1)) :
    ∃ result, ofParts? (negative && mantissa ≠ 0) mantissa scale = some result ∧
      result.RoundsWithin (signed negative y) places := by
  refine ⟨⟨negative && mantissa ≠ 0, mantissa, scale, fits, inRange⟩,
    by simp [ofParts?, fits, inRange], .of_mantissa ?_ rounds le full⟩
  unfold value magnitude signed
  by_cases zero : mantissa = 0 <;> simp [zero]

/-- A decimal can always be brought to places, as far as there is room for them. -/
theorem exists_toPlaces? (d : Decimal) (inRange : places ≤ maxScale) :
    ∃ result, d.toPlaces? places = some result ∧ result.RoundsWithin d.value places := by
  rcases trimZeros_spec d.mantissa d.scale with ⟨le, same⟩
  have fits := le.trans_lt d.mantissa_lt
  unfold toPlaces?
  generalize trimZeros d.mantissa d.scale = trimmed at le same fits ⊢
  rcases trimmed with ⟨mantissa, scale⟩
  simp only at le same fits ⊢
  have magnitude_eq : d.magnitude = mantissa / 10 ^ scale := same.symm
  unfold value
  split
  · rename_i fewer
    have scaled : d.magnitude * 10 ^ places = (mantissa : ℚ) / tenPower (scale - places) := by
      rw [magnitude_eq, cast_tenPower, pow_sub₀ _ (by norm_num) fewer.le]
      field_simp
    refine exists_ofParts? d.negative ?_ inRange (le_refl _) ?_ (by omega)
    · exact (roundDiv_le_self mantissa (tenPower_pos _)).trans_lt fits
    · rw [scaled]
      exact roundDiv_rounds mantissa (tenPower_pos _)
  · rename_i notFewer
    rcases exists_padZeros fits scale (places - scale) with ⟨added, added_le, padded, less, full⟩
    have scaled (count : ℕ) :
        d.magnitude * 10 ^ (scale + count) = ((mantissa * 10 ^ count : ℕ) : ℤ) := by
      rw [magnitude_eq, pow_add]
      push_cast
      field_simp
    rw [padded]
    refine exists_ofParts? d.negative less (by omega) (by omega) ?_ fun more => ?_
    · rw [scaled]
      exact .self _
    · apply not_hasRoom
      rw [Nat.add_assoc, scaled]
      exact_mod_cast full (by omega)

end GradualScript.Decimal
