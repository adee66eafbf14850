import GradualScript.Proofs.Decimal.Places
import GradualScript.Value.Operation

/-!
# The quotient of decimals

A quotient is rounded twice: to as many places as a decimal has room for, and then to the places of
the dividend. `DividesToNearest` says of the first rounding only that it goes to the nearest, which
is all that whole numbers need. Decimals need `RoundsWithin`, which says also where a middle goes:
the dividend may have so many places that the second rounding changes nothing.

The result is the exact quotient, rounded once, in all cases but two. There may be no room for as
many places as the dividend has; then the result has fewer places. And the first rounding may bring
the quotient to the middle between two decimals with the places of the dividend though it is not
there; then the second one may go the wrong way.
-/

namespace GradualScript.Decimal

/-! ## Places of a quotient -/

theorem find?_reverse_range {test : ℕ → Bool} {count found : ℕ}
    (isFound : (List.range count).reverse.find? test = some found) :
    test found = true ∧ found < count ∧ ∀ later, found < later → later < count →
      test later = false := by
  induction count with
  | zero => simp at isFound
  | succ count ih =>
      rw [List.range_succ, List.reverse_append, List.reverse_singleton, List.singleton_append,
        List.find?_cons] at isFound
      cases passes : test count with
      | true =>
          rw [passes] at isFound
          cases isFound
          exact ⟨passes, Nat.lt_succ_self _, fun later after before => by omega⟩
      | false =>
          rw [passes] at isFound
          rcases ih isFound with ⟨holds, less, fails⟩
          refine ⟨holds, by omega, fun later after before => ?_⟩
          by_cases last : later = count
          · rwa [last]
          · exact fails later after (by omega)

variable {numerator denominator scale places : ℕ}

theorem le_of_quotientScale_eq_none (missing : quotientScale numerator denominator = none) :
    mantissaLimit ≤ numerator * tenPower 0 / denominator := by
  have fails := List.find?_eq_none.mp missing 0 (by simp)
  exact Nat.le_of_not_lt fun fits => fails (decide_eq_true fits)

/-- The places of a quotient are as many as fit. -/
theorem quotientScale_eq_some (found : quotientScale numerator denominator = some scale) :
    numerator * tenPower scale / denominator < mantissaLimit ∧ scale ≤ maxScale ∧
      (scale < maxScale → mantissaLimit ≤ numerator * tenPower (scale + 1) / denominator) := by
  rcases find?_reverse_range found with ⟨fits, le, fails⟩
  refine ⟨of_decide_eq_true fits, Nat.le_of_lt_succ le, fun less => ?_⟩
  have tooLarge := fails (scale + 1) (by omega) (by omega)
  exact Nat.le_of_not_lt (of_decide_eq_false tooLarge)

theorem not_hasRoom_of_div (positive : 0 < denominator)
    (large : mantissaLimit ≤ numerator * tenPower places / denominator) :
    ¬HasRoom (numerator / denominator) places := by
  apply not_hasRoom
  rw [div_mul_eq_mul_div, le_div_iff₀ (by exact_mod_cast positive), ← cast_tenPower]
  exact_mod_cast (Nat.le_div_iff_mul_le positive).mp large

theorem roundDiv_le (numerator denominator : ℕ) :
    roundDiv numerator denominator ≤ numerator / denominator + 1 := by
  unfold roundDiv
  simp only
  split <;> omega

/-! ## The first rounding -/

/-- The first mantissa out of range leaves so large a last digit that dropping it is the same as
having rounded to one place less. -/
theorem rounds_of_limit {x : ℚ} (rounds : RoundsHalfEven (x * 10) mantissaLimit) :
    RoundsHalfEven x (roundDiv mantissaLimit 10) := by
  have last : (10 * roundDiv mantissaLimit 10 : ℚ) = mantissaLimit + 4 := by
    exact_mod_cast (show 10 * roundDiv mantissaLimit 10 = mantissaLimit + 4 by decide)
  have half := abs_le.mp rounds.nearest.abs_le_half
  push_cast at half
  have near : |x - (roundDiv mantissaLimit 10 : ℤ)| < 1 / 2 := by
    rw [abs_lt]
    push_cast
    constructor <;> linarith
  rw [RoundsHalfEven.iff_abs_le]
  exact ⟨near.le, fun isHalf => absurd isHalf near.ne⟩

theorem settle_spec (negative : Bool) (positive : 0 < denominator)
    (found : quotientScale numerator denominator = some scale) :
    (∀ d, settle negative (roundDiv (numerator * tenPower scale) denominator) scale = some d →
      d.RoundsWithin (signed negative (numerator / denominator)) maxScale) ∧
    (settle negative (roundDiv (numerator * tenPower scale) denominator) scale = none →
      ¬HasRoom (numerator / denominator) 0) := by
  rcases quotientScale_eq_some found with ⟨fits, le, tooLarge⟩
  have rounded_le := roundDiv_le (numerator * tenPower scale) denominator
  have rounds : RoundsHalfEven ((numerator / denominator : ℚ) * 10 ^ scale)
      (roundDiv (numerator * tenPower scale) denominator) := by
    have rounds := roundDiv_rounds (numerator * tenPower scale) positive
    rwa [Nat.cast_mul, cast_tenPower, mul_div_right_comm] at rounds
  generalize roundDiv (numerator * tenPower scale) denominator = rounded at rounds rounded_le ⊢
  unfold settle
  split
  · rename_i less
    simp only [ofParts?, less, le, and_self, dite_true]
    refine ⟨?_, by simp⟩
    rintro _ ⟨rfl⟩
    exact .of_mantissa rfl rounds le fun more => not_hasRoom_of_div positive (tooLarge more)
  · rename_i notLess
    have limit : rounded = mantissaLimit := by omega
    have full : ¬HasRoom (numerator / denominator) scale :=
      fun room => notLess (room _ rounds)
    rcases scale with _ | scale
    · exact ⟨by simp, fun _ => full⟩
    · have scale_le : scale ≤ maxScale := by omega
      have less : roundDiv rounded 10 < mantissaLimit := by
        rw [limit]
        decide
      simp only [ofParts?, less, scale_le, and_self, dite_true]
      refine ⟨?_, by simp⟩
      rintro _ ⟨rfl⟩
      refine .of_mantissa rfl ?_ scale_le fun _ => full
      subst limit
      rw [pow_succ, ← mul_assoc] at rounds
      exact rounds_of_limit rounds

theorem value_div (a b : Decimal) :
    a.value / b.value = signed (a.negative != b.negative)
      ((a.mantissa * tenPower b.scale : ℕ) / (b.mantissa * tenPower a.scale : ℕ) : ℚ) := by
  have magnitudes : a.magnitude / b.magnitude =
      (a.mantissa * tenPower b.scale : ℕ) / (b.mantissa * tenPower a.scale : ℕ) := by
    push_cast
    rw [cast_tenPower, cast_tenPower, magnitude, magnitude, div_div_div_eq]
    ring
  rw [← magnitudes, value, value]
  cases a.negative <;> cases b.negative <;> simp [signed, neg_div, div_neg]

section Quotient

variable {a b d : Decimal}

theorem denominator_pos (nonzero : b.isZero = false) (a : Decimal) :
    0 < b.mantissa * tenPower a.scale :=
  Nat.mul_pos (Nat.pos_of_ne_zero (of_decide_eq_false nonzero)) (tenPower_pos _)

/-- The first rounding keeps as many places as there is room for. -/
theorem quotient?_roundsWithin (nonzero : b.isZero = false) (divided : quotient? a b = some d) :
    d.RoundsWithin (a.value / b.value) maxScale := by
  rw [value_div]
  simp only [quotient?, Option.bind_eq_bind, Option.bind_eq_some_iff] at divided
  rcases divided with ⟨scale, found, settled⟩
  exact (settle_spec _ (denominator_pos nonzero a) found).1 d settled

/-- There is no quotient only if there is no room for its whole part. -/
theorem not_hasRoom_of_quotient? (nonzero : b.isZero = false) (missing : quotient? a b = none) :
    ¬HasRoom (a.value / b.value) 0 := by
  rw [value_div, hasRoom_signed]
  have positive := denominator_pos nonzero a
  simp only [quotient?, Option.bind_eq_bind] at missing
  cases found : quotientScale (a.mantissa * tenPower b.scale) (b.mantissa * tenPower a.scale) with
  | none =>
      exact not_hasRoom_of_div positive (le_of_quotientScale_eq_none found)
  | some scale =>
      rw [found, Option.bind_some] at missing
      exact (settle_spec _ positive found).2 missing

/-- Whether rounding a number to the nearest with `places` places may take it out of range. -/
def Outgrows (x : ℚ) (places : ℕ) : Prop :=
  ∃ n : ℤ, Nearest (x * 10 ^ places) n ∧ mantissaLimit ≤ n.natAbs

theorem outgrows_iff {x : ℚ} : Outgrows x places ↔ ¬HasRoom x places := by
  constructor
  · rintro ⟨n, nearest, large⟩ room
    have half := nearest.abs_le_half
    have triangle := abs_sub_abs_le_abs_sub (n : ℚ) (x * 10 ^ places)
    rw [abs_sub_comm, abs_mul, abs_of_pos (show (0 : ℚ) < 10 ^ places by positivity)] at triangle
    have largeRat : (mantissaLimit : ℚ) ≤ |(n : ℚ)| := by
      rw [← Int.cast_abs, ← Nat.cast_natAbs]
      exact_mod_cast large
    rw [hasRoom_iff] at room
    linarith
  · intro full
    unfold HasRoom at full
    push Not at full
    rcases full with ⟨n, rounds, large⟩
    exact ⟨n, rounds.nearest, large⟩

/-- Whether the value of a decimal is nearest to a number among those with `scale` places, and more
places would take it out of range. Of two that are as near it may be either, and the decimal itself
may have dropped zeros. -/
structure NearestAt (d : Decimal) (x : ℚ) (scale : ℕ) : Prop where
  scale_le : scale ≤ maxScale
  nearest : ∃ n : ℤ, d.value * 10 ^ scale = n ∧ Nearest (x * 10 ^ scale) n
  full : ∀ count, scale < count → count ≤ maxScale → Outgrows x count

/-- What may be relied on of a division: the quotient is rounded to the nearest with as many places
as fit, and there is none only if its whole part may be out of range. -/
structure DividesToNearest (divide : Decimal → Decimal → Option Decimal) : Prop where
  quotient : ∀ {a b d}, b.isZero = false → divide a b = some d →
    ∃ scale, d.NearestAt (a.value / b.value) scale
  overflow : ∀ {a b}, b.isZero = false → divide a b = none → Outgrows (a.value / b.value) 0

theorem RoundsWithin.nearestAt {x : ℚ} (within : d.RoundsWithin x maxScale) :
    d.NearestAt x d.scale := by
  refine ⟨d.scale_le, ?_, fun count more le => ?_⟩
  · rcases within.rounds with ⟨n, value_eq, rounds⟩
    exact ⟨n, value_eq, rounds.nearest⟩
  · rw [outgrows_iff, within.hasRoom_iff le]
    omega

theorem quotient?_dividesToNearest : DividesToNearest quotient? where
  quotient nonzero divided := ⟨_, (quotient?_roundsWithin nonzero divided).nearestAt⟩
  overflow nonzero missing := outgrows_iff.mpr (not_hasRoom_of_quotient? nonzero missing)

end Quotient

/-! ## The second rounding -/

/-- Whether rounding a number to as many places as there is room for brings it to the middle between
two numbers with `places` places, of which the odd one is nearer. -/
def FalseTie (x : ℚ) (places : ℕ) : Prop :=
  ∃ d : Decimal, d.RoundsWithin x maxScale ∧
    Misleading (x * 10 ^ places) (d.value * 10 ^ places)

section Twice

variable {x : ℚ} {first second : Decimal}

theorem RoundsWithin.value_unique (left : first.RoundsWithin x places)
    (right : second.RoundsWithin x places) : first.value = second.value := by
  have scales := left.scale.unique right.scale
  rcases left.rounds with ⟨n, leftValue, leftRounds⟩
  rcases right.rounds with ⟨m, rightValue, rightRounds⟩
  rw [← scales] at rightValue rightRounds
  rw [leftRounds.unique rightRounds, ← rightValue] at leftValue
  exact mul_right_cancel₀ (by positivity) leftValue

/-- A number that leaves no room for another place does so also after it was rounded, since the
last digit of the limit is a six and not rounded off. -/
theorem Rounds.limit_le (rounds : first.Rounds x) (full : ¬HasRoom x (first.scale + 1)) :
    mantissaLimit ≤ first.mantissa * 10 := by
  rcases rounds with ⟨n, value_eq, rounds⟩
  have half := rounds.nearest.abs_le_half
  have triangle := abs_sub_abs_le_abs_sub (x * 10 ^ first.scale) n
  rw [← value_eq, abs_mul, abs_mul, abs_of_pos (show (0 : ℚ) < 10 ^ first.scale by positivity),
    abs_value_mul, value_eq] at triangle
  rw [hasRoom_iff, pow_succ, ← mul_assoc, not_lt] at full
  have close : (2 * mantissaLimit : ℚ) ≤ 20 * first.mantissa + 11 := by linarith
  have closeNat : 2 * mantissaLimit ≤ 20 * first.mantissa + 11 := by exact_mod_cast close
  unfold mantissaLimit at closeNat ⊢
  omega

/-- After the first rounding there is room for the same places as before. -/
theorem RoundsWithin.hasRoom_value_iff (within : first.RoundsWithin x maxScale)
    (le : places ≤ maxScale) : HasRoom first.value places ↔ HasRoom x places := by
  rw [within.hasRoom_iff le]
  refine ⟨fun room => ?_, fun fewer => first.hasRoom_value.mono fewer⟩
  by_contra more
  have full : ¬HasRoom x (first.scale + 1) := by
    rw [within.hasRoom_iff (by omega)]
    omega
  have large : (mantissaLimit : ℚ) ≤ first.mantissa * 10 := by
    exact_mod_cast within.rounds.limit_le full
  have another : HasRoom first.value (first.scale + 1) := room.mono (by omega)
  rw [Decimal.hasRoom_iff, pow_succ, ← mul_assoc, abs_value_mul] at another
  linarith

/-- A number that is rounded twice ends with as many places as one that is rounded once. -/
theorem RoundsWithin.scale_twice (le : places ≤ maxScale) (within : first.RoundsWithin x maxScale)
    (again : second.RoundsWithin first.value places) :
    IsGreatest {count | count ≤ places ∧ HasRoom x count} second.scale := by
  rcases again.scale with ⟨⟨scale_le, room⟩, greatest⟩
  refine ⟨⟨scale_le, (within.hasRoom_value_iff (scale_le.trans le)).mp room⟩, ?_⟩
  rintro count ⟨count_le, more⟩
  exact greatest ⟨count_le, (within.hasRoom_value_iff (count_le.trans le)).mpr more⟩

/-- Rounding to fewer places is what rounding once would have been, unless the first rounding
misleads the second. -/
theorem Rounds.twice_iff {m : ℤ} (again : second.Rounds first.value)
    (first_eq : first.value * 10 ^ scale = m) (nearest : Nearest (x * 10 ^ scale) m)
    (fewer : second.scale < scale) :
    second.Rounds x ↔ ¬Misleading (x * 10 ^ second.scale) (first.value * 10 ^ second.scale) := by
  rcases again with ⟨n, second_eq, secondRounds⟩
  -- The units of the first rounding, of which an even number make one of the second.
  rcases Nat.exists_eq_add_of_lt fewer with ⟨rest, scale_eq⟩
  have units : (10 : ℚ) ^ scale = 10 ^ second.scale * (2 * (5 * 10 ^ rest : ℕ)) := by
    rw [scale_eq, Nat.add_assoc, pow_add, pow_succ]
    push_cast
    ring
  have divided : first.value * 10 ^ second.scale = m / (2 * (5 * 10 ^ rest : ℕ)) := by
    rw [eq_div_iff (by positivity), mul_assoc, ← units, first_eq]
  rw [units, ← mul_assoc] at nearest
  rw [divided] at secondRounds ⊢
  rw [rounds_iff second_eq]
  exact secondRounds.iff_not_misleading nearest (by positivity)

/-- Rounding to the same places again changes nothing. -/
theorem Rounds.twice_of_scale_eq (rounds : first.Rounds x) (again : second.Rounds first.value)
    (same : second.scale = first.scale) : second.Rounds x := by
  rcases rounds with ⟨m, first_eq, firstRounds⟩
  rcases again with ⟨n, second_eq, secondRounds⟩
  rw [same, first_eq] at secondRounds
  rw [rounds_iff second_eq, same, secondRounds.unique (.self m)]
  exact firstRounds

/-- Rounding twice is rounding once, unless the first rounding misleads the second. -/
theorem RoundsWithin.rounds_twice_iff (le : places ≤ maxScale)
    (within : first.RoundsWithin x maxScale) (again : second.RoundsWithin first.value places) :
    second.Rounds x ↔ ¬Misleading (x * 10 ^ places) (first.value * 10 ^ places) := by
  have scale := within.scale_twice le again
  rcases Nat.lt_or_ge places first.scale with finer | enough
  · have scale_eq : second.scale = places :=
      scale.unique ⟨⟨le_refl _, (within.hasRoom_iff le).mpr finer.le⟩, fun _ bound => bound.1⟩
    rw [← scale_eq] at finer ⊢
    rcases within.rounds with ⟨m, first_eq, rounds⟩
    exact again.rounds.twice_iff first_eq rounds.nearest finer
  · have scale_eq : second.scale = first.scale :=
      scale.unique ⟨⟨enough, within.scale.1.2⟩, fun _ bound =>
        (within.hasRoom_iff (bound.1.trans le)).mp bound.2⟩
    refine iff_of_true (within.rounds.twice_of_scale_eq again.rounds scale_eq) ?_
    rcases within.rounds with ⟨m, first_eq, _⟩
    have whole : first.value * 10 ^ places = ((m * 10 ^ (places - first.scale) : ℤ) : ℚ) := by
      rw [← Nat.add_sub_cancel' enough, pow_add, ← mul_assoc, first_eq, Nat.add_sub_cancel_left]
      push_cast
      rfl
    rw [whole]
    exact not_misleading_whole _ _

theorem RoundsWithin.not_falseTie_iff (within : first.RoundsWithin x maxScale) :
    ¬FalseTie x places ↔ ¬Misleading (x * 10 ^ places) (first.value * 10 ^ places) := by
  refine not_congr ⟨?_, fun misleading => ⟨first, within, misleading⟩⟩
  rintro ⟨other, also, misleading⟩
  rwa [within.value_unique also]

end Twice

/-! ## Both roundings -/

theorem isZero_iff {d : Decimal} : d.isZero = true ↔ d.value = 0 := by
  rw [← abs_eq_zero, abs_value, magnitude, div_eq_zero_iff]
  simp [isZero]

theorem hasRoom_zero (places : ℕ) : HasRoom 0 places := by
  rw [hasRoom_iff, abs_zero, zero_mul]
  norm_num [mantissaLimit]

theorem not_falseTie_zero (places : ℕ) : ¬FalseTie 0 places := by
  rintro ⟨d, within, misleading⟩
  rcases within.rounds with ⟨n, value_eq, rounds⟩
  rw [zero_mul, ← Int.cast_zero] at rounds
  rw [rounds.unique (.self 0), Int.cast_zero, mul_eq_zero_iff_right (by positivity)] at value_eq
  rw [value_eq, zero_mul, ← Int.cast_zero] at misleading
  exact not_misleading_whole _ _ misleading

/-- What a quotient is: there is one if there is room for its whole part, with as many places as
there is room for, and it is rounded to them as it should be unless there is a false tie. -/
theorem div?_spec (a : Decimal) {b : Decimal} (nonzero : b.isZero = false) {places : ℕ}
    (le : places ≤ maxScale) :
    (HasRoom (a.value / b.value) 0 → ∃ q, div? a b places = some q ∧
      IsGreatest {count | count ≤ places ∧ HasRoom (a.value / b.value) count} q.scale ∧
      (q.Rounds (a.value / b.value) ↔ ¬FalseTie (a.value / b.value) places)) ∧
    (¬HasRoom (a.value / b.value) 0 → div? a b places = none) := by
  unfold div?
  split
  · rename_i isZero
    have zero_value : zero.value = 0 := isZero_iff.mp rfl
    rcases exists_toPlaces? zero le with ⟨q, padded, within⟩
    rw [zero_value] at within
    rw [isZero_iff.mp isZero, zero_div]
    refine ⟨fun _ => ⟨q, padded, within.scale, ?_⟩, fun full => absurd (hasRoom_zero 0) full⟩
    exact iff_of_true within.rounds (not_falseTie_zero places)
  · cases divided : quotient? a b with
    | none =>
        exact ⟨fun room => absurd room (not_hasRoom_of_quotient? nonzero divided), fun _ => rfl⟩
    | some first =>
        have within := quotient?_roundsWithin nonzero divided
        rcases exists_toPlaces? first le with ⟨q, rounded, again⟩
        refine ⟨fun _ => ⟨q, rounded, within.scale_twice le again, ?_⟩, fun full => absurd ?_ full⟩
        · rw [within.rounds_twice_iff le again, within.not_falseTie_iff]
        · exact (within.hasRoom_iff (Nat.zero_le _)).mpr (Nat.zero_le _)

end GradualScript.Decimal

namespace GradualScript.Value

/-- The quotient of two decimals, if there is room for its whole part, is the exact quotient rounded
half to even to the places of the dividend, exactly if there is room for so many places and no false
tie. If there is less room the quotient has as many places as possible. -/
theorem decimal_quotient (a b : Decimal) (nonzero : b.value ≠ 0) :
    (Decimal.HasRoom (a.value / b.value) 0 →
      ∃ q : Decimal, apply .divide (.decimal a) (.decimal b) = .ok (.decimal q) ∧
        (q.scale = a.scale ∧ q.Rounds (a.value / b.value) ↔
          Decimal.HasRoom (a.value / b.value) a.scale ∧
            ¬Decimal.FalseTie (a.value / b.value) a.scale) ∧
        IsGreatest {places | places ≤ a.scale ∧ Decimal.HasRoom (a.value / b.value) places}
          q.scale ∧
        (q.Rounds (a.value / b.value) ↔ ¬Decimal.FalseTie (a.value / b.value) a.scale)) ∧
    (¬Decimal.HasRoom (a.value / b.value) 0 →
      apply .divide (.decimal a) (.decimal b) = .error .decimalOverflow) := by
  have notZero : b.isZero = false := by
    rw [← Bool.not_eq_true, Decimal.isZero_iff]
    exact nonzero
  have applied : apply .divide (.decimal a) (.decimal b) =
      ofDecimal (Decimal.div? a b a.scale) := by
    simp only [apply, divide, notZero, Bool.false_eq_true, if_false]
  rcases Decimal.div?_spec a notZero a.scale_le with ⟨divides, overflows⟩
  rw [applied]
  refine ⟨fun room => ?_, fun full => by rw [overflows full]; rfl⟩
  rcases divides room with ⟨q, divided, scale, rounds_iff⟩
  have scale_iff : q.scale = a.scale ↔ Decimal.HasRoom (a.value / b.value) a.scale :=
    ⟨fun same => same ▸ scale.1.2, fun room => le_antisymm scale.1.1 (scale.2 ⟨le_refl _, room⟩)⟩
  exact ⟨q, by rw [divided]; rfl, and_congr scale_iff rounds_iff, scale, rounds_iff⟩

/-- The quotient of 0.5 by 2.0 is in the middle between two decimals with one place. -/
theorem decimal_quotient_middle :
    (⟨false, 20, 1, by decide, by decide⟩ : Decimal).value ≠ 0 ∧
    ∃ q : Decimal, apply .divide (.decimal ⟨false, 5, 1, by decide, by decide⟩)
        (.decimal ⟨false, 20, 1, by decide, by decide⟩) = .ok (.decimal q) ∧
      q.scale = 1 ∧ q.Rounds (1 / 4) := by
  have nonzero : (⟨false, 20, 1, by decide, by decide⟩ : Decimal).value ≠ 0 := by
    norm_num [Decimal.value, Decimal.magnitude, Decimal.signed]
  have spec := (decimal_quotient ⟨false, 5, 1, by decide, by decide⟩ _ nonzero).1
  have quotient_eq : (⟨false, 5, 1, by decide, by decide⟩ : Decimal).value /
      (⟨false, 20, 1, by decide, by decide⟩ : Decimal).value = 1 / 4 := by
    norm_num [Decimal.value, Decimal.magnitude, Decimal.signed]
  rw [quotient_eq] at spec
  have room : Decimal.HasRoom (1 / 4) 28 := by
    rw [Decimal.hasRoom_iff]
    norm_num [Decimal.mantissaLimit, abs_of_pos]
  -- There is room for the exact quotient, so that the middle is a true one.
  have noFalseTie : ¬Decimal.FalseTie (1 / 4) 1 := by
    rintro ⟨d, within, k, _, side⟩
    have scale_eq : d.scale = 28 :=
      le_antisymm within.scale.1.1 ((within.hasRoom_iff (le_refl _)).mp room)
    rcases within.rounds with ⟨n, value_eq, rounds⟩
    have whole : (1 / 4 * 10 ^ 28 : ℚ) = (2500000000000000000000000000 : ℤ) := by norm_num
    rw [scale_eq] at value_eq rounds
    rw [whole] at rounds
    rw [rounds.unique (.self _), ← whole] at value_eq
    rw [mul_right_cancel₀ (by norm_num) value_eq] at side
    rcases side with ⟨_, less⟩ | ⟨_, less⟩ <;> exact lt_irrefl _ less
  rcases spec (room.mono (by decide)) with ⟨q, applied, exact_iff, _⟩
  exact ⟨nonzero, q, applied, exact_iff.mpr ⟨room.mono (by decide), noFalseTie⟩⟩

/-- Two quotients of which neither is the exact one, rounded to the places of the dividend. The
first is more than a half by so little that it is rounded to a half and then to zero, and the other
is 10 and has no room for 28 places. -/
theorem decimal_quotient_inexact :
    (∃ q : Decimal,
      apply .divide (.decimal ⟨false, 39614081257132168796771975168, 0, by decide, by decide⟩)
        (.decimal ⟨false, 79228162514264337593543950335, 0, by decide, by decide⟩) =
          .ok (.decimal q) ∧
      q.scale = 0 ∧ ¬q.Rounds (39614081257132168796771975168 / 79228162514264337593543950335)) ∧
    ∃ q : Decimal,
      apply .divide (.decimal ⟨false, 10000000000000000000000000000, 28, by decide, by decide⟩)
        (.decimal ⟨false, 1, 1, by decide, by decide⟩) = .ok (.decimal q) ∧ q.scale ≠ 28 := by
  refine ⟨⟨.zero, rfl, rfl, ?_⟩, ?_⟩
  · have whole : Decimal.zero.value * 10 ^ Decimal.zero.scale = (0 : ℤ) := by
      rw [Decimal.isZero_iff.mp rfl, zero_mul, Int.cast_zero]
    rw [Decimal.rounds_iff whole]
    intro rounds
    have half := (abs_le.mp rounds.nearest.abs_le_half).2
    norm_num [Decimal.zero] at half
  · exact ⟨⟨false, 10000000000000000000000000000, 27, by decide, by decide⟩, rfl, by decide⟩

end GradualScript.Value
