import GradualScript.Value.Operation
import Mathlib.Order.Compare

/-!
# Equality and order of values

Equality goes through lists and does not see the scale of a decimal; order is for two numbers, two
characters or two texts. That the two belong together is shown by what a value stands for, its
`Meaning`: two values are equal if they stand for the same (`same_iff`), so that equality is an
equivalence, and whatever asks for the order or the type of a value depends on its meaning alone.
-/

namespace GradualScript.Value

/-! ## What values stand for -/

/-- What a value stands for. A decimal is the number of its units, whatever its scale. -/
inductive Meaning where
  | nil
  | boolean (value : Bool)
  | integer (value : Int64)
  | decimal (units : Int)
  | character (value : Char)
  | string (value : String)
  | list (values : List Meaning)

mutual

/-- The meaning of a value. -/
def meaning : Value → Meaning
  | nil => .nil
  | boolean value => .boolean value
  | integer value => .integer value
  | decimal value => .decimal value.units
  | character value => .character value
  | string value => .string value
  | list values => .list (meanings values)

/-- The meanings of the elements of a list. -/
def meanings : List Value → List Meaning
  | [] => []
  | value :: values => meaning value :: meanings values

end

mutual

/-- Values are equal if they stand for the same. -/
theorem same_iff (left right : Value) : left.same right = true ↔ left.meaning = right.meaning := by
  cases left with
  | list lefts =>
      cases right with
      | list rights =>
          simp only [same, meaning, Meaning.list.injEq]
          exact sameList_iff lefts rights
      | _ => simp [same, meaning]
  | decimal left => cases right <;> simp [same, meaning, Decimal.sameValue]
  | _ => cases right <;> simp [same, meaning]

theorem sameList_iff (lefts rights : List Value) :
    sameList lefts rights = true ↔ meanings lefts = meanings rights := by
  cases lefts with
  | nil => cases rights <;> simp [sameList, meanings]
  | cons left lefts =>
      cases rights with
      | nil => simp [sameList, meanings]
      | cons right rights =>
          simp only [sameList, meanings, Bool.and_eq_true, List.cons.injEq]
          exact and_congr (same_iff left right) (sameList_iff lefts rights)

end

mutual

/-- Values that stand for the same fit the same types. -/
theorem fits_congr {left right : Value} (alike : left.meaning = right.meaning) (ty : Ty) :
    left.fits ty = right.fits ty := by
  cases left with
  | list lefts =>
      cases right with
      | list rights =>
          simp only [meaning, Meaning.list.injEq] at alike
          cases ty with
          | list element => exact allFit_congr alike element
          | _ => rfl
      | _ => simp [meaning] at alike
  | _ =>
      cases right <;> simp [meaning] at alike
      rfl

theorem allFit_congr {lefts rights : List Value} (alike : meanings lefts = meanings rights)
    (ty : Ty) : allFit ty lefts = allFit ty rights := by
  cases lefts with
  | nil =>
      cases rights <;> simp [meanings] at alike
      rfl
  | cons left lefts =>
      cases rights with
      | nil => simp [meanings] at alike
      | cons right rights =>
          simp only [meanings, List.cons.injEq] at alike
          simp only [allFit, fits_congr alike.1 ty, allFit_congr alike.2 ty]

end

theorem kindName_congr {left right : Value} (alike : left.meaning = right.meaning) :
    left.kindName = right.kindName := by
  cases left <;> cases right <;> simp [meaning] at alike <;> rfl

/-! ## Order -/

/-- Whether two values are of one kind and that kind has an order. -/
inductive Ordered : Value → Value → Prop
  | integer {left right : Int64} : Ordered (.integer left) (.integer right)
  | decimal {left right : Decimal} : Ordered (.decimal left) (.decimal right)
  | character {left right : Char} : Ordered (.character left) (.character right)
  | string {left right : String} : Ordered (.string left) (.string right)

variable {a b c : Value}

theorem compare?_eq_none (unordered : ¬Ordered a b) : a.compare? b = none := by
  fun_cases compare? a b with
  | case1 => exact absurd .integer unordered
  | case2 => exact absurd .decimal unordered
  | case3 => exact absurd .character unordered
  | case4 => exact absurd .string unordered
  | case5 => rfl

theorem ordered_of_compare? {ordering : Ordering} (compared : a.compare? b = some ordering) :
    Ordered a b := by
  by_contra unordered
  rw [compare?_eq_none unordered] at compared
  cases compared

/-- How two values compare, if they do so by numbers or texts that stand for them. -/
theorem exists_ordering_of_rank {α : Type} [Ord α] [Std.OrientedOrd α] [Std.LawfulEqOrd α]
    (left right : α) (forth : a.compare? b = some (compare left right))
    (back : b.compare? a = some (compare right left)) (equal : a.same b = true ↔ left = right) :
    ∃ ordering, a.compare? b = some ordering ∧ b.compare? a = some ordering.swap ∧
      (ordering = .eq ↔ a.same b = true) := by
  refine ⟨compare left right, forth, ?_, ?_⟩
  · rw [back, ← Std.OrientedCmp.eq_swap]
  · rw [equal, Std.LawfulEqCmp.compare_eq_iff_eq]

/-- Values of a kind that has an order compare both ways, and as equal ones if they are equal. -/
theorem exists_ordering (ordered : Ordered a b) :
    ∃ ordering, a.compare? b = some ordering ∧ b.compare? a = some ordering.swap ∧
      (ordering = .eq ↔ a.same b = true) := by
  cases ordered with
  | @integer left right =>
      exact exists_ordering_of_rank left.toInt right.toInt rfl rfl
        (by simp [same, Int64.toInt_inj])
  | @decimal left right =>
      exact exists_ordering_of_rank left.units right.units rfl rfl
        (by simp [same, Decimal.sameValue])
  | @character left right =>
      exact exists_ordering_of_rank left.toNat right.toNat rfl rfl
        (by simp [same, Char.toNat_inj])
  | @string left right => exact exists_ordering_of_rank left right rfl rfl (by simp [same])

theorem compare?_trans (first : a.compare? b = some .lt) (second : b.compare? c = some .lt) :
    a.compare? c = some .lt := by
  have trans {α : Type} [Ord α] [Std.TransOrd α] {left middle right : α}
      (first : some (compare left middle) = some .lt)
      (second : some (compare middle right) = some .lt) :
      some (compare left right) = some .lt :=
    congrArg some (Std.TransCmp.lt_trans (Option.some.inj first) (Option.some.inj second))
  cases ordered_of_compare? first <;> cases ordered_of_compare? second <;>
    exact trans first second

/-- Values that stand for the same compare alike. -/
theorem compare?_congr (alike : a.meaning = b.meaning) (c : Value) :
    a.compare? c = b.compare? c := by
  cases a with
  | decimal left =>
      cases b with
      | decimal right =>
          simp only [meaning, Meaning.decimal.injEq] at alike
          cases c <;> simp only [compare?, Decimal.compareValue, alike]
      | _ => simp [meaning] at alike
  | list lefts =>
      cases b with
      | list rights => rfl
      | _ => simp [meaning] at alike
  | _ =>
      cases b <;> simp only [meaning, reduceCtorEq] at alike
      cases alike
      rfl

theorem Ordered.symm (ordered : Ordered a b) : Ordered b a := by
  cases ordered <;> constructor

theorem compare?_swap (a b : Value) : b.compare? a = (a.compare? b).map Ordering.swap := by
  by_cases ordered : Ordered a b
  · rcases exists_ordering ordered with ⟨ordering, forth, back, _⟩
    rw [forth, back, Option.map_some]
  · rw [compare?_eq_none ordered, compare?_eq_none fun other => ordered other.symm, Option.map_none]

/-! ## What operators say -/

/-- Whether the outcome of an operation is a truth value. -/
def Answers (operator : Operator) (a b : Value) (truth : Bool) : Prop :=
  apply operator a b = .ok (.boolean truth)

/-- The laws of equality: it is an equivalence, and inequality is its negation. -/
structure EqualityLaws (a b c : Value) : Prop where
  reflexive : Answers .equal a a true
  symmetric : Answers .equal a b true → Answers .equal b a true
  transitive : Answers .equal a b true → Answers .equal b c true → Answers .equal a c true
  negation : ∃ equal, Answers .equal a b equal ∧ Answers .notEqual a b !equal

/-- The laws of order: exactly one value comes first unless they are equal, and the four operators
that ask for the order say the same of it. -/
structure OrderLaws (a b : Value) : Prop where
  trichotomy :
    Answers .less a b true ∧ Answers .equal a b false ∧ Answers .less b a false ∨
    Answers .less a b false ∧ Answers .equal a b true ∧ Answers .less b a false ∨
    Answers .less a b false ∧ Answers .equal a b false ∧ Answers .less b a true
  converse : apply .greater a b = apply .less b a
  notGreater : ∃ greater, Answers .greater a b greater ∧ Answers .lessEqual a b !greater
  notLess : ∃ less, Answers .less a b less ∧ Answers .greaterEqual a b !less

/-- Whether two values cannot be told apart, by comparing them with a third one or by the types that
they fit. -/
structure Interchangeable (a b c : Value) : Prop where
  onLeft (operator : Operator)
    (comparison : operator.asksOrder = true ∨ operator = .equal ∨ operator = .notEqual) :
    apply operator a c = apply operator b c
  onRight (operator : Operator)
    (comparison : operator.asksOrder = true ∨ operator = .equal ∨ operator = .notEqual) :
    apply operator c a = apply operator c b
  fits (ty : Ty) : a.fits ty = b.fits ty

theorem answers_equal_iff {truth : Bool} : Answers .equal a b truth ↔ a.same b = truth := by
  simp only [Answers, apply, Except.ok.injEq, boolean.injEq]

theorem answers_equal_true_iff : Answers .equal a b true ↔ a.meaning = b.meaning := by
  rw [answers_equal_iff, same_iff]

theorem apply_of_asksOrder {operator : Operator} (asks : operator.asksOrder = true) (a b : Value) :
    apply operator a b = order operator a b := by
  cases operator <;> first | rfl | cases asks

theorem answers_of_compare? {operator : Operator} (asks : operator.asksOrder = true)
    {ordering : Ordering} (compared : a.compare? b = some ordering) :
    Answers operator a b (holds operator ordering) := by
  rw [Answers, apply_of_asksOrder asks, order, compared]

theorem answers_less_true_iff : Answers .less a b true ↔ a.compare? b = some .lt := by
  refine ⟨fun answers => ?_, fun compared => answers_of_compare? rfl compared⟩
  rw [Answers, apply_of_asksOrder rfl, order] at answers
  cases compared : a.compare? b with
  | none =>
      rw [compared] at answers
      cases answers
  | some ordering =>
      rw [compared] at answers
      cases ordering with
      | lt => rfl
      | eq | gt => cases answers

theorem equalityLaws (a b c : Value) : EqualityLaws a b c := by
  refine ⟨?_, ?_, ?_, ⟨a.same b, rfl, rfl⟩⟩
  · rw [answers_equal_true_iff]
  · rw [answers_equal_true_iff, answers_equal_true_iff]
    exact Eq.symm
  · rw [answers_equal_true_iff, answers_equal_true_iff, answers_equal_true_iff]
    exact Eq.trans

theorem orderLaws (ordered : Ordered a b) : OrderLaws a b := by
  rcases exists_ordering ordered with ⟨ordering, forth, back, equal_iff⟩
  have answers {operator : Operator} (asks : operator.asksOrder = true) :
      Answers operator a b (holds operator ordering) := answers_of_compare? asks forth
  have answersBack : Answers .less b a (holds .less ordering.swap) := answers_of_compare? rfl back
  have answersEqual : Answers .equal a b (ordering = .eq) := by
    rw [answers_equal_iff, Bool.eq_iff_iff, decide_eq_true_eq]
    exact equal_iff.symm
  refine ⟨?_, ?_, ⟨holds .greater ordering, answers rfl, ?_⟩,
    ⟨holds .less ordering, answers rfl, ?_⟩⟩
  · cases ordering with
    | lt => exact .inl ⟨answers rfl, answersEqual, answersBack⟩
    | eq => exact .inr (.inl ⟨answers rfl, answersEqual, answersBack⟩)
    | gt => exact .inr (.inr ⟨answers rfl, answersEqual, answersBack⟩)
  · rw [answers rfl, answersBack]
    cases ordering <;> rfl
  · cases ordering <;> exact answers rfl
  · cases ordering <;> exact answers rfl

theorem interchangeable (alike : a.meaning = b.meaning) (c : Value) : Interchangeable a b c := by
  have names := kindName_congr alike
  have onLeft : a.same c = b.same c := by rw [Bool.eq_iff_iff, same_iff, same_iff, alike]
  have onRight : c.same a = c.same b := by rw [Bool.eq_iff_iff, same_iff, same_iff, alike]
  refine ⟨?_, ?_, fits_congr alike⟩
  · rintro operator (asks | rfl | rfl)
    · rw [apply_of_asksOrder asks, apply_of_asksOrder asks, order, order, compare?_congr alike c,
        illegal, illegal, names]
    · rw [apply, apply, onLeft]
    · rw [apply, apply, onLeft]
  · rintro operator (asks | rfl | rfl)
    · rw [apply_of_asksOrder asks, apply_of_asksOrder asks, order, order, compare?_swap a c,
        compare?_swap b c, compare?_congr alike c, illegal, illegal, names]
    · rw [apply, apply, onRight]
    · rw [apply, apply, onRight]

/-- Equality and order belong together: equality is an equivalence, of two values of one kind that
has an order exactly one comes first unless they are equal, equal values cannot be told apart, and
other pairs of values have no order. -/
theorem comparisons_coherent (a b c : Value) :
    EqualityLaws a b c ∧
    (Ordered a b → OrderLaws a b) ∧
    (Answers .less a b true → Answers .less b c true → Answers .less a c true) ∧
    (Answers .equal a b true → Interchangeable a b c) ∧
    (¬Ordered a b → ∀ operator : Operator, operator.asksOrder = true →
      apply operator a b = .error (illegal operator a b)) := by
  refine ⟨equalityLaws a b c, orderLaws, fun first second => ?_, fun equal => ?_, ?_⟩
  · rw [answers_less_true_iff] at *
    exact compare?_trans first second
  · exact interchangeable (answers_equal_true_iff.mp equal) c
  · intro unordered operator asks
    rw [apply_of_asksOrder asks, order, compare?_eq_none unordered]

end GradualScript.Value
