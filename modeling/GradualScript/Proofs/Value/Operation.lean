import GradualScript.Machine.Expression

/-!
# What operations on values give

One lemma for each operation on values: what kind of value it gives, and that where it gives none
the reason has nothing to do with names. Arithmetic is of the kind of its operands, except for
quotients, which are decimals also of whole numbers.
-/

namespace GradualScript

/-- Whether a cause is about what a name means or may be used for. -/
def Cause.isNaming : Cause → Bool
  | variableUndefined _ | functionUndefined _ _ | variableRedeclared _ | functionRedeclared _ _
  | variableConstant _ | invalidTarget => true
  | _ => false

namespace Value

/-- Whether an operation gives a value as stated, or fails for a reason that is found while a script
runs and has nothing to do with names. -/
def Gives {α : Type} (result : Except Cause α) (known : α → Prop) : Prop :=
  match result with
  | .ok value => known value
  | .error cause => cause.isNaming = false ∧ cause.phase = .running

theorem Gives.mono {α : Type} {result : Except Cause α} {known weaker : α → Prop}
    (gives : Gives result known) (implies : ∀ value, known value → weaker value) :
    Gives result weaker := by
  cases result with
  | ok value => exact implies value gives
  | error cause => exact gives

theorem Gives.of_ok {α : Type} {result : Except Cause α} {known : α → Prop} {value : α}
    (gives : Gives result known) (made : result = .ok value) : known value := by
  subst made
  exact gives

theorem Gives.and_ok {α : Type} {result : Except Cause α} {known better : α → Prop}
    (gives : Gives result known) (implies : ∀ value, result = .ok value → better value) :
    Gives result better := by
  cases result with
  | ok value => exact implies value rfl
  | error cause => exact gives

theorem Gives.bind {α β : Type} {result : Except Cause α} {next : α → Except Cause β}
    {known : α → Prop} {knownNext : β → Prop} (gives : Gives result known)
    (rest : ∀ value, known value → Gives (next value) knownNext) :
    Gives (result >>= next) knownNext := by
  cases result with
  | ok value => exact rest value gives
  | error cause => exact gives

/-- A result of arithmetic that is of the kind of its operands. -/
inductive Calculated : Value → Value → Value → Prop
  | integer {left right result : Int64} :
      Calculated (.integer left) (.integer right) (.integer result)
  | decimal {left right result : Decimal} :
      Calculated (.decimal left) (.decimal right) (.decimal result)

theorem ofInteger_gives (number : Option Int64) :
    Gives (ofInteger number) fun result => ∃ value, result = .integer value := by
  cases number with
  | none => exact ⟨rfl, rfl⟩
  | some value => exact ⟨value, rfl⟩

theorem ofDecimal_gives (number : Option Decimal) :
    Gives (ofDecimal number) fun result => ∃ value, result = .decimal value := by
  cases number with
  | none => exact ⟨rfl, rfl⟩
  | some value => exact ⟨value, rfl⟩

theorem order_gives (operator : Operator) (left right : Value) :
    Gives (order operator left right) fun result => ∃ value, result = .boolean value := by
  unfold order
  split
  · exact ⟨_, rfl⟩
  · exact ⟨rfl, rfl⟩

theorem connect_gives (operator : Operator) (combine : Bool → Bool → Bool) (left right : Value) :
    Gives (connect operator combine left right) fun result => ∃ value, result = .boolean value := by
  unfold connect
  split
  · exact ⟨_, rfl⟩
  · exact ⟨rfl, rfl⟩

theorem power_gives (left right : Value) :
    Gives (power left right) fun result => ∃ value, result = .integer value := by
  unfold power
  split
  · split
    · exact ofInteger_gives _
    · exact ⟨rfl, rfl⟩
  · exact ⟨rfl, rfl⟩

theorem calculated_integer {left right : Int64} (number : Option Int64) :
    Gives (ofInteger number) (Calculated (.integer left) (.integer right)) := by
  refine (ofInteger_gives number).mono ?_
  rintro _ ⟨_, rfl⟩
  exact .integer

theorem calculated_decimal {left right : Decimal} (number : Option Decimal) :
    Gives (ofDecimal number) (Calculated (.decimal left) (.decimal right)) := by
  refine (ofDecimal_gives number).mono ?_
  rintro _ ⟨_, rfl⟩
  exact .decimal

theorem subtract_gives (left right : Value) :
    Gives (subtract left right) (Calculated left right) := by
  unfold subtract
  split
  · exact calculated_integer _
  · exact calculated_decimal _
  · exact ⟨rfl, rfl⟩

theorem multiply_gives (left right : Value) :
    Gives (multiply left right) (Calculated left right) := by
  unfold multiply
  split
  · exact calculated_integer _
  · exact calculated_decimal _
  · exact ⟨rfl, rfl⟩

/-- A sum is a number, or a text if one of the operands is. -/
theorem add_gives (left right : Value) :
    Gives (add left right) fun result =>
      Calculated left right result ∨
        (∃ text, result = .string text) ∧
          ((∃ text, left = .string text) ∨ ∃ text, right = .string text) := by
  unfold add
  split
  · exact .inr ⟨⟨_, rfl⟩, .inl ⟨_, rfl⟩⟩
  · exact .inr ⟨⟨_, rfl⟩, .inr ⟨_, rfl⟩⟩
  · exact (calculated_integer _).mono fun _ => .inl
  · exact (calculated_decimal _).mono fun _ => .inl
  · exact ⟨rfl, rfl⟩

/-- A quotient is a decimal, of whole numbers as well. -/
theorem divide_gives (left right : Value) :
    Gives (divide left right) fun result => ∃ value, result = .decimal value := by
  unfold divide
  split
  · split
    · exact ⟨rfl, rfl⟩
    · exact ofDecimal_gives _
  · split
    · exact ⟨rfl, rfl⟩
    · exact ofDecimal_gives _
  · exact ⟨rfl, rfl⟩

/-- No operation gives nil. -/
theorem apply_gives (operator : Operator) (left right : Value) :
    Gives (apply operator left right) (· ≠ .nil) := by
  have calculated (result : Value) : Calculated left right result → result ≠ .nil := by
    rintro ⟨⟩ ⟨⟩
  cases operator with
  | equal | notEqual => exact Value.noConfusion
  | less | lessEqual | greater | greaterEqual =>
      exact (order_gives _ left right).mono (by rintro _ ⟨_, rfl⟩ ⟨⟩)
  | add =>
      refine (add_gives left right).mono ?_
      rintro result (isNumber | ⟨⟨_, rfl⟩, _⟩)
      · exact calculated result isNumber
      · exact Value.noConfusion
  | subtract => exact (subtract_gives left right).mono calculated
  | multiply => exact (multiply_gives left right).mono calculated
  | divide => exact (divide_gives left right).mono (by rintro _ ⟨_, rfl⟩ ⟨⟩)
  | power => exact (power_gives left right).mono (by rintro _ ⟨_, rfl⟩ ⟨⟩)
  | and | or => exact (connect_gives _ _ left right).mono (by rintro _ ⟨_, rfl⟩ ⟨⟩)

theorem asBoolean_gives (value : Value) :
    Gives value.asBoolean fun truth => value = .boolean truth := by
  cases value with
  | boolean truth => rfl
  | _ => exact ⟨rfl, rfl⟩

theorem asInteger_gives (value : Value) : Gives value.asInteger fun _ => True := by
  cases value with
  | integer number => trivial
  | _ => exact ⟨rfl, rfl⟩

theorem asList_gives (value : Value) : Gives value.asList fun values => value = .list values := by
  cases value with
  | list values => rfl
  | _ => exact ⟨rfl, rfl⟩

theorem slot_gives (index : Int64) (length : Nat) :
    Gives (slot index length) fun place => place < length := by
  unfold slot
  split
  · rename_i inside
    change index.toInt.toNat < length
    omega
  · exact ⟨rfl, rfl⟩

/-- What is found at an index is an element of the list. -/
theorem elementAt_gives (value : Value) (index : Int64) :
    Gives (value.elementAt index) fun element =>
      ∃ values, value = .list values ∧ element ∈ values := by
  refine (asList_gives value).bind fun values isList => ?_
  refine (slot_gives index values.length).bind fun place inside => ?_
  refine ⟨values, isList, ?_⟩
  simp [List.getD_eq_getElem?_getD, List.getElem?_eq_getElem inside]

theorem setElement_gives (value : Value) (index : Int64) (element : Value) :
    Gives (value.setElement index element) fun result =>
      ∃ values place, value = .list values ∧ result = .list (values.set place element) := by
  refine (asList_gives value).bind fun values isList => ?_
  exact (slot_gives index values.length).bind fun place _ => ⟨values, place, isList, rfl⟩

/-- A value that equals nil is nil. -/
theorem eq_nil_of_same {value : Value} (same : value.same .nil = true) : value = .nil := by
  cases value with
  | nil => rfl
  | _ => simp [Value.same] at same

/-- A value that equals a text is that text. -/
theorem eq_string_of_same {value : Value} {text : String}
    (same : value.same (.string text) = true) : value = .string text := by
  cases value with
  | string other =>
      simp only [Value.same, decide_eq_true_eq] at same
      rw [same]
  | _ => simp [Value.same] at same

/-- A value that equals a decimal is one, of any scale. -/
theorem exists_decimal_of_same {value : Value} {number : Decimal}
    (same : value.same (.decimal number) = true) : ∃ other, value = .decimal other := by
  cases value with
  | decimal other => exact ⟨other, rfl⟩
  | _ => simp [Value.same] at same

end Value

end GradualScript
