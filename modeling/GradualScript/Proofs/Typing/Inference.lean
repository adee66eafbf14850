import GradualScript.Proofs.Typing.Checked

/-!
# The types that a checker finds

A check finds a type and writes it down on the way. `Checker.typeOf?` is the type alone, and here it
is said how it follows from the types of the parts, without the annotations, the places and the
reasons for which a check stops.
-/

namespace GradualScript

namespace Checker

variable {checker : Checker}

/-- The type that a checker finds for an expression; none if it does not accept it. -/
def typeOf? (checker : Checker) (expr : Expr) : Option Ty := (checker.checkExpr expr).2.toOption

/-- The types that a checker finds for expressions; none if it does not accept all of them. -/
def typesOf? (checker : Checker) (exprs : List Expr) : Option (List Ty) :=
  (checker.checkExprs exprs).2.toOption

/-- The variable that a name means. -/
def knownVariable? (checker : Checker) (name : String) : Option Variable :=
  (checker.arena.findVariable checker.current name).toOption.join

/-- The function that a name and a number of arguments mean. -/
def knownFunction? (checker : Checker) (name : String) (arity : Nat) : Option Signature :=
  (checker.arena.findFunction checker.current name arity).toOption.join

/-- Whether arguments of the given types suit parameters of the given types. -/
def suits (targets types : List Ty) : Bool :=
  (targets.zip types).all fun (target, received) => target.allows received

theorem typeOf?_eq_some_iff {expr : Expr} {ty : Ty} :
    checker.typeOf? expr = some ty ↔ (checker.checkExpr expr).2 = .ok ty := by
  unfold typeOf?
  cases (checker.checkExpr expr).2 <;> simp [Except.toOption]

theorem toOption_variableAt (name : String) (position : Position) :
    (checker.variableAt name position).toOption = checker.knownVariable? name := by
  unfold variableAt knownVariable?
  rcases checker.arena.findVariable checker.current name with halt | _ | found <;> rfl

theorem toOption_functionAt (name : String) (arity : Nat) (position : Position) :
    (checker.functionAt name arity position).toOption = checker.knownFunction? name arity := by
  unfold functionAt knownFunction?
  rcases checker.arena.findFunction checker.current name arity with halt | _ | found <;> rfl

theorem toOption_expectArguments {types : List Ty} {positions : List Position}
    (enough : positions.length = types.length) (targets : List Ty) :
    (expectArguments targets (types.zip positions)).toOption =
      if suits targets types then some () else none := by
  induction targets generalizing types positions with
  | nil => rfl
  | cons target targets ih =>
      rcases types with _ | ⟨ty, types⟩
      · rfl
      rcases positions with _ | ⟨position, positions⟩
      · simp at enough
      have rest := ih (Nat.succ.inj enough)
      simp only [List.zip_cons_cons, expectArguments, Ty.expectArgument, suits, List.all_cons]
        at rest ⊢
      by_cases allowed : target.allows ty = true
      · simp only [allowed, if_true, Bool.true_and]
        exact rest
      · simp only [allowed, Bool.false_and]
        rfl

theorem length_checkExprs (checker : Checker) (exprs : List Expr) :
    (checker.checkExprs exprs).1.length = exprs.length ∧
      ∀ types, (checker.checkExprs exprs).2 = .ok types → types.length = exprs.length := by
  induction exprs with
  | nil => simp [checkExprs]
  | cons expr others ih =>
      rw [checkExprs]
      rcases checker.checkExpr expr with ⟨expr, halt | ty⟩
      · simp
      · generalize checker.checkExprs others = checked at ih ⊢
        rcases checked with ⟨results, halt | types⟩
        · simpa using ih.1
        · simpa using ih

theorem typeOf?_literal (span : Span) (label : Option Ty) (value : Literal) :
    checker.typeOf? (.literal span label value) = some value.ty := by
  simp [typeOf?, checkExpr, Except.toOption]

theorem typeOf?_group (span : Span) (label : Option Ty) (inner : Expr) :
    checker.typeOf? (.group span label inner) =
      if inner.isBinary then checker.typeOf? inner else none := by
  rw [typeOf?, checkExpr]
  split
  · unfold typeOf?
    rcases checker.checkExpr inner with ⟨inner, halt | ty⟩ <;> rfl
  · rfl

theorem typeOf?_binary (span : Span) (label : Option Ty) (operator : Operator)
    (left right : Expr) :
    checker.typeOf? (.binary span label operator left right) = (do
      let leftType ← checker.typeOf? left
      let rightType ← checker.typeOf? right
      Ty.ofOperation? operator leftType rightType) := by
  rw [typeOf?, typeOf?, typeOf?, checkExpr]
  rcases checker.checkExpr left with ⟨left, halt | leftType⟩
  · rfl
  rcases checker.checkExpr right with ⟨right, halt | rightType⟩
  · rfl
  simp only [Ty.operationAt]
  cases found : Ty.ofOperation? operator leftType rightType with
  | none => simp [Except.toOption, found]
  | some ty => simp [Except.toOption, found]

theorem typeOf?_access (span : Span) (label : Option Ty) (name : String)
    (binding : Option Variable) :
    checker.typeOf? (.access span label name binding) =
      (checker.knownVariable? name).map Variable.ty := by
  rw [typeOf?, checkExpr, ← toOption_variableAt name span.start]
  cases checker.variableAt name span.start <;> rfl

theorem typeOf?_element (span : Span) (label : Option Ty) (name : String)
    (binding : Option Variable) (offset : Expr) :
    checker.typeOf? (.element span label name binding offset) = (do
      let found ← checker.knownVariable? name
      let offsetType ← checker.typeOf? offset
      if Ty.integer.allows offsetType then found.ty.element? else none) := by
  rw [typeOf?, typeOf?, checkExpr, ← toOption_variableAt name span.start]
  cases checker.variableAt name span.start with
  | error halt => rfl
  | ok found =>
      rcases checker.checkExpr offset with ⟨offset, halt | offsetType⟩
      · rfl
      simp only [Ty.expect, Ty.elementAt]
      by_cases whole : Ty.integer.allows offsetType = true
      · rw [if_pos whole]
        cases element : found.ty.element? <;>
          simp [whole, element, Except.toOption, seqRight_eq_bind, bind, Except.bind]
      · rw [if_neg whole]
        simp [whole, Except.toOption, seqRight_eq_bind, bind, Except.bind]

theorem typeOf?_call (span : Span) (label : Option Ty) (name : String)
    (binding : Option Signature) (arguments : List Expr) :
    checker.typeOf? (.call span label name binding arguments) = (do
      let types ← checker.typesOf? arguments
      let found ← checker.knownFunction? name arguments.length
      if suits found.parameters types then some found.result else none) := by
  have lengths := length_checkExprs checker arguments
  rw [typeOf?, typesOf?, checkExpr]
  generalize checker.checkExprs arguments = checked at lengths ⊢
  rcases checked with ⟨results, halt | types⟩
  · rfl
  simp only at lengths ⊢
  rw [lengths.1, ← toOption_functionAt name arguments.length span.start]
  cases checker.functionAt name arguments.length span.start with
  | error halt => rfl
  | ok found =>
      have enough : (results.map Expr.start).length = types.length := by
        rw [List.length_map, lengths.1, lengths.2 types rfl]
      have suit := toOption_expectArguments enough found.parameters
      simp only [Except.toOption, Option.bind_some, bind]
      by_cases allowed : suits found.parameters types = true
      · rw [if_pos allowed] at suit ⊢
        generalize expectArguments found.parameters _ = expected at suit ⊢
        rcases expected with halt | _
        · cases suit
        · rfl
      · rw [if_neg allowed] at suit ⊢
        generalize expectArguments found.parameters _ = expected at suit ⊢
        rcases expected with halt | _
        · rfl
        · cases suit

theorem typeOf?_list (span : Span) (label : Option Ty) (elements : List Expr) :
    checker.typeOf? (.list span label elements) =
      (checker.typesOf? elements).map Ty.ofElements := by
  rw [typeOf?, typesOf?, checkExpr]
  rcases checker.checkExprs elements with ⟨results, halt | types⟩ <;> rfl

theorem typesOf?_nil : checker.typesOf? [] = some [] := by
  simp [typesOf?, checkExprs, Except.toOption]

theorem typesOf?_cons (expr : Expr) (others : List Expr) :
    checker.typesOf? (expr :: others) = (do
      let ty ← checker.typeOf? expr
      let types ← checker.typesOf? others
      some (ty :: types)) := by
  rw [typesOf?, typesOf?, typeOf?, checkExprs]
  rcases checker.checkExpr expr with ⟨result, halt | ty⟩
  · rfl
  rcases checker.checkExprs others with ⟨results, halt | types⟩ <;> rfl

end Checker

end GradualScript
