import Mathlib.Data.List.Forall2
import GradualScript.Proofs.Scope.Mirror
import GradualScript.Proofs.Typing.Inference

/-!
# Variables whose types are no longer known

A variable of type `Any` may stand wherever one of a known type may, so a checker should accept at
least as much when it knows less of its variables. It nearly does. A sum with a text takes anything
for its other operand, and that is forgotten when the text is no longer known to be one: what is
then added must be a number, a text, or unknown as well. And a list suits a list parameter by what
is known of its elements. `Expr.Survives` says of an expression that neither is lost anywhere in it,
and an expression that was accepted still is exactly if it survives.

Something may also be gained. A list in brackets whose elements have different types is a list of
`Any`, and when these are lists themselves, they may come to have one type with less known of them.
-/

namespace GradualScript

namespace Ty

/-- Whether a type is another one, as far as that is still known. Lists of different types may have
come to be of one. -/
inductive Blurs : Ty → Ty → Prop
  | same (ty : Ty) : Blurs ty ty
  | unknown (ty : Ty) : Blurs ty any
  | lists {precise vague : Ty} (elements : Blurs precise vague) : Blurs (list precise) (list vague)
  | gathered (element : Ty) : Blurs (list any) (list (list element))

/-- Whether two types are one, or one of them is not known. -/
def Alike (left right : Ty) : Prop := left = any ∨ right = any ∨ left = right

/-- Whether an operand of a sum was a text and is no longer known to be one, while the other operand
is of a type that nothing but a text can be added to. -/
def LosesText (precise vague other : Ty) : Prop :=
  precise = string ∧ vague = any ∧ other ≠ string ∧ other.mayBeNumber = false

/-- Whether the elements of a list, or those of its elements, were of a type that is no longer
known, while a parameter asks for one. -/
inductive LosesElements : (target precise vague : Ty) → Prop
  | here {target precise : Ty} (asked : target ≠ any) (known : precise ≠ any) :
      LosesElements (list target) (list precise) (list any)
  | within {target precise vague : Ty} (lost : LosesElements target precise vague) :
      LosesElements (list target) (list precise) (list vague)

variable {precise vague left right leftVague rightVague target ty : Ty}

theorem mayBeCompared_iff :
    left.mayBeCompared right = true ↔
      left.mayHaveOrder = true ∧ right.mayHaveOrder = true ∧ Alike left right := by
  by_cases leftAny : left = any
  · simp [mayBeCompared, Alike, leftAny]
  by_cases rightAny : right = any
  · simp [mayBeCompared, Alike, rightAny]
  simp only [mayBeCompared, mayHaveOrder, Alike, leftAny, rightAny, decide_false, Bool.false_or,
    Bool.or_self, Bool.false_eq_true, if_false, false_or]
  constructor
  · intro compared
    simp only [Bool.and_eq_true, decide_eq_true_eq] at compared
    rcases compared with ⟨ordered, rfl⟩
    simp [ordered]
  · rintro ⟨ordered, _, same⟩
    simp_all

theorem ofArithmetic?_eq_some_iff :
    ofArithmetic? left right = some ty ↔
      left.mayBeNumber = true ∧ right.mayBeNumber = true ∧ Alike left right ∧
        ty = if left = right then left else any := by
  cases left <;> cases right <;> simp [ofArithmetic?, mayBeNumber, Alike, eq_comm]

/-- It does not matter which operand of a sum comes first. -/
theorem ofOperation?_add_comm (left right : Ty) :
    ofOperation? .add left right = ofOperation? .add right left := by
  cases left <;> cases right <;> simp [ofOperation?, ofArithmetic?, mayBeNumber]

/-- What can be added to an operand that is not known. -/
theorem ofOperation?_add_any (other : Ty) :
    ofOperation? .add any other =
      if other = string then some string else if other.mayBeNumber then some any else none := by
  cases other <;> simp [ofOperation?, ofArithmetic?, mayBeNumber]

theorem ofOperation?_add_string (other : Ty) : ofOperation? .add string other = some string := by
  simp [ofOperation?]

theorem not_losesText_of_sum (found : ofOperation? .add vague right = some ty) :
    ¬LosesText precise vague right := by
  rintro ⟨_, rfl, notText, notNumber⟩
  simp [ofOperation?_add_any, notText, notNumber] at found

theorem eq_any_of_admits_any (admitted : target.admits any = true) : target = any := by
  cases target <;> simp_all [admits, isOrdered]

theorem LosesElements.not_allows (lost : LosesElements target precise vague) :
    target.allows vague = false := by
  induction lost with
  | here asked _ =>
      rw [← Bool.not_eq_true]
      intro allowed
      exact asked (eq_any_of_admits_any allowed)
  | within _ ih => exact (Bool.or_eq_false_iff.mp ih).2

theorem not_losesElements_of_suits {targets types : List Ty} {index : Nat}
    (suit : Checker.suits targets types = true) (targetAt : targets[index]? = some target)
    (vagueAt : types[index]? = some vague) : ¬LosesElements target precise vague := by
  intro lost
  have paired : (targets.zip types)[index]? = some (target, vague) :=
    List.getElem?_zip_eq_some.mpr ⟨targetAt, vagueAt⟩
  have allowed : target.allows vague = true :=
    List.all_eq_true.mp suit _ (List.mem_of_getElem? paired)
  rw [lost.not_allows] at allowed
  cases allowed

theorem not_losesElements (notList : ∀ element, target ≠ list element) :
    ¬LosesElements target precise vague := by
  rintro (_ | _) <;> exact notList _ rfl

namespace Blurs

theorem single (blurs : Blurs precise vague) (notList : ∀ element, precise ≠ list element) :
    vague = precise ∨ vague = any := by
  cases blurs with
  | same => exact .inl rfl
  | unknown => exact .inr rfl
  | lists => exact absurd rfl (notList _)
  | gathered => exact absurd rfl (notList _)

theorem mayBeNumber (blurs : Blurs precise vague) (number : precise.mayBeNumber = true) :
    vague.mayBeNumber = true := by
  cases blurs with
  | same => exact number
  | unknown => rfl
  | lists | gathered => cases number

theorem mayBeInteger (blurs : Blurs precise vague) (whole : precise.mayBeInteger = true) :
    vague.mayBeInteger = true := by
  cases blurs with
  | same => exact whole
  | unknown => rfl
  | lists | gathered => cases whole

theorem mayHaveOrder (blurs : Blurs precise vague) (ordered : precise.mayHaveOrder = true) :
    vague.mayHaveOrder = true := by
  cases blurs with
  | same => exact ordered
  | unknown => rfl
  | lists | gathered => cases ordered

/-- What elements were admitted still are, unless their type was lost. -/
theorem admits (blurs : Blurs precise vague) (admitted : target.admits precise = true)
    (kept : ¬LosesElements (list target) (list precise) (list vague)) :
    target.admits vague = true := by
  induction blurs generalizing target with
  | same => exact admitted
  | unknown ty =>
      by_cases isAny : target = any
      · rw [isAny]
        rfl
      · have known : ty ≠ any := fun unknown => isAny (eq_any_of_admits_any (unknown ▸ admitted))
        exact absurd (.here isAny known) kept
  | lists _ ih =>
      cases target with
      | any => rfl
      | list target => exact ih admitted fun lost => kept (.within lost)
      | _ => cases admitted
  | gathered element =>
      cases target with
      | any => rfl
      | list target =>
          rw [eq_any_of_admits_any admitted]
          rfl
      | _ => cases admitted

/-- A type allows what it did, unless the type of its elements was lost. -/
theorem allows (blurs : Blurs precise vague) (allowed : target.allows precise = true)
    (kept : ¬LosesElements target precise vague) : target.allows vague = true := by
  by_cases unknown : vague = any
  · rw [unknown]
    rfl
  have known : precise ≠ any := by
    rintro rfl
    cases blurs <;> exact unknown rfl
  have admitted : target.admits precise = true := by simpa [Ty.allows, known] using allowed
  have stillAdmitted : target.admits vague = true := by
    apply blurs.admits admitted
    rintro (_ | lost)
    · exact unknown rfl
    · exact kept lost
  simp [Ty.allows, stillAdmitted]

theorem alike (leftBlurs : Blurs left leftVague) (rightBlurs : Blurs right rightVague)
    (notList : ∀ element, left ≠ list element) (same : Alike left right) :
    Alike leftVague rightVague := by
  rcases leftBlurs.single notList with rfl | rfl
  · cases rightBlurs with
    | same => exact same
    | unknown => exact .inr (.inl rfl)
    | lists | gathered =>
        rcases same with unknown | impossible | leftList
        · exact .inl unknown
        · cases impossible
        · exact absurd leftList (notList _)
  · exact .inl rfl

theorem ofArithmetic? (leftBlurs : Blurs left leftVague) (rightBlurs : Blurs right rightVague)
    (found : Ty.ofArithmetic? left right = some ty) :
    ∃ other, Ty.ofArithmetic? leftVague rightVague = some other ∧ Blurs ty other := by
  rcases ofArithmetic?_eq_some_iff.mp found with ⟨leftNumber, rightNumber, same, rfl⟩
  have notList : ∀ element, left ≠ list element := by
    rintro element rfl
    cases leftNumber
  refine ⟨_, ofArithmetic?_eq_some_iff.mpr ⟨leftBlurs.mayBeNumber leftNumber,
    rightBlurs.mayBeNumber rightNumber, leftBlurs.alike rightBlurs notList same, rfl⟩, ?_⟩
  rcases leftBlurs.single notList with rfl | rfl
  · rcases rightBlurs.single (by rintro element rfl; cases rightNumber) with rfl | rfl
    · exact .same _
    · by_cases unknown : leftVague = any <;> simp [unknown, Blurs.unknown]
  · simp [Blurs.unknown]

/-- A sum with a text is still one, unless it lost its text. -/
theorem sum_of_text (blurs : Blurs string vague) (kept : ¬LosesText string vague right) :
    ∃ other, Ty.ofOperation? .add vague right = some other ∧ Blurs string other := by
  rcases blurs.single (by simp) with rfl | rfl
  · exact ⟨string, ofOperation?_add_string right, .same _⟩
  · rw [ofOperation?_add_any]
    split
    · exact ⟨string, rfl, .same _⟩
    · rename_i notText
      cases number : right.mayBeNumber with
      | true => exact ⟨any, rfl, .unknown _⟩
      | false => exact absurd ⟨rfl, rfl, notText, number⟩ kept

theorem sum_of_numbers (leftBlurs : Blurs left leftVague) (rightBlurs : Blurs right rightVague)
    (found : Ty.ofArithmetic? left right = some ty) :
    ∃ other, Ty.ofOperation? .add leftVague rightVague = some other ∧ Blurs ty other := by
  rcases ofArithmetic?_eq_some_iff.mp found with ⟨leftNumber, rightNumber, _⟩
  have leftNotText : leftVague ≠ string := by
    rintro rfl
    cases leftBlurs.mayBeNumber leftNumber
  have rightNotText : rightVague ≠ string := by
    rintro rfl
    cases rightBlurs.mayBeNumber rightNumber
  simpa [Ty.ofOperation?, leftNotText, rightNotText] using leftBlurs.ofArithmetic? rightBlurs found

/-- An operation still takes its operands, unless it is a sum that lost its text. -/
theorem ofOperation? {operator : Operator} (leftBlurs : Blurs left leftVague)
    (rightBlurs : Blurs right rightVague) (found : Ty.ofOperation? operator left right = some ty)
    (kept : operator = .add →
      ¬LosesText left leftVague rightVague ∧ ¬LosesText right rightVague leftVague) :
    ∃ other, Ty.ofOperation? operator leftVague rightVague = some other ∧ Blurs ty other := by
  cases operator with
  | and | or =>
      simp only [Ty.ofOperation?, Option.ite_none_right_eq_some, Option.some.injEq,
        Bool.and_eq_true] at found ⊢
      rcases found with ⟨⟨leftAllowed, rightAllowed⟩, rfl⟩
      have kept {precise vague : Ty} : ¬LosesElements boolean precise vague :=
        not_losesElements (by simp)
      exact ⟨boolean, ⟨⟨leftBlurs.allows leftAllowed kept, rightBlurs.allows rightAllowed kept⟩,
        rfl⟩, .same _⟩
  | equal | notEqual =>
      simp only [Ty.ofOperation?, Option.some.injEq] at found ⊢
      exact ⟨boolean, rfl, found ▸ .same _⟩
  | less | lessEqual | greater | greaterEqual =>
      simp only [Ty.ofOperation?, Option.ite_none_right_eq_some, Option.some.injEq,
        mayBeCompared_iff] at found ⊢
      rcases found with ⟨⟨leftOrdered, rightOrdered, same⟩, rfl⟩
      refine ⟨boolean, ⟨⟨leftBlurs.mayHaveOrder leftOrdered, rightBlurs.mayHaveOrder rightOrdered,
        leftBlurs.alike rightBlurs ?_ same⟩, rfl⟩, .same _⟩
      rintro element rfl
      cases leftOrdered
  | add =>
      rcases kept rfl with ⟨leftKept, rightKept⟩
      by_cases leftText : left = string
      · subst leftText
        cases found.symm.trans (ofOperation?_add_string right)
        exact leftBlurs.sum_of_text leftKept
      by_cases rightText : right = string
      · subst rightText
        rw [ofOperation?_add_comm] at found ⊢
        cases found.symm.trans (ofOperation?_add_string left)
        exact rightBlurs.sum_of_text rightKept
      · simp only [Ty.ofOperation?, leftText, rightText, decide_false, Bool.or_self,
          Bool.false_eq_true, if_false] at found
        exact leftBlurs.sum_of_numbers rightBlurs found
  | subtract | multiply | divide => exact leftBlurs.ofArithmetic? rightBlurs found
  | power =>
      simp only [Ty.ofOperation?, Option.ite_none_right_eq_some, Option.some.injEq,
        Bool.and_eq_true] at found ⊢
      rcases found with ⟨⟨leftWhole, rightWhole⟩, rfl⟩
      exact ⟨integer, ⟨⟨leftBlurs.mayBeInteger leftWhole, rightBlurs.mayBeInteger rightWhole⟩, rfl⟩,
        .same _⟩

/-- Elements that have come to be of a single type, which is not one of lists, were of it before. -/
theorem eq_of_single {types others : List Ty} (blurs : List.Forall₂ Blurs types others)
    (all : ∀ other ∈ others, other = ty) (known : ty ≠ any)
    (notList : ∀ element, ty ≠ list element) : ∀ precise ∈ types, precise = ty := by
  induction blurs with
  | nil => simp
  | cons first _ ih =>
      rw [List.forall_mem_cons] at all ⊢
      refine ⟨?_, ih all.2⟩
      cases first with
      | same => exact all.1
      | unknown => exact absurd all.1.symm known
      | lists | gathered => exact absurd all.1.symm (notList _)

theorem ofElements {types others : List Ty} (blurs : List.Forall₂ Blurs types others) :
    Blurs (Ty.ofElements types) (Ty.ofElements others) := by
  cases blurs with
  | nil => exact .same _
  | @cons precise vague types others first rest =>
      simp only [Ty.ofElements, List.all_eq_true, decide_eq_true_eq]
      by_cases single : ∀ other ∈ others, other = vague
      · rw [if_pos single]
        by_cases unknown : vague = any
        · rw [unknown]
          exact .lists (.unknown _)
        by_cases isList : ∃ element, vague = list element
        · rcases isList with ⟨element, rfl⟩
          split
          · exact .lists first
          · exact .gathered element
        · have all := eq_of_single (.cons first rest) (List.forall_mem_cons.mpr ⟨rfl, single⟩)
            unknown (not_exists.mp isList)
          rw [List.forall_mem_cons] at all
          rw [all.1, if_pos all.2]
          exact .same _
      · rw [if_neg single]
        exact .lists (.unknown _)

theorem element? (blurs : vague = precise ∨ vague = any)
    (found : precise.element? = some ty) :
    ∃ other, vague.element? = some other ∧ Blurs ty other := by
  rcases blurs with rfl | rfl
  · exact ⟨ty, found, .same _⟩
  · exact ⟨any, rfl, .unknown _⟩

/-- Arguments still suit parameters, unless one lost the type of its elements. -/
theorem suits {types others targets : List Ty} (blurs : List.Forall₂ Blurs types others)
    (suit : Checker.suits targets types = true)
    (kept : ∀ (index : Nat) (target before after : Ty), targets[index]? = some target →
      types[index]? = some before → others[index]? = some after →
        ¬LosesElements target before after) : Checker.suits targets others = true := by
  induction blurs generalizing targets with
  | nil => simp [Checker.suits]
  | cons first _ ih =>
      rcases targets with _ | ⟨target, targets⟩
      · rfl
      simp only [Checker.suits, List.zip_cons_cons, List.all_cons, Bool.and_eq_true] at suit ih ⊢
      refine ⟨first.allows suit.1 (kept 0 _ _ _ rfl rfl rfl), ih suit.2 ?_⟩
      intro index
      exact kept (index + 1)

end Blurs

end Ty

/-- Whether a variable is another one, whose type may no longer be known. -/
def Variable.Blurs (precise vague : Variable) : Prop :=
  vague = precise ∨ vague = { precise with ty := .any }

theorem Variable.Blurs.ty {precise vague : Variable} (blurs : precise.Blurs vague) :
    vague.ty = precise.ty ∨ vague.ty = .any := by
  rcases blurs with rfl | rfl
  · exact .inl rfl
  · exact .inr rfl

/-- A function is found in the same scope where the scopes have the same functions. -/
theorem Arena.Mirrors.searchWithin_function {V W F α : Type} {related : V → W → Prop}
    {left : Arena V F} {right : Arena W F} (mirrors : left.Mirrors related right)
    (functions : ∀ (id : ScopeId) (leftScope : Scope V F) (rightScope : Scope W F),
      left.scopes[id]? = some leftScope → right.scopes[id]? = some rightScope →
        rightScope.functionTable = leftScope.functionTable)
    (find : Table (String × Nat) F → Option α) {budget : Nat} {id : ScopeId}
    {place : Option (ScopeId × α)}
    (searched : left.searchWithin (find ·.functionTable) budget id = .ok place) :
    right.searchWithin (find ·.functionTable) budget id = .ok place := by
  induction budget generalizing id with
  | zero => cases searched
  | succ budget ih =>
      cases found : left.scopes[id]? with
      | none =>
          rw [Arena.searchWithin, Arena.scope, found] at searched
          cases searched
      | some scope =>
          rcases mirrors.scope found with ⟨rightScope, rightFound, parents, _⟩
          rw [searchWithin_succ found] at searched
          rw [searchWithin_succ rightFound, ← parents, functions id _ _ found rightFound]
          split at searched
          · exact searched
          · split at searched
            · exact ih searched
            · exact searched

namespace Checker

/-- Whether a checker is another one that knows less of the types of its variables. -/
structure Blurs (precise vague : Checker) : Prop where
  variableTables : precise.arena.Mirrors Variable.Blurs vague.arena
  functionTables : ∀ (id : ScopeId) (left right : Scope Variable Signature),
    precise.arena.scopes[id]? = some left → vague.arena.scopes[id]? = some right →
      right.functionTable = left.functionTable
  current : vague.current = precise.current

end Checker

section

variable (precise vague : Checker)

mutual

/-- Whether no sum in an expression loses its text, and no argument the type of its elements, when
less is known of the variables. Parameters of a script are never lists. -/
def Expr.Survives : Expr → Prop
  | .literal .. | .access .. => True
  | .group _ _ inner => inner.Survives
  | .binary _ _ operator left right =>
    left.Survives ∧ right.Survives ∧ (operator = .add → ∀ leftType rightType leftVague rightVague,
      precise.typeOf? left = some leftType → precise.typeOf? right = some rightType →
      vague.typeOf? left = some leftVague → vague.typeOf? right = some rightVague →
        ¬leftType.LosesText leftVague rightVague ∧ ¬rightType.LosesText rightVague leftVague)
  | .element _ _ _ _ offset => offset.Survives
  | .call _ _ name _ arguments =>
    Expr.AllSurvive arguments ∧ ∀ found types others,
      precise.knownFunction? name arguments.length = some found →
      precise.typesOf? arguments = some types → vague.typesOf? arguments = some others →
        ∀ (index : Nat) (target before after : Ty), found.parameters[index]? = some target →
          types[index]? = some before → others[index]? = some after →
            ¬target.LosesElements before after
  | .list _ _ elements => Expr.AllSurvive elements

/-- Whether this is so for all expressions of a list. -/
def Expr.AllSurvive : List Expr → Prop
  | [] => True
  | expr :: others => expr.Survives ∧ Expr.AllSurvive others

end

end

namespace Checker

variable {precise vague : Checker}

/-- A name still means a variable, in the same scope. -/
theorem Blurs.knownVariable? (blurs : precise.Blurs vague) {name : String} {found : Variable}
    (known : precise.knownVariable? name = some found) :
    ∃ other, vague.knownVariable? name = some other ∧ found.Blurs other := by
  unfold Checker.knownVariable? Arena.findVariable Arena.search at known ⊢
  rw [← blurs.variableTables.depth, blurs.current]
  generalize result : precise.arena.searchWithin (·.variableTable.find? name)
    (precise.arena.depth + 1) precise.current = searched at known
  rcases searched with halt | _ | ⟨owner, value⟩
  · cases known
  · cases known
  · cases known
    rcases blurs.variableTables.searchWithin result with ⟨_, _, other, _, _, _, related, found⟩
    rw [found]
    exact ⟨other, rfl, related⟩

/-- A name still means the function that it meant. -/
theorem Blurs.knownFunction? (blurs : precise.Blurs vague) {name : String} {arity : Nat}
    {found : Signature} (known : precise.knownFunction? name arity = some found) :
    vague.knownFunction? name arity = some found := by
  unfold Checker.knownFunction? Arena.findFunction Arena.search at known ⊢
  rw [← blurs.variableTables.depth, blurs.current]
  generalize result : precise.arena.searchWithin (·.functionTable.find? (name, arity))
    (precise.arena.depth + 1) precise.current = searched at known
  rcases searched with halt | place
  · cases known
  · rw [blurs.variableTables.searchWithin_function blurs.functionTables (·.find? (name, arity))
      result]
    exact known

mutual

/-- What survives is still accepted. -/
theorem typeOf?_of_survives (blurs : precise.Blurs vague) (expr : Expr) {ty : Ty}
    (survives : expr.Survives precise vague) (accepted : precise.typeOf? expr = some ty) :
    ∃ other, vague.typeOf? expr = some other ∧ ty.Blurs other := by
  cases expr with
  | literal span label value =>
      rw [typeOf?_literal] at accepted ⊢
      exact ⟨ty, accepted, .same _⟩
  | group span label inner =>
      rw [typeOf?_group, Option.ite_none_right_eq_some] at accepted
      rw [typeOf?_group, if_pos accepted.1]
      exact typeOf?_of_survives blurs inner survives accepted.2
  | binary span label operator left right =>
      rw [typeOf?_binary] at accepted ⊢
      simp only [bind, Option.bind_eq_some_iff] at accepted
      rcases accepted with ⟨leftType, leftAccepted, rightType, rightAccepted, found⟩
      rcases survives with ⟨leftSurvives, rightSurvives, kept⟩
      rcases typeOf?_of_survives blurs left leftSurvives leftAccepted with
        ⟨leftVague, leftFound, leftBlurs⟩
      rcases typeOf?_of_survives blurs right rightSurvives rightAccepted with
        ⟨rightVague, rightFound, rightBlurs⟩
      rw [leftFound, rightFound]
      apply leftBlurs.ofOperation? rightBlurs found
      intro isSum
      exact kept isSum _ _ _ _ leftAccepted rightAccepted leftFound rightFound
  | access span label name binding =>
      rw [typeOf?_access, Option.map_eq_some_iff] at accepted
      rcases accepted with ⟨found, known, rfl⟩
      rcases blurs.knownVariable? known with ⟨other, otherKnown, related⟩
      rw [typeOf?_access, otherKnown]
      refine ⟨other.ty, rfl, ?_⟩
      rcases related.ty with same | unknown
      · exact same ▸ .same _
      · exact unknown ▸ .unknown _
  | element span label name binding offset =>
      rw [typeOf?_element] at accepted ⊢
      simp only [bind, Option.bind_eq_some_iff, Option.ite_none_right_eq_some] at accepted
      rcases accepted with ⟨found, known, offsetType, offsetAccepted, whole, element⟩
      rcases blurs.knownVariable? known with ⟨other, otherKnown, related⟩
      rcases typeOf?_of_survives blurs offset survives offsetAccepted with
        ⟨offsetVague, offsetFound, offsetBlurs⟩
      have stillWhole : Ty.integer.allows offsetVague = true :=
        offsetBlurs.allows whole (Ty.not_losesElements (by simp))
      rw [otherKnown, offsetFound]
      simp only [bind, Option.bind_some, stillWhole, if_true]
      exact Ty.Blurs.element? related.ty element
  | call span label name binding arguments =>
      rw [typeOf?_call] at accepted ⊢
      simp only [bind, Option.bind_eq_some_iff, Option.ite_none_right_eq_some] at accepted
      rcases accepted with ⟨types, argumentsAccepted, found, known, suit, same⟩
      rcases survives with ⟨argumentsSurvive, kept⟩
      rcases typesOf?_of_survive blurs arguments argumentsSurvive argumentsAccepted with
        ⟨others, othersFound, othersBlur⟩
      have stillKnown := blurs.knownFunction? known
      have stillSuit := Ty.Blurs.suits othersBlur suit
        (kept found types others known argumentsAccepted othersFound)
      rw [othersFound, stillKnown]
      simp only [bind, Option.bind_some, stillSuit, if_true]
      exact ⟨ty, same, .same _⟩
  | list span label elements =>
      rw [typeOf?_list, Option.map_eq_some_iff] at accepted
      rcases accepted with ⟨types, elementsAccepted, rfl⟩
      rcases typesOf?_of_survive blurs elements survives elementsAccepted with
        ⟨others, othersFound, othersBlur⟩
      rw [typeOf?_list, othersFound]
      exact ⟨_, rfl, .ofElements othersBlur⟩

theorem typesOf?_of_survive (blurs : precise.Blurs vague) (exprs : List Expr) {types : List Ty}
    (survive : Expr.AllSurvive precise vague exprs)
    (accepted : precise.typesOf? exprs = some types) :
    ∃ others, vague.typesOf? exprs = some others ∧ List.Forall₂ Ty.Blurs types others := by
  cases exprs with
  | nil =>
      rw [typesOf?_nil] at accepted
      cases accepted
      exact ⟨[], typesOf?_nil, .nil⟩
  | cons expr others =>
      rw [typesOf?_cons] at accepted ⊢
      simp only [bind, Option.bind_eq_some_iff, Option.some.injEq] at accepted
      rcases accepted with ⟨ty, exprAccepted, rest, othersAccepted, rfl⟩
      rcases typeOf?_of_survives blurs expr survive.1 exprAccepted with ⟨vagueType, found, related⟩
      rcases typesOf?_of_survive blurs others survive.2 othersAccepted with
        ⟨vagueTypes, othersFound, othersRelated⟩
      rw [found, othersFound]
      exact ⟨_, rfl, .cons related othersRelated⟩

end

mutual

/-- What is accepted survives. -/
theorem survives_of_typeOf? (blurs : precise.Blurs vague) (expr : Expr) {ty : Ty}
    (accepted : vague.typeOf? expr = some ty) : expr.Survives precise vague := by
  cases expr with
  | literal span label value => trivial
  | group span label inner =>
      rw [typeOf?_group, Option.ite_none_right_eq_some] at accepted
      exact survives_of_typeOf? blurs inner accepted.2
  | binary span label operator left right =>
      rw [typeOf?_binary] at accepted
      simp only [bind, Option.bind_eq_some_iff] at accepted
      rcases accepted with ⟨leftType, leftAccepted, rightType, rightAccepted, found⟩
      refine ⟨survives_of_typeOf? blurs left leftAccepted,
        survives_of_typeOf? blurs right rightAccepted, ?_⟩
      rintro rfl _ _ leftVague rightVague _ _ leftFound rightFound
      cases leftAccepted.symm.trans leftFound
      cases rightAccepted.symm.trans rightFound
      refine ⟨Ty.not_losesText_of_sum found, ?_⟩
      rw [Ty.ofOperation?_add_comm] at found
      exact Ty.not_losesText_of_sum found
  | access span label name binding => trivial
  | element span label name binding offset =>
      rw [typeOf?_element] at accepted
      simp only [bind, Option.bind_eq_some_iff] at accepted
      rcases accepted with ⟨_, _, _, offsetAccepted, _⟩
      exact survives_of_typeOf? blurs offset offsetAccepted
  | call span label name binding arguments =>
      rw [typeOf?_call] at accepted
      simp only [bind, Option.bind_eq_some_iff, Option.ite_none_right_eq_some] at accepted
      rcases accepted with ⟨types, argumentsAccepted, found, known, suit, _⟩
      refine ⟨survive_of_typesOf? blurs arguments argumentsAccepted, ?_⟩
      intro other _ others otherKnown _ othersFound index target _ after targetAt _ afterAt
      cases known.symm.trans (blurs.knownFunction? otherKnown)
      cases argumentsAccepted.symm.trans othersFound
      exact Ty.not_losesElements_of_suits suit targetAt afterAt
  | list span label elements =>
      rw [typeOf?_list, Option.map_eq_some_iff] at accepted
      rcases accepted with ⟨types, elementsAccepted, _⟩
      exact survive_of_typesOf? blurs elements elementsAccepted

theorem survive_of_typesOf? (blurs : precise.Blurs vague) (exprs : List Expr) {types : List Ty}
    (accepted : vague.typesOf? exprs = some types) : Expr.AllSurvive precise vague exprs := by
  cases exprs with
  | nil => trivial
  | cons expr others =>
      rw [typesOf?_cons] at accepted
      simp only [bind, Option.bind_eq_some_iff] at accepted
      rcases accepted with ⟨ty, exprAccepted, rest, othersAccepted, _⟩
      exact ⟨survives_of_typeOf? blurs expr exprAccepted,
        survive_of_typesOf? blurs others othersAccepted⟩

end

/-- An expression that was accepted is accepted still, when less is known of the variables, exactly
if no sum in it loses its text and no argument the type of its elements. Its type is then the one
that it had, as far as that is still known. -/
theorem blurred_accepts_iff (blurs : precise.Blurs vague) {expr : Expr} {ty : Ty}
    (accepted : (precise.checkExpr expr).2 = .ok ty) :
    (∃ other, (vague.checkExpr expr).2 = .ok other ∧ ty.Blurs other) ↔
      expr.Survives precise vague := by
  simp only [← typeOf?_eq_some_iff] at accepted ⊢
  constructor
  · rintro ⟨other, stillAccepted, _⟩
    exact survives_of_typeOf? blurs expr stillAccepted
  · intro survives
    exact typeOf?_of_survives blurs expr survives accepted

/-- The checker that knows one variable beside the native functions. -/
def knowing (known : Variable) : Checker :=
  { initial with arena := initial.arena.put Arena.root known.name known }

theorem knowing_blurs {found other : Variable} (sameName : other.name = found.name)
    (related : found.Blurs other) : (knowing found).Blurs (knowing other) := by
  refine ⟨?_, ?_, rfl⟩
  · unfold knowing
    rw [sameName]
    exact (Arena.Mirrors.ofFunctions _ _).put related _ _
  · intro id left right leftFound rightFound
    rcases id with _ | id
    · cases leftFound
      cases rightFound
      rfl
    · cases leftFound

/-- The sum of a variable and a literal. -/
def sumWith (name : String) (operand : Literal) : Expr :=
  .binary ⟨.null, .null⟩ none .add (.access ⟨.null, .null⟩ none name none)
    (.literal ⟨.null, .null⟩ none operand)

theorem blurred_accepts_number :
    (knowing ⟨"s", .string, true⟩).Blurs (knowing ⟨"s", .any, true⟩) ∧
      ((knowing ⟨"s", .string, true⟩).checkExpr (sumWith "s" (.integer 1))).2 = .ok .string ∧
      ((∃ other, ((knowing ⟨"s", .any, true⟩).checkExpr (sumWith "s" (.integer 1))).2 = .ok other ∧
          Ty.string.Blurs other) ↔
        (sumWith "s" (.integer 1)).Survives (knowing ⟨"s", .string, true⟩)
          (knowing ⟨"s", .any, true⟩)) :=
  have blurs : (knowing ⟨"s", .string, true⟩).Blurs (knowing ⟨"s", .any, true⟩) :=
    knowing_blurs rfl (.inr rfl)
  have accepted : ((knowing ⟨"s", .string, true⟩).checkExpr (sumWith "s" (.integer 1))).2 =
      .ok .string := by decide
  ⟨blurs, accepted, blurred_accepts_iff blurs accepted⟩

/-- A text and a truth value can be added, and no longer so when it is not known that the text is
one. -/
theorem blurred_refuses_truth :
    (knowing ⟨"s", .string, true⟩).Blurs (knowing ⟨"s", .any, true⟩) ∧
      ((knowing ⟨"s", .string, true⟩).checkExpr (sumWith "s" (.boolean true))).2 = .ok .string ∧
      ((knowing ⟨"s", .any, true⟩).checkExpr (sumWith "s" (.boolean true))).2 =
        .error (.reported (.located (.operandMismatch "+" "Any" "Boolean") .null)) :=
  ⟨knowing_blurs rfl (.inr rfl), by decide, by decide⟩

end Checker

end GradualScript
