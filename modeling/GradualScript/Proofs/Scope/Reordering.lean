import GradualScript.Proofs.Scope.Order

/-!
# Functions in another order

A scope finds a function by name and number of parameters, and it does not matter when the function
was added. Two arenas are *reordered* if they have the same scopes, parents and variables, and find
the same functions. Whatever is done to both leaves them so, and comes to the same result in both.

Functions that can be added one after the other can be added in any other order, and the arenas are
then reordered.
-/

namespace GradualScript

variable {V F α : Type}

/-- What can be found out about a scope. -/
def Scope.outlook (scope : Scope V F) :
    Option ScopeId × Table String V × (String × Nat → Option F) :=
  (scope.parent, scope.variableTable, scope.functionTable.find?)

namespace Arena

variable {left right before after : Arena V F} {id : ScopeId}

/-- Whether nothing tells two arenas apart but the order in which functions were added. -/
def Reordered (left right : Arena V F) : Prop :=
  left.scopes.map Scope.outlook = right.scopes.map Scope.outlook

/-- Whether two results are the same failure, or related. -/
inductive Agree (related : α → α → Prop) : Except Halt α → Except Halt α → Prop
  | done {left right : α} (still : related left right) : Agree related (.ok left) (.ok right)
  | failed (halt : Halt) : Agree related (.error halt) (.error halt)

namespace Reordered

theorem refl (arena : Arena V F) : arena.Reordered arena :=
  Eq.refl _

theorem trans {middle : Arena V F} (first : left.Reordered middle)
    (second : middle.Reordered right) : left.Reordered right :=
  Eq.trans first second

theorem depth_eq (same : left.Reordered right) : right.depth = left.depth := by
  have sizes := congrArg Array.size same
  rw [Array.size_map, Array.size_map] at sizes
  exact sizes.symm

theorem outlook_eq (same : left.Reordered right) (id : ScopeId) :
    left.scopes[id]?.map Scope.outlook = right.scopes[id]?.map Scope.outlook := by
  rw [← Array.getElem?_map, ← Array.getElem?_map, same]

theorem of_outlook_eq
    (each : ∀ id : ScopeId,
      left.scopes[id]?.map Scope.outlook = right.scopes[id]?.map Scope.outlook) :
    left.Reordered right := by
  apply Array.ext_getElem?
  intro id
  rw [Array.getElem?_map, Array.getElem?_map, each]

/-- A scope of one arena is in the other as well, or it is in neither. -/
theorem scope_cases (same : left.Reordered right) (id : ScopeId) :
    (left.scopes[id]? = none ∧ right.scopes[id]? = none) ∨
      ∃ scope other, left.scopes[id]? = some scope ∧ right.scopes[id]? = some other ∧
        scope.outlook = other.outlook := by
  have outlooks := same.outlook_eq id
  generalize left.scopes[id]? = found at outlooks ⊢
  generalize right.scopes[id]? = present at outlooks ⊢
  rcases found with _ | scope <;> rcases present with _ | other
  · exact .inl ⟨rfl, rfl⟩
  · cases outlooks
  · cases outlooks
  · exact .inr ⟨scope, other, rfl, rfl, Option.some.inj outlooks⟩

theorem parent_eq (same : left.Reordered right) (id : ScopeId) :
    right.parent id = left.parent id := by
  rcases same.scope_cases id with ⟨missing, absent⟩ | ⟨scope, other, found, present, outlooks⟩
  · simp [Arena.parent, Arena.scope, missing, absent]
  · rw [Arena.parent, Arena.parent, scope_eq_ok found, scope_eq_ok present]
    exact congrArg Except.ok (congrArg Prod.fst outlooks).symm

theorem push (same : left.Reordered right) (parent : ScopeId) :
    (left.push parent).1.Reordered (right.push parent).1 := by
  apply of_outlook_eq
  intro id
  rw [scopes_push, scopes_push, same.depth_eq]
  split
  · rfl
  · exact same.outlook_eq id

theorem dropFrom (same : left.Reordered right) (id : ScopeId) :
    (left.dropFrom id).Reordered (right.dropFrom id) := by
  by_cases atRoot : id = root
  · rw [Arena.dropFrom, if_pos atRoot, Arena.dropFrom, if_pos atRoot]
    exact same
  · apply of_outlook_eq
    intro other
    rw [scopes_dropFrom left atRoot, scopes_dropFrom right atRoot]
    split
    · exact same.outlook_eq other
    · rfl

/-- Both arenas may be changed in one scope, if nothing tells the changes apart. -/
theorem modify (same : left.Reordered right) (id : ScopeId) {change other : Scope V F → Scope V F}
    (alike : ∀ scope twin : Scope V F, scope.outlook = twin.outlook →
      (change scope).outlook = (other twin).outlook) :
    Reordered ⟨left.scopes.modify id change⟩ ⟨right.scopes.modify id other⟩ := by
  apply of_outlook_eq
  intro there
  rw [Array.getElem?_modify, Array.getElem?_modify]
  split
  · rcases same.scope_cases there with ⟨missing, absent⟩ | ⟨scope, twin, found, present, outlooks⟩
    · simp [missing, absent]
    · simp [found, present, alike scope twin outlooks]
  · exact same.outlook_eq there

theorem put (same : left.Reordered right) (id : ScopeId) (name : String) (value : V) :
    (left.put id name value).Reordered (right.put id name value) := by
  apply same.modify id
  intro scope twin outlooks
  simp only [Scope.outlook, Prod.mk.injEq] at outlooks ⊢
  exact ⟨outlooks.1, by rw [outlooks.2.1], outlooks.2.2⟩

theorem give (same : left.Reordered right) (owner : ScopeId) (name : String) (value : V) :
    (left.give owner name value).Reordered (right.give owner name value) := by
  apply same.modify owner
  intro scope twin outlooks
  simp only [Scope.outlook, Prod.mk.injEq] at outlooks ⊢
  exact ⟨outlooks.1, by rw [outlooks.2.1], outlooks.2.2⟩

theorem putFunction (same : left.Reordered right) (id : ScopeId) (key : String × Nat)
    (function : F) :
    (left.putFunction id key function).Reordered (right.putFunction id key function) := by
  apply same.modify id
  intro scope twin outlooks
  simp only [Scope.outlook, Prod.mk.injEq] at outlooks ⊢
  refine ⟨outlooks.1, outlooks.2.1, funext fun other => ?_⟩
  rw [Table.find?_insert, Table.find?_insert, outlooks.2.2]

/-! ## Looking up -/

theorem searchWithin_eq (same : left.Reordered right) {find : Scope V F → Option α}
    (alike : ∀ scope twin : Scope V F, scope.outlook = twin.outlook → find scope = find twin)
    (budget : Nat) (id : ScopeId) :
    right.searchWithin find budget id = left.searchWithin find budget id := by
  induction budget generalizing id with
  | zero => rfl
  | succ budget ih =>
      rcases same.scope_cases id with ⟨missing, absent⟩ | ⟨scope, twin, found, present, outlooks⟩
      · simp only [searchWithin, Arena.scope, missing, absent]
        rfl
      · have parents : scope.parent = twin.parent := congrArg Prod.fst outlooks
        rw [searchWithin_succ found, searchWithin_succ present, alike scope twin outlooks, parents]
        simp only [ih]

theorem search_eq (same : left.Reordered right) {find : Scope V F → Option α}
    (alike : ∀ scope twin : Scope V F, scope.outlook = twin.outlook → find scope = find twin)
    (id : ScopeId) : right.search find id = left.search find id := by
  rw [search, search, same.depth_eq, same.searchWithin_eq alike]

theorem searchVariable_eq (same : left.Reordered right) (id : ScopeId) (name : String) :
    right.search (·.variableTable.find? name) id = left.search (·.variableTable.find? name) id := by
  apply same.search_eq
  intro scope twin outlooks
  simp only [Scope.outlook, Prod.mk.injEq] at outlooks
  rw [outlooks.2.1]

theorem findVariable_eq (same : left.Reordered right) (id : ScopeId) (name : String) :
    right.findVariable id name = left.findVariable id name := by
  rw [findVariable, findVariable, same.searchVariable_eq]

theorem findFunction_eq (same : left.Reordered right) (id : ScopeId) (name : String)
    (arity : Nat) : right.findFunction id name arity = left.findFunction id name arity := by
  rw [findFunction, findFunction, same.search_eq]
  intro scope twin outlooks
  simp only [Scope.outlook, Prod.mk.injEq] at outlooks
  rw [outlooks.2.2]

theorem global?_eq (same : left.Reordered right) (name : String) :
    right.global? name = left.global? name := by
  unfold global?
  rcases same.scope_cases root with ⟨missing, absent⟩ | ⟨scope, twin, found, present, outlooks⟩
  · rw [missing, absent]
  · simp only [Scope.outlook, Prod.mk.injEq] at outlooks
    rw [found, present, Option.bind_some, Option.bind_some, outlooks.2.1]

/-! ## Adding and assigning -/

theorem addVariable (same : left.Reordered right) (id : ScopeId) (name : String) (value : V)
    (position : Position) :
    Agree Reordered (left.addVariable id name value position)
      (right.addVariable id name value position) := by
  rcases same.scope_cases id with ⟨missing, absent⟩ | ⟨scope, twin, found, present, outlooks⟩
  · simp only [Arena.addVariable, Arena.scope, missing, absent]
    exact .failed _
  · simp only [Scope.outlook, Prod.mk.injEq] at outlooks
    cases taken : scope.variableTable.find? name with
    | none =>
        rw [addVariable_eq_ok_iff.mpr ⟨scope, found, taken, rfl⟩,
          addVariable_eq_ok_iff.mpr ⟨twin, present, outlooks.2.1 ▸ taken, rfl⟩]
        exact .done (same.put id name value)
    | some old =>
        have has : scope.variableTable.contains name = true := by simp [Table.contains, taken]
        simp only [Arena.addVariable, scope_eq_ok found, scope_eq_ok present, ← outlooks.2.1, bind,
          Except.bind, has]
        exact .failed _

theorem assign (same : left.Reordered right) (id : ScopeId) (name : String) (value : V) :
    Agree (Option.Rel Reordered) (left.assign id name value) (right.assign id name value) := by
  have searches := same.searchVariable_eq id name
  cases searched : left.search (·.variableTable.find? name) id with
  | error halt =>
      rw [searched] at searches
      simp only [Arena.assign, searched, searches]
      exact .failed halt
  | ok place =>
      rw [searched] at searches
      rcases place with _ | ⟨owner, old⟩
      · rw [assign_of_nowhere searched, assign_of_nowhere searches]
        exact .done .none
      · rw [assign_of_search searched, assign_of_search searches]
        exact .done (.some (same.give owner name value))

end Reordered

/-! ## Adding functions -/

/-- Whether there is a root, and it has no function of a key. -/
def Lacks (arena : Arena V F) (key : String × Nat) : Prop :=
  ∃ scope, arena.scopes[root]? = some scope ∧ scope.functionTable.find? key = none

theorem lacks_putFunction {arena : Arena V F} {key other : String × Nat} {function : F} :
    (arena.putFunction root other function).Lacks key ↔ other ≠ key ∧ arena.Lacks key := by
  unfold Lacks
  rw [scopes_putFunction, if_pos rfl]
  cases arena.scopes[root]? with
  | none => simp
  | some scope => by_cases same : other = key <;> simp [Table.find?_insert, same]

theorem depth_putFunction (arena : Arena V F) (id : ScopeId) (key : String × Nat) (function : F) :
    (arena.putFunction id key function).depth = arena.depth :=
  Array.size_modify

theorem addFunction_root_eq_ok_iff {arena : Arena V F} {name : String} {arity : Nat} {function : F}
    {position : Position} :
    arena.addFunction root name arity function position = .ok after ↔
      arena.Lacks (name, arity) ∧ after = arena.putFunction root (name, arity) function := by
  rw [addFunction_eq_ok_iff]
  constructor
  · rintro ⟨scope, found, fresh, after_eq⟩
    exact ⟨⟨scope, found, fresh⟩, after_eq⟩
  · rintro ⟨⟨scope, found, fresh⟩, after_eq⟩
    exact ⟨scope, found, fresh, after_eq⟩

theorem Reordered.lacks (same : left.Reordered right) {key : String × Nat}
    (lacks : left.Lacks key) : right.Lacks key := by
  rcases lacks with ⟨scope, found, fresh⟩
  rcases same.scope_cases root with ⟨missing, _⟩ | ⟨_, twin, present, twinFound, outlooks⟩
  · rw [missing] at found
    cases found
  · rw [present] at found
    cases found
    simp only [Scope.outlook, Prod.mk.injEq] at outlooks
    exact ⟨twin, twinFound, outlooks.2.2 ▸ fresh⟩

/-- Functions with different keys come to the same in either order. -/
theorem putFunction_comm (arena : Arena V F) {key other : String × Nat} (differ : key ≠ other)
    (function twin : F) :
    ((arena.putFunction root key function).putFunction root other twin).Reordered
      ((arena.putFunction root other twin).putFunction root key function) := by
  apply Reordered.of_outlook_eq
  intro id
  simp only [scopes_putFunction]
  split
  · cases arena.scopes[id]? with
    | none => rfl
    | some scope =>
        simp only [Option.map_some, Scope.outlook, Option.some.injEq, Prod.mk.injEq, true_and]
        funext searched
        simp only [Table.find?_insert]
        grind
  · rfl

/-- Whether functions can be added to the root one after the other, and what comes of it. -/
inductive AddsFunctions : Arena V F → List ((String × Nat) × F) → Arena V F → Prop
  | nil {arena : Arena V F} : AddsFunctions arena [] arena
  | cons {before after : Arena V F} {entry : (String × Nat) × F}
      {others : List ((String × Nat) × F)} (lacks : before.Lacks entry.1)
      (rest : AddsFunctions (before.putFunction root entry.1 entry.2) others after) :
      AddsFunctions before (entry :: others) after

namespace AddsFunctions

variable {functions others : List ((String × Nat) × F)}

theorem congr (adds : before.AddsFunctions functions after) (same : before.Reordered right) :
    ∃ last, right.AddsFunctions functions last ∧ after.Reordered last := by
  induction adds generalizing right with
  | nil => exact ⟨right, .nil, same⟩
  | cons lacks _ ih =>
      rcases ih (same.putFunction root _ _) with ⟨last, rest, still⟩
      exact ⟨last, .cons (same.lacks lacks) rest, still⟩

theorem swap {first second : (String × Nat) × F}
    (adds : before.AddsFunctions (first :: second :: others) after) :
    ∃ last, before.AddsFunctions (second :: first :: others) last ∧ after.Reordered last := by
  cases adds with
  | cons lacksFirst adds =>
      cases adds with
      | cons lacksSecond rest =>
          rcases lacks_putFunction.mp lacksSecond with ⟨differ, lacks⟩
          rcases rest.congr (before.putFunction_comm differ first.2 second.2) with
            ⟨last, restSwapped, still⟩
          have lacksThen : (before.putFunction root second.1 second.2).Lacks first.1 :=
            lacks_putFunction.mpr ⟨Ne.symm differ, lacksFirst⟩
          exact ⟨last, .cons lacks (.cons lacksThen restSwapped), still⟩

/-- Functions may be added in any order. -/
theorem perm (reordered : functions.Perm others) (adds : before.AddsFunctions functions after)
    (same : before.Reordered right) :
    ∃ last, right.AddsFunctions others last ∧ after.Reordered last := by
  induction reordered generalizing before after right with
  | nil => exact adds.congr same
  | cons entry _ ih =>
      cases adds with
      | cons lacks rest =>
          rcases ih rest (same.putFunction root _ _) with ⟨last, restRight, still⟩
          exact ⟨last, .cons (same.lacks lacks) restRight, still⟩
  | swap first second others =>
      rcases adds.swap with ⟨middle, swapped, still⟩
      rcases swapped.congr same with ⟨last, onRight, further⟩
      exact ⟨last, onRight, still.trans further⟩
  | trans _ _ firstIh secondIh =>
      rcases firstIh adds (.refl before) with ⟨middle, middleAdds, still⟩
      rcases secondIh middleAdds same with ⟨last, onRight, further⟩
      exact ⟨last, onRight, still.trans further⟩

end AddsFunctions

end Arena

end GradualScript
