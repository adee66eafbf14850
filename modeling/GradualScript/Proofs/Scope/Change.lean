import GradualScript.Proofs.Scope.Lookup

/-!
# Changing arenas

Scopes are entered and left, and names are added to them. The lemmas here say what each of these
does to what scopes show. What is done inside a scope is undone by leaving it: `SameBut` holds of
two arenas that differ in one scope only, and from it leaving gives back the arena as it was.
-/

namespace GradualScript

namespace Arena

variable {V F : Type} {arena after : Arena V F} {id : ScopeId}

/-- Adds a variable to a scope, in front of what the scope has. -/
def put (arena : Arena V F) (id : ScopeId) (name : String) (value : V) : Arena V F :=
  ⟨arena.scopes.modify id fun scope =>
    { scope with variableTable := scope.variableTable.insert name value }⟩

/-- Adds a function to a scope, in front of what the scope has. -/
def putFunction (arena : Arena V F) (id : ScopeId) (key : String × Nat) (function : F) :
    Arena V F :=
  ⟨arena.scopes.modify id fun scope =>
    { scope with functionTable := scope.functionTable.insert key function }⟩

theorem scopes_push (arena : Arena V F) (parent other : ScopeId) :
    (arena.push parent).1.scopes[other]? =
      if other = arena.depth then some ⟨some parent, .empty, .empty⟩ else arena.scopes[other]? :=
  Array.getElem?_push

theorem depth_push (arena : Arena V F) (parent : ScopeId) :
    (arena.push parent).1.depth = arena.depth + 1 :=
  Array.size_push _

theorem scopes_put (arena : Arena V F) (id other : ScopeId) (name : String) (value : V) :
    (arena.put id name value).scopes[other]? =
      if id = other then
        arena.scopes[other]?.map fun scope =>
          { scope with variableTable := scope.variableTable.insert name value }
      else arena.scopes[other]? := by
  simp [put, Array.getElem?_modify]

theorem scopes_putFunction (arena : Arena V F) (id other : ScopeId) (key : String × Nat)
    (function : F) :
    (arena.putFunction id key function).scopes[other]? =
      if id = other then
        arena.scopes[other]?.map fun scope =>
          { scope with functionTable := scope.functionTable.insert key function }
      else arena.scopes[other]? := by
  simp [putFunction, Array.getElem?_modify]

theorem scopes_dropFrom (arena : Arena V F) (notRoot : id ≠ root) (other : ScopeId) :
    (arena.dropFrom id).scopes[other]? = if other < id then arena.scopes[other]? else none := by
  rw [dropFrom, if_neg notRoot, Array.take_eq_extract, Array.getElem?_extract]
  by_cases lower : other < id
  · by_cases inside : other < arena.scopes.size
    · have bound : other < min id arena.scopes.size := Nat.lt_min.mpr ⟨lower, inside⟩
      simp [lower, bound]
    · simp [lower, inside]
  · have outside : ¬other < min id arena.scopes.size := fun within =>
      lower (Nat.lt_of_lt_of_le within (Nat.min_le_left _ _))
    simp [lower, outside]

theorem depth_dropFrom (notRoot : id ≠ root) (inside : id ≤ arena.depth) :
    (arena.dropFrom id).depth = id := by
  rw [dropFrom, if_neg notRoot, depth, Array.take_eq_extract, Array.size_extract, Nat.sub_zero]
  exact Nat.min_eq_left inside

theorem setIfInBounds_eq_modify {scope : Scope V F} (found : arena.scopes[id]? = some scope)
    (change : Scope V F → Scope V F) :
    arena.scopes.setIfInBounds id (change scope) = arena.scopes.modify id change := by
  apply Array.ext_getElem?
  intro other
  rw [Array.getElem?_modify, Array.getElem?_setIfInBounds]
  by_cases same : id = other
  · subst same
    have inside := (Array.getElem?_eq_some_iff.mp found).1
    rw [if_pos rfl, if_pos rfl, if_pos inside, found]
    rfl
  · rw [if_neg same, if_neg same]

/-- A variable is added exactly when its scope is there and does not have its name. -/
theorem addVariable_eq_ok_iff {name : String} {value : V} {position : Position} :
    arena.addVariable id name value position = .ok after ↔
      ∃ scope, arena.scopes[id]? = some scope ∧ scope.variableTable.find? name = none ∧
        after = arena.put id name value := by
  unfold addVariable
  cases found : arena.scopes[id]? with
  | none => simp [Arena.scope, found, bind, Except.bind]
  | some scope =>
      have put_eq := setIfInBounds_eq_modify found fun scope =>
        { scope with variableTable := scope.variableTable.insert name value }
      rw [scope_eq_ok found]
      by_cases fresh : scope.variableTable.find? name = none
      · have absent : scope.variableTable.contains name = false :=
          Table.contains_eq_false_iff.mpr fresh
        simp [bind, Except.bind, absent, fresh, put_eq, pure, Except.pure, put, eq_comm]
      · have present : scope.variableTable.contains name = true :=
          Bool.of_not_eq_false (mt Table.contains_eq_false_iff.mp fresh)
        simp [bind, Except.bind, present, fresh]

theorem addFunction_eq_ok_iff {name : String} {arity : Nat} {function : F} {position : Position} :
    arena.addFunction id name arity function position = .ok after ↔
      ∃ scope, arena.scopes[id]? = some scope ∧ scope.functionTable.find? (name, arity) = none ∧
        after = arena.putFunction id (name, arity) function := by
  unfold addFunction
  cases found : arena.scopes[id]? with
  | none => simp [Arena.scope, found, bind, Except.bind]
  | some scope =>
      have put_eq := setIfInBounds_eq_modify found fun scope =>
        { scope with functionTable := scope.functionTable.insert (name, arity) function }
      rw [scope_eq_ok found]
      by_cases fresh : scope.functionTable.find? (name, arity) = none
      · have absent : scope.functionTable.contains (name, arity) = false :=
          Table.contains_eq_false_iff.mpr fresh
        simp [bind, Except.bind, absent, fresh, put_eq, pure, Except.pure, putFunction, eq_comm]
      · have present : scope.functionTable.contains (name, arity) = true :=
          Bool.of_not_eq_false (mt Table.contains_eq_false_iff.mp fresh)
        simp [bind, Except.bind, present, fresh]

/-! ## What scopes show after a change -/

theorem Shows.push {tables : List (Table String V)} (shows : arena.Shows id tables) :
    (arena.push id).1.Shows arena.depth (.empty :: tables) := by
  have found : (arena.push id).1.scopes[arena.depth]? = some ⟨some id, .empty, .empty⟩ := by
    rw [scopes_push, if_pos rfl]
  refine .inner found rfl shows.lt_depth (shows.congr ?_)
  intro lower lower_le
  rw [scopes_push, if_neg (Nat.ne_of_lt (Nat.lt_of_le_of_lt lower_le shows.lt_depth))]

theorem Shows.put {table : Table String V} {tables : List (Table String V)}
    (shows : arena.Shows id (table :: tables)) (name : String) (value : V) :
    (arena.put id name value).Shows id (table.insert name value :: tables) := by
  have changed {scope : Scope V F} (found : arena.scopes[id]? = some scope) :
      (arena.put id name value).scopes[id]? =
        some { scope with variableTable := scope.variableTable.insert name value } := by
    rw [scopes_put, if_pos rfl, found]
    rfl
  cases shows with
  | root found top => exact .root (changed found) top
  | inner found up below rest =>
      refine .inner (changed found) up below (rest.congr ?_)
      intro lower lower_le
      rw [scopes_put, if_neg (Nat.ne_of_gt (Nat.lt_of_le_of_lt lower_le below))]

theorem Shows.putFunction {tables : List (Table String V)} (shows : arena.Shows id tables)
    (owner : ScopeId) (key : String × Nat) (function : F) :
    (arena.putFunction owner key function).Shows id tables := by
  have changed {other : ScopeId} {scope : Scope V F} (found : arena.scopes[other]? = some scope) :
      ∃ functionTable, (arena.putFunction owner key function).scopes[other]? =
        some { scope with functionTable } := by
    rw [scopes_putFunction, found]
    split
    · exact ⟨_, rfl⟩
    · exact ⟨scope.functionTable, rfl⟩
  induction shows with
  | root found top =>
      rcases changed found with ⟨_, present⟩
      have shown := Shows.root present top
      exact shown
  | inner found up below _ ih =>
      rcases changed found with ⟨_, present⟩
      have shown := Shows.inner present up below ih
      exact shown

/-- A scope that shows a table has it. -/
theorem Shows.table {table : Table String V} {tables : List (Table String V)}
    (shows : arena.Shows id (table :: tables)) :
    ∃ scope, arena.scopes[id]? = some scope ∧ scope.variableTable = table := by
  cases shows with
  | root found _ => exact ⟨_, found, rfl⟩
  | inner found _ _ _ => exact ⟨_, found, rfl⟩

theorem Declares.push {functions : Table (String × Nat) F} (declares : arena.Declares functions)
    (notEmpty : 0 < arena.depth) (parent : ScopeId) :
    (arena.push parent).1.Declares functions := by
  intro other scope found
  rw [scopes_push] at found
  split at found
  · rename_i atEnd
    have notRoot : other ≠ root := by rw [atEnd]; exact Nat.ne_of_gt notEmpty
    cases found
    rw [if_neg notRoot]
  · exact declares other scope found

theorem Declares.put {functions : Table (String × Nat) F} (declares : arena.Declares functions)
    (id : ScopeId) (name : String) (value : V) : (arena.put id name value).Declares functions := by
  intro other scope found
  rw [scopes_put] at found
  split at found
  · rcases Option.map_eq_some_iff.mp found with ⟨before, present, rfl⟩
    exact declares other before present
  · exact declares other scope found

theorem Declares.dropFrom {functions : Table (String × Nat) F}
    (declares : arena.Declares functions) (notRoot : id ≠ root) :
    (arena.dropFrom id).Declares functions := by
  intro other scope found
  rw [scopes_dropFrom arena notRoot] at found
  split at found
  · exact declares other scope found
  · cases found

theorem Declares.putFunction {functions : Table (String × Nat) F}
    (declares : arena.Declares functions) (key : String × Nat) (function : F) :
    (arena.putFunction root key function).Declares (functions.insert key function) := by
  intro other scope found
  rw [scopes_putFunction] at found
  split at found
  · rename_i atRoot
    rcases Option.map_eq_some_iff.mp found with ⟨before, present, rfl⟩
    have table := declares other before present
    rw [if_pos atRoot.symm] at table ⊢
    rw [table]
  · rename_i notRoot
    have table := declares other scope found
    rw [if_neg (Ne.symm notRoot)] at table ⊢
    exact table

/-! ## Changes inside one scope -/

/-- Whether two arenas differ at most in the variables of one scope. -/
structure SameBut (id : ScopeId) (before after : Arena V F) : Prop where
  depth : after.depth = before.depth
  elsewhere : ∀ other, other ≠ id → after.scopes[other]? = before.scopes[other]?
  parent : ∀ scope, after.scopes[id]? = some scope →
    ∃ earlier, before.scopes[id]? = some earlier ∧ scope.parent = earlier.parent

namespace SameBut

theorem refl (id : ScopeId) (arena : Arena V F) : SameBut id arena arena :=
  ⟨rfl, fun _ _ => rfl, fun scope found => ⟨scope, found, rfl⟩⟩

theorem trans {first second third : Arena V F} (earlier : SameBut id first second)
    (later : SameBut id second third) : SameBut id first third := by
  refine ⟨later.depth.trans earlier.depth, ?_, ?_⟩
  · intro other different
    exact (later.elsewhere other different).trans (earlier.elsewhere other different)
  · intro scope found
    rcases later.parent scope found with ⟨middle, middleFound, parent_eq⟩
    rcases earlier.parent middle middleFound with ⟨start, startFound, start_eq⟩
    exact ⟨start, startFound, parent_eq.trans start_eq⟩

theorem put (arena : Arena V F) (id : ScopeId) (name : String) (value : V) :
    SameBut id arena (arena.put id name value) := by
  refine ⟨Array.size_modify, ?_, ?_⟩
  · intro other different
    rw [scopes_put, if_neg (Ne.symm different)]
  · intro scope found
    rw [scopes_put, if_pos rfl] at found
    rcases Option.map_eq_some_iff.mp found with ⟨before, present, rfl⟩
    exact ⟨before, present, rfl⟩

/-- Leaving a scope gives back the arena in which it was entered. -/
theorem dropFrom_push {parent : ScopeId} (same : SameBut arena.depth (arena.push parent).1 after)
    (notEmpty : 0 < arena.depth) : after.dropFrom arena.depth = arena := by
  have notRoot : arena.depth ≠ root := Nat.ne_of_gt notEmpty
  suffices scopes : (after.dropFrom arena.depth).scopes = arena.scopes from by
    rcases arena with ⟨before⟩
    exact congrArg Arena.mk scopes
  apply Array.ext_getElem?
  intro other
  rw [scopes_dropFrom after notRoot]
  split
  · rename_i lower
    rw [same.elsewhere other (Nat.ne_of_lt lower), scopes_push, if_neg (Nat.ne_of_lt lower)]
  · rename_i beyond
    exact (Array.getElem?_eq_none (Nat.le_of_not_lt beyond)).symm

/-- Leaving a scope goes back to the scope in which it was entered. -/
theorem parent_push {parent : ScopeId} (same : SameBut arena.depth (arena.push parent).1 after) :
    ∃ scope, after.scopes[arena.depth]? = some scope ∧ scope.parent = some parent := by
  have inside : arena.depth < after.scopes.size := by
    have depth_eq : after.scopes.size = arena.depth + 1 :=
      same.depth.trans (depth_push arena parent)
    rw [depth_eq]
    exact Nat.lt_succ_self _
  rcases same.parent _ (Array.getElem?_eq_getElem inside) with ⟨earlier, found, parent_eq⟩
  rw [scopes_push, if_pos rfl] at found
  cases found
  exact ⟨_, Array.getElem?_eq_getElem inside, parent_eq⟩

end SameBut

end Arena

end GradualScript
