import GradualScript.Proofs.Scope.Change

/-!
# Arenas in order

Scopes are entered after their parents. An arena in which this is so is *ordered*: every way from a
scope through its parents ends at the root, and a search never meets a scope that is missing.

What a piece of program does to an arena is stated by `Arena.Evolves`: scopes, parents and functions
are those that were there, no variable is lost, and new ones are in one given scope only. Order
follows from it, so it need not be carried along.

`Arena.Hides` is about single names. A name that a scope other than the root has on the way hides
the variable of the root, and giving it a value leaves the root alone.
-/

namespace GradualScript

namespace Table

variable {κ ν : Type} [DecidableEq κ] {table : Table κ ν} {key other : κ} {value : ν}

theorem contains_insert :
    (table.insert key value).contains other = true ↔
      table.contains other = true ∨ other = key := by
  by_cases same : key = other
  · simp [contains, find?_insert, same]
  · simp [contains, find?_insert, same, Ne.symm same]

theorem contains_replace :
    (table.replace key value).contains other = table.contains other := by
  simp only [contains, find?_replace]
  split <;> simp

end Table

namespace Scope

variable {V F : Type} {before middle after : Scope V F} {added more : String → Prop}

/-- Whether a scope is as it was but for the values of variables and for new variables, whose names
are among the given ones. -/
structure Evolves (added : String → Prop) (before after : Scope V F) : Prop where
  parent : after.parent = before.parent
  functions : after.functionTable = before.functionTable
  kept : ∀ name, before.variableTable.contains name = true →
    after.variableTable.contains name = true
  new : ∀ name, after.variableTable.contains name = true →
    before.variableTable.contains name = true ∨ added name

theorem Evolves.trans (earlier : before.Evolves added middle) (later : middle.Evolves added after) :
    before.Evolves added after := by
  refine ⟨later.parent.trans earlier.parent, later.functions.trans earlier.functions, ?_, ?_⟩
  · intro name has
    exact later.kept name (earlier.kept name has)
  · intro name has
    rcases later.new name has with had | isNew
    · exact earlier.new name had
    · exact .inr isNew

theorem Evolves.mono (evolves : before.Evolves added after)
    (implies : ∀ name, added name → more name) : before.Evolves more after := by
  refine ⟨evolves.parent, evolves.functions, evolves.kept, ?_⟩
  intro name has
  rcases evolves.new name has with had | isNew
  · exact .inl had
  · exact .inr (implies name isNew)

end Scope

namespace Arena

variable {V F α : Type} {arena before middle after : Arena V F} {id other owner : ScopeId}
  {added : String → Prop} {name : String} {find : Scope V F → Option α}

/-- Whether the root has no parent, and every other scope has one that was entered before it. -/
structure Ordered (arena : Arena V F) : Prop where
  top : ∀ {scope}, arena.scopes[root]? = some scope → scope.parent = none
  inner : ∀ {id scope}, id ≠ root → arena.scopes[id]? = some scope →
    ∃ parent, scope.parent = some parent ∧ parent < id

theorem exists_scope (inside : id < arena.depth) : ∃ scope, arena.scopes[id]? = some scope :=
  ⟨_, Array.getElem?_eq_getElem inside⟩

theorem scopes_push_self (arena : Arena V F) (parent : ScopeId) :
    (arena.push parent).1.scopes[arena.depth]? = some ⟨some parent, .empty, .empty⟩ := by
  rw [scopes_push, if_pos rfl]

theorem lt_depth_of_scope {scope : Scope V F} (found : arena.scopes[id]? = some scope) :
    id < arena.depth :=
  (Array.getElem?_eq_some_iff.mp found).1

namespace Ordered

theorem ofFunctions (functions : List ((String × Nat) × F)) :
    (Arena.ofFunctions functions : Arena V F).Ordered := by
  constructor
  · intro scope found
    cases found
    rfl
  · intro id scope notRoot found
    rcases id with _ | id
    · exact absurd rfl notRoot
    · cases found

theorem push (ordered : arena.Ordered) (inside : id < arena.depth) :
    (arena.push id).1.Ordered := by
  constructor
  · intro scope found
    have notEnd : root ≠ arena.depth := Nat.ne_of_lt (Nat.zero_lt_of_lt inside)
    rw [scopes_push, if_neg notEnd] at found
    exact ordered.top found
  · intro other scope notRoot found
    rw [scopes_push] at found
    split at found
    · rename_i atEnd
      cases found
      exact ⟨id, rfl, atEnd ▸ inside⟩
    · exact ordered.inner notRoot found

/-- Order is a matter of parents only. -/
theorem of_parents (ordered : before.Ordered)
    (earlier : ∀ {id : ScopeId} {scope : Scope V F}, after.scopes[id]? = some scope →
      ∃ old, before.scopes[id]? = some old ∧ scope.parent = old.parent) : after.Ordered := by
  constructor
  · intro scope found
    rcases earlier found with ⟨old, present, parent_eq⟩
    rw [parent_eq]
    exact ordered.top present
  · intro id scope notRoot found
    rcases earlier found with ⟨old, present, parent_eq⟩
    rw [parent_eq]
    exact ordered.inner notRoot present

theorem sameBut (ordered : before.Ordered) (same : SameBut id before after) : after.Ordered := by
  have earlier {other : ScopeId} {scope : Scope V F} (found : after.scopes[other]? = some scope) :
      ∃ old, before.scopes[other]? = some old ∧ scope.parent = old.parent := by
    by_cases here : other = id
    · subst here
      exact same.parent scope found
    · rw [same.elsewhere other here] at found
      exact ⟨scope, found, rfl⟩
  exact ordered.of_parents earlier

theorem putFunction (ordered : arena.Ordered) (id : ScopeId) (key : String × Nat) (function : F) :
    (arena.putFunction id key function).Ordered := by
  have earlier {other : ScopeId} {scope : Scope V F}
      (found : (arena.putFunction id key function).scopes[other]? = some scope) :
      ∃ old, arena.scopes[other]? = some old ∧ scope.parent = old.parent := by
    rw [scopes_putFunction] at found
    split at found
    · rcases Option.map_eq_some_iff.mp found with ⟨old, present, rfl⟩
      exact ⟨old, present, rfl⟩
    · exact ⟨scope, found, rfl⟩
  exact ordered.of_parents earlier

theorem dropFrom (ordered : arena.Ordered) (notRoot : id ≠ root) : (arena.dropFrom id).Ordered := by
  apply ordered.of_parents
  intro other scope found
  rw [scopes_dropFrom arena notRoot] at found
  split at found
  · exact ⟨scope, found, rfl⟩
  · cases found

/-- From every scope the tables on the way to the root can be seen. -/
theorem shows (ordered : arena.Ordered) (inside : id < arena.depth) :
    ∃ tables, arena.Shows id tables := by
  induction id using Nat.strongRecOn with
  | ind id ih =>
      rcases exists_scope inside with ⟨scope, found⟩
      by_cases atRoot : id = root
      · subst atRoot
        exact ⟨_, .root found (ordered.top found)⟩
      · rcases ordered.inner atRoot found with ⟨parent, up, below⟩
        rcases ih parent below (Nat.lt_trans below inside) with ⟨_, rest⟩
        exact ⟨_, .inner found up below rest⟩

/-- What a name and a number of arguments mean does not depend on the scope, where all functions are
in the root. -/
theorem findFunction (ordered : arena.Ordered) {functions : Table (String × Nat) F}
    (declares : arena.Declares functions) (inside : id < arena.depth) (name : String)
    (arity : Nat) : arena.findFunction id name arity = .ok (functions.find? (name, arity)) := by
  rcases ordered.shows inside with ⟨_, shows⟩
  exact shows.findFunction declares name arity

theorem searchWithin (ordered : arena.Ordered) (find : Scope V F → Option α) {budget : Nat}
    (inside : id < arena.depth) (enough : id < budget) :
    ∃ place, arena.searchWithin find budget id = .ok place := by
  induction budget generalizing id with
  | zero => exact absurd enough (Nat.not_lt_zero id)
  | succ budget ih =>
      rcases exists_scope inside with ⟨scope, found⟩
      rw [searchWithin_succ found]
      cases find scope with
      | some value => exact ⟨_, rfl⟩
      | none =>
          by_cases atRoot : id = root
          · subst atRoot
            rw [ordered.top found]
            exact ⟨_, rfl⟩
          · rcases ordered.inner atRoot found with ⟨parent, up, below⟩
            rw [up]
            exact ih (Nat.lt_trans below inside)
              (Nat.lt_of_lt_of_le below (Nat.le_of_lt_succ enough))

theorem search (ordered : arena.Ordered) (find : Scope V F → Option α)
    (inside : id < arena.depth) : ∃ place, arena.search find id = .ok place :=
  ordered.searchWithin find inside (Nat.lt_succ_of_lt inside)

end Ordered

/-! ## What a search finds -/

theorem exists_of_searchWithin {budget : Nat} {value : α}
    (searched : arena.searchWithin find budget id = .ok (some (owner, value))) :
    ∃ scope, arena.scopes[owner]? = some scope ∧ find scope = some value := by
  induction budget generalizing id with
  | zero => cases searched
  | succ budget ih =>
      cases found : arena.scopes[id]? with
      | none =>
          rw [Arena.searchWithin, Arena.scope, found] at searched
          cases searched
      | some scope =>
          rw [searchWithin_succ found] at searched
          cases hit : find scope with
          | some value =>
              rw [hit] at searched
              cases searched
              exact ⟨scope, found, hit⟩
          | none =>
              rw [hit] at searched
              cases up : scope.parent with
              | none => rw [up] at searched; cases searched
              | some parent => rw [up] at searched; exact ih searched

/-- Gives a variable of a scope a new value. -/
def give (arena : Arena V F) (owner : ScopeId) (name : String) (value : V) : Arena V F :=
  ⟨arena.scopes.modify owner fun scope =>
    { scope with variableTable := scope.variableTable.replace name value }⟩

theorem scopes_give (arena : Arena V F) (owner other : ScopeId) (name : String) (value : V) :
    (arena.give owner name value).scopes[other]? =
      if owner = other then
        arena.scopes[other]?.map fun scope =>
          { scope with variableTable := scope.variableTable.replace name value }
      else arena.scopes[other]? := by
  simp [give, Array.getElem?_modify]

/-- A new value goes to the scope in which the name is found. -/
theorem assign_of_search {found value : V}
    (searched : arena.search (·.variableTable.find? name) id = .ok (some (owner, found))) :
    arena.assign id name value = .ok (some (arena.give owner name value)) := by
  rcases exists_of_searchWithin searched with ⟨scope, present, _⟩
  have given := setIfInBounds_eq_modify present fun scope =>
    { scope with variableTable := scope.variableTable.replace name value }
  simp only [assign, searched, bind, Except.bind, scope_eq_ok present, given, give, pure,
    Except.pure]

theorem assign_of_nowhere (searched : arena.search (·.variableTable.find? name) id = .ok none)
    (value : V) : arena.assign id name value = .ok none := by
  rw [assign, searched]
  rfl

theorem depth_assign {value : V} (assigned : arena.assign id name value = .ok (some after)) :
    after.depth = arena.depth := by
  cases searched : arena.search (·.variableTable.find? name) id with
  | error halt =>
      rw [assign, searched] at assigned
      cases assigned
  | ok place =>
      cases place with
      | none =>
          rw [assign_of_nowhere searched] at assigned
          cases assigned
      | some found =>
          rw [assign_of_search searched] at assigned
          cases assigned
          exact Array.size_modify ..

theorem findVariable_of_search {place : Option (ScopeId × V)}
    (searched : arena.search (·.variableTable.find? name) id = .ok place) :
    arena.findVariable id name = .ok (place.map Prod.snd) := by
  rw [findVariable, searched]
  rfl

theorem findFunction_of_search {arity : Nat} {place : Option (ScopeId × F)}
    (searched : arena.search (·.functionTable.find? (name, arity)) id = .ok place) :
    arena.findFunction id name arity = .ok (place.map Prod.snd) := by
  rw [findFunction, searched]
  rfl

/-! ## Functions -/

/-- Whether something holds of all functions and the numbers of arguments that they are called
with. -/
def AllFunctions (holds : Nat → F → Prop) (arena : Arena V F) : Prop :=
  ∀ (id : ScopeId) (scope : Scope V F), arena.scopes[id]? = some scope →
    scope.functionTable.All fun key function => holds key.2 function

namespace AllFunctions

variable {holds : Nat → F → Prop}

theorem ofFunctions {functions : List ((String × Nat) × F)}
    (all : (Table.ofList functions).All fun key function => holds key.2 function) :
    (Arena.ofFunctions functions : Arena V F).AllFunctions holds := by
  intro id scope found
  rcases id with _ | id
  · cases found
    exact all
  · cases found

theorem push (all : arena.AllFunctions holds) (parent : ScopeId) :
    (arena.push parent).1.AllFunctions holds := by
  intro id scope found
  rw [scopes_push] at found
  split at found
  · cases found
    intro _ _ has
    cases has
  · exact all id scope found

theorem dropFrom (all : arena.AllFunctions holds) (id : ScopeId) :
    (arena.dropFrom id).AllFunctions holds := by
  intro other scope found
  by_cases atRoot : id = root
  · rw [Arena.dropFrom, if_pos atRoot] at found
    exact all other scope found
  · rw [scopes_dropFrom arena atRoot] at found
    split at found
    · exact all other scope found
    · cases found

theorem putFunction (all : arena.AllFunctions holds) (id : ScopeId) {key : String × Nat}
    {function : F} (new : holds key.2 function) :
    (arena.putFunction id key function).AllFunctions holds := by
  intro other scope found
  rw [scopes_putFunction] at found
  split at found
  · rcases Option.map_eq_some_iff.mp found with ⟨before, present, rfl⟩
    exact (all other before present).insert new
  · exact all other scope found

theorem found (all : arena.AllFunctions holds) {arity : Nat} {function : F}
    (searched : arena.search (·.functionTable.find? (name, arity)) id =
      .ok (some (owner, function))) : holds arity function := by
  rcases exists_of_searchWithin searched with ⟨scope, present, has⟩
  exact all owner scope present (name, arity) function has

end AllFunctions

/-! ## Evolution -/

/-- Whether an arena has the scopes and names that it had, but for new variables in one scope, whose
names are among the given ones. -/
def Evolves (id : ScopeId) (added : String → Prop) (before after : Arena V F) : Prop :=
  ∀ other, Option.Rel (Scope.Evolves fun name => other = id ∧ added name)
    before.scopes[other]? after.scopes[other]?

namespace Evolves

theorem refl (id : ScopeId) (added : String → Prop) (arena : Arena V F) :
    arena.Evolves id added arena := by
  intro other
  cases arena.scopes[other]? with
  | none => exact .none
  | some scope => exact .some ⟨rfl, rfl, fun _ has => has, fun _ has => .inl has⟩

theorem forward (evolves : before.Evolves id added after) {earlier : Scope V F}
    (found : before.scopes[other]? = some earlier) :
    ∃ later, after.scopes[other]? = some later ∧
      earlier.Evolves (fun name => other = id ∧ added name) later := by
  have pair := evolves other
  rw [found] at pair
  generalize after.scopes[other]? = result at pair
  cases pair with
  | some scopes => exact ⟨_, rfl, scopes⟩

theorem backward (evolves : before.Evolves id added after) {later : Scope V F}
    (found : after.scopes[other]? = some later) :
    ∃ earlier, before.scopes[other]? = some earlier ∧
      earlier.Evolves (fun name => other = id ∧ added name) later := by
  have pair := evolves other
  rw [found] at pair
  generalize before.scopes[other]? = result at pair
  cases pair with
  | some scopes => exact ⟨_, rfl, scopes⟩

theorem depth (evolves : before.Evolves id added after) : after.depth = before.depth := by
  apply Nat.le_antisymm
  · apply Nat.le_of_not_lt
    intro larger
    rcases exists_scope larger with ⟨later, found⟩
    rcases evolves.backward found with ⟨earlier, present, _⟩
    exact Nat.lt_irrefl _ (lt_depth_of_scope present)
  · apply Nat.le_of_not_lt
    intro smaller
    rcases exists_scope smaller with ⟨earlier, found⟩
    rcases evolves.forward found with ⟨later, present, _⟩
    exact Nat.lt_irrefl _ (lt_depth_of_scope present)

theorem trans (earlier : before.Evolves id added middle) (later : middle.Evolves id added after) :
    before.Evolves id added after := by
  intro other
  have first := earlier other
  have second := later other
  generalize before.scopes[other]? = start at first
  generalize middle.scopes[other]? = between at first second
  generalize after.scopes[other]? = last at second
  cases first with
  | none => exact second
  | some changes =>
      cases second with
      | some furtherChanges => exact .some (changes.trans furtherChanges)

theorem mono {more : String → Prop} (evolves : before.Evolves id added after)
    (implies : ∀ name, added name → more name) : before.Evolves id more after := by
  intro other
  have pair := evolves other
  generalize before.scopes[other]? = start at pair ⊢
  generalize after.scopes[other]? = last at pair ⊢
  cases pair with
  | none => exact .none
  | some changes => exact .some (changes.mono fun name => And.imp_right (implies name))

theorem ordered (evolves : before.Evolves id added after) (ordered : before.Ordered) :
    after.Ordered := by
  apply ordered.of_parents
  intro other later found
  rcases evolves.backward found with ⟨earlier, present, changes⟩
  exact ⟨earlier, present, changes.parent⟩

theorem allFunctions {holds : Nat → F → Prop} (evolves : before.Evolves id added after)
    (all : before.AllFunctions holds) : after.AllFunctions holds := by
  intro other later found
  rcases evolves.backward found with ⟨earlier, present, changes⟩
  rw [changes.functions]
  exact all other earlier present

theorem declares {functions : Table (String × Nat) F} (evolves : before.Evolves id added after)
    (declares : before.Declares functions) : after.Declares functions := by
  intro other later found
  rcases evolves.backward found with ⟨earlier, present, changes⟩
  rw [changes.functions]
  exact declares other earlier present

theorem put (arena : Arena V F) (id : ScopeId) (name : String) (value : V) :
    arena.Evolves id (· = name) (arena.put id name value) := by
  intro other
  rw [scopes_put]
  split
  · rename_i same
    cases arena.scopes[other]? with
    | none => exact .none
    | some scope =>
        refine .some ⟨rfl, rfl, ?_, ?_⟩
        · intro key has
          exact Table.contains_insert.mpr (.inl has)
        · intro key has
          rcases Table.contains_insert.mp has with had | isNew
          · exact .inl had
          · exact .inr ⟨same.symm, isNew⟩
  · exact refl id _ arena other

theorem give (arena : Arena V F) (owner : ScopeId) (name : String) (value : V) (id : ScopeId)
    (added : String → Prop) : arena.Evolves id added (arena.give owner name value) := by
  intro other
  rw [scopes_give]
  split
  · cases arena.scopes[other]? with
    | none => exact .none
    | some scope =>
        refine .some ⟨rfl, rfl, ?_, ?_⟩
        · intro key has
          rwa [Table.contains_replace]
        · intro key has
          rw [Table.contains_replace] at has
          exact .inl has
  · exact refl id _ arena other

/-- What is done in a scope of its own is undone by releasing the scope, apart from new values. -/
theorem release {parent : ScopeId} (evolves : (arena.push parent).1.Evolves arena.depth added after)
    (notEmpty : 0 < arena.depth) (id : ScopeId) :
    arena.Evolves id (fun _ => False) (after.dropFrom arena.depth) := by
  have notRoot : arena.depth ≠ root := Nat.ne_of_gt notEmpty
  intro other
  rw [scopes_dropFrom after notRoot]
  split
  · rename_i lower
    have pair := evolves other
    rw [scopes_push, if_neg (Nat.ne_of_lt lower)] at pair
    generalize arena.scopes[other]? = start at pair ⊢
    generalize after.scopes[other]? = last at pair ⊢
    cases pair with
    | none => exact .none
    | some changes =>
        -- New variables are in the released scope, and this one is below it.
        exact .some (changes.mono fun name isNew => absurd isNew.1 (Nat.ne_of_lt lower))
  · rename_i beyond
    rw [Array.getElem?_eq_none (Nat.le_of_not_lt beyond)]
    exact .none

/-- The scope of its own is still there, inside the scope in which it was entered. -/
theorem parent_push {parent : ScopeId}
    (evolves : (arena.push parent).1.Evolves arena.depth added after) :
    after.parent arena.depth = .ok (some parent) := by
  rcases evolves.forward (scopes_push_self arena parent) with ⟨later, found, changes⟩
  rw [Arena.parent, scope_eq_ok found]
  exact congrArg Except.ok changes.parent

end Evolves

/-! ## Names that hide variables of the root -/

/-- Whether a scope other than the root has a name, on the way from a scope to the root. -/
inductive Hides (arena : Arena V F) (name : String) : ScopeId → Prop
  | here {id : ScopeId} {scope : Scope V F} (notRoot : id ≠ root)
      (found : arena.scopes[id]? = some scope)
      (has : scope.variableTable.contains name = true) : Hides arena name id
  | further {id parent : ScopeId} {scope : Scope V F} (found : arena.scopes[id]? = some scope)
      (up : scope.parent = some parent) (rest : Hides arena name parent) : Hides arena name id

namespace Hides

theorem evolves (hides : before.Hides name other) (evolves : before.Evolves id added after) :
    after.Hides name other := by
  induction hides with
  | here notRoot found has =>
      rcases evolves.forward found with ⟨later, present, changes⟩
      exact .here notRoot present (changes.kept name has)
  | further found up _ ih =>
      rcases evolves.forward found with ⟨later, present, changes⟩
      exact .further present (changes.parent.trans up) ih

theorem of_push (hides : arena.Hides name id) (parent : ScopeId) :
    (arena.push parent).1.Hides name id := by
  have kept {scope : Scope V F} {other : ScopeId} (found : arena.scopes[other]? = some scope) :
      (arena.push parent).1.scopes[other]? = some scope := by
    rw [scopes_push, if_neg (Nat.ne_of_lt (lt_depth_of_scope found)), found]
  induction hides with
  | here notRoot found has => exact .here notRoot (kept found) has
  | further found up _ ih => exact .further (kept found) up ih

theorem push (hides : arena.Hides name id) : (arena.push id).1.Hides name arena.depth :=
  .further (scopes_push_self arena id) rfl (hides.of_push id)

theorem put (inside : id < arena.depth) (notRoot : id ≠ root) (name : String) (value : V) :
    (arena.put id name value).Hides name id := by
  rcases exists_scope inside with ⟨scope, found⟩
  have changed : (arena.put id name value).scopes[id]? =
      some { scope with variableTable := scope.variableTable.insert name value } := by
    rw [scopes_put, if_pos rfl, found]
    rfl
  exact .here notRoot changed (Table.contains_insert.mpr (.inr rfl))

theorem owner_ne_root (hides : arena.Hides name id) (ordered : arena.Ordered) {value : V}
    (searched : arena.search (·.variableTable.find? name) id = .ok (some (owner, value))) :
    owner ≠ root := by
  unfold search at searched
  generalize arena.depth + 1 = budget at searched
  induction hides generalizing budget with
  | here notRoot found has =>
      rcases Option.isSome_iff_exists.mp has with ⟨found_value, hit⟩
      cases budget with
      | zero => cases searched
      | succ budget =>
          simp only [searchWithin_succ found, hit] at searched
          cases searched
          exact notRoot
  | @further id parent scope found up _ ih =>
      -- A scope on the way that has the name as well is not the root either.
      have notRoot : id ≠ root := by
        rintro rfl
        rw [ordered.top found] at up
        cases up
      cases budget with
      | zero => cases searched
      | succ budget =>
          cases hit : scope.variableTable.find? name with
          | some value =>
              simp only [searchWithin_succ found, hit] at searched
              cases searched
              exact notRoot
          | none =>
              simp only [searchWithin_succ found, hit, up] at searched
              exact ih budget searched

end Hides

/-! ## Variables of the root -/

/-- The variable that the root has under a name. -/
def global? (arena : Arena V F) (name : String) : Option V :=
  arena.scopes[root]?.bind (·.variableTable.find? name)

theorem global?_push (notEmpty : 0 < arena.depth) (parent : ScopeId) (name : String) :
    (arena.push parent).1.global? name = arena.global? name := by
  have notEnd : root ≠ arena.depth := Nat.ne_of_lt notEmpty
  rw [global?, scopes_push, if_neg notEnd, global?]

theorem global?_dropFrom (arena : Arena V F) (notRoot : id ≠ root) (name : String) :
    (arena.dropFrom id).global? name = arena.global? name := by
  have lower : root < id := Nat.pos_of_ne_zero notRoot
  rw [global?, scopes_dropFrom arena notRoot, if_pos lower, global?]

theorem global?_put {key : String} (elsewhere : id ≠ root ∨ name ≠ key) (value : V) :
    (arena.put id name value).global? key = arena.global? key := by
  simp only [global?, scopes_put]
  split
  · rename_i atRoot
    cases arena.scopes[root]? with
    | none => rfl
    | some scope => simp [Table.find?_insert, elsewhere.resolve_left (absurd atRoot)]
  · rfl

theorem global?_put_self (notEmpty : 0 < arena.depth) (name : String) (value : V) :
    (arena.put root name value).global? name = some value := by
  rcases exists_scope notEmpty with ⟨scope, found⟩
  have present : arena.scopes[root]? = some scope := found
  rw [global?, scopes_put, if_pos rfl, present]
  simp [Table.find?_insert]

/-- A name that the root does not have and that is not added is not there afterwards. -/
theorem Evolves.global?_eq_none (evolves : before.Evolves id added after)
    (absent : before.global? name = none) (notAdded : ¬added name) :
    after.global? name = none := by
  cases found : after.scopes[root]? with
  | none => rw [global?, found, Option.bind_none]
  | some later =>
      rcases evolves.backward found with ⟨earlier, present, changes⟩
      rw [global?, present, Option.bind_some] at absent
      rw [global?, found, Option.bind_some]
      apply Table.contains_eq_false_iff.mp
      apply Bool.eq_false_iff.mpr
      intro has
      rcases changes.new name has with had | ⟨_, isAdded⟩
      · rw [Table.contains_eq_false_iff.mpr absent] at had
        cases had
      · exact notAdded isAdded

theorem global?_give {key : String} (elsewhere : owner ≠ root ∨ name ≠ key) (value : V) :
    (arena.give owner name value).global? key = arena.global? key := by
  simp only [global?, scopes_give]
  split
  · rename_i atRoot
    cases arena.scopes[root]? with
    | none => rfl
    | some scope => simp [Table.find?_replace, elsewhere.resolve_left (absurd atRoot)]
  · rfl

theorem global?_putFunction (arena : Arena V F) (id : ScopeId) (key : String × Nat) (function : F)
    (name : String) : (arena.putFunction id key function).global? name = arena.global? name := by
  simp only [global?, scopes_putFunction]
  split
  · cases arena.scopes[root]? with
    | none => rfl
    | some scope => rfl
  · rfl

end Arena

end GradualScript
