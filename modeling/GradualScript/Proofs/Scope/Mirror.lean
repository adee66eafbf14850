import GradualScript.Proofs.Scope.Change

/-!
# Arenas side by side

One arena *mirrors* another when they have the same scopes with the same parents and the same names
of variables, and the two values of a name are related. Adding to both, entering and leaving in
both, and giving a variable of one a new value that is still related keep them so, and a name leads
to the same scope in both. Functions are left out of account.
-/

namespace GradualScript

/-- Whether two tables have the same keys with related values. -/
def Table.Mirrors {κ ν μ : Type} [DecidableEq κ] (related : ν → μ → Prop) (left : Table κ ν)
    (right : Table κ μ) : Prop :=
  ∀ key, Option.Rel related (left.find? key) (right.find? key)

namespace Table.Mirrors

variable {κ ν μ : Type} [DecidableEq κ] {related : ν → μ → Prop} {left : Table κ ν}
  {right : Table κ μ}

theorem empty : Table.Mirrors related (.empty : Table κ ν) (.empty : Table κ μ) :=
  fun _ => .none

theorem mono {weaker : ν → μ → Prop} (mirrors : left.Mirrors related right)
    (implies : ∀ leftValue rightValue, related leftValue rightValue → weaker leftValue rightValue) :
    left.Mirrors weaker right := by
  intro key
  have pair := mirrors key
  generalize left.find? key = leftResult at pair ⊢
  generalize right.find? key = rightResult at pair ⊢
  cases pair with
  | none => exact .none
  | some values => exact .some (implies _ _ values)

theorem insert (mirrors : left.Mirrors related right) {leftValue : ν} {rightValue : μ}
    (values : related leftValue rightValue) (key : κ) :
    (left.insert key leftValue).Mirrors related (right.insert key rightValue) := by
  intro other
  rw [find?_insert, find?_insert]
  split
  · exact .some values
  · exact mirrors other

theorem replace (mirrors : left.Mirrors related right) {key : κ} {leftValue : ν} {rightValue : μ}
    (found : left.find? key = some leftValue) (values : related leftValue rightValue) :
    left.Mirrors related (right.replace key rightValue) := by
  intro other
  rw [find?_replace]
  split
  · rename_i same
    subst same
    have before := mirrors key
    rw [found] at before ⊢
    generalize right.find? key = result at before ⊢
    cases before with
    | some _ => exact .some values
  · exact mirrors other

theorem find?_some (mirrors : left.Mirrors related right) {key : κ} {leftValue : ν}
    (found : left.find? key = some leftValue) :
    ∃ rightValue, right.find? key = some rightValue ∧ related leftValue rightValue := by
  have pair := mirrors key
  rw [found] at pair
  generalize right.find? key = result at pair
  cases pair with
  | some values => exact ⟨_, rfl, values⟩

theorem find?_none (mirrors : left.Mirrors related right) {key : κ}
    (missing : left.find? key = none) : right.find? key = none := by
  have pair := mirrors key
  rw [missing] at pair
  generalize right.find? key = result at pair
  cases pair with
  | none => rfl

/-- Tables that are built side by side. -/
theorem ofList {τ : Type} {key : τ → κ} {leftValue : τ → ν} {rightValue : τ → μ}
    (values : ∀ item, related (leftValue item) (rightValue item)) (items : List τ) :
    (Table.ofList (items.map fun item => (key item, leftValue item))).Mirrors related
      (.ofList (items.map fun item => (key item, rightValue item))) := by
  have start : (Table.empty : Table κ ν).Mirrors related (Table.empty : Table κ μ) := empty
  revert start
  unfold Table.ofList
  generalize (Table.empty : Table κ ν) = left
  generalize (Table.empty : Table κ μ) = right
  intro mirrors
  induction items generalizing left right with
  | nil => exact mirrors
  | cons item items ih => exact ih _ _ (mirrors.insert (values item) (key item))

end Table.Mirrors

namespace Arena

variable {V W F G : Type} {related : V → W → Prop} {left : Arena V F} {right : Arena W G}
  {id : ScopeId}

/-- Whether two arenas have the same scopes, with related variables. -/
structure Mirrors (related : V → W → Prop) (left : Arena V F) (right : Arena W G) : Prop where
  depth : left.depth = right.depth
  scopes : ∀ (id : ScopeId) (leftScope : Scope V F) (rightScope : Scope W G),
    left.scopes[id]? = some leftScope → right.scopes[id]? = some rightScope →
      leftScope.parent = rightScope.parent ∧
        leftScope.variableTable.Mirrors related rightScope.variableTable

namespace Mirrors

theorem mono {weaker : V → W → Prop} (mirrors : left.Mirrors related right)
    (implies : ∀ leftValue rightValue, related leftValue rightValue → weaker leftValue rightValue) :
    left.Mirrors weaker right := by
  refine ⟨mirrors.depth, ?_⟩
  intro id leftScope rightScope leftFound rightFound
  rcases mirrors.scopes id _ _ leftFound rightFound with ⟨parents, tables⟩
  exact ⟨parents, tables.mono implies⟩

/-- The scopes of two arenas side by side are found together. -/
theorem scope (mirrors : left.Mirrors related right) {leftScope : Scope V F}
    (found : left.scopes[id]? = some leftScope) :
    ∃ rightScope, right.scopes[id]? = some rightScope ∧ leftScope.parent = rightScope.parent ∧
      leftScope.variableTable.Mirrors related rightScope.variableTable := by
  have inside : id < right.scopes.size := by
    have bound := (Array.getElem?_eq_some_iff.mp found).1
    rw [← show left.scopes.size = right.scopes.size from mirrors.depth]
    exact bound
  have present := Array.getElem?_eq_getElem inside
  exact ⟨_, present, mirrors.scopes id _ _ found present⟩

theorem ofFunctions (functions : List ((String × Nat) × F)) (others : List ((String × Nat) × G)) :
    Mirrors related (Arena.ofFunctions functions : Arena V F)
      (Arena.ofFunctions others : Arena W G) := by
  refine ⟨rfl, ?_⟩
  intro id leftScope rightScope leftFound rightFound
  rcases id with _ | id
  · cases leftFound
    cases rightFound
    exact ⟨rfl, .empty⟩
  · cases leftFound

theorem push (mirrors : left.Mirrors related right) (parent : ScopeId) :
    (left.push parent).1.Mirrors related (right.push parent).1 := by
  refine ⟨by rw [depth_push, depth_push, mirrors.depth], ?_⟩
  intro other leftScope rightScope leftFound rightFound
  rw [scopes_push] at leftFound rightFound
  rw [← mirrors.depth] at rightFound
  split at leftFound
  · rename_i atEnd
    rw [if_pos atEnd] at rightFound
    cases leftFound
    cases rightFound
    exact ⟨rfl, .empty⟩
  · rename_i inside
    rw [if_neg inside] at rightFound
    exact mirrors.scopes other _ _ leftFound rightFound

theorem dropFrom (mirrors : left.Mirrors related right) (notRoot : id ≠ root) :
    (left.dropFrom id).Mirrors related (right.dropFrom id) := by
  have depth_eq : left.scopes.size = right.scopes.size := mirrors.depth
  refine ⟨?_, ?_⟩
  · simp only [Arena.dropFrom, if_neg notRoot, Arena.depth, Array.take_eq_extract,
      Array.size_extract, depth_eq]
  · intro other leftScope rightScope leftFound rightFound
    rw [scopes_dropFrom _ notRoot] at leftFound rightFound
    split at leftFound
    · rename_i lower
      rw [if_pos lower] at rightFound
      exact mirrors.scopes other _ _ leftFound rightFound
    · cases leftFound

theorem put (mirrors : left.Mirrors related right) {leftValue : V} {rightValue : W}
    (values : related leftValue rightValue) (id : ScopeId) (name : String) :
    (left.put id name leftValue).Mirrors related (right.put id name rightValue) := by
  have depth_eq : left.scopes.size = right.scopes.size := mirrors.depth
  refine ⟨by simp only [Arena.depth, Arena.put, Array.size_modify, depth_eq], ?_⟩
  intro other leftScope rightScope leftFound rightFound
  rw [scopes_put] at leftFound rightFound
  split at leftFound
  · rename_i same
    rw [if_pos same] at rightFound
    rcases Option.map_eq_some_iff.mp leftFound with ⟨leftBefore, leftPresent, rfl⟩
    rcases Option.map_eq_some_iff.mp rightFound with ⟨rightBefore, rightPresent, rfl⟩
    rcases mirrors.scopes other _ _ leftPresent rightPresent with ⟨parents, tables⟩
    exact ⟨parents, tables.insert values name⟩
  · rename_i different
    rw [if_neg different] at rightFound
    exact mirrors.scopes other _ _ leftFound rightFound

theorem putFunction (mirrors : left.Mirrors related right) (id : ScopeId) (key : String × Nat)
    (function : G) : left.Mirrors related (right.putFunction id key function) := by
  have depth_eq : left.scopes.size = right.scopes.size := mirrors.depth
  refine ⟨by simp only [Arena.depth, Arena.putFunction, Array.size_modify, depth_eq], ?_⟩
  intro other leftScope rightScope leftFound rightFound
  rw [scopes_putFunction] at rightFound
  split at rightFound
  · rcases Option.map_eq_some_iff.mp rightFound with ⟨before, present, rfl⟩
    exact mirrors.scopes other _ before leftFound present
  · exact mirrors.scopes other _ _ leftFound rightFound

/-- A scope from which one arena can be searched is one in the other. -/
theorem shows (mirrors : left.Mirrors related right) {tables : List (Table String V)}
    (shown : left.Shows id tables) : ∃ table others, right.Shows id (table :: others) := by
  induction shown with
  | root found top =>
      rcases mirrors.scope found with ⟨scope, present, parent_eq, _⟩
      exact ⟨_, _, .root present (parent_eq ▸ top)⟩
  | inner found up below _ ih =>
      rcases mirrors.scope found with ⟨scope, present, parent_eq, _⟩
      rcases ih with ⟨_, _, rest⟩
      exact ⟨_, _, .inner present (parent_eq ▸ up) below rest⟩

/-- A name leads to the same scope in both arenas. -/
theorem searchWithin (mirrors : left.Mirrors related right) {name : String} {budget : Nat}
    {owner : ScopeId} {leftValue : V}
    (found : left.searchWithin (·.variableTable.find? name) budget id =
      .ok (some (owner, leftValue))) :
    ∃ leftScope rightScope rightValue,
      left.scopes[owner]? = some leftScope ∧ leftScope.variableTable.find? name = some leftValue ∧
      right.scopes[owner]? = some rightScope ∧ related leftValue rightValue ∧
      right.searchWithin (·.variableTable.find? name) budget id =
        .ok (some (owner, rightValue)) := by
  induction budget generalizing id with
  | zero => cases found
  | succ budget ih =>
      cases leftFound : left.scopes[id]? with
      | none =>
          rw [Arena.searchWithin, Arena.scope, leftFound] at found
          cases found
      | some leftScope =>
          rcases mirrors.scope leftFound with ⟨rightScope, rightFound, parents, tables⟩
          rw [searchWithin_succ leftFound] at found
          rw [searchWithin_succ rightFound]
          cases leftHit : leftScope.variableTable.find? name with
          | some value =>
              rw [leftHit] at found
              cases found
              rcases tables.find?_some leftHit with ⟨rightValue, rightHit, values⟩
              refine ⟨leftScope, rightScope, rightValue, leftFound, leftHit, rightFound, values, ?_⟩
              rw [rightHit]
          | none =>
              rw [leftHit] at found
              rw [tables.find?_none leftHit, ← parents]
              cases up : leftScope.parent with
              | none =>
                  rw [up] at found
                  cases found
              | some parent =>
                  rw [up] at found
                  exact ih found

/-- A variable that one arena shows is found in both, in one scope. -/
theorem search (mirrors : left.Mirrors related right) {tables : List (Table String V)}
    {name : String} {leftValue : V} (shown : left.Shows id tables)
    (found : Table.findIn tables name = some leftValue) :
    ∃ owner leftScope rightScope rightValue,
      left.scopes[owner]? = some leftScope ∧ leftScope.variableTable.find? name = some leftValue ∧
      right.scopes[owner]? = some rightScope ∧ related leftValue rightValue ∧
      right.search (·.variableTable.find? name) id = .ok (some (owner, rightValue)) := by
  have enough : id < left.depth + 1 := Nat.lt_succ_of_lt shown.lt_depth
  have values := shown.searchWithin_variable enough name
  rw [found] at values
  cases result : left.searchWithin (·.variableTable.find? name) (left.depth + 1) id with
  | error halt =>
      rw [result] at values
      cases values
  | ok place =>
      rw [result] at values
      rcases place with _ | ⟨owner, value⟩
      · cases values
      · cases values
        unfold Arena.search
        rw [← mirrors.depth]
        exact ⟨owner, mirrors.searchWithin result⟩

theorem findVariable (mirrors : left.Mirrors related right) {tables : List (Table String V)}
    {name : String} {leftValue : V} (shown : left.Shows id tables)
    (found : Table.findIn tables name = some leftValue) :
    ∃ rightValue, right.findVariable id name = .ok (some rightValue) ∧
      related leftValue rightValue := by
  rcases mirrors.search shown found with ⟨owner, _, _, rightValue, _, _, _, values, result⟩
  refine ⟨rightValue, ?_, values⟩
  rw [Arena.findVariable, result]
  rfl

/-- A variable of the right arena can be given any value that is related to the left one. -/
theorem assign (mirrors : left.Mirrors related right) {tables : List (Table String V)}
    {name : String} {leftValue : V} {rightValue : W} (shown : left.Shows id tables)
    (found : Table.findIn tables name = some leftValue) (values : related leftValue rightValue) :
    ∃ after, right.assign id name rightValue = .ok (some after) ∧
      left.Mirrors related after ∧
      ∀ functions, right.Declares functions → after.Declares functions := by
  rcases mirrors.search shown found with
    ⟨owner, leftScope, rightScope, _, leftFound, leftHit, rightFound, _, result⟩
  let change (scope : Scope W G) : Scope W G :=
    { scope with variableTable := scope.variableTable.replace name rightValue }
  have changed (other : ScopeId) : (right.scopes.modify owner change)[other]? =
      if owner = other then right.scopes[other]?.map change else right.scopes[other]? := by
    simp [Array.getElem?_modify]
  refine ⟨⟨right.scopes.modify owner change⟩, ?_, ⟨?_, ?_⟩, ?_⟩
  · rw [Arena.assign, result, ← setIfInBounds_eq_modify rightFound]
    simp [bind, Except.bind, scope_eq_ok rightFound, pure, Except.pure, change]
  · simpa only [Arena.depth, Array.size_modify] using mirrors.depth
  · intro other before after beforeFound afterFound
    rw [changed] at afterFound
    split at afterFound
    · rename_i same
      subst same
      rcases Option.map_eq_some_iff.mp afterFound with ⟨earlier, present, rfl⟩
      rcases mirrors.scopes owner _ _ beforeFound present with ⟨parents, tables⟩
      rw [leftFound] at beforeFound
      cases beforeFound
      exact ⟨parents, tables.replace leftHit values⟩
    · exact mirrors.scopes other _ _ beforeFound afterFound
  · intro functions declares other scope present
    rw [changed] at present
    split at present
    · rcases Option.map_eq_some_iff.mp present with ⟨earlier, earlierFound, rfl⟩
      exact declares other earlier earlierFound
    · exact declares other scope present

section

variable {left : Arena V F} {right : Arena V G}

/-- Where variables are the same, so is what a search for one finds. -/
theorem searchWithin_eq (mirrors : left.Mirrors Eq right) {name : String} {budget : Nat}
    {place : Option (ScopeId × V)}
    (searched : left.searchWithin (·.variableTable.find? name) budget id = .ok place) :
    right.searchWithin (·.variableTable.find? name) budget id = .ok place := by
  induction budget generalizing id with
  | zero => cases searched
  | succ budget ih =>
      cases found : left.scopes[id]? with
      | none =>
          rw [Arena.searchWithin, Arena.scope, found] at searched
          cases searched
      | some scope =>
          rcases mirrors.scope found with ⟨rightScope, rightFound, parents, tables⟩
          rw [searchWithin_succ found] at searched
          rw [searchWithin_succ rightFound, ← parents]
          cases hit : scope.variableTable.find? name with
          | some value =>
              rcases tables.find?_some hit with ⟨_, rightHit, rfl⟩
              rw [hit] at searched
              rw [rightHit]
              exact searched
          | none =>
              rw [hit] at searched
              rw [tables.find?_none hit]
              cases up : scope.parent with
              | none =>
                  rw [up] at searched
                  exact searched
              | some parent =>
                  rw [up] at searched
                  exact ih searched

theorem search_eq (mirrors : left.Mirrors Eq right) {name : String}
    {place : Option (ScopeId × V)}
    (searched : left.search (·.variableTable.find? name) id = .ok place) :
    right.search (·.variableTable.find? name) id = .ok place := by
  unfold Arena.search at searched ⊢
  rw [← mirrors.depth]
  exact mirrors.searchWithin_eq searched

end

end Mirrors

end Arena

end GradualScript
