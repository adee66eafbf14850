import GradualScript.Scope.Arena

/-!
# Looking names up

What a scope shows of the names around it is a list of tables: its own, that of its parent, and so
on up to the root. `Arena.Shows` ties a scope to that list, so that a search through an arena of
numbered scopes becomes a search through a list, and two arenas with different numbers can be
compared by what they show.

Parents are entered before their children. `Arena.Shows` asks for this along the way to the root,
which is why a search never runs out of scopes.
-/

namespace GradualScript

namespace Table

variable {κ ν : Type} [DecidableEq κ]

@[simp]
theorem find?_empty (key : κ) : (empty : Table κ ν).find? key = none := rfl

theorem find?_insert (table : Table κ ν) (key other : κ) (value : ν) :
    (table.insert key value).find? other =
      if key = other then some value else table.find? other := by
  by_cases same : key = other
  · simp [insert, find?, same]
  · simp [insert, find?, same]

theorem find?_replace (table : Table κ ν) (key other : κ) (value : ν) :
    (table.replace key value).find? other =
      if key = other then (table.find? other).map fun _ => value else table.find? other := by
  rcases table with ⟨entries⟩
  simp only [replace, find?]
  induction entries with
  | nil => simp
  | cons entry entries ih =>
      simp only [List.map_cons, List.find?_cons]
      by_cases found : entry.1 = key <;> by_cases same : key = other
      · simp [found, same]
      · simpa [found, same] using ih
      · have missed : entry.1 ≠ other := fun h => found (h.trans same.symm)
        simpa [found, same, missed] using ih
      · by_cases hit : entry.1 = other <;> simp_all

theorem contains_eq_false_iff {table : Table κ ν} {key : κ} :
    table.contains key = false ↔ table.find? key = none := by
  simp [contains]

/-- Whether something holds of all keys of a table and their values. -/
def All (holds : κ → ν → Prop) (table : Table κ ν) : Prop :=
  ∀ key value, table.find? key = some value → holds key value

theorem All.insert {holds : κ → ν → Prop} {table : Table κ ν} (all : table.All holds) {key : κ}
    {value : ν} (new : holds key value) : (table.insert key value).All holds := by
  intro other found present
  rw [find?_insert] at present
  split at present
  · rename_i same
    cases present
    exact same ▸ new
  · exact all other found present

theorem All.ofList {holds : κ → ν → Prop} {τ : Type} {key : τ → κ} {value : τ → ν}
    (each : ∀ item, holds (key item) (value item)) (items : List τ) :
    (Table.ofList (items.map fun item => (key item, value item))).All holds := by
  have start : (empty : Table κ ν).All holds := by
    intro _ _ found
    cases found
  revert start
  unfold Table.ofList
  generalize (empty : Table κ ν) = table
  intro all
  induction items generalizing table with
  | nil => exact all
  | cons item items ih => exact ih _ (all.insert (each item))

end Table

/-- The value of a name in the first of some tables that has it. -/
def Table.findIn {ν : Type} (tables : List (Table String ν)) (name : String) : Option ν :=
  tables.findSome? (·.find? name)

namespace Arena

variable {V F : Type} {arena : Arena V F} {id : ScopeId}

/-- The tables of variables that are searched from a scope, the scope's own first. -/
inductive Shows (arena : Arena V F) : ScopeId → List (Table String V) → Prop
  | root {scope : Scope V F} (found : arena.scopes[root]? = some scope)
      (top : scope.parent = none) : Shows arena root [scope.variableTable]
  | inner {id parent : ScopeId} {scope : Scope V F} {tables : List (Table String V)}
      (found : arena.scopes[id]? = some scope) (up : scope.parent = some parent)
      (below : parent < id) (rest : Shows arena parent tables) :
      Shows arena id (scope.variableTable :: tables)

/-- Whether the root declares the given functions and no other scope declares any. -/
def Declares (arena : Arena V F) (functions : Table (String × Nat) F) : Prop :=
  ∀ id scope, arena.scopes[id]? = some scope →
    scope.functionTable = if id = root then functions else .empty

theorem scope_eq_ok {scope : Scope V F} (found : arena.scopes[id]? = some scope) :
    arena.scope id = .ok scope := by
  simp [Arena.scope, found]

theorem Shows.ofFunctions (functions : List ((String × Nat) × F)) :
    (Arena.ofFunctions functions : Arena V F).Shows Arena.root [.empty] := by
  have present : (Arena.ofFunctions functions : Arena V F).scopes[Arena.root]? =
    some ⟨none, .empty, .ofList functions⟩ := rfl
  have shown := Shows.root present rfl
  exact shown

theorem Declares.ofFunctions (functions : List ((String × Nat) × F)) :
    (Arena.ofFunctions functions : Arena V F).Declares (.ofList functions) := by
  intro id scope found
  rcases id with _ | id
  · cases found
    rfl
  · cases found

theorem searchWithin_succ {α : Type} {find : Scope V F → Option α} {scope : Scope V F}
    (found : arena.scopes[id]? = some scope) (budget : Nat) :
    arena.searchWithin find (budget + 1) id =
      match find scope with
      | some value => .ok (some (id, value))
      | none =>
        match scope.parent with
        | some parent => arena.searchWithin find budget parent
        | none => .ok none := by
  rw [searchWithin, scope_eq_ok found]
  rfl

namespace Shows

variable {tables : List (Table String V)}

theorem lt_depth (shows : arena.Shows id tables) : id < arena.depth := by
  cases shows with
  | root found _ => exact (Array.getElem?_eq_some_iff.mp found).1
  | inner found _ _ _ => exact (Array.getElem?_eq_some_iff.mp found).1

/-- What a scope shows depends on the scopes up to its own number only. -/
theorem congr {other : Arena V F} (shows : arena.Shows id tables)
    (agree : ∀ below, below ≤ id → other.scopes[below]? = arena.scopes[below]?) :
    other.Shows id tables := by
  induction shows with
  | root found top =>
      exact .root ((agree _ (Nat.le_refl _)).trans found) top
  | inner found up below rest ih =>
      refine .inner ((agree _ (Nat.le_refl _)).trans found) up below (ih ?_)
      intro lower lower_le
      exact agree lower (Nat.le_of_lt (Nat.lt_of_le_of_lt lower_le below))

/-- The way from any scope ends at the root. -/
theorem root_of_append {locals : List (Table String V)} {globals : Table String V}
    (shows : arena.Shows id (locals ++ [globals])) : arena.Shows Arena.root [globals] := by
  generalize tables_eq : locals ++ [globals] = tables at shows
  induction shows generalizing locals with
  | root found top =>
      have single := List.append_eq_singleton_iff.mp tables_eq
      simp only [List.cons_ne_nil, and_false, List.cons.injEq, and_true, or_false]
        at single
      rw [single.2]
      exact .root found top
  | inner _ _ _ rest ih =>
      rcases locals with _ | ⟨table, locals⟩
      · cases tables_eq
        cases rest
      · exact ih (List.cons.inj tables_eq).2

/-- A search for a variable goes through the tables that a scope shows. -/
theorem searchWithin_variable (shows : arena.Shows id tables) {budget : Nat}
    (enough : id < budget) (name : String) :
    (arena.searchWithin (·.variableTable.find? name) budget id).map (·.map Prod.snd) =
      .ok (Table.findIn tables name) := by
  induction shows generalizing budget with
  | @root scope found top =>
      rcases Nat.exists_eq_succ_of_ne_zero (Nat.ne_zero_of_lt enough) with ⟨budget, rfl⟩
      rw [searchWithin_succ found, top, Table.findIn, List.findSome?_singleton]
      cases scope.variableTable.find? name with
      | none => rfl
      | some value => rfl
  | @inner id parent scope tables found up below rest ih =>
      rcases Nat.exists_eq_succ_of_ne_zero (Nat.ne_zero_of_lt enough) with ⟨budget, rfl⟩
      have further := ih (Nat.lt_of_lt_of_le below (Nat.le_of_lt_succ enough))
      rw [searchWithin_succ found, up, Table.findIn, List.findSome?_cons]
      cases scope.variableTable.find? name with
      | none => exact further
      | some value => rfl

theorem findVariable (shows : arena.Shows id tables) (name : String) :
    arena.findVariable id name = .ok (Table.findIn tables name) := by
  have enough : id < arena.depth + 1 := Nat.lt_succ_of_lt shows.lt_depth
  have found := shows.searchWithin_variable enough name
  unfold Arena.findVariable Arena.search
  cases result : arena.searchWithin (·.variableTable.find? name) (arena.depth + 1) id with
  | error halt => rw [result] at found; cases found
  | ok place => rw [result] at found; exact found

/-- Every scope has the functions of the root. -/
theorem searchWithin_function {functions : Table (String × Nat) F}
    (shows : arena.Shows id tables) (declares : arena.Declares functions) {budget : Nat}
    (enough : id < budget) (key : String × Nat) :
    (arena.searchWithin (·.functionTable.find? key) budget id).map (·.map Prod.snd) =
      .ok (functions.find? key) := by
  induction shows generalizing budget with
  | @root scope found top =>
      rcases Nat.exists_eq_succ_of_ne_zero (Nat.ne_zero_of_lt enough) with ⟨budget, rfl⟩
      have table := declares _ _ found
      rw [if_pos rfl] at table
      rw [searchWithin_succ found, top, table]
      cases functions.find? key with
      | none => rfl
      | some value => rfl
  | @inner id parent scope tables found up below rest ih =>
      rcases Nat.exists_eq_succ_of_ne_zero (Nat.ne_zero_of_lt enough) with ⟨budget, rfl⟩
      have further := ih (Nat.lt_of_lt_of_le below (Nat.le_of_lt_succ enough))
      have notRoot : id ≠ Arena.root := Nat.ne_zero_of_lt below
      have table := declares _ _ found
      rw [if_neg notRoot] at table
      rw [searchWithin_succ found, up, table, Table.find?_empty]
      exact further

theorem findFunction {functions : Table (String × Nat) F} (shows : arena.Shows id tables)
    (declares : arena.Declares functions) (name : String) (arity : Nat) :
    arena.findFunction id name arity = .ok (functions.find? (name, arity)) := by
  have enough : id < arena.depth + 1 := Nat.lt_succ_of_lt shows.lt_depth
  have found := shows.searchWithin_function declares enough (name, arity)
  unfold Arena.findFunction Arena.search
  cases result : arena.searchWithin (·.functionTable.find? (name, arity)) (arena.depth + 1) id with
  | error halt => rw [result] at found; cases found
  | ok place => rw [result] at found; exact found

end Shows

end Arena

end GradualScript
