import GradualScript.Proofs.Scope.Order

/-!
# Arenas as lexical environments

Scopes refer to their parents by number, and the numbers of scopes that were left are used again. So
it is not plain to see that an arena stands for the nested environments of a program. Here it is
shown of every arena that can be made: the way from a scope through its parents is a `Chain` of
scopes that are there, a key means what the nearest scope of the chain says that has it, and adding
or changing an entry is seen from nowhere but where it should be.

Variables and functions have keys of their own, and all laws hold for both.

An arena is made by actions, one after the other. `Arena.Ordered.act` says what one action keeps,
and `Arena.Reached.ordered` what follows for all of them.
-/

namespace GradualScript

/-- What is looked up in a scope: a variable by its name, a function by its name and number of
parameters. -/
inductive Key where
  | ofVariable (name : String)
  | ofFunction (name : String) (arity : Nat)
deriving DecidableEq

namespace Arena

variable {V F α : Type} {arena before after : Arena V F} {id owner start : ScopeId} {key : Key}
  {entry : V ⊕ F} {chain : List ScopeId}

/-- What a scope has itself under a key. -/
def entryOf (scope : Scope V F) : Key → Option (V ⊕ F)
  | .ofVariable name => (scope.variableTable.find? name).map .inl
  | .ofFunction name arity => (scope.functionTable.find? (name, arity)).map .inr

/-- What the scope with a number has itself under a key. -/
def entryIn (arena : Arena V F) (id : ScopeId) (key : Key) : Option (V ⊕ F) :=
  arena.scopes[id]?.bind (entryOf · key)

/-- What a key means in a scope. -/
def lookup (arena : Arena V F) (id : ScopeId) : Key → Except Halt (Option (V ⊕ F))
  | .ofVariable name => (arena.findVariable id name).map (Option.map .inl)
  | .ofFunction name arity => (arena.findFunction id name arity).map (Option.map .inr)

/-- The scopes from a scope through its parents up to one that has none. -/
inductive Chain (arena : Arena V F) : ScopeId → List ScopeId → Prop
  | last {id : ScopeId} {scope : Scope V F} (found : arena.scopes[id]? = some scope)
      (top : scope.parent = none) : Chain arena id [id]
  | inner {id parent : ScopeId} {scope : Scope V F} {outer : List ScopeId}
      (found : arena.scopes[id]? = some scope) (up : scope.parent = some parent)
      (rest : Chain arena parent outer) : Chain arena id (id :: outer)

/-- Whether a scope is on the chain of another one, and no scope before it has a key. -/
def Reaches (arena : Arena V F) (key : Key) (start owner : ScopeId) : Prop :=
  ∃ nearer outer, arena.Chain start (nearer ++ owner :: outer) ∧
    ∀ id ∈ nearer, arena.entryIn id key = none

/-- Whether a scope is the nearest one on the chain of another that has a key, and has an entry
under it. -/
def Nearest (arena : Arena V F) (key : Key) (start owner : ScopeId) (entry : V ⊕ F) : Prop :=
  arena.Reaches key start owner ∧ arena.entryIn owner key = some entry

theorem entryIn_eq {scope : Scope V F} (found : arena.scopes[id]? = some scope) (key : Key) :
    arena.entryIn id key = entryOf scope key := by
  rw [entryIn, found, Option.bind_some]

/-! ## Chains -/

theorem Ordered.parent_lt (ordered : arena.Ordered) {scope : Scope V F} {parent : ScopeId}
    (found : arena.scopes[id]? = some scope) (up : scope.parent = some parent) : parent < id := by
  by_cases atRoot : id = root
  · subst atRoot
    rw [ordered.top found] at up
    cases up
  · rcases ordered.inner atRoot found with ⟨earlier, above, below⟩
    rw [up] at above
    cases above
    exact below

theorem Ordered.exists_chain (ordered : arena.Ordered) (inside : id < arena.depth) :
    ∃ chain, arena.Chain id chain := by
  induction id using Nat.strongRecOn with
  | ind id ih =>
      rcases exists_scope inside with ⟨scope, found⟩
      cases up : scope.parent with
      | none => exact ⟨[id], .last found up⟩
      | some parent =>
          have below := ordered.parent_lt found up
          rcases ih parent below (Nat.lt_trans below inside) with ⟨outer, rest⟩
          exact ⟨id :: outer, .inner found up rest⟩

theorem exists_scope_of_parent {scope : Scope V F} (same : after.parent id = before.parent id)
    (found : before.scopes[id]? = some scope) :
    ∃ later, after.scopes[id]? = some later ∧ later.parent = scope.parent := by
  simp only [Arena.parent, scope_eq_ok found] at same
  cases present : after.scopes[id]? with
  | none =>
      simp only [Arena.scope, present] at same
      cases same
  | some later =>
      simp only [scope_eq_ok present] at same
      exact ⟨later, rfl, Except.ok.inj same⟩

namespace Chain

theorem unique {other : List ScopeId} (first : arena.Chain id chain)
    (second : arena.Chain id other) : chain = other := by
  induction first generalizing other with
  | last found top =>
      cases second with
      | last _ _ => rfl
      | inner present up _ => simp_all
  | inner found up _ ih =>
      cases second with
      | last present top => simp_all
      | inner present above rest =>
          rw [found] at present
          cases present
          rw [up] at above
          cases above
          rw [ih rest]

/-- Chains depend on parents only. -/
theorem congr (way : before.Chain id chain)
    (parents : ∀ id, after.parent id = before.parent id) : after.Chain id chain := by
  induction way with
  | last found top =>
      rcases exists_scope_of_parent (parents _) found with ⟨later, present, same⟩
      exact .last present (same.trans top)
  | inner found up _ ih =>
      rcases exists_scope_of_parent (parents _) found with ⟨later, present, same⟩
      exact .inner present (same.trans up) ih

/-- A search goes along the chain, and says where it has found something. -/
theorem search (way : arena.Chain id chain) (ordered : arena.Ordered)
    (find : Scope V F → Option α) :
    arena.search find id =
      .ok (chain.findSome? fun other => (arena.scopes[other]?.bind find).map (other, ·)) := by
  have within (budget : Nat) (enough : id < budget) : arena.searchWithin find budget id =
      .ok (chain.findSome? fun other => (arena.scopes[other]?.bind find).map (other, ·)) := by
    induction way generalizing budget with
    | @last id scope found top =>
        rcases Nat.exists_eq_succ_of_ne_zero (Nat.ne_zero_of_lt enough) with ⟨budget, rfl⟩
        rw [searchWithin_succ found, top]
        cases hit : find scope with
        | none => simp [found, hit]
        | some value => simp [found, hit]
    | @inner id parent scope outer found up rest ih =>
        rcases Nat.exists_eq_succ_of_ne_zero (Nat.ne_zero_of_lt enough) with ⟨budget, rfl⟩
        have further := ih budget
          (Nat.lt_of_lt_of_le (ordered.parent_lt found up) (Nat.le_of_lt_succ enough))
        rw [searchWithin_succ found, up]
        cases hit : find scope with
        | none => simpa [found, hit] using further
        | some value => simp [found, hit]
  apply within
  apply Nat.lt_succ_of_lt
  cases way with
  | last found _ => exact lt_depth_of_scope found
  | inner found _ _ => exact lt_depth_of_scope found

/-- A key means what the nearest scope says that has it. -/
theorem lookup (way : arena.Chain id chain) (ordered : arena.Ordered) (key : Key) :
    arena.lookup id key = .ok (chain.findSome? (arena.entryIn · key)) := by
  cases key with
  | ofVariable name =>
      have searched := way.search ordered (·.variableTable.find? name)
      simp only [Arena.lookup, findVariable_of_search searched, Except.map, List.map_findSome?]
      congr 2
      funext other
      simp only [Function.comp_apply, entryIn, entryOf]
      cases arena.scopes[other]? with
      | none => rfl
      | some scope => simp [Function.comp_def]
  | ofFunction name arity =>
      have searched := way.search ordered (·.functionTable.find? (name, arity))
      simp only [Arena.lookup, findFunction_of_search searched, Except.map, List.map_findSome?]
      congr 2
      funext other
      simp only [Function.comp_apply, entryIn, entryOf]
      cases arena.scopes[other]? with
      | none => rfl
      | some scope => simp [Function.comp_def]

end Chain

theorem findSome?_entryIn_congr
    (agree : ∀ id ∈ chain, after.entryIn id key = before.entryIn id key) :
    chain.findSome? (after.entryIn · key) = chain.findSome? (before.entryIn · key) := by
  induction chain with
  | nil => rfl
  | cons id outer ih =>
      rcases List.forall_mem_cons.mp agree with ⟨here, rest⟩
      simp only [List.findSome?_cons, here, ih rest]

/-! ## Arenas that differ in one entry -/

/-- Whether an arena has the scopes of another and the same entries in them, apart from one. -/
structure Sets (owner : ScopeId) (key : Key) (entry : V ⊕ F) (before after : Arena V F) :
    Prop where
  depth : after.depth = before.depth
  parents : ∀ id, after.parent id = before.parent id
  here : after.entryIn owner key = some entry
  elsewhere : ∀ id other, id ≠ owner ∨ other ≠ key →
    after.entryIn id other = before.entryIn id other

namespace Sets

theorem ordered (sets : before.Sets owner key entry after) (ordered : before.Ordered) :
    after.Ordered := by
  apply ordered.of_parents
  intro id scope found
  rcases exists_scope_of_parent (sets.parents id).symm found with ⟨old, present, same⟩
  exact ⟨old, present, same.symm⟩

/-- The new entry is seen from the scopes that reach it. -/
theorem lookup_of_reaches (sets : before.Sets owner key entry after) (ordered : before.Ordered)
    (reaches : before.Reaches key start owner) : after.lookup start key = .ok (some entry) := by
  rcases reaches with ⟨nearer, outer, way, free⟩
  rw [(way.congr sets.parents).lookup (sets.ordered ordered), List.findSome?_append]
  cases found : nearer.findSome? (after.entryIn · key) with
  | none => simp [sets.here]
  | some value =>
      -- Only the scope itself can have the key now, if the way comes to it earlier already.
      rcases List.exists_of_findSome?_eq_some found with ⟨id, isNearer, present⟩
      by_cases same : id = owner
      · rw [same, sets.here] at present
        simp [present]
      · rw [sets.elsewhere id key (.inl same), free id isNearer] at present
        cases present

/-- From all other scopes, and under all other keys, nothing has changed. -/
theorem lookup_of_not_reaches (sets : before.Sets owner key entry after)
    (ordered : before.Ordered) (inside : start < before.depth) {other : Key}
    (unseen : other = key → ¬before.Reaches key start owner) :
    after.lookup start other = before.lookup start other := by
  rcases ordered.exists_chain inside with ⟨chain, way⟩
  rw [way.lookup ordered, (way.congr sets.parents).lookup (sets.ordered ordered)]
  congr 1
  by_cases same : other = key
  · subst same
    by_cases member : owner ∈ chain
    · rcases List.eq_append_cons_of_mem member with ⟨nearer, outer, rfl, notIn⟩
      -- Some scope before the changed one has the key, so the search ends there.
      have hidden : ¬∀ id ∈ nearer, before.entryIn id other = none :=
        fun free => unseen rfl ⟨nearer, outer, way, free⟩
      have agree : nearer.findSome? (after.entryIn · other) =
          nearer.findSome? (before.entryIn · other) := by
        apply findSome?_entryIn_congr
        intro id isNearer
        exact sets.elsewhere id other (.inl fun same => notIn (same ▸ isNearer))
      rw [List.findSome?_append, List.findSome?_append, agree]
      cases found : nearer.findSome? (before.entryIn · other) with
      | none => exact absurd (List.findSome?_eq_none_iff.mp found) hidden
      | some value => rfl
    · apply findSome?_entryIn_congr
      intro id onChain
      exact sets.elsewhere id other (.inl fun same => member (same ▸ onChain))
  · apply findSome?_entryIn_congr
    intro id _
    exact sets.elsewhere id other (.inr same)

end Sets

theorem sets_of_modify {change : Scope V F → Scope V F} {scope : Scope V F}
    (found : arena.scopes[owner]? = some scope)
    (parent : ∀ scope, (change scope).parent = scope.parent)
    (new : entryOf (change scope) key = some entry)
    (old : ∀ other, other ≠ key → entryOf (change scope) other = entryOf scope other) :
    arena.Sets owner key entry ⟨arena.scopes.modify owner change⟩ := by
  refine ⟨Array.size_modify .., ?_, ?_, ?_⟩
  · intro id
    simp only [Arena.parent, Arena.scope, Array.getElem?_modify]
    by_cases here : owner = id
    · subst here
      simp [found, parent, bind, Except.bind]
    · simp [here]
  · simp [entryIn, Array.getElem?_modify, found, new]
  · intro id other apart
    simp only [entryIn, Array.getElem?_modify]
    by_cases here : owner = id
    · subst here
      have different : other ≠ key := apart.resolve_left fun notHere => notHere rfl
      simp [found, old other different]
    · simp [here]

theorem sets_put {scope : Scope V F} (found : arena.scopes[id]? = some scope) (name : String)
    (value : V) : arena.Sets id (.ofVariable name) (.inl value) (arena.put id name value) := by
  apply sets_of_modify found
  · intro scope
    rfl
  · simp [entryOf, Table.find?_insert]
  · intro other different
    cases other with
    | ofVariable key =>
        have apart : name ≠ key := fun same => different (same ▸ rfl)
        simp [entryOf, Table.find?_insert, apart]
    | ofFunction key arity => rfl

theorem sets_putFunction {scope : Scope V F} (found : arena.scopes[id]? = some scope)
    (name : String) (arity : Nat) (function : F) :
    arena.Sets id (.ofFunction name arity) (.inr function)
      (arena.putFunction id (name, arity) function) := by
  apply sets_of_modify found
  · intro scope
    rfl
  · simp [entryOf, Table.find?_insert]
  · intro other different
    cases other with
    | ofVariable key => rfl
    | ofFunction key parameters =>
        have apart : (name, arity) ≠ (key, parameters) := by
          rintro ⟨⟩
          exact different rfl
        simp only [entryOf, Table.find?_insert, if_neg apart]

theorem sets_give {scope : Scope V F} {name : String} {old : V}
    (found : arena.scopes[owner]? = some scope) (has : scope.variableTable.find? name = some old)
    (value : V) :
    arena.Sets owner (.ofVariable name) (.inl value) (arena.give owner name value) := by
  apply sets_of_modify found
  · intro scope
    rfl
  · simp [entryOf, Table.find?_replace, has]
  · intro other different
    cases other with
    | ofVariable key =>
        have apart : name ≠ key := fun same => different (same ▸ rfl)
        simp [entryOf, Table.find?_replace, apart]
    | ofFunction key arity => rfl

/-- A search for a variable finds the nearest one, and the scope that has it. -/
theorem Ordered.search_eq_some_iff (ordered : arena.Ordered) (inside : id < arena.depth)
    {name : String} {value : V} :
    arena.search (·.variableTable.find? name) id = .ok (some (owner, value)) ↔
      arena.Nearest (.ofVariable name) id owner (.inl value) := by
  rcases ordered.exists_chain inside with ⟨chain, way⟩
  have entry_eq (other : ScopeId) : arena.entryIn other (.ofVariable name) =
      (arena.scopes[other]?.bind (·.variableTable.find? name)).map .inl := by
    simp only [entryIn]
    cases arena.scopes[other]? with
    | none => rfl
    | some scope => rfl
  rw [way.search ordered, Except.ok.injEq, List.findSome?_eq_some_iff]
  constructor
  · rintro ⟨nearer, other, outer, rfl, present, free⟩
    rcases Option.map_eq_some_iff.mp present with ⟨found, has, pair⟩
    cases pair
    refine ⟨⟨nearer, outer, way, ?_⟩, ?_⟩
    · intro id member
      rw [entry_eq, Option.map_eq_none_iff.mp (free id member), Option.map_none]
    · rw [entry_eq, has, Option.map_some]
  · rintro ⟨⟨nearer, outer, other, free⟩, present⟩
    rw [entry_eq] at present
    rcases Option.map_eq_some_iff.mp present with ⟨found, has, same⟩
    cases same
    refine ⟨nearer, owner, outer, way.unique other, by rw [has, Option.map_some], ?_⟩
    intro id member
    have missing := free id member
    rw [entry_eq] at missing
    rw [Option.map_eq_none_iff.mp missing, Option.map_none]

/-! ## Actions -/

end Arena

/-- What is added to a scope. -/
inductive Binding (V F : Type) where
  | ofVariable (name : String) (value : V)
  | ofFunction (name : String) (arity : Nat) (function : F)

namespace Binding

variable {V F : Type}

/-- The key under which something is added. -/
def key : Binding V F → Key
  | .ofVariable name _ => .ofVariable name
  | .ofFunction name arity _ => .ofFunction name arity

/-- The entry that is added. -/
def entry : Binding V F → V ⊕ F
  | .ofVariable _ value => .inl value
  | .ofFunction _ _ function => .inr function

/-- What is wrong with adding something to a scope that has its key. -/
def redeclared : Binding V F → Cause
  | .ofVariable name _ => .variableRedeclared name
  | .ofFunction name arity _ => .functionRedeclared name arity

end Binding

namespace Arena

variable {V F : Type} {arena after : Arena V F} {id owner : ScopeId}

/-- Adds something to a scope that does not have its key. -/
def add (arena : Arena V F) (id : ScopeId) (position : Position) :
    Binding V F → Except Halt (Arena V F)
  | .ofVariable name value => arena.addVariable id name value position
  | .ofFunction name arity function => arena.addFunction id name arity function position

/-- What may be done to an arena. -/
inductive Action (V F : Type) where
  /-- Enters a scope inside another one. -/
  | enter (parent : ScopeId)
  /-- Leaves a scope, and all that were entered after it. -/
  | release (id : ScopeId)
  /-- Adds something to a scope. -/
  | define (id : ScopeId) (binding : Binding V F) (position : Position)
  /-- Gives a new value to the variable that a name means in a scope. -/
  | write (id : ScopeId) (name : String) (value : V)

/-- Does something to an arena. What is refused leaves the arena as it is, for the reason given. -/
def act (arena : Arena V F) : Action V F → Arena V F × Option Halt
  | .enter parent => ((arena.push parent).1, none)
  | .release id => (arena.dropFrom id, none)
  | .define id binding position =>
    match arena.add id position binding with
    | .ok after => (after, none)
    | .error halt => (arena, some halt)
  | .write id name value =>
    match arena.assign id name value with
    | .ok (some after) => (after, none)
    | .ok none => (arena, none)
    | .error halt => (arena, some halt)

/-- The arenas that can be made. A scope is only entered inside one that is there. -/
inductive Reached : Arena V F → Prop
  | start (functions : List ((String × Nat) × F)) : Reached (.ofFunctions functions)
  | after {arena : Arena V F} (reached : Reached arena) (action : Action V F)
      (live : ∀ parent, action = .enter parent → parent < arena.depth) :
      Reached (arena.act action).1

/-- Something is added to a scope exactly if the scope does not have its key. -/
theorem add_cases (inside : id < arena.depth) (binding : Binding V F) (position : Position) :
    (arena.entryIn id binding.key ≠ none ∧
      arena.add id position binding =
        .error (.reported (.located binding.redeclared position))) ∨
    (arena.entryIn id binding.key = none ∧
      ∃ after, arena.add id position binding = .ok after ∧
        arena.Sets id binding.key binding.entry after) := by
  rcases exists_scope inside with ⟨scope, found⟩
  rw [entryIn_eq found]
  cases binding with
  | ofVariable name value =>
      cases has : scope.variableTable.find? name with
      | none =>
          refine .inr ⟨by simp [Binding.key, entryOf, has], _, ?_, sets_put found name value⟩
          exact addVariable_eq_ok_iff.mpr ⟨scope, found, has, rfl⟩
      | some old =>
          refine .inl ⟨by simp [Binding.key, entryOf, has], ?_⟩
          have taken : scope.variableTable.contains name = true := by simp [Table.contains, has]
          simp only [add, addVariable, scope_eq_ok found, bind, Except.bind, taken, if_true]
          rfl
  | ofFunction name arity function =>
      cases has : scope.functionTable.find? (name, arity) with
      | none =>
          refine .inr ⟨by simp [Binding.key, entryOf, has], _, ?_,
            sets_putFunction found name arity function⟩
          exact addFunction_eq_ok_iff.mpr ⟨scope, found, has, rfl⟩
      | some old =>
          refine .inl ⟨by simp [Binding.key, entryOf, has], ?_⟩
          have taken : scope.functionTable.contains (name, arity) = true := by
            simp [Table.contains, has]
          simp only [add, addFunction, scope_eq_ok found, bind, Except.bind, taken, if_true]
          rfl

/-- A write goes to the nearest variable of its name. -/
theorem assign_of_nearest (ordered : arena.Ordered) (inside : id < arena.depth) {name : String}
    {old : V} (nearest : arena.Nearest (.ofVariable name) id owner (.inl old)) (value : V) :
    ∃ after, arena.assign id name value = .ok (some after) ∧
      arena.Sets owner (.ofVariable name) (.inl value) after := by
  have searched := (ordered.search_eq_some_iff inside).mpr nearest
  rcases exists_of_searchWithin searched with ⟨scope, found, has⟩
  exact ⟨arena.give owner name value, assign_of_search searched, sets_give found has value⟩

/-! ## Arenas that can be made -/

/-- One action keeps scopes in order. -/
theorem Ordered.act (ordered : arena.Ordered) (action : Action V F)
    (live : ∀ parent, action = .enter parent → parent < arena.depth) :
    (arena.act action).1.Ordered := by
  cases action with
  | enter parent => exact ordered.push (live parent rfl)
  | release id =>
      by_cases atRoot : id = root
      · rw [Arena.act, Arena.dropFrom, if_pos atRoot]
        exact ordered
      · exact ordered.dropFrom atRoot
  | define id binding position =>
      simp only [Arena.act]
      cases added : arena.add id position binding with
      | error halt => exact ordered
      | ok after =>
          cases binding with
          | ofVariable name value =>
              rcases addVariable_eq_ok_iff.mp added with ⟨scope, found, _, rfl⟩
              exact (sets_put found name value).ordered ordered
          | ofFunction name arity function =>
              rcases addFunction_eq_ok_iff.mp added with ⟨scope, found, _, rfl⟩
              exact (sets_putFunction found name arity function).ordered ordered
  | write id name value =>
      simp only [Arena.act]
      cases searched : arena.search (·.variableTable.find? name) id with
      | error halt =>
          rw [Arena.assign, searched]
          exact ordered
      | ok place =>
          rcases place with _ | ⟨owner, old⟩
          · rw [assign_of_nowhere searched]
            exact ordered
          · rcases exists_of_searchWithin searched with ⟨scope, found, has⟩
            rw [assign_of_search searched]
            exact (sets_give found has value).ordered ordered

/-- So do all actions together. -/
theorem Reached.ordered (reached : arena.Reached) : arena.Ordered := by
  induction reached with
  | start functions => exact .ofFunctions functions
  | after _ action live ih => exact ih.act action live

/-- Whether an arena does what the nested environments of a program do. -/
structure Lexical (arena : Arena V F) : Prop where
  /-- Scopes other than the root have a parent, which is there and was entered before them. -/
  parents : ∀ id scope, id ≠ root → arena.scopes[id]? = some scope →
    ∃ parent, scope.parent = some parent ∧ parent < id ∧ parent < arena.depth
  /-- A key means what the nearest scope says that has it. -/
  lookups : ∀ id, id < arena.depth → ∃ chain, arena.Chain id chain ∧
    ∀ key, arena.lookup id key = .ok (chain.findSome? (arena.entryIn · key))
  /-- A scope refuses a key that it has. -/
  refuses : ∀ id, id < arena.depth → ∀ (binding : Binding V F) (position : Position),
    arena.entryIn id binding.key ≠ none →
      arena.act (.define id binding position) =
        (arena, some (.reported (.located binding.redeclared position)))
  /-- Any other key is added, and then means the new entry wherever the scope is the nearest one
  that has it. All else means what it meant. -/
  defines : ∀ id, id < arena.depth → ∀ (binding : Binding V F) (position : Position),
    arena.entryIn id binding.key = none →
      ∃ after, arena.act (.define id binding position) = (after, none) ∧
        arena.Sets id binding.key binding.entry after ∧ ∀ start, start < arena.depth →
          (arena.Reaches binding.key start id →
            after.lookup start binding.key = .ok (some binding.entry)) ∧
          ∀ key, (key = binding.key → ¬arena.Reaches key start id) →
            after.lookup start key = arena.lookup start key
  /-- A write changes the nearest variable of its name, in its own scope, and nothing else. -/
  writes : ∀ id, id < arena.depth → ∀ name value owner old,
    arena.Nearest (.ofVariable name) id owner (.inl old) →
      ∃ after, arena.act (.write id name value) = (after, none) ∧
        arena.Sets owner (.ofVariable name) (.inl value) after
  /-- Where a name means no variable, there is nothing to write to. -/
  idles : ∀ id, id < arena.depth → ∀ name value, arena.lookup id (.ofVariable name) = .ok none →
    arena.act (.write id name value) = (arena, none)

/-- All arenas that can be made are lexical environments. -/
theorem lexical_of_reached {V F : Type} {arena : Arena V F} (reached : arena.Reached) :
    arena.Lexical := by
  have ordered := reached.ordered
  refine ⟨?_, ?_, ?_, ?_, ?_, ?_⟩
  · intro id scope notRoot found
    rcases ordered.inner notRoot found with ⟨parent, up, below⟩
    exact ⟨parent, up, below, Nat.lt_trans below (lt_depth_of_scope found)⟩
  · intro id inside
    rcases ordered.exists_chain inside with ⟨chain, way⟩
    exact ⟨chain, way, way.lookup ordered⟩
  · intro id inside binding position taken
    rcases add_cases inside binding position with ⟨_, refused⟩ | ⟨free, _⟩
    · simp only [act, refused]
    · exact absurd free taken
  · intro id inside binding position free
    rcases add_cases inside binding position with ⟨taken, _⟩ | ⟨_, after, added, sets⟩
    · exact absurd free taken
    · refine ⟨after, by simp only [act, added], sets, fun start live => ⟨?_, ?_⟩⟩
      · exact sets.lookup_of_reaches ordered
      · intro key unseen
        exact sets.lookup_of_not_reaches ordered live fun same => same ▸ unseen same
  · intro id inside name value owner old nearest
    rcases assign_of_nearest ordered inside nearest value with ⟨after, assigned, sets⟩
    exact ⟨after, by simp only [act, assigned], sets⟩
  · intro id inside name value means
    rcases ordered.search (·.variableTable.find? name) inside with ⟨place, searched⟩
    simp only [lookup, findVariable_of_search searched, Except.map, Except.ok.injEq,
      Option.map_eq_none_iff] at means
    subst means
    simp only [act, assign_of_nowhere searched]

/-- Scopes inside each other, and one inside the root that was entered after them. A write from the
innermost of the first ones is seen in its parent, and not in the root or from the last one. -/
theorem lexical_of_reached_interleaved :
    let natives : Arena Nat String := .ofFunctions [(("print", 1), "native")]
    let global := (natives.act (.define root (.ofVariable "x" 1) .null)).1
    let nested := (((global.act (.enter root)).1.act (.enter 1)).1.act (.enter root)).1
    let shadowed := (nested.act (.define 1 (.ofVariable "x" 5) .null)).1
    let arena := (shadowed.act (.write 2 "x" 7)).1
    arena.Reached ∧ arena.Lexical ∧
      (arena.lookup 2 (.ofVariable "x")).toOption = some (some (.inl 7)) ∧
      (arena.lookup 3 (.ofVariable "x")).toOption = some (some (.inl 1)) ∧
      (arena.lookup root (.ofVariable "x")).toOption = some (some (.inl 1)) ∧
      (arena.lookup 3 (.ofFunction "print" 1)).toOption = some (some (.inr "native")) := by
  intro natives global nested shadowed arena
  have enters {before : Arena Nat String} {id : ScopeId} (reached : before.Reached)
      (live : id < before.depth) : (before.act (.enter id)).1.Reached := by
    apply reached.after
    rintro parent ⟨⟩
    exact live
  have named : global.Reached := .after (.start _) _ (by rintro parent ⟨⟩)
  have entered : nested.Reached :=
    enters (enters (enters named (by decide)) (by decide)) (by decide)
  have hidden : shadowed.Reached := entered.after _ (by rintro parent ⟨⟩)
  have reached : arena.Reached := hidden.after _ (by rintro parent ⟨⟩)
  refine ⟨reached, lexical_of_reached reached, ?_⟩
  decide +kernel

end Arena

end GradualScript
