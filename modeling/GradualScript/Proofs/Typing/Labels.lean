import GradualScript.Proofs.Grammar.Built
import GradualScript.Proofs.Grammar.Unlabelled
import GradualScript.Proofs.Scope.Environment
import GradualScript.Proofs.Typing.Accepted

/-!
# What a check writes down

A check goes through a tree and writes down types and the meaning of names, and gives the tree back
also where it stops midway. Two things are shown of every check. The tree is the one that was
checked, but for what was written down. And if nothing was wrong, nothing was left out: each node of
the tree is labelled, however deep it lies.

That a name is labelled with something of this name comes from the checker: it keeps everything
under its own name, which is said by `Arena.Keyed`.
-/

namespace GradualScript

/-! ## Labelled trees -/

/-- Whether the name in an expression, if it has one, is labelled with what it refers to. -/
def Expr.RefersTo : Expr → Prop
  | .access _ _ name binding | .element _ _ name binding _ =>
    ∃ found, binding = some found ∧ found.name = name
  | .call _ _ name binding arguments =>
    ∃ found, binding = some found ∧ found.name = name ∧ found.parameters.length = arguments.length
  | .literal .. | .group .. | .binary .. | .list .. => True

namespace Node

/-- Whether a node is labelled: an expression with its type and what its name refers to, a
declaration with what it declares. -/
def Labelled : Node → Prop
  | .global declared => ∃ found, declared.binding = some found ∧ found.name = declared.name ∧
      found.isMutable = declared.isMutable
  | .function declared => ∃ found, declared.binding = some found ∧ found.name = declared.name ∧
      found.arity = declared.arity
  | .statement (.declaration _ name _ _ binding) =>
      ∃ found, binding = some found ∧ found.name = name
  | .statement _ | .arm .. => True
  | .expression expr => (∃ ty, expr.ty = some ty) ∧ expr.RefersTo

/-- Whether a node is labelled, and so is every node below it. -/
inductive Full : Node → Prop
  | intro {node : Node} (labelled : node.Labelled) (below : ∀ child ∈ node.children, child.Full) :
      Full node

end Node

/-- Whether all statements of a body are labelled throughout. -/
def Stmt.AllFull (body : List Stmt) : Prop := ∀ statement ∈ body, (Node.statement statement).Full

/-- Whether all arms of a switch are labelled throughout. -/
def Cases.Full (cases : Cases) : Prop := ∀ arm ∈ cases.arms, arm.Full

theorem Program.Has.labelled {program : Program} {node : Node}
    (full : ∀ node ∈ program.nodes, node.Full) (has : program.Has node) : node.Labelled := by
  have isFull : node.Full := by
    induction has with
    | root isRoot => exact full _ isRoot
    | child _ isChild ih =>
        cases ih with
        | intro _ below => exact below _ isChild
  cases isFull with
  | intro labelled _ => exact labelled

/-! ## What a checker knows by name -/

/-- Whether a variable or a function belongs under a key. -/
def Key.Names : Key → Variable ⊕ Signature → Prop
  | .ofVariable name, .inl found => found.name = name
  | .ofFunction name arity, .inr found => found.name = name ∧ found.arity = arity
  | _, _ => False

/-- Whether every variable and function of an arena is found under its own name. -/
def Arena.Keyed (arena : Arena Variable Signature) : Prop :=
  ∀ id key entry, arena.entryIn id key = some entry → key.Names entry

namespace Arena.Keyed

variable {arena before after : Arena Variable Signature} {id : ScopeId} {name : String}

theorem of_sets {key : Key} {entry : Variable ⊕ Signature} (keyed : before.Keyed)
    (sets : before.Sets id key entry after) (names : key.Names entry) : after.Keyed := by
  intro other otherKey otherEntry present
  by_cases same : other = id ∧ otherKey = key
  · rcases same with ⟨rfl, rfl⟩
    rw [sets.here] at present
    cases present
    exact names
  · rw [sets.elsewhere other otherKey (Decidable.not_and_iff_or_not.mp same)] at present
    exact keyed other otherKey otherEntry present

theorem push (keyed : arena.Keyed) (parent : ScopeId) : (arena.push parent).1.Keyed := by
  intro id key entry present
  rw [entryIn, scopes_push] at present
  split at present
  · cases key <;> cases present
  · exact keyed id key entry present

theorem dropFrom (keyed : arena.Keyed) (id : ScopeId) : (arena.dropFrom id).Keyed := by
  by_cases atRoot : id = root
  · rw [Arena.dropFrom, if_pos atRoot]
    exact keyed
  · intro other key entry present
    rw [entryIn, scopes_dropFrom arena atRoot] at present
    split at present
    · exact keyed other key entry present
    · cases present

theorem findVariable (keyed : arena.Keyed) {found : Variable}
    (lookup : arena.findVariable id name = .ok (some found)) : found.name = name := by
  cases searched : arena.search (·.variableTable.find? name) id with
  | error halt =>
      rw [Arena.findVariable, searched] at lookup
      cases lookup
  | ok place =>
      rw [findVariable_of_search searched] at lookup
      rcases place with _ | ⟨owner, value⟩
      · cases lookup
      · cases lookup
        rcases exists_of_searchWithin searched with ⟨scope, present, has⟩
        apply keyed owner (.ofVariable name) (.inl value)
        rw [entryIn_eq present, entryOf, has, Option.map_some]

theorem findFunction (keyed : arena.Keyed) {arity : Nat} {found : Signature}
    (lookup : arena.findFunction id name arity = .ok (some found)) :
    found.name = name ∧ found.arity = arity := by
  cases searched : arena.search (·.functionTable.find? (name, arity)) id with
  | error halt =>
      rw [Arena.findFunction, searched] at lookup
      cases lookup
  | ok place =>
      rw [findFunction_of_search searched] at lookup
      rcases place with _ | ⟨owner, value⟩
      · cases lookup
      · cases lookup
        rcases exists_of_searchWithin searched with ⟨scope, present, has⟩
        apply keyed owner (.ofFunction name arity) (.inr value)
        rw [entryIn_eq present, entryOf, has, Option.map_some]

theorem addVariable (keyed : arena.Keyed) {binding : Variable} {position : Position}
    (added : arena.addVariable id binding.name binding position = .ok after) : after.Keyed := by
  rcases addVariable_eq_ok_iff.mp added with ⟨scope, found, _, rfl⟩
  exact keyed.of_sets (sets_put found _ _) rfl

theorem addFunction (keyed : arena.Keyed) {binding : Signature} {arity : Nat}
    {position : Position} (takes : binding.arity = arity)
    (added : arena.addFunction id binding.name arity binding position = .ok after) :
    after.Keyed := by
  rcases addFunction_eq_ok_iff.mp added with ⟨scope, found, _, rfl⟩
  exact keyed.of_sets (sets_putFunction found _ _ _) ⟨rfl, takes⟩

end Arena.Keyed

namespace Checker

theorem initial_keyed : initial.arena.Keyed := by
  have named : nativeSignatures.All fun key signature =>
      signature.name = key.1 ∧ signature.arity = key.2 :=
    .ofList (fun _ => ⟨rfl, rfl⟩) Native.all
  intro id key entry present
  rcases id with _ | id
  · cases key with
    | ofVariable name => cases present
    | ofFunction name arity =>
        rcases Option.map_eq_some_iff.mp present with ⟨found, has, rfl⟩
        exact named _ _ has
  · cases present

variable {checker : Checker}

theorem variableAt_name (keyed : checker.arena.Keyed) {name : String} {position : Position}
    {found : Variable} (lookup : checker.variableAt name position = .ok found) :
    found.name = name := by
  unfold variableAt at lookup
  generalize result : checker.arena.findVariable checker.current name = searched at lookup
  rcases searched with halt | _ | binding
  · cases lookup
  · cases lookup
  · cases lookup
    exact keyed.findVariable result

theorem functionAt_name (keyed : checker.arena.Keyed) {name : String} {arity : Nat}
    {position : Position} {found : Signature}
    (lookup : checker.functionAt name arity position = .ok found) :
    found.name = name ∧ found.arity = arity := by
  unfold functionAt at lookup
  generalize result : checker.arena.findFunction checker.current name arity = searched at lookup
  rcases searched with halt | _ | binding
  · cases lookup
  · cases lookup
  · cases lookup
    exact keyed.findFunction result

/-! ## Expressions -/

/-- Whether a check has only labelled a tree, and throughout if it has passed. -/
structure Labels {τ α : Type} (bare : τ → τ) (full : τ → Prop) (tree : τ)
    (checked : Checked τ α) : Prop where
  same : bare checked.1 = bare tree
  full : ∀ value, checked.2 = .ok value → full checked.1

namespace Labels

variable {τ α : Type} {bare : τ → τ} {full : τ → Prop} {tree : τ}

theorem passed {checked : τ} {value : α} (same : bare checked = bare tree)
    (isFull : full checked) : Labels bare full tree (checked, Except.ok value) :=
  ⟨same, fun _ _ => isFull⟩

theorem failed {checked : τ} {halt : Halt} (same : bare checked = bare tree) :
    Labels bare full tree (checked, (.error halt : Except Halt α)) := by
  refine ⟨same, ?_⟩
  intro value impossible
  cases impossible

/-- What a check comes to may be turned into something else. -/
theorem map {β : Type} {checked : Checked τ α} (labels : Labels bare full tree checked)
    (change : α → β) : Labels bare full tree (checked.1, checked.2.map change) := by
  rcases checked with ⟨checked, halt | value⟩
  · exact .failed labels.same
  · exact .passed labels.same (labels.full value rfl)

end Labels

/-- Whether a check has only labelled an expression. -/
abbrev LabelsExpr {α : Type} : Expr → Checked Expr α → Prop :=
  Labels (Expr.strip false) fun expr => (Node.expression expr).Full

/-- Whether a check has only labelled some expressions. -/
abbrev LabelsExprs {α : Type} : List Expr → Checked (List Expr) α → Prop :=
  Labels (Expr.stripAll false) fun exprs => ∀ expr ∈ exprs, (Node.expression expr).Full

mutual

theorem checkExpr_labels (keyed : checker.arena.Keyed) (expr : Expr) :
    LabelsExpr expr (checker.checkExpr expr) := by
  cases expr with
  | literal span label value =>
      rw [checkExpr]
      exact .passed rfl (.intro ⟨⟨_, rfl⟩, trivial⟩ (by simp [Node.children, Node.ofExpr]))
  | group span label inner =>
      rw [checkExpr]
      have labels := checkExpr_labels keyed inner
      generalize checker.checkExpr inner = checked at labels ⊢
      rcases checked with ⟨inner, halt | found⟩
      · split
        · exact .failed (by simp only [Expr.strip, labels.same])
        · exact .failed rfl
      · split
        · apply Labels.passed
          · simp only [Expr.strip, kept, labels.same]
          · refine .intro ⟨⟨_, rfl⟩, trivial⟩ ?_
            simpa [Node.children, Node.ofExpr] using labels.full _ rfl
        · exact .failed rfl
  | binary span label operator left right =>
      rw [checkExpr]
      have leftLabels := checkExpr_labels keyed left
      have rightLabels := checkExpr_labels keyed right
      generalize checker.checkExpr left = checked at leftLabels ⊢
      rcases checked with ⟨left, halt | leftType⟩
      · exact .failed (by simp only [Expr.strip, leftLabels.same])
      generalize checker.checkExpr right = checked at rightLabels ⊢
      rcases checked with ⟨right, halt | rightType⟩
      · exact .failed (by simp only [Expr.strip, leftLabels.same, rightLabels.same])
      simp only
      cases Ty.operationAt operator leftType rightType left.start with
      | error halt => exact .failed (by simp only [Expr.strip, leftLabels.same, rightLabels.same])
      | ok found =>
          apply Labels.passed
          · simp only [Expr.strip, kept, leftLabels.same, rightLabels.same]
          · refine .intro ⟨⟨_, rfl⟩, trivial⟩ ?_
            simpa [Node.children, Node.ofExpr] using
              And.intro (leftLabels.full _ rfl) (rightLabels.full _ rfl)
  | access span label name binding =>
      rw [checkExpr]
      cases lookup : checker.variableAt name span.start with
      | error halt => exact .failed rfl
      | ok found =>
          refine .passed rfl (.intro ⟨⟨_, rfl⟩, ?_⟩ (by simp [Node.children, Node.ofExpr]))
          exact ⟨found, rfl, variableAt_name keyed lookup⟩
  | element span label name binding offset =>
      rw [checkExpr]
      have labels := checkExpr_labels keyed offset
      cases lookup : checker.variableAt name span.start with
      | error halt => exact .failed rfl
      | ok found =>
          generalize checker.checkExpr offset = checked at labels ⊢
          rcases checked with ⟨offset, halt | offsetType⟩
          · exact .failed (by simp only [Expr.strip, labels.same])
          simp only
          cases Ty.integer.expect offsetType offset.start *> found.ty.elementAt span.start with
          | error halt => exact .failed (by simp only [Expr.strip, labels.same])
          | ok element =>
              apply Labels.passed
              · simp only [Expr.strip, kept, labels.same]
              · refine .intro ⟨⟨_, rfl⟩, found, rfl, variableAt_name keyed lookup⟩ ?_
                simpa [Node.children, Node.ofExpr] using labels.full _ rfl
  | call span label name binding arguments =>
      rw [checkExpr]
      have labels := checkExprs_labels keyed arguments
      generalize checker.checkExprs arguments = checked at labels ⊢
      rcases checked with ⟨arguments, halt | types⟩
      · exact .failed (by simp only [Expr.strip, labels.same])
      simp only
      cases lookup : checker.functionAt name arguments.length span.start with
      | error halt => exact .failed (by simp only [Expr.strip, labels.same])
      | ok found =>
          simp only
          cases expectArguments found.parameters (types.zip (arguments.map Expr.start)) with
          | error halt => exact .failed (by simp only [Expr.strip, labels.same])
          | ok _ =>
              apply Labels.passed
              · simp only [Expr.strip, kept, labels.same]
              · refine .intro ⟨⟨_, rfl⟩, found, rfl, functionAt_name keyed lookup⟩ ?_
                simpa [Node.children, Node.ofExpr] using labels.full _ rfl
  | list span label elements =>
      rw [checkExpr]
      have labels := checkExprs_labels keyed elements
      generalize checker.checkExprs elements = checked at labels ⊢
      rcases checked with ⟨elements, halt | types⟩
      · exact .failed (by simp only [Expr.strip, labels.same])
      · apply Labels.passed
        · simp only [Expr.strip, kept, labels.same]
        · refine .intro ⟨⟨_, rfl⟩, trivial⟩ ?_
          simpa [Node.children, Node.ofExpr] using labels.full _ rfl

theorem checkExprs_labels (keyed : checker.arena.Keyed) (exprs : List Expr) :
    LabelsExprs exprs (checker.checkExprs exprs) := by
  cases exprs with
  | nil =>
      rw [checkExprs]
      exact .passed rfl (by simp)
  | cons expr others =>
      rw [checkExprs]
      have labels := checkExpr_labels keyed expr
      have othersLabels := checkExprs_labels keyed others
      generalize checker.checkExpr expr = checked at labels ⊢
      rcases checked with ⟨expr, halt | ty⟩
      · exact .failed (by simp only [Expr.stripAll, labels.same])
      generalize checker.checkExprs others = checked at othersLabels ⊢
      rcases checked with ⟨others, halt | types⟩
      · exact .failed (by simp only [Expr.stripAll, labels.same, othersLabels.same])
      · apply Labels.passed
        · simp only [Expr.stripAll, labels.same, othersLabels.same]
        · exact List.forall_mem_cons.mpr ⟨labels.full _ rfl, othersLabels.full _ rfl⟩

end

theorem checkAgainst_labels (keyed : checker.arena.Keyed) (target : Ty) (expr : Expr) :
    LabelsExpr expr (checker.checkAgainst target expr) := by
  have labels := checkExpr_labels keyed expr
  unfold checkAgainst
  generalize checker.checkExpr expr = checked at labels ⊢
  rcases checked with ⟨expr, halt | ty⟩
  · exact .failed labels.same
  · exact ⟨labels.same, fun _ _ => labels.full _ rfl⟩

/-! ## Statements -/

/-- Whether a check has only labelled a tree, and the checker still has everything under its own
name. -/
structure Writes {τ : Type} (bare : τ → τ) (full : τ → Prop) (tree : τ) (step : Step τ) :
    Prop where
  keyed : step.1.arena.Keyed
  labels : Labels bare full tree step.2

/-- Whether a check has only labelled a statement. -/
abbrev WritesStmt : Stmt → Step Stmt → Prop :=
  Writes (Stmt.strip false) fun statement => (Node.statement statement).Full

/-- Whether a check has only labelled some statements. -/
abbrev WritesStmts : List Stmt → Step (List Stmt) → Prop :=
  Writes (Stmt.stripAll false) Stmt.AllFull

theorem inScope_writes {τ : Type} {bare : τ → τ} {full : τ → Prop} {tree : τ}
    {check : Checker → Step τ} (keyed : checker.arena.Keyed)
    (writes : ∀ inner : Checker, inner.arena.Keyed → Writes bare full tree (check inner)) :
    Writes bare full tree (checker.inScope check) := by
  unfold inScope
  have inside := writes checker.enter.1 (keyed.push checker.current)
  rcases ran : check checker.enter.1 with ⟨inner, result, outcome⟩
  rw [ran] at inside
  simp only [ran]
  cases left : inner.leave checker.enter.2 with
  | error halt => exact ⟨inside.keyed, .failed inside.labels.same⟩
  | ok outer =>
      unfold leave at left
      cases found : inner.arena.parent checker.enter.2 with
      | error halt =>
          rw [found] at left
          cases left
      | ok parent =>
          rw [found] at left
          cases left
          exact ⟨inside.keyed.dropFrom _, inside.labels⟩

theorem declare_keyed (keyed : checker.arena.Keyed) {binding : Variable} {position : Position}
    {after : Checker} (declared : checker.declare binding position = .ok after) :
    after.arena.Keyed := by
  unfold declare at declared
  cases added : checker.arena.addVariable checker.current binding.name binding position with
  | error halt =>
      rw [added] at declared
      cases declared
  | ok arena =>
      rw [added] at declared
      cases declared
      exact keyed.addVariable added

/-- Whether a check has only labelled an initial value, if there is one. -/
abbrev LabelsInitial {α : Type} : Option Expr → Checked (Option Expr) α → Prop :=
  Labels (Option.map (Expr.strip false)) fun initializer =>
    ∀ expr, initializer = some expr → (Node.expression expr).Full

theorem LabelsExpr.initial {α : Type} {expr : Expr} {checked : Checked Expr α}
    (labels : LabelsExpr expr checked) : LabelsInitial (some expr) (some checked.1, checked.2) := by
  refine ⟨by simp only [Option.map_some, labels.same], ?_⟩
  rintro value passed _ ⟨⟩
  exact labels.full value passed

theorem checkInitializer_labels (keyed : checker.arena.Keyed) (name : String)
    (declared : Option Ty) (initializer : Option Expr) (position : Position) :
    LabelsInitial initializer (checker.checkInitializer name declared initializer position) := by
  rcases declared with _ | declared <;> rcases initializer with _ | initializer
  · exact .failed rfl
  · exact LabelsExpr.initial (checkExpr_labels keyed initializer)
  · exact .passed rfl (by simp)
  · exact LabelsExpr.initial ((checkAgainst_labels keyed declared initializer).map _)

theorem checkDeclaration_writes (keyed : checker.arena.Keyed) (span : Span) (name : String)
    (typeName : Option String) (initializer : Option Expr) (binding : Option Variable) :
    WritesStmt (.declaration span name typeName initializer binding)
      (checker.checkDeclaration span name typeName initializer binding) := by
  unfold checkDeclaration
  cases typeName.mapM (resolve · span.start) with
  | error halt => exact ⟨keyed, .failed rfl⟩
  | ok declared =>
      have labels := checkInitializer_labels keyed name declared initializer span.start
      simp only
      generalize checker.checkInitializer name declared initializer span.start = checked
        at labels ⊢
      rcases checked with ⟨initializer, halt | ty⟩
      · exact ⟨keyed, .failed (by simp only [Stmt.strip, labels.same])⟩
      · simp only
        cases added : checker.declare ⟨name, ty, true⟩ span.start with
        | error halt => exact ⟨keyed, .failed (by simp only [Stmt.strip, labels.same])⟩
        | ok after =>
            refine ⟨declare_keyed keyed added, .passed ?_ (.intro ⟨_, rfl, rfl⟩ ?_)⟩
            · simp only [Stmt.strip, kept, labels.same]
            · simpa [Node.children, Node.ofStmt] using labels.full _ rfl

theorem checkAssignment_labels (keyed : checker.arena.Keyed) (span : Span)
    (receiver value : Expr) :
    Labels (Stmt.strip false) (fun statement => (Node.statement statement).Full)
      (.assignment span receiver value) (checker.checkAssignment span receiver value) := by
  unfold checkAssignment
  have received := checkExpr_labels keyed receiver
  generalize checker.checkExpr receiver = checked at received ⊢
  rcases checked with ⟨receiver, halt | target⟩
  · exact .failed (by simp only [Stmt.strip, received.same])
  simp only
  cases expectMutable receiver with
  | error halt => exact .failed (by simp only [Stmt.strip, received.same])
  | ok _ =>
      have labels := checkAgainst_labels keyed target value
      simp only
      generalize checker.checkAgainst target value = checked at labels ⊢
      rcases checked with ⟨value, outcome⟩
      refine ⟨by simp only [Stmt.strip, received.same, labels.same], ?_⟩
      intro result passed
      refine .intro trivial ?_
      simpa [Node.children, Node.ofStmt] using
        And.intro (received.full _ rfl) (labels.full result passed)

mutual

theorem checkStmt_writes {checker : Checker} (keyed : checker.arena.Keyed) (statement : Stmt) :
    WritesStmt statement (checker.checkStmt statement) := by
  cases statement with
  | expression span expr =>
      rw [checkStmt]
      have labels := checkExpr_labels keyed expr
      split
      · generalize checker.checkExpr expr = checked at labels ⊢
        rcases checked with ⟨expr, halt | ty⟩
        · exact ⟨keyed, .failed (by simp only [Stmt.strip, labels.same])⟩
        · refine ⟨keyed, .passed (by simp only [Stmt.strip, labels.same]) (.intro trivial ?_)⟩
          simpa [Node.children, Node.ofStmt] using labels.full _ rfl
      · exact ⟨keyed, .failed rfl⟩
  | declaration span name typeName initializer binding =>
      rw [checkStmt]
      exact checkDeclaration_writes keyed span name typeName initializer binding
  | assignment span receiver value =>
      rw [checkStmt]
      exact ⟨keyed, checkAssignment_labels keyed span receiver value⟩
  | branch span condition thenBody elseBody =>
      rw [checkStmt]
      have labels := checkAgainst_labels keyed .boolean condition
      generalize checker.checkAgainst .boolean condition = checked at labels ⊢
      rcases checked with ⟨condition, halt | _⟩
      · exact ⟨keyed, .failed (by simp only [Stmt.strip, labels.same])⟩
      have thenWrites := inScope_writes keyed fun inner known => checkStmts_writes known thenBody
      simp only
      generalize checker.inScope (checkStmts · thenBody) = step at thenWrites ⊢
      rcases step with ⟨middle, thenBody, halt | _⟩
      · refine ⟨thenWrites.keyed, .failed ?_⟩
        simp only [Stmt.strip, labels.same, thenWrites.labels.same]
      have elseWrites :=
        inScope_writes thenWrites.keyed fun inner known => checkStmts_writes known elseBody
      simp only
      generalize middle.inScope (checkStmts · elseBody) = step at elseWrites ⊢
      rcases step with ⟨after, elseBody, outcome⟩
      refine ⟨elseWrites.keyed, ?_, ?_⟩
      · simp only [Stmt.strip, labels.same, thenWrites.labels.same, elseWrites.labels.same]
      · intro result passed
        refine .intro trivial ?_
        simp only [Node.children, Node.ofStmt, List.forall_mem_cons, List.forall_mem_append,
          List.forall_mem_map]
        exact ⟨labels.full _ rfl, thenWrites.labels.full _ rfl, elseWrites.labels.full _ passed⟩
  | switch span subject cases =>
      rw [checkStmt]
      have labels := checkExpr_labels keyed subject
      generalize checker.checkExpr subject = checked at labels ⊢
      rcases checked with ⟨subject, halt | ty⟩
      · exact ⟨keyed, .failed (by simp only [Stmt.strip, labels.same])⟩
      have writes := checkCases_writes keyed ty cases
      simp only
      generalize checkCases checker ty cases = step at writes ⊢
      rcases step with ⟨after, cases, outcome⟩
      refine ⟨writes.keyed, by simp only [Stmt.strip, labels.same, writes.labels.same], ?_⟩
      intro result passed
      refine .intro trivial (List.forall_mem_cons.mpr ?_)
      exact ⟨labels.full _ rfl, writes.labels.full result passed⟩
  | loop span condition body =>
      rw [checkStmt]
      have labels := checkAgainst_labels keyed .boolean condition
      generalize checker.checkAgainst .boolean condition = checked at labels ⊢
      rcases checked with ⟨condition, halt | _⟩
      · exact ⟨keyed, .failed (by simp only [Stmt.strip, labels.same])⟩
      have writes := inScope_writes keyed fun inner known => checkStmts_writes known body
      simp only
      generalize checker.inScope (checkStmts · body) = step at writes ⊢
      rcases step with ⟨after, body, outcome⟩
      refine ⟨writes.keyed, by simp only [Stmt.strip, labels.same, writes.labels.same], ?_⟩
      intro result passed
      refine .intro trivial ?_
      simp only [Node.children, Node.ofStmt, List.forall_mem_cons, List.forall_mem_map]
      exact ⟨labels.full _ rfl, writes.labels.full result passed⟩
  | result span value =>
      rw [checkStmt]
      have labels := checkAgainst_labels keyed checker.returnType value
      generalize checker.checkAgainst checker.returnType value = checked at labels ⊢
      rcases checked with ⟨value, outcome⟩
      refine ⟨keyed, by simp only [Stmt.strip, labels.same], ?_⟩
      intro result passed
      refine .intro trivial ?_
      simpa [Node.children, Node.ofStmt] using labels.full result passed

theorem checkCases_writes {checker : Checker} (keyed : checker.arena.Keyed) (subject : Ty)
    (cases : Cases) :
    Writes (Cases.strip false) Cases.Full cases (checkCases checker subject cases) := by
  cases cases with
  | default span body =>
      rw [checkCases]
      have writes := inScope_writes keyed fun inner known => checkStmts_writes known body
      generalize checker.inScope (checkStmts · body) = step at writes ⊢
      rcases step with ⟨after, body, outcome⟩
      refine ⟨writes.keyed, by simp only [Cases.strip, writes.labels.same], ?_⟩
      intro result passed
      refine List.forall_mem_singleton.mpr (.intro trivial ?_)
      simpa [Node.children, Stmt.AllFull] using writes.labels.full result passed
  | case span value body others =>
      rw [checkCases]
      have labels := checkAgainst_labels keyed subject value
      generalize checker.checkAgainst subject value = checked at labels ⊢
      rcases checked with ⟨value, halt | _⟩
      · exact ⟨keyed, .failed (by simp only [Cases.strip, labels.same])⟩
      have writes := inScope_writes keyed fun inner known => checkStmts_writes known body
      simp only
      generalize checker.inScope (checkStmts · body) = step at writes ⊢
      rcases step with ⟨middle, body, halt | _⟩
      · refine ⟨writes.keyed, .failed ?_⟩
        simp only [Cases.strip, labels.same, writes.labels.same]
      have othersWrite := checkCases_writes writes.keyed subject others
      simp only
      generalize checkCases middle subject others = step at othersWrite ⊢
      rcases step with ⟨after, others, outcome⟩
      refine ⟨othersWrite.keyed, ?_, ?_⟩
      · simp only [Cases.strip, labels.same, writes.labels.same, othersWrite.labels.same]
      · intro result passed
        refine List.forall_mem_cons.mpr ⟨.intro trivial ?_, othersWrite.labels.full result passed⟩
        simp only [Node.children, Option.toList_some, List.map_cons, List.map_nil,
          List.forall_mem_append, List.forall_mem_singleton, List.forall_mem_map]
        exact ⟨labels.full _ rfl, writes.labels.full _ rfl⟩

theorem checkStmts_writes {checker : Checker} (keyed : checker.arena.Keyed)
    (statements : List Stmt) : WritesStmts statements (checker.checkStmts statements) := by
  cases statements with
  | nil =>
      rw [checkStmts]
      exact ⟨keyed, .passed rfl (by simp [Stmt.AllFull])⟩
  | cons statement others =>
      rw [checkStmts]
      have writes := checkStmt_writes keyed statement
      generalize checker.checkStmt statement = step at writes ⊢
      rcases step with ⟨middle, statement, halt | _⟩
      · exact ⟨writes.keyed, .failed (by simp only [Stmt.stripAll, writes.labels.same])⟩
      have othersWrite := checkStmts_writes writes.keyed others
      simp only
      generalize middle.checkStmts others = step at othersWrite ⊢
      rcases step with ⟨after, others, outcome⟩
      refine ⟨othersWrite.keyed, ?_, ?_⟩
      · simp only [Stmt.stripAll, writes.labels.same, othersWrite.labels.same]
      · intro result passed
        exact List.forall_mem_cons.mpr
          ⟨writes.labels.full _ rfl, othersWrite.labels.full result passed⟩

end

/-! ## Programs -/

theorem checkGlobalValue_labels (keyed : checker.arena.Keyed) (declared : Ty)
    (initializer : Option Expr) :
    LabelsInitial initializer (checker.checkGlobalValue declared initializer) := by
  rcases initializer with _ | initializer
  · exact .passed rfl (by simp)
  · cases initializer with
    | list span label elements =>
        have labels := checkExprs_labels keyed elements
        rw [checkGlobalValue]
        generalize checker.checkExprs elements = checked at labels ⊢
        rcases checked with ⟨elements, halt | types⟩
        · exact .failed (by simp only [Option.map_some, Expr.strip, labels.same])
        simp only
        cases expectElements declared elements types with
        | error halt =>
            exact .failed (by simp only [Option.map_some, Expr.strip, kept, labels.same])
        | ok _ =>
            apply Labels.passed
            · simp only [Option.map_some, Expr.strip, kept, labels.same]
            · rintro _ ⟨⟩
              refine .intro ⟨⟨_, rfl⟩, trivial⟩ ?_
              simpa [Node.children, Node.ofExpr] using labels.full _ rfl
    | _ => exact LabelsExpr.initial ((checkAgainst_labels keyed declared _).map _)

theorem declareGlobal_keyed (keyed : checker.arena.Keyed) {known : Option Variable}
    {binding : Variable} {position : Position} {after : Checker}
    (declared : checker.declareGlobal known binding position = .ok after) :
    after.arena.Keyed := by
  simp only [declareGlobal, bind, Except.bind, pure, Except.pure] at declared
  split at declared
  · cases declared
  · split at declared
    · cases declared
      exact keyed
    · split at declared
      · cases declared
      · rename_i added
        cases declared
        exact keyed.addVariable added

theorem declareSignature_keyed (keyed : checker.arena.Keyed) {known : Option Signature}
    {binding : Signature} {arity : Nat} {position : Position} {after : Checker}
    (takes : binding.arity = arity)
    (declared : checker.declareSignature known binding arity position = .ok after) :
    after.arena.Keyed := by
  simp only [declareSignature, bind, Except.bind, pure, Except.pure] at declared
  split at declared
  · cases declared
  · split at declared
    · cases declared
      exact keyed
    · split at declared
      · cases declared
      · rename_i added
        cases declared
        exact keyed.addFunction takes added

theorem checkGlobal_writes (keyed : checker.arena.Keyed) (global : Global) :
    Writes (Global.strip false) (fun global => (Node.global global).Full) global
      (checker.checkGlobal global) := by
  unfold checkGlobal
  cases resolve global.typeName global.span.start with
  | error halt => exact ⟨keyed, .failed rfl⟩
  | ok declared =>
      have labels := checkGlobalValue_labels keyed declared global.initializer
      simp only
      generalize checker.checkGlobalValue declared global.initializer = checked at labels ⊢
      rcases checked with ⟨initializer, halt | ty⟩
      · exact ⟨keyed, .failed (by simp only [Global.strip, labels.same])⟩
      simp only
      cases added : checker.declareGlobal global.binding ⟨global.name, ty, global.isMutable⟩
          global.span.start with
      | error halt => exact ⟨keyed, .failed (by simp only [Global.strip, labels.same])⟩
      | ok after =>
          refine ⟨declareGlobal_keyed keyed added, .passed ?_ (.intro ⟨_, rfl, rfl, rfl⟩ ?_)⟩
          · simp only [Global.strip, kept, labels.same]
          · simpa [Node.children] using labels.full _ rfl

theorem checkHeading_writes (keyed : checker.arena.Keyed) (function : Function) :
    Writes (Function.strip false) (fun function => (Node.function function).Labelled) function
      (checker.checkHeading function) := by
  unfold checkHeading
  cases stated : signatureOf function with
  | error halt => exact ⟨keyed, .failed rfl⟩
  | ok found =>
      rcases signatureOf_ok stated with ⟨found_eq, takes⟩
      simp only
      cases added : checker.declareSignature function.binding found function.arity
          function.span.start with
      | error halt => exact ⟨keyed, .failed rfl⟩
      | ok after =>
          refine ⟨declareSignature_keyed keyed takes added, .passed rfl ⟨found, rfl, ?_, takes⟩⟩
          rw [found_eq]

theorem declareParameters_keyed (keyed : checker.arena.Keyed) (position : Position)
    (parameters : List Parameter) :
    (declareParameters position checker parameters).1.arena.Keyed := by
  induction parameters generalizing checker with
  | nil => exact keyed
  | cons parameter others ih =>
      unfold declareParameters
      cases declared : checker.declare ⟨parameter.name, .any, true⟩ position with
      | error halt => exact keyed
      | ok after => exact ih (declare_keyed keyed declared)

theorem checkBody_writes (keyed : checker.arena.Keyed) (function : Function)
    (labelled : (Node.function function).Labelled) :
    Writes (Function.strip false) (fun function => (Node.function function).Full) function
      (checker.checkBody function) := by
  unfold checkBody
  refine inScope_writes keyed fun inner known => ?_
  have declared := declareParameters_keyed known function.span.start function.parameters
  generalize declareParameters function.span.start inner function.parameters = outcome at declared ⊢
  rcases outcome with ⟨inner, halt | _⟩
  · exact ⟨declared, .failed rfl⟩
  have writes := checkStmts_writes declared function.body
  simp only
  generalize inner.checkStmts function.body = step at writes ⊢
  rcases step with ⟨after, body, outcome⟩
  refine ⟨writes.keyed, by simp only [Function.strip, writes.labels.same], ?_⟩
  intro result passed
  refine .intro labelled ?_
  simpa [Node.children, Stmt.AllFull] using writes.labels.full result passed

theorem checkEach_writes {τ : Type} {bare : τ → τ} {ready full : τ → Prop}
    {check : Checker → τ → Step τ}
    (each : ∀ (checker : Checker) (tree : τ), checker.arena.Keyed → ready tree →
      Writes bare full tree (check checker tree))
    (keyed : checker.arena.Keyed) {trees : List τ} (allReady : ∀ tree ∈ trees, ready tree) :
    Writes (List.map bare) (fun trees => ∀ tree ∈ trees, full tree) trees
      (checkEach check checker trees) := by
  induction trees generalizing checker with
  | nil => exact ⟨keyed, .passed rfl (by simp)⟩
  | cons tree others ih =>
      rcases List.forall_mem_cons.mp allReady with ⟨isReady, othersReady⟩
      unfold checkEach
      have writes := each checker tree keyed isReady
      generalize check checker tree = step at writes ⊢
      rcases step with ⟨middle, tree, halt | _⟩
      · exact ⟨writes.keyed, .failed (by simp only [List.map_cons, writes.labels.same])⟩
      have othersWrite := ih writes.keyed othersReady
      simp only
      generalize checkEach check middle others = step at othersWrite ⊢
      rcases step with ⟨after, others, outcome⟩
      refine ⟨othersWrite.keyed, ?_, ?_⟩
      · simp only [List.map_cons, writes.labels.same, othersWrite.labels.same]
      · intro result passed
        exact List.forall_mem_cons.mpr
          ⟨writes.labels.full _ rfl, othersWrite.labels.full result passed⟩

theorem checkProgram_writes (keyed : checker.arena.Keyed) (program : Program) :
    Writes Program.bare (fun program => ∀ node ∈ program.nodes, node.Full) program
      (checker.checkProgram program) := by
  unfold checkProgram
  have anything {τ : Type} (trees : List τ) : ∀ tree ∈ trees, True := fun _ _ => trivial
  have onGlobals := checkEach_writes (fun _ global known _ => checkGlobal_writes known global) keyed
    (anything program.globals)
  generalize checkEach checkGlobal checker program.globals = step at onGlobals ⊢
  rcases step with ⟨first, globals, halt | _⟩
  · refine ⟨onGlobals.keyed, .failed ?_⟩
    simp only [Program.bare, Program.strip, onGlobals.labels.same]
  have onHeadings := checkEach_writes (fun _ function known _ => checkHeading_writes known function)
    onGlobals.keyed (anything program.functions)
  simp only
  generalize checkEach checkHeading first program.functions = step at onHeadings ⊢
  rcases step with ⟨second, functions, halt | _⟩
  · refine ⟨onHeadings.keyed, .failed ?_⟩
    simp only [Program.bare, Program.strip, onGlobals.labels.same, onHeadings.labels.same]
  have onBodies := checkEach_writes (fun _ function known => checkBody_writes known function)
    onHeadings.keyed (onHeadings.labels.full _ rfl)
  simp only
  generalize checkEach checkBody second functions = step at onBodies ⊢
  have same {third : Checker} {bodies : List Function} {outcome : Except Halt Unit}
      (writes : Writes (List.map (Function.strip false))
        (fun functions => ∀ function ∈ functions, (Node.function function).Full) functions
        (third, bodies, outcome)) : Program.bare ⟨globals, bodies⟩ = program.bare := by
    simp only [Program.bare, Program.strip, onGlobals.labels.same, writes.labels.same,
      onHeadings.labels.same]
  rcases step with ⟨third, bodies, halt | _⟩
  · exact ⟨onBodies.keyed, .failed (same onBodies)⟩
  · refine ⟨onBodies.keyed, same onBodies, ?_⟩
    intro _ _
    simp only [Program.nodes, List.forall_mem_append, List.forall_mem_map]
    exact ⟨onGlobals.labels.full _ rfl, onBodies.labels.full _ rfl⟩

end Checker

namespace Program

/-- Checking a program that was read changes nothing but labels, whether it passes or not. A program
that passes is labelled throughout. -/
theorem check_labels {source file : String} {program : Program}
    (read : Script.read source file = .ok program) :
    program.check.1.bare = program ∧
      (program.check.2 = .ok () → ∀ node, program.check.1.Has node → node.Labelled) := by
  have labels := (Checker.checkProgram_writes Checker.initial_keyed program).labels
  constructor
  · unfold Script.read at read
    cases tokenized : Script.tokens source file with
    | error halt =>
        rw [tokenized] at read
        cases read
    | ok tokens =>
        rw [tokenized] at read
        exact labels.same.trans (Program.bare_of_parse read)
  · intro passed node has
    exact has.labelled (labels.full () passed)

/-- A program that passes, and one whose check stops inside its function, after the global is
labelled. -/
theorem check_labels_passing_and_stopped :
    let passing := "LIST xs: Integer = [1, 2]; FUN f(n: Any): Any DO RETURN n; END " ++
      "FUN main(): Integer DO LET y = (1 + 2) * f(xs[0]); SWITCH y CASE 3: print(y); " ++
      "DEFAULT xs[1] = 3; END RETURN 0; END"
    let stopped := "VAR x: Integer = 1; FUN main(): Integer DO RETURN x + z; END"
    (∃ program, Script.read passing "" = .ok program ∧ program.check.2 = .ok () ∧
      program.check.1.bare = program ∧ ∀ node, program.check.1.Has node → node.Labelled) ∧
    ∃ program, Script.read stopped "" = .ok program ∧ program.check.2 ≠ .ok () ∧
      program.check.1.globals.all (·.binding.isSome) = true ∧ program.check.1.bare = program := by
  intro passing stopped
  have passes : ((Script.read passing "").toOption.any fun program =>
      decide (program.check.2.toOption = some ())) = true := by decide +kernel
  have stops : ((Script.read stopped "").toOption.any fun program =>
      decide (program.check.2.toOption = none) &&
        program.check.1.globals.all (·.binding.isSome)) = true := by decide +kernel
  constructor
  · rcases exists_ok_of_any passes with ⟨program, read, passed⟩
    rcases check_labels read with ⟨same, labelled⟩
    have isOk : program.check.2 = .ok () := by
      generalize program.check.2 = outcome at passed
      cases outcome with
      | ok value => rfl
      | error halt => cases of_decide_eq_true passed
    exact ⟨program, read, isOk, same, labelled isOk⟩
  · rcases exists_ok_of_any stops with ⟨program, read, tested⟩
    rcases Bool.and_eq_true_iff.mp tested with ⟨isError, bound⟩
    refine ⟨program, read, ?_, bound, (check_labels read).1⟩
    intro isOk
    rw [isOk] at isError
    cases of_decide_eq_true isError

end Program

end GradualScript
