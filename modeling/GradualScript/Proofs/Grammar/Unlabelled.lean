import GradualScript.Proofs.Grammar.Exactness
import GradualScript.Proofs.Grammar.Reading
import GradualScript.Proofs.Program.Annotations

/-!
# Trees as they are read

Reading a program finds out nothing about its types and names, so a tree that has just been read is
the same as itself without annotations. Expressions are followed through the steps that read them;
for everything else the rules of `Written` show it.
-/

namespace GradualScript

theorem Expr.stripAll_of_forall {exprs : List Expr}
    (each : ∀ expr ∈ exprs, expr.strip false = expr) : Expr.stripAll false exprs = exprs := by
  induction exprs with
  | nil => rfl
  | cons expr others ih =>
      rcases List.forall_mem_cons.mp each with ⟨first, rest⟩
      rw [Expr.stripAll, first, ih rest]

namespace Parse

variable {α : Type} {item : Parse α} {property : α → Prop}

theorem separatedWithin_all (gives : item.Gives property) (budget : Nat) :
    (separatedWithin item budget).Gives fun items => ∀ value ∈ items, property value := by
  induction budget with
  | zero => exact .throw
  | succ budget ih =>
      refine gives.bind fun first firstHolds => .andThen fun goesOn => .ite ?_ ?_
      · refine ih.bind fun others othersHold => .pure ?_
        exact List.forall_mem_cons.mpr ⟨firstHolds, othersHold⟩
      · apply Gives.pure
        simpa using firstHolds

theorem itemsUntil_all (gives : item.Gives property) (closer : String) :
    (itemsUntil closer item).Gives fun items => ∀ value ∈ items, property value := by
  refine .andThen fun cursor => .ite ?_ ?_
  · have noItems : Gives (pure [] : Parse (List α)) fun items => ∀ value ∈ items, property value :=
      .pure (by simp)
    exact noItems.bind fun items allHold => .andThen fun _ => .pure allHold
  · refine Gives.bind (.bounded (separatedWithin_all gives)) fun items allHold => ?_
    exact .andThen fun _ => .pure allHold

/-! ## Expressions -/

/-- Whether a step reads expressions without annotations. -/
def ReadsBare (step : Parse Expr) : Prop := step.Gives fun expr => expr.strip false = expr

theorem named_readsBare {expression : Parse Expr} (reads : expression.ReadsBare) :
    (named expression).ReadsBare := by
  refine .andThen fun token => .andThen fun isCall => .ite ?_ (.andThen fun isElement => .ite ?_ ?_)
  · refine (itemsUntil_all reads ")").bind fun arguments bare => .andThen fun span => .pure ?_
    simp only [Expr.strip, kept, Expr.stripAll_of_forall bare]
  · refine reads.bind fun offset bare => .andThen fun _ => .andThen fun span => .pure ?_
    simp only [Expr.strip, kept, bare]
  · exact .pure rfl

theorem groupWith_readsBare {expression : Parse Expr} (reads : expression.ReadsBare) :
    (groupWith expression).ReadsBare := by
  refine .andThen fun _ => reads.bind fun inner bare => .andThen fun _ => .andThen fun span => ?_
  apply Gives.pure
  simp only [Expr.strip, kept, bare]

theorem operandWith_readsBare {expression : Parse Expr} (reads : expression.ReadsBare) :
    (operandWith expression).ReadsBare := by
  refine .andThen fun cursor => ?_
  split
  · exact .fail
  · split
    · refine .andThen fun _ => ?_
      split
      · exact .pure rfl
      · exact .throw
    · exact .ite (named_readsBare reads) (.ite (groupWith_readsBare reads) .fail)

section

variable {grammar : Grammar} {expression : Power → Parse Expr}
  (reads : ∀ power, (expression power).ReadsBare) {left : Expr}

include reads

theorem operationWith_readsBare (bare : left.strip false = left) (power : Power) :
    (operationWith grammar expression left power).ReadsBare := by
  refine .andThen fun cursor => ?_
  split
  · exact .fail
  · refine .andThen fun _ => (reads power).bind fun right rightBare => .pure ?_
    simp only [Expr.strip, kept, bare, rightBare]

theorem chainWithin_readsBare (bare : left.strip false = left) (power : Power) (budget : Nat) :
    (chainWithin grammar expression power budget left).ReadsBare := by
  induction budget generalizing left with
  | zero => exact .throw
  | succ budget ih =>
      refine .andThen fun cursor => ?_
      split
      · exact .pure bare
      · refine .ite ?_ (.pure bare)
        exact (operationWith_readsBare reads bare _).bind fun binary binaryBare => ih binaryBare

end

theorem expressionWithin_readsBare (grammar : Grammar) (budget : Nat) (power : Power) :
    (expressionWithin grammar budget power).ReadsBare := by
  induction budget generalizing power with
  | zero => exact .throw
  | succ budget ih =>
      refine (operandWith_readsBare (ih .loosest)).bind fun left bare => ?_
      exact .bounded fun count => chainWithin_readsBare ih bare power count

end Parse

/-! ## Programs -/

namespace Written

variable {tokens rest : List Token}

theorem Expression.bare {expr : Expr} (written : Expression tokens expr rest) :
    expr.strip false = expr := by
  rcases written with ⟨after, read, _⟩
  exact Parse.expressionWithin_readsBare _ _ _ _ _ _ read

theorem Optional.bare {initializer : Option Expr}
    (written : Optional "=" Expression tokens initializer rest) :
    initializer.map (Expr.strip false) = initializer := by
  cases written with
  | absent => rfl
  | present _ written => rw [Option.map_some, written.bare]

theorem Separated.bare {exprs : List Expr} (written : Separated Expression tokens exprs rest) :
    ∀ expr ∈ exprs, expr.strip false = expr := by
  induction written with
  | last written => simpa using written.bare
  | more written _ _ ih => exact List.forall_mem_cons.mpr ⟨written.bare, ih⟩

theorem Items.bare {closer : String} {token : Token} {exprs : List Expr}
    (written : Items closer Expression token tokens exprs rest) :
    Expr.stripAll false exprs = exprs := by
  cases written with
  | none _ => rfl
  | some _ written _ => exact Expr.stripAll_of_forall written.bare

mutual

theorem Statement.bare {tokens rest : List Token} {statement : Stmt} :
    Statement tokens statement rest → statement.strip false = statement := by
  intro written
  cases written with
  | declaration _ _ _ initialized _ => simp only [Stmt.strip, kept, initialized.bare]
  | branch _ conditioned _ thenWritten _ =>
      simp only [Stmt.strip, Stmt.stripAll, conditioned.bare, thenWritten.bare]
  | branchElse _ conditioned _ thenWritten _ elseWritten _ =>
      simp only [Stmt.strip, conditioned.bare, thenWritten.bare, elseWritten.bare]
  | switch _ examined arms _ => simp only [Stmt.strip, examined.bare, arms.bare]
  | loop _ conditioned _ written _ => simp only [Stmt.strip, conditioned.bare, written.bare]
  | result _ written _ => simp only [Stmt.strip, written.bare]
  | expression _ written _ => simp only [Stmt.strip, written.bare]
  | assignment _ received _ _ written _ => simp only [Stmt.strip, received.bare, written.bare]

theorem Block.bare {terminators : List String} {tokens rest : List Token} {body : List Stmt} :
    Block terminators tokens body rest → Stmt.stripAll false body = body := by
  intro written
  cases written with
  | done _ => rfl
  | more _ written further => rw [Stmt.stripAll, written.bare, further.bare]

theorem Arms.bare {tokens rest : List Token} {cases : Cases} :
    Arms tokens cases rest → cases.strip false = cases := by
  intro written
  cases written with
  | default _ written => rw [Cases.strip, written.bare]
  | case _ valued _ written further =>
      rw [Cases.strip, valued.bare, written.bare, further.bare]

end

theorem OneGlobal.bare {global : Global} (written : OneGlobal tokens global rest) :
    global.strip false = global := by
  cases written with
  | list _ _ _ _ _ _ written _ =>
      simp only [Global.strip, Option.map_some, Expr.strip, kept, written.bare]
  | mutable _ _ _ _ written _ => simp only [Global.strip, kept, written.bare]
  | constant _ _ _ _ _ written _ => simp only [Global.strip, kept, Option.map_some, written.bare]

theorem OneFunction.bare {function : Function} (written : OneFunction tokens function rest) :
    function.strip false = function := by
  cases written with
  | intro _ _ _ _ _ _ written _ => simp only [Function.strip, kept, written.bare]

theorem Repeated.map_eq {α : Type} {item : Rule α} {values : List α} {change : α → α}
    (same : ∀ tokens value rest, item tokens value rest → change value = value)
    (written : Repeated item tokens values rest) : values.map change = values := by
  induction written with
  | nil => rfl
  | cons written _ ih => rw [List.map_cons, same _ _ _ written, ih]

end Written

/-- A program that was read has no annotations. -/
theorem Program.bare_of_parse {tokens : List Token} {file : String} {program : Program}
    (parsed : Program.parse tokens file = .ok program) : program.bare = program := by
  rcases Program.parse_eq_ok_iff.mp parsed with ⟨middle, globals, functions⟩
  rw [Program.bare, Program.strip, globals.map_eq fun _ _ _ => Written.OneGlobal.bare,
    functions.map_eq fun _ _ _ => Written.OneFunction.bare]

end GradualScript
