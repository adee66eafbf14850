import GradualScript.Proofs.Typing.Faults

/-!
# Every check comes back

A check that fails leaves its scopes as one that passes does. So after a check of any piece of
program the checker is in the scope in which it was, with as many scopes as there were, and on the
way it never looks for a scope that is not there.
-/

namespace GradualScript

namespace Checker

variable {checker : Checker} {τ : Type}

/-- Whether a result does not come from a missing scope. -/
def Present {α : Type} (outcome : Except Halt α) : Prop :=
  ∀ halt, outcome = .error halt → halt ≠ .dangling

/-- What is wrong at a place is no missing scope. -/
theorem Faults.present {α : Type} {places : Position → Prop} {outcome : Except Halt α}
    (faults : Faults places outcome) : Present outcome := by
  intro halt failed
  rcases faults halt failed with ⟨_, _, rfl, _⟩
  rintro ⟨⟩

/-- Whether a check came back to the scope in which it was made. -/
structure Restores {τ : Type} (checker : Checker) (step : Step τ) : Prop where
  follows : checker.Follows step.1
  present : Present step.2.2

theorem Settles.restores {places : Position → Prop} {good : τ → Prop} {step : Step τ}
    (settles : checker.Settles places good step) : checker.Restores step :=
  ⟨settles.follows, settles.points.faults.present⟩

theorem checkExpr_present (formed : checker.WellFormed) (expr : Expr) :
    Present (checker.checkExpr expr).2 :=
  (checkExpr_points formed expr expr.placed_anywhere).faults.present

theorem checkStmt_restores (formed : checker.WellFormed) (statement : Stmt) :
    checker.Restores (checker.checkStmt statement) :=
  (checkStmt_settles formed statement statement.placed_anywhere).restores

theorem checkBlock_restores (formed : checker.WellFormed) (body : List Stmt) :
    checker.Restores (checker.checkBlock body) := by
  rcases inScope_points (checkStmts · body) formed
    (checkStmts_settles formed.enter body (Stmt.allPlaced_anywhere body)) with
    ⟨tree, outcome, checked, _, faults⟩
  rw [checkBlock, checked]
  exact ⟨.refl checker, faults.present⟩

theorem checkBody_restores (formed : checker.WellFormed) (function : Function) :
    Restores { checker with returnType := (function.binding.map Signature.result).getD .nil }
      (checker.checkBody function) := by
  rcases checkBody_points formed function.placed_anywhere with
    ⟨tree, outcome, checked, _, faults⟩
  rw [checked]
  exact ⟨.refl _, faults.present⟩

end Checker

end GradualScript
