import GradualScript.Proofs.Scope.Order

/-!
# Arenas entered alike

Two arenas may have the same root and otherwise nothing in common. If the same scopes are then
entered in both, the numbers of these differ, but not what can be seen from them, as long as the
scopes that were there before are not seen. Such arenas are *aligned*, and a search for a name finds
the same in both.
-/

namespace GradualScript

/-- A scope with another parent. -/
def Scope.under {V F : Type} (scope : Scope V F) (parent : Option ScopeId) : Scope V F :=
  { scope with parent }

namespace Arena

variable {V F α : Type} {leftDepth rightDepth count : Nat} {leftId rightId : ScopeId}

/-- Whether two numbers both name the root, or scopes that were entered as the same one of the first
`count` after there were the given numbers of scopes. -/
inductive Matching (leftDepth rightDepth count : Nat) : ScopeId → ScopeId → Prop
  | root : Matching leftDepth rightDepth count root root
  | entered {index : Nat} (earlier : index < count) :
      Matching leftDepth rightDepth count (leftDepth + index) (rightDepth + index)

theorem Matching.mono {more : Nat} (matching : Matching leftDepth rightDepth count leftId rightId)
    (fewer : count ≤ more) : Matching leftDepth rightDepth more leftId rightId := by
  cases matching with
  | root => exact .root
  | entered earlier => exact .entered (Nat.lt_of_lt_of_le earlier fewer)

theorem Matching.left (matching : Matching leftDepth rightDepth count leftId rightId) :
    leftId = Arena.root ∨ leftDepth ≤ leftId := by
  cases matching with
  | root => exact .inl rfl
  | entered earlier => exact .inr (Nat.le_add_right _ _)

theorem Matching.right (matching : Matching leftDepth rightDepth count leftId rightId) :
    rightId = Arena.root ∨ rightDepth ≤ rightId := by
  cases matching with
  | root => exact .inl rfl
  | entered earlier => exact .inr (Nat.le_add_right _ _)

/-- How two searches end that find the same, in scopes that match. -/
inductive FindSame (leftDepth rightDepth count : Nat) :
    Except Halt (Option (ScopeId × α)) → Except Halt (Option (ScopeId × α)) → Prop
  | found {leftId rightId : ScopeId} (value : α)
      (matching : Matching leftDepth rightDepth count leftId rightId) :
      FindSame leftDepth rightDepth count (.ok (some (leftId, value)))
        (.ok (some (rightId, value)))
  | nowhere : FindSame leftDepth rightDepth count (.ok none) (.ok none)

/-- Whether the scopes of an earlier arena are as they were, other than the root. -/
def Keeps (start arena : Arena V F) : Prop :=
  ∀ id, id ≠ root → id < start.depth → arena.scopes[id]? = start.scopes[id]?

theorem Keeps.eq {start arena : Arena V F} (keeps : start.Keeps arena)
    (depth_eq : arena.depth = start.depth) {id : ScopeId} (notRoot : id ≠ root) :
    arena.scopes[id]? = start.scopes[id]? := by
  by_cases inside : id < start.depth
  · exact keeps id notRoot inside
  · have beyond : start.depth ≤ id := Nat.le_of_not_lt inside
    have beyondNow : arena.depth ≤ id := Nat.le_trans (Nat.le_of_eq depth_eq) beyond
    rw [Array.getElem?_eq_none beyond, Array.getElem?_eq_none beyondNow]

theorem Keeps.modify {start arena : Arena V F} (keeps : start.Keeps arena) {id : ScopeId}
    (other : id = root ∨ start.depth ≤ id) (change : Scope V F → Scope V F) :
    start.Keeps ⟨arena.scopes.modify id change⟩ := by
  intro old notRoot lower
  have different : id ≠ old := by
    rintro rfl
    rcases other with atRoot | beyond
    · exact notRoot atRoot
    · exact Nat.not_lt_of_le beyond lower
  rw [Array.getElem?_modify, if_neg different, keeps old notRoot lower]

/-- Whether two arenas have the same root and as many more scopes as each other than they started
with, which are the same but for their numbers, and have not changed any other. -/
structure Aligned (leftStart rightStart : Arena V F) (count : Nat) (left right : Arena V F) :
    Prop where
  leftPos : root < leftStart.depth
  rightPos : root < rightStart.depth
  leftDepth : left.depth = leftStart.depth + count
  rightDepth : right.depth = rightStart.depth + count
  shared : left.scopes[root]? = right.scopes[root]?
  top : ∀ {scope}, left.scopes[root]? = some scope → scope.parent = none
  inner : ∀ {index scope}, left.scopes[leftStart.depth + index]? = some scope →
    ∃ leftParent rightParent, scope.parent = some leftParent ∧
      right.scopes[rightStart.depth + index]? = some (scope.under (some rightParent)) ∧
      Matching leftStart.depth rightStart.depth index leftParent rightParent
  leftKeeps : leftStart.Keeps left
  rightKeeps : rightStart.Keeps right

namespace Aligned

variable {leftStart rightStart left right : Arena V F}

theorem start (leftPos : root < left.depth) (rightPos : root < right.depth) (ordered : left.Ordered)
    (shared : left.scopes[root]? = right.scopes[root]?) : Aligned left right 0 left right := by
  refine ⟨leftPos, rightPos, rfl, rfl, shared, ordered.top, ?_, fun _ _ _ => rfl,
    fun _ _ _ => rfl⟩
  intro index scope found
  exact absurd (lt_depth_of_scope found) (Nat.not_lt_of_le (Nat.le_add_right _ _))

theorem lt_depth (aligned : Aligned leftStart rightStart count left right)
    (matching : Matching leftStart.depth rightStart.depth count leftId rightId) :
    leftId < left.depth := by
  cases matching with
  | root => exact Nat.lt_of_lt_of_le aligned.leftPos (aligned.leftDepth ▸ Nat.le_add_right _ _)
  | entered earlier => exact aligned.leftDepth ▸ Nat.add_lt_add_left earlier _

/-- Scopes that match have the same names. -/
theorem scope_right (aligned : Aligned leftStart rightStart count left right)
    (matching : Matching leftStart.depth rightStart.depth count leftId rightId)
    {scope : Scope V F} (found : left.scopes[leftId]? = some scope) :
    ∃ parent, right.scopes[rightId]? = some (scope.under parent) := by
  cases matching with
  | root => exact ⟨scope.parent, aligned.shared ▸ found⟩
  | entered earlier =>
      rcases aligned.inner found with ⟨_, rightParent, _, present, _⟩
      exact ⟨some rightParent, present⟩

theorem searchWithin_root (aligned : Aligned leftStart rightStart count left right)
    (find : Scope V F → Option α) (leftBudget rightBudget : Nat) :
    FindSame leftStart.depth rightStart.depth count
      (left.searchWithin find (leftBudget + 1) root)
      (right.searchWithin find (rightBudget + 1) root) := by
  rcases exists_scope (aligned.lt_depth .root) with ⟨scope, found⟩
  rw [searchWithin_succ found, searchWithin_succ (aligned.shared ▸ found)]
  cases find scope with
  | some value => exact .found value .root
  | none =>
      simp only [aligned.top found]
      exact .nowhere

/-- Parents were entered earlier, so both searches are over before their budgets are. -/
theorem searchWithin (aligned : Aligned leftStart rightStart count left right)
    (find : Scope V F → Option α)
    (blind : ∀ scope parent, find (scope.under parent) = find scope) {bound : Nat}
    (bounded : bound ≤ count)
    (matching : Matching leftStart.depth rightStart.depth bound leftId rightId)
    {leftBudget rightBudget : Nat} (leftEnough : bound < leftBudget)
    (rightEnough : bound < rightBudget) :
    FindSame leftStart.depth rightStart.depth count (left.searchWithin find leftBudget leftId)
      (right.searchWithin find rightBudget rightId) := by
  -- By induction on how many scopes were entered before the one where the search goes on.
  induction bound generalizing leftId rightId leftBudget rightBudget with
  | zero =>
      rcases Nat.exists_eq_succ_of_ne_zero (Nat.ne_zero_of_lt leftEnough) with ⟨_, rfl⟩
      rcases Nat.exists_eq_succ_of_ne_zero (Nat.ne_zero_of_lt rightEnough) with ⟨_, rfl⟩
      cases matching with
      | root => exact aligned.searchWithin_root find _ _
      | entered earlier => exact absurd earlier (Nat.not_lt_zero _)
  | succ bound ih =>
      rcases Nat.exists_eq_succ_of_ne_zero (Nat.ne_zero_of_lt leftEnough) with ⟨leftRest, rfl⟩
      rcases Nat.exists_eq_succ_of_ne_zero (Nat.ne_zero_of_lt rightEnough) with ⟨rightRest, rfl⟩
      have here := matching.mono bounded
      cases matching with
      | root => exact aligned.searchWithin_root find _ _
      | @entered index earlier =>
          rcases exists_scope (aligned.lt_depth here) with ⟨scope, found⟩
          rcases aligned.inner found with ⟨leftParent, rightParent, up, present, parents⟩
          rw [searchWithin_succ found, searchWithin_succ present, blind]
          cases find scope with
          | some value => exact .found value here
          | none =>
              simp only [up, Scope.under]
              exact ih (Nat.le_of_lt bounded) (parents.mono (Nat.le_of_lt_succ earlier))
                (Nat.lt_of_succ_lt_succ leftEnough) (Nat.lt_of_succ_lt_succ rightEnough)

theorem search (aligned : Aligned leftStart rightStart count left right)
    (find : Scope V F → Option α)
    (blind : ∀ scope parent, find (scope.under parent) = find scope)
    (matching : Matching leftStart.depth rightStart.depth count leftId rightId) :
    FindSame leftStart.depth rightStart.depth count (left.search find leftId)
      (right.search find rightId) := by
  apply aligned.searchWithin find blind (Nat.le_refl count) matching
  · rw [aligned.leftDepth]
    exact Nat.lt_succ_of_le (Nat.le_add_left _ _)
  · rw [aligned.rightDepth]
    exact Nat.lt_succ_of_le (Nat.le_add_left _ _)

/-- The same change to scopes that match, other than to their parents. -/
theorem modify (aligned : Aligned leftStart rightStart count left right)
    (matching : Matching leftStart.depth rightStart.depth count leftId rightId)
    {change : Scope V F → Scope V F}
    (blind : ∀ scope parent, change (scope.under parent) = (change scope).under parent) :
    Aligned leftStart rightStart count ⟨left.scopes.modify leftId change⟩
      ⟨right.scopes.modify rightId change⟩ := by
  -- A change that does not look at the parent does not change it either.
  have parent_change (scope : Scope V F) : (change scope).parent = scope.parent := by
    have same := congrArg Scope.parent (blind scope scope.parent)
    exact same
  have leftRoot (index : Nat) : leftStart.depth + index ≠ root :=
    Nat.ne_of_gt (Nat.lt_of_lt_of_le aligned.leftPos (Nat.le_add_right _ _))
  have rightRoot (index : Nat) : rightStart.depth + index ≠ root :=
    Nat.ne_of_gt (Nat.lt_of_lt_of_le aligned.rightPos (Nat.le_add_right _ _))
  refine ⟨aligned.leftPos, aligned.rightPos, ?_, ?_, ?_, ?_, ?_, ?_, ?_⟩
  · exact (Array.size_modify ..).trans aligned.leftDepth
  · exact (Array.size_modify ..).trans aligned.rightDepth
  · simp only [Array.getElem?_modify]
    cases matching with
    | root => rw [if_pos rfl, if_pos rfl, aligned.shared]
    | entered earlier => rw [if_neg (leftRoot _), if_neg (rightRoot _), aligned.shared]
  · intro scope found
    rw [Array.getElem?_modify] at found
    split at found
    · rcases Option.map_eq_some_iff.mp found with ⟨old, present, rfl⟩
      rw [parent_change]
      exact aligned.top present
    · exact aligned.top found
  · intro index scope found
    simp only [Array.getElem?_modify] at found ⊢
    cases matching with
    | root =>
        rw [if_neg (leftRoot index).symm] at found
        rw [if_neg (rightRoot index).symm]
        exact aligned.inner found
    | @entered changed earlier =>
        simp only [Nat.add_left_cancel_iff] at found ⊢
        split at found
        · rename_i same
          rcases Option.map_eq_some_iff.mp found with ⟨old, present, rfl⟩
          rcases aligned.inner present with ⟨leftParent, rightParent, up, other, parents⟩
          refine ⟨leftParent, rightParent, (parent_change old).trans up, ?_, parents⟩
          rw [if_pos same, other, Option.map_some, blind]
        · rename_i different
          rw [if_neg different]
          exact aligned.inner found
  · exact aligned.leftKeeps.modify matching.left change
  · exact aligned.rightKeeps.modify matching.right change

theorem push (aligned : Aligned leftStart rightStart count left right)
    (matching : Matching leftStart.depth rightStart.depth count leftId rightId) :
    Aligned leftStart rightStart (count + 1) (left.push leftId).1 (right.push rightId).1 := by
  have leftEnd {id : ScopeId} (inside : id < leftStart.depth) : id ≠ left.depth :=
    Nat.ne_of_lt (Nat.lt_of_lt_of_le inside (aligned.leftDepth ▸ Nat.le_add_right _ _))
  have rightEnd {id : ScopeId} (inside : id < rightStart.depth) : id ≠ right.depth :=
    Nat.ne_of_lt (Nat.lt_of_lt_of_le inside (aligned.rightDepth ▸ Nat.le_add_right _ _))
  have root_push : (left.push leftId).1.scopes[root]? = left.scopes[root]? := by
    rw [scopes_push, if_neg (leftEnd aligned.leftPos)]
  refine ⟨aligned.leftPos, aligned.rightPos, ?_, ?_, ?_, ?_, ?_, ?_, ?_⟩
  · rw [depth_push, aligned.leftDepth, Nat.add_assoc]
  · rw [depth_push, aligned.rightDepth, Nat.add_assoc]
  · rw [root_push, scopes_push, if_neg (rightEnd aligned.rightPos), aligned.shared]
  · intro scope found
    exact aligned.top (root_push ▸ found)
  · intro index scope found
    simp only [scopes_push, aligned.leftDepth, aligned.rightDepth, Nat.add_left_cancel_iff]
      at found ⊢
    split at found
    · rename_i atEnd
      cases found
      exact ⟨leftId, rightId, rfl, if_pos atEnd, atEnd ▸ matching⟩
    · rename_i before
      rw [if_neg before]
      exact aligned.inner found
  · intro id notRoot inside
    rw [scopes_push, if_neg (leftEnd inside), aligned.leftKeeps id notRoot inside]
  · intro id notRoot inside
    rw [scopes_push, if_neg (rightEnd inside), aligned.rightKeeps id notRoot inside]

/-- Releasing all but the first of the scopes that were entered. -/
theorem dropFrom (aligned : Aligned leftStart rightStart count left right) {fewer : Nat}
    (lower : fewer ≤ count) :
    Aligned leftStart rightStart fewer (left.dropFrom (leftStart.depth + fewer))
      (right.dropFrom (rightStart.depth + fewer)) := by
  have leftRoot : root < leftStart.depth + fewer :=
    Nat.lt_of_lt_of_le aligned.leftPos (Nat.le_add_right _ _)
  have rightRoot : root < rightStart.depth + fewer :=
    Nat.lt_of_lt_of_le aligned.rightPos (Nat.le_add_right _ _)
  have onLeft := scopes_dropFrom left (Nat.ne_of_gt leftRoot)
  have onRight := scopes_dropFrom right (Nat.ne_of_gt rightRoot)
  refine ⟨aligned.leftPos, aligned.rightPos, ?_, ?_, ?_, ?_, ?_, ?_, ?_⟩
  · exact depth_dropFrom (Nat.ne_of_gt leftRoot) (aligned.leftDepth ▸ Nat.add_le_add_left lower _)
  · exact depth_dropFrom (Nat.ne_of_gt rightRoot)
      (aligned.rightDepth ▸ Nat.add_le_add_left lower _)
  · rw [onLeft, onRight, if_pos leftRoot, if_pos rightRoot, aligned.shared]
  · intro scope found
    rw [onLeft, if_pos leftRoot] at found
    exact aligned.top found
  · intro index scope found
    simp only [onLeft, onRight, Nat.add_lt_add_iff_left] at found ⊢
    split at found
    · rename_i earlier
      rw [if_pos earlier]
      exact aligned.inner found
    · cases found
  · intro id notRoot inside
    rw [onLeft, if_pos (Nat.lt_of_lt_of_le inside (Nat.le_add_right _ _)),
      aligned.leftKeeps id notRoot inside]
  · intro id notRoot inside
    rw [onRight, if_pos (Nat.lt_of_lt_of_le inside (Nat.le_add_right _ _)),
      aligned.rightKeeps id notRoot inside]

end Aligned

end Arena

end GradualScript
