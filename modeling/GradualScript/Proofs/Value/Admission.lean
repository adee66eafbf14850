import GradualScript.Value.Basic

/-!
# Admission is transitive and sound

Whether a type admits another is decided before a script runs, by the types alone; whether a value
fits a type is decided when it runs, by the value. `Ty.Admission` has the rules behind the first
decision: `Any` admits every type, `Comparable` the ordered ones, a list type the lists of what its
elements admit, and the types of plain values admit themselves. Each rule keeps the values that
fit, so a value that was seen to fit one type need not be looked at again for a type that admits it.
-/

namespace GradualScript

namespace Ty

/-- Whether the values of a type are plain: Booleans, and what has an order. -/
def isPlain (ty : Ty) : Bool := ty = boolean || ty.isOrdered

/-- The rules by which a type admits another. -/
inductive Admission : Ty → Ty → Prop
  | any (ty : Ty) : Admission any ty
  | comparable {ty : Ty} (ordered : ty.isOrdered = true) : Admission comparable ty
  | plain {ty : Ty} (plain : ty.isPlain = true) : Admission ty ty
  | list {target ty : Ty} (elements : Admission target ty) : Admission (list target) (list ty)

/-- A type admits another exactly if the rules say so. -/
theorem admits_iff {target ty : Ty} : target.admits ty = true ↔ Admission target ty := by
  constructor
  · intro admits
    induction target generalizing ty with
    | any => exact .any ty
    | comparable =>
        have ordered : ty.isOrdered = true := by cases ty <;> exact admits
        exact .comparable ordered
    | list target ih =>
        cases ty with
        | list ty => exact .list (ih admits)
        | _ => cases admits
    | nil => cases ty <;> cases admits
    | _ => cases ty <;> first | exact .plain rfl | cases admits
  · intro admission
    induction admission with
    | any => rfl
    | @comparable ty ordered => cases ty <;> exact ordered
    | @plain ty plain => cases ty <;> first | rfl | cases plain
    | list _ ih => exact ih

namespace Admission

variable {first second third : Ty}

/-- An ordered type admits itself only. -/
theorem eq_of_ordered (admission : Admission first second) (ordered : first.isOrdered = true) :
    first = second := by
  cases admission with
  | plain _ => rfl
  | _ => cases ordered

theorem trans (outer : Admission first second) (inner : Admission second third) :
    Admission first third := by
  induction outer generalizing third with
  | any => exact .any third
  | comparable ordered =>
      cases inner.eq_of_ordered ordered
      exact .comparable ordered
  | plain _ => exact inner
  | list _ ih =>
      cases inner with
      | list elements => exact .list (ih elements)
      | plain plain => cases plain

end Admission

end Ty

namespace Value

theorem fits_any (value : Value) : value.fits .any = true := by
  cases value <;> rfl

theorem fits_comparable {value : Value} {ty : Ty} (fitting : value.fits ty = true)
    (ordered : ty.isOrdered = true) : value.fits .comparable = true := by
  cases value with
  | integer _ | decimal _ | character _ | string _ => rfl
  | _ => cases ty <;> simp_all [fits, Ty.isOrdered]

theorem allFit_iff {ty : Ty} {values : List Value} :
    allFit ty values = true ↔ ∀ value ∈ values, value.fits ty = true := by
  induction values with
  | nil => simp [allFit]
  | cons value values ih => rw [allFit, Bool.and_eq_true, ih, List.forall_mem_cons]

/-- Only lists fit a list type, and then each element fits the type of the elements. -/
theorem fits_list_iff {value : Value} {element : Ty} :
    value.fits (.list element) = true ↔
      ∃ values, value = .list values ∧ ∀ value ∈ values, value.fits element = true := by
  constructor
  · intro fitting
    cases value with
    | list values => exact ⟨values, rfl, allFit_iff.mp fitting⟩
    | _ => cases fitting
  · rintro ⟨values, rfl, each⟩
    exact allFit_iff.mpr each

/-- What fits a type fits every type that admits it. -/
theorem fits_of_admission {value : Value} {target ty : Ty} (admission : Ty.Admission target ty)
    (fitting : value.fits ty = true) : value.fits target = true := by
  induction admission generalizing value with
  | any => exact fits_any value
  | comparable ordered => exact fits_comparable fitting ordered
  | plain _ => exact fitting
  | list _ ih =>
      rw [fits_list_iff] at fitting ⊢
      obtain ⟨values, rfl, each⟩ := fitting
      exact ⟨values, rfl, fun value member => ih (each value member)⟩

/-- Admission is transitive, and sound for the tests of values: what fits a type fits every type
that admits it. -/
theorem admission_sound :
    (∀ first second third : Ty, first.admits second = true → second.admits third = true →
      first.admits third = true) ∧
    ∀ (value : Value) (ty target : Ty), value.fits ty = true → target.admits ty = true →
      value.fits target = true := by
  refine ⟨fun first second third outer inner => ?_, fun value ty target fitting admits => ?_⟩
  · rw [Ty.admits_iff] at outer inner ⊢
    exact outer.trans inner
  · exact fits_of_admission (Ty.admits_iff.mp admits) fitting

/-- Whole numbers in a list of lists, where comparable or any values are expected. -/
theorem admission_sound_nested :
    Ty.admits (.list .any) (.list (.list .integer)) = true ∧
      fits (.list (.list .comparable)) (.list [.list [.integer 1], .list []]) = true :=
  ⟨admission_sound.1 _ (.list (.list .comparable)) _ (by decide) (by decide),
    admission_sound.2 _ (.list (.list .integer)) _ (by decide) (by decide)⟩

end Value

end GradualScript
