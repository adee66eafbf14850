/-!
# Tables

A table gives values to keys. Its entries stand in a list, and the first entry of a key counts.
-/

namespace GradualScript

/-- Values by key. -/
structure Table (κ ν : Type) where
  entries : List (κ × ν)

namespace Table

variable {κ ν : Type} [DecidableEq κ]

/-- The table without entries. -/
def empty : Table κ ν := ⟨[]⟩

/-- The value of a key. -/
def find? (table : Table κ ν) (key : κ) : Option ν :=
  (table.entries.find? fun entry => entry.1 = key).map Prod.snd

/-- Whether a key has a value. -/
def contains (table : Table κ ν) (key : κ) : Bool := (table.find? key).isSome

/-- Gives a value to a key. -/
def insert (table : Table κ ν) (key : κ) (value : ν) : Table κ ν :=
  ⟨(key, value) :: table.entries⟩

/-- Gives a new value to a key that has one. -/
def replace (table : Table κ ν) (key : κ) (value : ν) : Table κ ν :=
  ⟨table.entries.map fun entry => if entry.1 = key then (key, value) else entry⟩

/-- The table of a list of entries, in which the last entry of a key counts. -/
def ofList (entries : List (κ × ν)) : Table κ ν :=
  entries.foldl (fun table entry => table.insert entry.1 entry.2) empty

end Table

end GradualScript
