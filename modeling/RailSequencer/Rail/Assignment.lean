import RailSequencer.Rail

/-!
# Assignments of a value to every rail

An assignment is known through `get`: `get_set` says what one write does to it, and two
assignments with the same values are equal.
-/

namespace RailSequencer

/-- One value for each rail. -/
structure RailAssignment (α : Type) where
  cells : Vector α Rail.count

namespace RailAssignment

variable {α : Type}

/-- The same value on every rail. -/
def constant (value : α) : RailAssignment α := ⟨Vector.replicate Rail.count value⟩

def get (assignment : RailAssignment α) (rail : Rail) : α := assignment.cells[rail.index]

/-- Give one rail a new value. -/
def set (assignment : RailAssignment α) (rail : Rail) (value : α) : RailAssignment α :=
  ⟨assignment.cells.set rail.index value⟩

/-- The values in the order of the rails. -/
def toList (assignment : RailAssignment α) : List α := Rail.all.map assignment.get

@[simp]
theorem get_constant (value : α) (rail : Rail) : (constant value).get rail = value := by
  simp [constant, get]

/-- A write is seen on its own rail and on no other. -/
@[simp]
theorem get_set (assignment : RailAssignment α) (rail other : Rail) (value : α) :
    (assignment.set rail value).get other = if rail = other then value else assignment.get other := by
  by_cases same : rail = other
  · subst same
    simp [set, get]
  · have apart : (rail.index : Nat) ≠ other.index := fun equal =>
      same (Rail.index_injective (Fin.ext equal))
    simp [set, get, same, apart]

/-- Two assignments with the same value on every rail are equal. -/
@[ext]
theorem ext {left right : RailAssignment α} (same : ∀ rail, left.get rail = right.get rail) :
    left = right := by
  obtain ⟨leftCells⟩ := left
  obtain ⟨rightCells⟩ := right
  congr
  ext position bound
  obtain ⟨rail, atPosition⟩ := Rail.exists_index ⟨position, bound⟩
  have := same rail
  simp only [get, atPosition] at this
  exact this

end RailAssignment

end RailSequencer
