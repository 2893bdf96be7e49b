import Mathlib.Data.List.Basic

/-!
# Windows of an address space

A space has a cell at every integer address, so an address before a base is an
address like any other. `read` and `write` move lists of values through windows,
and the lemmas say which cells a write reaches and which windows it leaves alone.
-/

namespace Wapc.Semantics

universe u

abbrev Space (α : Type u) := Int → α

namespace Space

variable {α : Type u} (space : Space α)

/-- The values of the window of this length. -/
def read (start : Int) (length : Nat) : List α :=
  (List.range length).map fun k : Nat => space (start + k)

/-- Replace the values of a window. -/
def write (start : Int) (values : List α) : Space α := fun address =>
  if start ≤ address then (values[(address - start).toNat]?).getD (space address)
  else space address

@[simp] theorem length_read (start : Int) (length : Nat) :
    (space.read start length).length = length := by
  simp [read]

/-- A write reaches no address outside its window. -/
theorem write_outside {start address : Int} {values : List α}
    (outside : address < start ∨ start + values.length ≤ address) :
    space.write start values address = space address := by
  unfold write
  split
  · rw [List.getElem?_eq_none (by omega)]
    rfl
  · rfl

/-- Inside its window a write leaves the values it was given. -/
theorem write_inside (start : Int) {values : List α} {k : Nat} (inside : k < values.length) :
    space.write start values (start + k) = values[k] := by
  have offset : (start + k - start).toNat = k := by omega
  rw [write, if_pos (by omega), offset, List.getElem?_eq_getElem inside]
  rfl

/-- What was written is read back. -/
@[simp] theorem read_write (start : Int) (values : List α) :
    (space.write start values).read start values.length = values := by
  refine List.ext_getElem (by simp) fun k _ inside => ?_
  simp [read, space.write_inside start inside]

/-- A window apart from the one written is read as before. -/
theorem read_write_apart {start other : Int} {values : List α} {length : Nat}
    (apart : other + length ≤ start ∨ start + values.length ≤ other) :
    (space.write start values).read other length = space.read other length := by
  refine List.map_congr_left fun k inside => ?_
  rw [List.mem_range] at inside
  exact space.write_outside (by omega)

/-- Writing no values changes nothing. -/
@[simp] theorem write_nil (start : Int) : space.write start [] = space := by
  funext address
  exact space.write_outside (by rw [List.length_nil]; omega)

end Space
end Wapc.Semantics
