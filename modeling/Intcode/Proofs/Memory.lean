import Intcode.Memory

/-!
# Memory seen through its cells

What growing and writing do to the number of cells and to the content of each of them. Growing
changes no content: the cells that it adds hold zero, as all cells past the end do. What the
allocator gives stays the same, and what it refuses is told by the number of missing cells.
-/
namespace Intcode.Memory

variable (memory : Memory) (address : Nat)

theorem read_of_size_le (past : memory.size ≤ address) : memory.read address = 0 := by
  simp [read, Array.getD_eq_getD_getElem?, Array.getElem?_eq_none past]

@[simp] theorem size_extend : (memory.extend address).size = max memory.size (address + 1) := by
  unfold extend
  split
  next inside => omega
  next outside =>
    simp only [size, missing, Array.size_append, Array.size_replicate] at outside ⊢
    omega

@[simp] theorem read_extend (other : Nat) :
    (memory.extend address).read other = memory.read other := by
  unfold extend
  split
  · rfl
  · simp only [read, Array.getD_eq_getD_getElem?, Array.getElem?_append]
    split
    · rfl
    next past =>
      rw [Array.getElem?_eq_none (by omega : memory.cells.size ≤ other)]
      simp [Array.getElem?_replicate]
      split <;> rfl

@[simp] theorem size_write (value : Int) : (memory.write address value).size = memory.size := by
  simp [write, size]

theorem read_write (value : Int) (other : Nat) (inside : address < memory.size) :
    (memory.write address value).read other =
      if other = address then value else memory.read other := by
  simp only [write, read, Array.getD_eq_getD_getElem?, Array.getElem?_setIfInBounds]
  split
  next same =>
    subst same
    simp [show address < memory.cells.size from inside]
  next apart => rw [if_neg (Ne.symm apart)]

@[simp] theorem room_extend : (memory.extend address).room = memory.room := by
  unfold extend
  split <;> rfl

@[simp] theorem room_write (value : Int) : (memory.write address value).room = memory.room :=
  rfl

theorem refusal?_eq_none_iff {memory : Memory} {count : Nat} :
    memory.refusal? count = none ↔ count ≤ memory.room ∧ count < Word.bound := by
  unfold refusal? Word.bound
  split
  · simp only [reduceCtorEq, false_iff]
    omega
  · split
    · simp only [reduceCtorEq, false_iff]
      omega
    · simp only [true_iff]
      omega

theorem refusal?_zero : memory.refusal? 0 = none :=
  refusal?_eq_none_iff.mpr ⟨Nat.zero_le _, by decide⟩

theorem refusal?_eq_some {memory : Memory} {count : Nat} {fault : Fault}
    (refused : memory.refusal? count = some fault) :
    fault.family = .allocation ∧ (memory.room < count ∨ Word.bound ≤ count) := by
  have wide : ¬(count ≤ memory.room ∧ count < Word.bound) := by
    rw [← refusal?_eq_none_iff, refused]
    simp
  refine ⟨?_, by omega⟩
  unfold refusal? at refused
  split at refused
  · cases refused
    rfl
  · split at refused <;> cases refused
    rfl

end Intcode.Memory
