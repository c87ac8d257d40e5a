import Intcode.Fault
import Intcode.Word

/-!
# Memory

Memory is a row of integer cells that only ever grows, by cells that hold zero. A run
refers to cells by natural number addresses that it has made sure of (`read`, `write`,
`extend`). From outside, `get` and `set` take any integer: a negative one counts from the
end.

Embeds the class `Memory`. The allocator is not part of it: `room` says how many cells it
gives at once, and the results hold for any room. A growth that a signed machine word cannot
count is refused before the allocator is asked.
-/
namespace Intcode

/-- The cells of a machine, and how many of them the allocator gives at once. -/
structure Memory where
  cells : Array Int
  room : Nat := Word.cellCount
  deriving DecidableEq, Repr

namespace Memory

def size (memory : Memory) : Nat :=
  memory.cells.size

/-- The content of a cell. Cells past the end hold zero. -/
def read (memory : Memory) (address : Nat) : Int :=
  memory.cells.getD address 0

/-- Change the content of a cell; there is nothing to change past the end. -/
def write (memory : Memory) (address : Nat) (value : Int) : Memory :=
  { memory with cells := memory.cells.setIfInBounds address value }

/-- How many cells are missing for the address to be valid. -/
def missing (memory : Memory) (address : Nat) : Nat :=
  address + 1 - memory.size

/-- Why memory cannot grow by so many cells: they must be countable by a signed machine word,
and no more than the allocator gives. -/
def refusal? (memory : Memory) (count : Nat) : Option Fault :=
  if Word.bound ≤ count then some .growthTooWide
  else if memory.room < count then some .memoryExhausted
  else none

def growthFault? (memory : Memory) (address : Nat) : Option Fault :=
  memory.refusal? (memory.missing address)

/-- Grow memory just enough to cover an address. -/
def extend (memory : Memory) (address : Nat) : Memory :=
  if address < memory.size then memory
  else { memory with cells := memory.cells ++ Array.replicate (memory.missing address) 0 }

/-- Grow memory to cover an address, unless it is negative or too far away. The pointer is
only reported. -/
def ensure (memory : Memory) (address pointer : Int) : Except Fault Memory :=
  if address < 0 then .error (Fault.raised (.negativeAddress address pointer))
  else
    match memory.growthFault? address.toNat with
    | some fault => .error fault
    | none => .ok (memory.extend address.toNat)

/-- The cell that an integer refers to; a negative one counts from the end. -/
def locate? (memory : Memory) (address : Int) : Option Nat :=
  let counted := if address < 0 then address + memory.size else address
  if 0 ≤ counted ∧ counted < memory.size then some counted.toNat else none

def get (memory : Memory) (address : Int) : Except Fault Int :=
  if !Word.fits address then .error .addressTooWide
  else
    match memory.locate? address with
    | some index => .ok (memory.read index)
    | none => .error .readOutOfRange

def set (memory : Memory) (address value : Int) : Except Fault Memory :=
  if !Word.fits address then .error .addressTooWide
  else
    match memory.locate? address with
    | some index => .ok (memory.write index value)
    | none => .error .writeOutOfRange

/-- The cells up to the last one that is not zero. -/
def significant (memory : Memory) : List Int :=
  (memory.cells.toList.reverse.dropWhile (· == 0)).reverse

def describe (memory : Memory) : String :=
  s!"Memory(len={memory.size})"

end Memory

end Intcode
