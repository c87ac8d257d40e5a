/-!
# Machine words

The range of a signed 64-bit word, which bounds the cells of a program, indices and counts.
-/
namespace Intcode.Word

/-- The first number that is too large for a signed 64-bit word: two to the power 63. -/
def bound : Nat := 0x8000000000000000

/-- How many cells of eight bytes an address space of 47 bits has room for, besides anything
else: one less than two to the power 44. -/
def cellCount : Nat := 0xFFFFFFFFFFF

def fits (value : Int) : Bool :=
  -(bound : Int) ≤ value && value < bound

end Intcode.Word
