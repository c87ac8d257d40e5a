import Intcode.Fault
import Intcode.Text.Fields

/-!
# Instructions

The instruction set, generic in what stands for an operand. `Instruction Mode Target` is
an instruction as its word describes it, with an addressing mode for every operand; an
operand that is written cannot be immediate, so its modes are a type of their own.
`Instruction Place Nat` is an instruction whose operands have been located.

Embeds `Opcode`, `ParamMode`, `INSTRUCTION_LAYOUT` and `Instruction`. The word itself is not
kept with its instruction: nothing that is executed looks at it again.
-/
namespace Intcode

/-- How an operand that is read is found. -/
inductive Mode where
  | position
  | immediate
  | relative
  deriving DecidableEq, Repr

/-- How an operand that is written is found. -/
inductive Target where
  | position
  | relative
  deriving DecidableEq, Repr

/-- A located operand: a constant in the instruction itself, or a cell of memory. -/
inductive Place where
  | constant (value : Int)
  | cell (address : Nat)
  deriving DecidableEq, Repr

/-- What is computed from two operands. -/
inductive Operation where
  | add
  | multiply
  | lessThan
  | equals
  deriving DecidableEq, Repr

/-- The result of an operation; a comparison gives one or zero. -/
def Operation.eval : Operation → Int → Int → Int
  | .add, a, b => a + b
  | .multiply, a, b => a * b
  | .lessThan, a, b => if a < b then 1 else 0
  | .equals, a, b => if a = b then 1 else 0

/-- An instruction whose operands are of type `ρ` where they are read and of type `ω`
where they are written. A jump is taken when its condition is nonzero (`sense` true) or
zero (`sense` false). -/
inductive Instruction (ρ ω : Type) where
  | compute (operation : Operation) (left right : ρ) (target : ω)
  | input (target : ω)
  | output (value : ρ)
  | jump (sense : Bool) (condition destination : ρ)
  | adjustBase (amount : ρ)
  | halt
  deriving DecidableEq, Repr

namespace Mode

/-- The digit of an instruction word that stands for the mode. -/
def digit : Mode → Int
  | position => 0
  | immediate => 1
  | relative => 2

def ofDigit? (digit : Int) : Option Mode :=
  if digit = 0 then some position
  else if digit = 1 then some immediate
  else if digit = 2 then some relative
  else none

def target? : Mode → Option Target
  | position => some .position
  | immediate => none
  | relative => some .relative

def name : Mode → String
  | position => "POSITION"
  | immediate => "IMMEDIATE"
  | relative => "RELATIVE"

end Mode

def Target.mode : Target → Mode
  | .position => .position
  | .relative => .relative

def Place.address? : Place → Option Nat
  | .constant _ => none
  | .cell address => some address

namespace Instruction

variable {ρ ω ρ' ω' : Type}

/-- The number of the operation in an instruction word. -/
def opcode : Instruction ρ ω → Int
  | compute .add .. => 1
  | compute .multiply .. => 2
  | input _ => 3
  | output _ => 4
  | jump true .. => 5
  | jump false .. => 6
  | compute .lessThan .. => 7
  | compute .equals .. => 8
  | adjustBase _ => 9
  | halt => 99

def name : Instruction ρ ω → String
  | compute .add .. => "ADD"
  | compute .multiply .. => "MUL"
  | input _ => "INPUT"
  | output _ => "OUTPUT"
  | jump true .. => "JUMP_IF_TRUE"
  | jump false .. => "JUMP_IF_FALSE"
  | compute .lessThan .. => "LESS_THAN"
  | compute .equals .. => "EQUALS"
  | adjustBase _ => "ADJUST_BASE"
  | halt => "HALT"

def arity : Instruction ρ ω → Nat
  | compute .. => 3
  | input _ | output _ | adjustBase _ => 1
  | jump .. => 2
  | halt => 0

def width (i : Instruction ρ ω) : Nat :=
  i.arity + 1

/-- Replace the operands in order, each of which is numbered from one; the first failure
is the result. -/
def traverse (read : Nat → ρ → Except Fault ρ') (write : Nat → ω → Except Fault ω') :
    Instruction ρ ω → Except Fault (Instruction ρ' ω')
  | compute operation left right target => do
    let left ← read 1 left
    let right ← read 2 right
    let target ← write 3 target
    return compute operation left right target
  | input target => do
    let target ← write 1 target
    return input target
  | output value => do
    let value ← read 1 value
    return output value
  | jump sense condition destination => do
    let condition ← read 1 condition
    let destination ← read 2 destination
    return jump sense condition destination
  | adjustBase amount => do
    let amount ← read 1 amount
    return adjustBase amount
  | halt => .ok halt

def modes : Instruction Mode Target → List Mode
  | compute _ left right target => [left, right, target.mode]
  | input target => [target.mode]
  | output value => [value]
  | jump _ condition destination => [condition, destination]
  | adjustBase amount => [amount]
  | halt => []

/-- The addresses of the operands, in order; a constant has none. -/
def addresses : Instruction Place Nat → List (Option Nat)
  | compute _ left right target => [left.address?, right.address?, some target]
  | input target => [some target]
  | output value => [value.address?]
  | jump _ condition destination => [condition.address?, destination.address?]
  | adjustBase amount => [amount.address?]
  | halt => []

def highest? (i : Instruction Place Nat) : Option Nat :=
  (i.addresses.filterMap id).max?

def describe (i : Instruction Mode Target) : String :=
  "Instruction(" ++ i.name ++ ", [" ++ Text.join "," (i.modes.map Mode.name) ++ "])"

end Instruction

end Intcode
