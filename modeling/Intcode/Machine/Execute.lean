import Intcode.Instruction.Decode
import Intcode.Machine

/-!
# Executing one instruction

An instruction is fetched, its operands are located, memory grows to cover them, and only
then does anything else change. All that can fail is in `fetch` and `resolve`, which change
nothing; `cover` and `perform` cannot fail. A program at its end and a program that lacks an
input stay where they are.

Embeds the operations `fetch`, `resolve_addresses` and `step` of the executor. What is
refused here is raised with its pointer, address and length (`Fault.raised`): a pointer or
address too long to be written is refused for that instead.
-/
namespace Intcode.Machine

def fetch (m : Machine) : Except Fault (Instruction Mode Target) :=
  if m.ip < 0 ∨ (m.memory.size : Int) ≤ m.ip then
    .error (Fault.raised (.pointerOutOfBounds m.ip m.memory.size))
  else Instruction.decode (m.memory.read m.ip.toNat) m.ip

/-- The content of the cell of an operand, numbered from one. -/
def operand (m : Machine) (k : Nat) : Int :=
  m.memory.read (m.ip + k).toNat

def checkAddress (m : Machine) (address : Int) : Except Fault Nat :=
  if address < 0 then .error (Fault.raised (.negativeAddress address m.ip))
  else .ok address.toNat

def locateSource (m : Machine) (k : Nat) : Mode → Except Fault Place
  | .position => (m.checkAddress (m.operand k)).map Place.cell
  | .immediate => .ok (.constant (m.operand k))
  | .relative => (m.checkAddress (m.operand k + m.base)).map Place.cell

def locateTarget (m : Machine) (k : Nat) : Target → Except Fault Nat
  | .position => m.checkAddress (m.operand k)
  | .relative => m.checkAddress (m.operand k + m.base)

def growthFault? (m : Machine) (i : Instruction Place Nat) : Option Fault :=
  match i.highest? with
  | none => none
  | some address => m.memory.growthFault? address

/-- Locate the operands of the instruction at the pointer. It fails if the instruction does
not end inside memory, if an operand refers to a negative address, or if memory cannot grow
to cover the operands. -/
def resolve (m : Machine) (i : Instruction Mode Target) :
    Except Fault (Instruction Place Nat) :=
  let final : Int := m.ip + i.width - 1
  if (m.memory.size : Int) ≤ final then
    .error (Fault.raised (.pointerOutOfBounds final m.memory.size))
  else
    match i.traverse m.locateSource m.locateTarget with
    | .error fault => .error fault
    | .ok located =>
      match m.growthFault? located with
      | some fault => .error fault
      | none => .ok located

def cover (m : Machine) (i : Instruction Place Nat) : Machine :=
  match i.highest? with
  | none => m
  | some address => { m with memory := m.memory.extend address }

def value (m : Machine) : Place → Int
  | .constant value => value
  | .cell address => m.memory.read address

/-- The effect of an instruction whose operands are covered by memory. -/
def perform (m : Machine) (i : Instruction Place Nat) : Machine :=
  match i with
  | .compute operation left right target =>
    { m with
      memory := m.memory.write target (operation.eval (m.value left) (m.value right))
      ip := m.ip + 4 }
  | .input target =>
    match m.inputs with
    | [] => m
    | value :: rest =>
      { m with memory := m.memory.write target value, inputs := rest, ip := m.ip + 2 }
  | .output value => { m with outputs := m.outputs.push (m.value value), ip := m.ip + 2 }
  | .jump sense condition destination =>
    { m with
      ip := if (m.value condition != 0) = sense then m.value destination else m.ip + 3 }
  | .adjustBase amount => { m with base := m.base + m.value amount, ip := m.ip + 2 }
  | .halt => m

/-- How an instruction that is not executed leaves the machine: at its end, or without the
input that it asks for. -/
def stall? (m : Machine) : Instruction Mode Target → Option Outcome
  | .halt => some .halted
  | .input _ => if m.inputs.isEmpty then some .awaitingInput else none
  | _ => none

/-- Execute the instruction at the pointer, whatever the budget. -/
def execute (m : Machine) : Except Fault Outcome × Machine :=
  match m.fetch with
  | .error fault => (.error fault, m)
  | .ok i =>
    match m.stall? i with
    | some outcome => (.ok outcome, m)
    | none =>
      match m.resolve i with
      | .error fault => (.error fault, m)
      | .ok located => (.ok .running, (m.cover located).perform located)

end Intcode.Machine
