import Intcode.Instruction

/-!
# Decoding

An instruction word holds the number of the operation in its two lowest decimal digits and
the mode of the first, second and third operand in the next three. Digits for operands that
the operation does not have are ignored. The digits of all operands are looked at before a
written operand is refused for being immediate.

Embeds the operations `decode` and `parameter_modes`. A refusal has the word and the pointer
in its wording and is raised (`Fault.raised`), so that a word or a pointer too long to be
written is refused for that instead.
-/
namespace Intcode

namespace Instruction

/-- The operation with the given number, its operands left open. -/
def ofOpcode? (opcode : Int) : Option (Instruction Unit Unit) :=
  match opcode.toNat with
  | 1 => some (.compute .add () () ())
  | 2 => some (.compute .multiply () () ())
  | 3 => some (.input ())
  | 4 => some (.output ())
  | 5 => some (.jump true () ())
  | 6 => some (.jump false () ())
  | 7 => some (.compute .lessThan () () ())
  | 8 => some (.compute .equals () () ())
  | 9 => some (.adjustBase ())
  | 99 => some .halt
  | _ => none

/-- The weight of the digit that holds the mode of an operand, numbered from one. -/
def modeWeight : Nat → Int
  | 0 | 1 => 100
  | 2 => 1000
  | _ => 10000

def modeDigit (word : Int) (operand : Nat) : Int :=
  word / modeWeight operand % 10

/-- The mode digits of the three operands that a word has room for. -/
def modeDigits (word : Int) : List Int :=
  [modeDigit word 1, modeDigit word 2, modeDigit word 3]

def readMode (word pointer : Int) (operand : Nat) : Except Fault Mode :=
  match Mode.ofDigit? (modeDigit word operand) with
  | some mode => .ok mode
  | none => .error (Fault.raised (.unsupportedMode word (modeDigit word operand) pointer))

def readTarget (word pointer : Int) (mode : Mode) : Except Fault Target :=
  match mode.target? with
  | some target => .ok target
  | none => .error (Fault.raised (.immediateTarget word pointer))

/-- The instruction that a word describes. The pointer says where the word stands and is
only reported. -/
def decode (word pointer : Int) : Except Fault (Instruction Mode Target) :=
  if word < 0 then .error (Fault.raised (.unknownOpcode word pointer))
  else
    match ofOpcode? (word % 100) with
    | none => .error (Fault.raised (.unknownOpcode (word % 100) pointer))
    | some shape =>
      match shape.traverse (fun k _ => readMode word pointer k)
          (fun k _ => readMode word pointer k) with
      | .error fault => .error fault
      | .ok moded => moded.traverse (fun _ mode => .ok mode) (fun _ => readTarget word pointer)

end Instruction

end Intcode
