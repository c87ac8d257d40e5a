import Intcode.Text.Fields
import Intcode.Text.Numeral
import Intcode.Text.Quoted
import Intcode.Text.Utf8

/-!
# Faults

Everything that can go wrong, by cause. A fault carries what its report shows; the wording
is in `Fault.message` alone. `Fault.family` sorts the faults by who is to answer for them:
an amplifier keeps, and a pipeline reports, only the faults of the interpreter itself.

Embeds `IntcodeError` and the classes under it, and beside them what the built-in operations
fail with. Classes that only group others are left out: `isInterpreterFault` is the test for
the whole family.

A fault is worded when it is raised. If a number in its wording is too long to be written,
it is not raised as it is: `Fault.raised` is `unworded` then, a fault about a value.
`Fault.numbers` lists the integers that can be of any length. Positions in a text, and how
many digits a literal has, are counted by going through the text and taken to be writable.
-/
namespace Intcode

inductive Fault where
  /-- There is no program text at all. -/
  | noProgram
  /-- The program text is blank. -/
  | emptyProgram
  /-- A part of the program text is not a literal. -/
  | malformedLiteral (literal : String) (index : Nat)
  /-- A cell of the program does not fit in 64 bits. -/
  | wideLiteral (literal : String) (index : Nat)
  /-- A literal has too many digits to be read. -/
  | overlongLiteral (digits : Nat)
  /-- A number has too many digits to be written. -/
  | overlongNumber
  /-- A number in the wording of a fault has too many digits to be written. -/
  | unworded (cause : Fault)
  /-- An operand of an instruction word has a mode digit without a meaning. -/
  | unsupportedMode (word mode pointer : Int)
  /-- An instruction word asks to write to an immediate operand. -/
  | immediateTarget (word pointer : Int)
  /-- An instruction, or a part of it, would be read outside memory. -/
  | pointerOutOfBounds (pointer : Int) (length : Nat)
  /-- An operand refers to a negative address. -/
  | negativeAddress (address pointer : Int)
  /-- An instruction word has no operation. -/
  | unknownOpcode (opcode pointer : Int)
  /-- The step budget is spent. -/
  | stepLimit (steps : Nat) (budget : Int)
  /-- A value was sent on a channel of which an end is closed. -/
  | channelClosed (channel : String) (value : Int)
  /-- A stage of a pipeline failed. -/
  | stageFailed (stage : String) (cause : Fault)
  /-- Every stage of a ring waits for input. -/
  | deadlock (phases : List Int)
  /-- A pipeline was given no phase setting. -/
  | noPhases
  /-- A stage index counts from the end of the alphabet past its start. -/
  | noStageName
  /-- A text to be sent has a character outside ASCII. -/
  | nonAscii (character : Char) (position : Nat)
  /-- A file does not hold UTF-8. -/
  | undecodable (defect : Text.Utf8.Defect)
  /-- A cell outside memory was asked for. -/
  | readOutOfRange
  /-- A cell outside memory was assigned. -/
  | writeOutOfRange
  /-- An address does not fit in a signed machine word. -/
  | addressTooWide
  /-- Memory would have to grow by more cells than a signed machine word counts. -/
  | growthTooWide
  /-- Memory would have to grow by more cells than can be allocated. -/
  | memoryExhausted
  /-- Nothing arrived on a channel in time. -/
  | receiveTimeout (channel : String)
  /-- An amplifier was started a second time. -/
  | alreadyStarted
  /-- An amplifier was waited for before it was started. -/
  | notStarted
  deriving DecidableEq, Repr

namespace Fault

/-- Who answers for a fault. -/
inductive Family where
  /-- The program, its run, or the traffic between stages. -/
  | interpreter
  /-- A value that was handed in. -/
  | value
  /-- An address or index handed in from outside a run. -/
  | index
  /-- The allocator. -/
  | allocation
  /-- A wait with a time limit. -/
  | timeout
  /-- The order in which an amplifier is started and waited for. -/
  | lifecycle
  deriving DecidableEq, Repr

def family : Fault → Family
  | noProgram | emptyProgram | malformedLiteral .. | wideLiteral .. | unsupportedMode ..
  | immediateTarget .. | pointerOutOfBounds .. | negativeAddress .. | unknownOpcode ..
  | stepLimit .. | channelClosed .. | stageFailed .. | deadlock .. => .interpreter
  | overlongLiteral .. | overlongNumber | unworded .. | noPhases | nonAscii .. | undecodable .. =>
    .value
  | noStageName | readOutOfRange | writeOutOfRange | addressTooWide => .index
  | growthTooWide | memoryExhausted => .allocation
  | receiveTimeout .. => .timeout
  | alreadyStarted | notStarted => .lifecycle

/-- Whether a fault is of the interpreter's own family, the one that an amplifier keeps. -/
def isInterpreterFault (fault : Fault) : Bool :=
  fault.family = .interpreter

/-- Whether a fault is the refusal of a value by a closed channel. -/
def isChannelClosed : Fault → Bool
  | channelClosed .. => true
  | _ => false

/-- The numbers in the wording of a fault that can be of any length. -/
def numbers : Fault → List Int
  | unsupportedMode word mode pointer => [word, mode, pointer]
  | immediateTarget word pointer => [word, pointer]
  | pointerOutOfBounds pointer length => [pointer, length]
  | negativeAddress address pointer => [address, pointer]
  | unknownOpcode opcode pointer => [opcode, pointer]
  | stepLimit steps budget => [steps, budget]
  | deadlock phases => phases
  | _ => []

/-- Whether all numbers in the wording of a fault can be written. -/
def isWordable (fault : Fault) : Bool :=
  fault.numbers.all Text.isWritable

/-- What comes of raising a fault. It is worded when it is raised, and that fails if one of its
numbers cannot be written. -/
def raised (fault : Fault) : Fault :=
  if fault.isWordable then fault else unworded fault

def message : Fault → String
  | noProgram => "No program text given"
  | emptyProgram => "Program text is empty"
  | malformedLiteral literal index =>
    "Invalid integer literal " ++ Text.quoted literal ++ s!" at position {index}"
  | wideLiteral literal index =>
    s!"Literal {literal} at position {index} does not fit in 64 bits"
  | overlongLiteral digits =>
    s!"Exceeds the limit ({Text.digitLimit} digits) for integer string conversion: " ++
      s!"value has {digits} digits; use sys.set_int_max_str_digits() to increase the limit"
  | overlongNumber | unworded _ =>
    s!"Exceeds the limit ({Text.digitLimit} digits) for integer string conversion; " ++
      "use sys.set_int_max_str_digits() to increase the limit"
  | unsupportedMode word mode pointer =>
    s!"Parameter mode {mode} not supported (instruction {word} at {pointer})"
  | immediateTarget word pointer =>
    s!"Write target in immediate mode (instruction {word} at {pointer})"
  | pointerOutOfBounds pointer length =>
    s!"Instruction pointer {pointer} out of bounds, memory length {length}"
  | negativeAddress address pointer =>
    s!"Invalid memory address {address} (instruction at {pointer})"
  | unknownOpcode opcode pointer => s!"Unknown opcode {opcode} at {pointer}"
  | stepLimit steps budget => s!"Step limit exceeded: {steps}/{budget}"
  | channelClosed channel _ => s!"Cannot send on closed channel '{channel}'"
  | stageFailed stage cause => s!"Amplifier '{stage}' failed: " ++ cause.message
  | deadlock phases =>
    "Pipeline with phases [" ++ Text.joinIntegers ", " phases ++ "] deadlocked"
  | noPhases => "At least one phase setting is required"
  | noStageName => "string index out of range"
  | nonAscii character position =>
    "Non-ASCII character " ++ Text.quoted character.toString ++ s!" at position {position}"
  | undecodable defect => defect.message
  | readOutOfRange => "list index out of range"
  | writeOutOfRange => "list assignment index out of range"
  | addressTooWide | growthTooWide => "cannot fit 'int' into an index-sized integer"
  | memoryExhausted => ""
  | receiveTimeout channel => s!"Timeout receiving from channel '{channel}'"
  | alreadyStarted => "threads can only be started once"
  | notStarted => "cannot join thread before it is started"

end Fault

end Intcode
