import Intcode.Memory
import Intcode.Program
import Intcode.Settings
import Intcode.Text.Quoted

/-!
# Machines

A machine owns everything that one run of a program needs: memory, an instruction pointer,
a base for relative addresses, the inputs that wait to be read and the outputs that wait to
be taken. Beside them stand a count of the executed instructions with an optional budget for
it, the trace switch, and what the last completed step came to.

Embeds the class `Machine` with `feed`, `drain_output`, `halted` and `waiting_for_input`;
its `step` and `run_until_blocked` have modules of their own. A machine is put into words
only if its pointer and base can be written.
-/
namespace Intcode

/-- What a step that did not fail comes to. -/
inductive Outcome where
  /-- An instruction was executed. -/
  | running
  /-- The program is at its end. -/
  | halted
  /-- The program asks for an input that is not there. -/
  | awaitingInput
  deriving DecidableEq, Repr

/-- The state of a machine. The pointer is any integer: a jump may lead anywhere, and only
the next fetch looks at where it led. -/
structure Machine where
  name : String := "intcode"
  memory : Memory
  ip : Int := 0
  base : Int := 0
  inputs : List Int := []
  outputs : Array Int := #[]
  steps : Nat := 0
  budget : Option Int := none
  tracing : Bool := false
  last : Option Outcome := none
  deriving DecidableEq, Repr

namespace Machine

/-- What a new machine is made of besides its program. What is left open comes from the
settings. -/
structure Setup where
  inputs : List Int := []
  name : String := "intcode"
  budget : Option Int := none
  trace : Option Bool := none
  deriving DecidableEq, Repr

def ofCells (settings : Settings) (cells : List Int) (setup : Setup) : Machine where
  name := setup.name
  memory := ⟨cells.toArray, settings.room⟩
  inputs := setup.inputs
  budget := setup.budget.or settings.maxSteps
  tracing := setup.trace.getD settings.trace

def load (settings : Settings) (program : Program) (setup : Setup) : Except Fault Machine :=
  match program.load with
  | .error fault => .error fault
  | .ok cells => .ok (ofCells settings cells setup)

/-- Whether the last completed step found the program at its end. -/
def halted (m : Machine) : Bool :=
  m.last = some .halted

/-- Whether the last completed step asked for an input, and there still is none. -/
def waiting (m : Machine) : Bool :=
  m.last = some .awaitingInput && m.inputs.isEmpty

/-- Queue inputs behind those that wait already. -/
def feed (m : Machine) (values : List Int) : Machine :=
  { m with inputs := m.inputs ++ values }

def drained (m : Machine) : Machine :=
  { m with outputs := #[] }

/-- Make sure of an address from outside a run, then assign the cell. -/
def poke (m : Machine) (address value : Int) : Except Fault Machine :=
  match m.memory.ensure address (-1) with
  | .error fault => .error fault
  | .ok memory =>
    match memory.set address value with
    | .error fault => .error fault
    | .ok memory => .ok { m with memory }

def describe (m : Machine) : Except Fault String :=
  if Text.isWritable m.ip && Text.isWritable m.base then
    .ok ("Machine(" ++ Text.quoted m.name ++ s!", ip={m.ip}, base={m.base}, " ++
      s!"memory={m.memory.size}, pending_inputs={m.inputs.length})")
  else .error .overlongNumber

end Machine

end Intcode
