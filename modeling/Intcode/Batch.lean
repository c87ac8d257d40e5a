import Intcode.Machine.Run
import Intcode.Report

/-!
# Batch runs

A batch run gives a new machine all its inputs at once and collects all its outputs. A
program that asks for more input than there is has ended as well as one that halts.

Embeds the operation `run`.
-/
namespace Intcode.Batch

/-- The log entry for a program that ran out of input. -/
def starvedEntry (m : Machine) : Log.Entry :=
  ⟨.debug, .runner,
    s!"Input exhausted after {m.steps} steps, returning {m.outputs.size} outputs"⟩

/-- Run a machine in at most `fuel` steps and collect its outputs. -/
def collect (fuel : Nat) (m : Machine) : Report (List Int) :=
  let log := m.trace fuel #[]
  match m.run fuel with
  | (none, _) => .unfinished log
  | (some (.error fault), _) => .failure fault log
  | (some (.ok .awaitingInput), final) =>
    .answer final.outputs.toList (log.push (starvedEntry final))
  | (some (.ok _), final) => .answer final.outputs.toList log

def run (settings : Settings) (fuel : Nat) (program : Program) (inputs : List Int)
    (budget : Option Int) : Report (List Int) :=
  match Machine.load settings program { inputs, budget } with
  | .error fault => .failure fault #[]
  | .ok m => collect fuel m

end Intcode.Batch
