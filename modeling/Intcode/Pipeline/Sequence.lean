import Intcode.Batch
import Intcode.Pipeline.Stage

/-!
# Stages one after the other

Each stage runs to its end before the next one starts. It is given its phase setting and the
last output of the stage before it; a stage without output ends the sequence without a
signal.

Embeds the operation `run_in_sequence`.
-/
namespace Intcode.Pipeline

/-- Run the stages with the given phase settings, the first of which is sent the signal.
The log so far is handed on. -/
def sequenceFrom (settings : Settings) (fuel : Nat) (program : Program) :
    List Int → Int → Log → Report (Option Int)
  | [], signal, log => .answer (some signal) log
  | phase :: rest, signal, log =>
    match Batch.run settings fuel program [phase, signal] none with
    | ⟨none, lines⟩ => .unfinished (log ++ lines)
    | ⟨some (.error fault), lines⟩ => .failure fault (log ++ lines)
    | ⟨some (.ok outputs), lines⟩ =>
      match outputs.getLast? with
      | none => .answer none (log ++ lines)
      | some next => sequenceFrom settings fuel program rest next (log ++ lines)

def sequence (settings : Settings) (fuel : Nat) (program : Program) (phases : List Int)
    (signal : Int) : Report (Option Int) :=
  if phases.isEmpty then .failure .noPhases #[]
  else sequenceFrom settings fuel program phases signal #[]

end Intcode.Pipeline
