import Intcode.Log
import Intcode.Machine.Execute

/-!
# Counted and traced steps

A step executes one instruction within the budget, counts it if it was executed, and
remembers what it came to. Once the budget is spent, a program may still be at its end or
ask for an input: neither is counted. With tracing on, a step that is about to be tried
writes one log entry; a failed fetch and a spent budget come first and write none.

Embeds the method `step` of a machine. That the budget is spent is raised with the budget in
its wording (`Fault.raised`): a budget too long to be written is refused for that instead.
-/
namespace Intcode.Machine

/-- Why the budget forbids to try the instruction at the pointer. The instruction is only
looked at when the budget is spent. -/
def budgetFault? (m : Machine) : Option Fault :=
  match m.budget with
  | none => none
  | some budget =>
    if budget ≤ m.steps then
      match m.fetch with
      | .error fault => some fault
      | .ok i =>
        match m.stall? i with
        | some _ => none
        | none => some (Fault.raised (.stepLimit m.steps budget))
    else none

def traceLine? (m : Machine) : Option Log.Entry :=
  if m.tracing then
    match m.budgetFault?, m.fetch with
    | none, .ok i =>
      some ⟨.debug, .machine, s!"{m.name} ip={m.ip} base={m.base} " ++ i.describe⟩
    | _, _ => none
  else none

/-- Remember what a step came to, and count it if it executed an instruction. -/
def settleStep (m : Machine) (outcome : Outcome) : Machine :=
  match outcome with
  | .running => { m with steps := m.steps + 1, last := some .running }
  | .halted => { m with last := some .halted }
  | .awaitingInput => { m with last := some .awaitingInput }

def step (m : Machine) : Except Fault Outcome × Machine :=
  match m.budgetFault? with
  | some fault => (.error fault, m)
  | none =>
    match m.execute with
    | (.error fault, next) => (.error fault, next)
    | (.ok outcome, next) => (.ok outcome, next.settleStep outcome)

end Intcode.Machine
