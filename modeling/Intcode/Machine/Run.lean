import Intcode.Machine.Step

/-!
# Runs

A run takes steps until one does not execute an instruction. It need not end, so it is
given a number of steps that it may take: `none` says that these were not enough, and more
of them never change an answer that is there.

Embeds the method `run_until_blocked`.
-/
namespace Intcode.Machine

abbrev RunResult := Option (Except Fault Outcome) × Machine

/-- Take up to `fuel` steps, until the machine is at its end, lacks an input or fails. -/
def run : (fuel : Nat) → Machine → RunResult
  | 0, m => (none, m)
  | fuel + 1, m =>
    match m.step with
    | (.ok .running, next) => run fuel next
    | (.ok .halted, next) => (some (.ok .halted), next)
    | (.ok .awaitingInput, next) => (some (.ok .awaitingInput), next)
    | (.error fault, next) => (some (.error fault), next)

/-- The log with what a run writes added to it. -/
def runLog : (fuel : Nat) → Machine → Log → Log
  | 0, _, log => log
  | fuel + 1, m, log =>
    let log := log.note m.traceLine?
    match m.step with
    | (.ok .running, next) => runLog fuel next log
    | _ => log

/-- The log with what a run writes added to it; without tracing that is nothing. -/
def trace (fuel : Nat) (m : Machine) (log : Log) : Log :=
  if m.tracing then runLog fuel m log else log

end Intcode.Machine
