import Intcode.Machine.Run
import Intcode.Pipeline.Stage
import Intcode.Report

/-!
# A ring of stages taking turns

The last stage feeds the first one. The stages take turns in passes: each runs until it is
at its end or lacks an input, and hands its outputs to the next stage. A stage stops when it
is at its end, or when it lacks an input after the stage that feeds it has stopped. The
signal of the ring is the output that finds the first stage at its end, or else the last
output once all stages have stopped. A pass in which nothing happened ends the ring in a
deadlock.

Embeds the operation `run_feedback_round_robin`. A deadlock is raised with the phase
settings in its wording (`Fault.raised`): settings too long to be written are refused for
that instead.
-/
namespace Intcode.Pipeline

structure RingStage where
  machine : Machine
  stopped : Bool := false
  deriving Repr

/-- What a pass comes to: the stages after it, the outputs of the last one, and whether
anything happened. -/
structure Pass where
  stages : List RingStage
  tail : List Int
  progressed : Bool
  deriving Repr

def stoppedEntry (name : String) : Log.Entry :=
  ⟨.debug, .pipeline, s!"Stage {name} stopped"⟩

/-- Let the stages take their turns. `feederStopped` says of the stage before the first
listed one whether it has stopped, `handed` are its outputs, and `done` holds the stages that
have had their turn, the last one first. The log so far is handed on. -/
def passFrom (fuel : Nat) (feederStopped : Bool) (handed : List Int) (progressed : Bool)
    (done : List RingStage) : List RingStage → Log → Report Pass
  | [], log => .answer ⟨done.reverse, handed, progressed⟩ log
  | stage :: rest, log =>
    let fed := stage.machine.feed handed
    if stage.stopped then
      passFrom fuel true [] progressed (⟨fed, true⟩ :: done) rest log
    else
      let before := fed.steps
      let log := fed.trace fuel log
      match fed.run fuel with
      | (none, _) => .unfinished log
      | (some (.error fault), _) => .failure fault log
      | (some (.ok _), blocked) =>
        let outputs := blocked.outputs.toList
        let stopped := blocked.halted || feederStopped
        let log := if stopped then log.push (stoppedEntry blocked.name) else log
        let moved := !outputs.isEmpty || stopped || blocked.steps != before
        passFrom fuel stopped outputs (progressed || moved) (⟨blocked.drained, stopped⟩ :: done)
          rest log

def tailStopped (stages : List RingStage) : Bool :=
  match stages.getLast? with
  | some stage => stage.stopped
  | none => false

def pass (fuel : Nat) (stages : List RingStage) (log : Log) : Report Pass :=
  passFrom fuel (tailStopped stages) [] false [] stages log

inductive Relayed where
  /-- One of them found the first stage at its end. -/
  | final (signal : Int)
  /-- All of them were fed to the first stage; the last one is kept. -/
  | fed (stages : List RingStage) (last : Option Int)
  deriving Repr

/-- Hand outputs of the last stage to the first one. -/
def relay (stages : List RingStage) (last : Option Int) : List Int → Relayed
  | [] => .fed stages last
  | value :: rest =>
    match stages with
    | [] => .fed [] last
    | head :: others =>
      if head.machine.halted then .final value
      else relay ({ head with machine := head.machine.feed [value] } :: others) (some value) rest

/-- Let the stages take turns for at most `passes` passes. The last output of the last stage
and the log so far are handed on. -/
def ringFrom (fuel : Nat) (phases : List Int) :
    (passes : Nat) → List RingStage → Option Int → Log → Report (Option Int)
  | 0, _, _, log => .unfinished log
  | passes + 1, stages, last, log =>
    match pass fuel stages log with
    | ⟨none, log⟩ => .unfinished log
    | ⟨some (.error fault), log⟩ => .failure fault log
    | ⟨some (.ok swept), log⟩ =>
      match relay swept.stages last swept.tail with
      | .final signal => .answer (some signal) (log.push (finalEntry signal))
      | .fed stages last =>
        if stages.all (·.stopped) then .answer last log
        else if !swept.progressed then .failure (Fault.raised (.deadlock phases)) log
        else ringFrom fuel phases passes stages last log

/-- The stages of a ring, each primed with its phase setting. -/
def ringStages (settings : Settings) (cells : List Int) (index : Nat) :
    List Int → List RingStage
  | [] => []
  | phase :: rest =>
    { machine := Machine.ofCells settings cells { inputs := [phase], name := stageName index } } ::
      ringStages settings cells (index + 1) rest

/-- Queue the signal at the first stage. -/
def primeHead (signal : Int) : List RingStage → List RingStage
  | [] => []
  | head :: rest => { head with machine := head.machine.feed [signal] } :: rest

/-- Run a ring by turns. Each turn and the number of passes are bounded by `fuel`. -/
def ring (settings : Settings) (fuel : Nat) (program : Program) (phases : List Int)
    (signal : Int) : Report (Option Int) :=
  if phases.isEmpty then .failure .noPhases #[]
  else
    match program.load with
    | .error fault => .failure fault #[]
    | .ok cells =>
      ringFrom fuel phases fuel (primeHead signal (ringStages settings cells 0 phases)) none #[]

end Intcode.Pipeline
