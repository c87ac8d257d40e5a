import Intcode.Network.Settle
import Intcode.Report

/-!
# Stages at the same time

Every stage is an amplifier, connected to the next one by a channel, and a relay receives
what the last stage sends. Each channel holds the phase setting of its stage before anything
moves, and the first one the signal after it. In a chain the relay only receives; in a loop
it feeds the first stage. The pipeline is over when all stages and the relay have ended; its
signal is the last value that the relay received, unless a stage failed.

Embeds the operations `run_chain` and `run_feedback_loop`, with `_spawn_chain` and
`_join_and_check`. All stages are there from the start; a thread that is spawned late is an
agent that moves late.
-/
namespace Intcode.Pipeline

/-- What the relay does with the values it receives. -/
inductive Wiring where
  | chain
  | loop
  deriving DecidableEq, Repr

def Wiring.relay (wiring : Wiring) (stages : Nat) : Relay :=
  match wiring with
  | .chain => Relay.ofChain stages 0
  | .loop => Relay.ofLoop stages 0

def Wiring.title : Wiring → String
  | .chain => "Chain"
  | .loop => "Feedback loop"

/-- The values that wait for a stage before anything moves. -/
def primed (signal : Int) (index : Nat) (phase : Int) : List Int :=
  if index = 0 then [phase, signal] else [phase]

def stageChannels (signal : Int) (index : Nat) : List Int → List Channel
  | [] => []
  | phase :: rest =>
    { name := "->" ++ stageName index, buffer := primed signal index phase } ::
      stageChannels signal (index + 1) rest

/-- The amplifier of a stage, between its channel and that of the next one. -/
def stageAmplifier (settings : Settings) (cells : List Int) (index : Nat) : Amplifier where
  name := stageName index
  machine := Machine.ofCells settings cells { name := stageName index }
  inbound := index
  outbound := index + 1
  activity := .starting

def relayChannel : Channel where
  name := "controller"

/-- The network of a pipeline before anything moves. The relay is the last agent. -/
def network (wiring : Wiring) (settings : Settings) (cells : List Int) (phases : List Int)
    (signal : Int) : Network where
  channels := (stageChannels signal 0 phases ++ [relayChannel]).toArray
  agents :=
    ((List.range phases.length).map (fun i => Agent.amplifier (stageAmplifier settings cells i)) ++
      [Agent.relay (wiring.relay phases.length)]).toArray

/-- The failure of an agent that a pipeline answers for. That a value was refused is no
failure: its receiver had all it needed. -/
def stageFailure? : Agent → Option Fault
  | .amplifier a =>
    match a.error with
    | some fault => if fault.isChannelClosed then none else some (.stageFailed a.name fault)
    | none => none
  | _ => none

def relayed? : Agent → Option Int
  | .relay r => r.last
  | _ => none

def isOver (n : Network) : Bool :=
  n.agents.all fun agent => !agent.isAlive

/-- The signal of a pipeline that is over, or the failure of the first stage that failed. -/
def verdict (n : Network) : Except Fault (Option Int) :=
  match n.agents.toList.findSome? stageFailure? with
  | some fault => .error fault
  | none => .ok (n.agents.toList.findSome? relayed?)

def finishedEntry (wiring : Wiring) (phases : List Int) (signal : Option Int) : Log.Entry :=
  ⟨.info, .pipeline,
    wiring.title ++ " " ++ listText phases ++ " finished with signal " ++ signalText signal⟩

/-- What a pipeline that has come to rest reports. One that rests before it is over never
ends. -/
def conclude (wiring : Wiring) (phases : List Int) (n : Network) : Report (Option Int) :=
  if !isOver n then .unfinished n.log
  else
    match verdict n with
    | .error fault => .failure fault n.log
    | .ok signal => .answer signal (n.log.push (finishedEntry wiring phases signal))

def concurrent (wiring : Wiring) (settings : Settings) (fuel : Nat) (program : Program)
    (phases : List Int) (signal : Int) : Report (Option Int) :=
  if phases.isEmpty then .failure .noPhases #[]
  else
    match program.load with
    | .error fault => .failure fault #[]
    | .ok cells =>
      match Network.settle fuel (List.range (phases.length + 1))
          (network wiring settings cells phases signal) with
      | none => .unfinished #[]
      | some n => conclude wiring phases n

end Intcode.Pipeline
