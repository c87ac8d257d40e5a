import Intcode.Machine.Step
import Intcode.Network.Effect

/-!
# Amplifiers

An amplifier runs a machine between two channels. When the machine lacks an input, the
amplifier sends the outputs so far, in order, and then waits for a value on its inbound
channel. When the machine halts, the amplifier stops listening, so that whoever feeds it
learns of it, and then sends the last outputs. Whatever makes it stop, it closes both of its
channel ends at the end: a failed instruction, a refused value, the end of its inbound stream
or a halt.

A fault is kept if it is one of the interpreter. Other faults end the amplifier in the same
way but leave no trace on it.

Embeds the class `Amplifier` with `_drive`, `_flush` and `_run`. The thread itself is the
agent in its network.
-/
namespace Intcode

namespace Amplifier

inductive Activity where
  /-- Wait to be started. -/
  | unstarted
  /-- Announce itself. -/
  | starting
  /-- Execute an instruction. -/
  | executing
  /-- Stop listening, after a halt. -/
  | hangingUp
  /-- Send outputs, after a halt or for lack of an input. -/
  | sending (values : List Int) (halted : Bool)
  /-- Look for an input. -/
  | receiving
  /-- Close the inbound channel, on the way out. -/
  | closingInbound
  /-- Close the outbound channel, on the way out. -/
  | closingOutbound
  /-- Nothing more. -/
  | ended
  deriving DecidableEq, Repr

end Amplifier

/-- An amplifier and the numbers of its channels. -/
structure Amplifier where
  name : String
  machine : Machine
  inbound : Nat
  outbound : Nat
  activity : Amplifier.Activity := .unstarted
  error : Option Fault := none
  deriving DecidableEq, Repr

namespace Amplifier

def isAlive (a : Amplifier) : Bool :=
  a.activity != .unstarted && a.activity != .ended

def awaits (a : Amplifier) : Option Nat :=
  match a.activity with
  | .receiving => some a.inbound
  | _ => none

def entry (level : Log.Level) (text : String) : Log :=
  #[⟨level, .amplifier, text⟩]

def startedLines (name : String) : Log :=
  entry .info s!"Amplifier {name} started"

/-- What is written after the last outputs of a halted machine. -/
def haltedLines (a : Amplifier) : Log :=
  entry .info s!"Amplifier {a.name} halted after {a.machine.steps} steps"

/-- What is written at the end of the inbound stream. -/
def starvedLines (name : String) : Log :=
  entry .info s!"Amplifier {name}: upstream closed while waiting for input"

/-- What is written about a fault that is kept. A refused value is a warning. -/
def faultLines (name : String) (fault : Fault) : Log :=
  if fault.isChannelClosed then entry .warning (s!"Amplifier {name}: " ++ fault.message)
  else entry .error (s!"Amplifier {name} failed: " ++ fault.message)

def fail (a : Amplifier) (fault : Fault) (effect : Effect) : Amplifier × Effect :=
  if fault.isInterpreterFault then
    ({ a with activity := .closingInbound, error := some fault },
      effect.write (faultLines a.name fault))
  else ({ a with activity := .closingInbound }, effect)

/-- Go on with the outputs that are still to be sent. Without any, a halted machine is left
and another one waits for an input. -/
def sendRest (a : Amplifier) (values : List Int) (halted : Bool) (effect : Effect) :
    Amplifier × Effect :=
  match values, halted with
  | _ :: _, _ => ({ a with activity := .sending values halted }, effect)
  | [], true => ({ a with activity := .closingInbound }, effect.write a.haltedLines)
  | [], false => ({ a with activity := .receiving }, effect)

/-- Take the outputs of the machine to send them. -/
def flush (a : Amplifier) (halted : Bool) (effect : Effect) : Amplifier × Effect :=
  sendRest { a with machine := a.machine.drained } a.machine.outputs.toList halted effect

def execute (a : Amplifier) (channels : Channels) : Amplifier × Effect :=
  let ⟨name, machine, inbound, outbound, _, error⟩ := a
  let effect := (Effect.none channels).write (Log.note #[] machine.traceLine?)
  match machine.step with
  | (.ok .running, next) => (⟨name, next, inbound, outbound, .executing, error⟩, effect)
  | (.ok .halted, next) => (⟨name, next, inbound, outbound, .hangingUp, error⟩, effect)
  | (.ok .awaitingInput, next) =>
    flush ⟨name, next, inbound, outbound, .executing, error⟩ false effect
  | (.error fault, next) =>
    fail ⟨name, next, inbound, outbound, .executing, error⟩ fault effect

def send (a : Amplifier) (value : Int) (rest : List Int) (halted : Bool)
    (channels : Channels) : Amplifier × Effect :=
  match channels.send a.outbound value with
  | (none, effect) => a.sendRest rest halted effect
  | (some fault, effect) => a.fail fault effect

def receive (self : Nat) (a : Amplifier) (channels : Channels) : Amplifier × Effect :=
  match channels.receive self a.inbound with
  | (.value value, effect) =>
    ({ a with machine := a.machine.feed [value], activity := .executing }, effect)
  | (.endOfStream, effect) =>
    ({ a with activity := .closingInbound }, effect.write (starvedLines a.name))
  | (.nothing, effect) => (a, effect)

def move (self : Nat) (a : Amplifier) (channels : Channels) : Amplifier × Effect :=
  match a.activity with
  | .unstarted | .ended => (a, .none channels)
  | .starting =>
    ({ a with activity := .executing }, (Effect.none channels).write (startedLines a.name))
  | .executing => a.execute channels
  | .hangingUp => a.flush true (channels.closeReceiver a.inbound)
  | .sending [] halted => a.sendRest [] halted (.none channels)
  | .sending (value :: rest) halted => a.send value rest halted channels
  | .receiving => a.receive self channels
  | .closingInbound =>
    ({ a with activity := .closingOutbound }, channels.closeReceiver a.inbound)
  | .closingOutbound => ({ a with activity := .ended }, channels.close a.outbound)

def describe (a : Amplifier) : String :=
  let state :=
    if a.isAlive then "running"
    else if a.error.isSome then "failed"
    else "stopped"
  "Amplifier(" ++ Text.quoted a.name ++ s!", {state})"

end Amplifier

end Intcode
