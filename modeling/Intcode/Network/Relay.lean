import Intcode.Network.Effect
import Intcode.Pipeline.Stage

/-!
# Relays

A relay stands at the end of a pipeline and receives what its last stage sends. In a chain it
closes the channel of the first stage at once, because nothing more will be sent there, and
then receives to the end. In a loop it sends each value back to the first stage; a refused
value means that the first stage is at its end, and is the last one. When it is done, the
relay of a loop closes the channel of the first stage, so that no stage waits for ever.

Embeds the controller in `run_chain` and in `run_feedback_loop`.
-/
namespace Intcode

namespace Relay

inductive Activity where
  /-- Close the channel of the first stage. -/
  | closingHead
  /-- Look for a value from the last stage. -/
  | receiving
  /-- Send a value to the first stage. -/
  | forwarding (value : Int)
  /-- Nothing more. -/
  | ended
  deriving DecidableEq, Repr

end Relay

/-- A relay, the numbers of the channels of the last and the first stage, and the last value
received. -/
structure Relay where
  tail : Nat
  head : Nat
  loops : Bool
  activity : Relay.Activity
  last : Option Int := none
  deriving DecidableEq, Repr

namespace Relay

def ofChain (tail head : Nat) : Relay :=
  ⟨tail, head, false, .closingHead, none⟩

def ofLoop (tail head : Nat) : Relay :=
  ⟨tail, head, true, .receiving, none⟩

def isAlive (r : Relay) : Bool :=
  r.activity != .ended

def awaits (r : Relay) : Option Nat :=
  match r.activity with
  | .receiving => some r.tail
  | _ => none

def receive (self : Nat) (r : Relay) (channels : Channels) : Relay × Effect :=
  match channels.receive self r.tail with
  | (.value value, effect) =>
    let next := if r.loops then .forwarding value else .receiving
    ({ r with activity := next, last := some value }, effect)
  | (.endOfStream, effect) =>
    ({ r with activity := if r.loops then .closingHead else .ended }, effect)
  | (.nothing, effect) => (r, effect)

def forward (r : Relay) (value : Int) (channels : Channels) : Relay × Effect :=
  match channels.send r.head value with
  | (none, effect) => ({ r with activity := .receiving }, effect)
  | (some _, effect) =>
    ({ r with activity := .closingHead }, effect.write #[Pipeline.finalEntry value])

def move (self : Nat) (r : Relay) (channels : Channels) : Relay × Effect :=
  match r.activity with
  | .closingHead =>
    ({ r with activity := if r.loops then .ended else .receiving }, channels.close r.head)
  | .receiving => r.receive self channels
  | .forwarding value => r.forward value channels
  | .ended => (r, .none channels)

end Relay

end Intcode
