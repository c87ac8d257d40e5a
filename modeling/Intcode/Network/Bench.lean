import Intcode.Network.Settle

/-!
# A network on the bench

A network that is built and used step by step from outside, its parts referred to by labels.
Between two uses it is at rest.

Embeds `spawn`, and a channel or an amplifier as a caller from outside uses it.
-/
namespace Intcode

/-- A network and the labels of its channels, amplifiers and listeners. -/
structure Bench where
  network : Network := {}
  channelLabels : List (String × Nat) := []
  amplifierLabels : List (String × Nat) := []
  listenerLabels : List (String × Nat) := []
  deriving Repr

namespace Bench

/-- Attach a label to a number; a label that is used again moves to the new number. -/
def relabel (labels : List (String × Nat)) (label : String) (number : Nat) :
    List (String × Nat) :=
  labels.filter (·.1 != label) ++ [(label, number)]

def channel? (b : Bench) (label : String) : Option Nat :=
  b.channelLabels.lookup label

def amplifier? (b : Bench) (label : String) : Option Nat :=
  b.amplifierLabels.lookup label

def addChannel (b : Bench) (label name : String) : Bench :=
  { b with
    network := b.network.addChannel { name }
    channelLabels := relabel b.channelLabels label b.network.channels.size }

/-- The number of a channel: the given one, or that of a new one under the given label. -/
def channelOrNew (b : Bench) (given : Option Nat) (label : String) : Nat × Bench :=
  match given with
  | some number => (number, b)
  | none => (b.network.channels.size, b.addChannel label label)

structure AmplifierSetup where
  inbound : Option Nat := none
  outbound : Option Nat := none
  budget : Option Int := none
  deriving Repr

/-- Put a new amplifier on the bench, with new channels where none are given. -/
def addAmplifier (b : Bench) (settings : Settings) (label : String) (program : Program)
    (setup : AmplifierSetup) : Except Fault Bench :=
  match Machine.load settings program { name := label, budget := setup.budget } with
  | .error fault => .error fault
  | .ok machine =>
    let (inbound, b) := b.channelOrNew setup.inbound (label ++ ".in")
    let (outbound, b) := b.channelOrNew setup.outbound (label ++ ".out")
    .ok { b with
      network := b.network.addAgent (.amplifier { name := label, machine, inbound, outbound })
      amplifierLabels := relabel b.amplifierLabels label b.network.agents.size }

def settle (b : Bench) (fuel : Nat) (t : Network.Transition) : Option Bench :=
  (t.settle fuel).map fun network => { b with network }

/-- Put a new listener on the bench, which starts to listen at once. -/
def addListener (b : Bench) (label : String) (channel : Nat) (extent : Listener.Extent) :
    Bench × Network.Transition :=
  let number := b.network.agents.size
  ({ b with listenerLabels := relabel b.listenerLabels label number },
    ⟨b.network.addAgent (.listener { channel, extent }), .internal, [number]⟩)

def sendAll (n : Network) (channel : Nat) (woken : List Nat) :
    List Int → Option Fault × Network.Transition
  | [] => (none, ⟨n, .internal, woken⟩)
  | value :: rest =>
    match n.send channel value with
    | (some fault, t) => (some fault, ⟨t.network, .internal, woken⟩)
    | (none, t) => sendAll t.network channel (woken ++ t.woken) rest

/-- Receive, without waiting, all that a channel still has. -/
def drain (n : Network) (channel : Nat) : List Int × Network :=
  let found := n.channels.nth channel
  (found.buffer, { n with channels := n.channels.put channel { found with buffer := [] } })

def closeAll (n : Network) : List Nat → Network.Transition
  | [] => ⟨n, .internal, []⟩
  | channel :: rest =>
    let closed := n.close channel
    let others := closeAll closed.network rest
    ⟨others.network, .internal, closed.woken ++ others.woken⟩

/-- Close every channel, so that no agent is left waiting. -/
def shutDown (b : Bench) (fuel : Nat) : Option Bench :=
  b.settle fuel (closeAll b.network (List.range b.network.channels.size))

def listenerAt (n : Network) (number : Nat) : Option Listener :=
  match n.agents[number]? with
  | some (.listener l) => some l
  | _ => none

end Bench

end Intcode
