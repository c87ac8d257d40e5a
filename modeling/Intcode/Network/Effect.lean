import Intcode.Network.Channel

/-!
# Operations on the channels of a network

The channels of a network are numbered. An operation on one of them has an effect: the
channels afterwards, what was done, the sleeping receivers that were woken, and what was
written to the log.
-/
namespace Intcode

abbrev Channels := Array Channel

inductive Deed where
  /-- Nothing. -/
  | internal
  | sent (channel : Nat) (value : Int)
  /-- A value was not accepted, because an end was closed. -/
  | refused (channel : Nat) (value : Int)
  | received (channel : Nat) (value : Int)
  /-- The end of the stream was found. -/
  | foundEnd (channel : Nat)
  /-- An open channel was found empty. -/
  | foundNothing (channel : Nat)
  /-- A sleep was given up. -/
  | roused (channel : Nat)
  /-- The sender's side was closed. -/
  | closed (channel : Nat)
  /-- The receiver's side was closed and values were dropped. -/
  | hungUp (channel : Nat) (dropped : List Int)
  deriving DecidableEq, Repr

/-- The channels after an operation, what was done, the receivers that were woken, and what
was written to the log. -/
structure Effect where
  channels : Channels
  deed : Deed
  woken : List Nat := []
  lines : Log := #[]
  deriving Repr

namespace Effect

def none (channels : Channels) : Effect :=
  ⟨channels, .internal, [], #[]⟩

def write (effect : Effect) (lines : Log) : Effect :=
  { effect with lines := effect.lines ++ lines }

end Effect

namespace Channels

def nth (channels : Channels) (number : Nat) : Channel :=
  channels.getD number {}

def put (channels : Channels) (number : Nat) (channel : Channel) : Channels :=
  channels.setIfInBounds number channel

/-- Send a value; a fault says that it was refused. -/
def send (channels : Channels) (number : Nat) (value : Int) : Option Fault × Effect :=
  let channel := channels.nth number
  match channel.send value with
  | .ok sent => (none, ⟨channels.put number sent, .sent number value, channel.nextSleeper, #[]⟩)
  | .error fault => (some fault, ⟨channels, .refused number value, [], #[]⟩)

/-- Look at a channel without going to sleep, and take the next value if there is one. -/
def poll (channels : Channels) (number : Nat) : Channel.Receipt × Effect :=
  match (channels.nth number).take with
  | (.value value, taken) =>
    (.value value, ⟨channels.put number taken, .received number value, [], #[]⟩)
  | (.endOfStream, _) => (.endOfStream, ⟨channels, .foundEnd number, [], #[]⟩)
  | (.nothing, _) => (.nothing, ⟨channels, .foundNothing number, [], #[]⟩)

/-- Look at a channel, and go to sleep on it if it is open and has nothing yet. -/
def receive (channels : Channels) (self number : Nat) : Channel.Receipt × Effect :=
  match channels.poll number with
  | (.nothing, effect) =>
    (.nothing,
      { effect with channels := channels.put number ((channels.nth number).sleep self) })
  | found => found

def rouse (channels : Channels) (self number : Nat) : Effect :=
  ⟨channels.put number ((channels.nth number).rouse self), .roused number, [], #[]⟩

def close (channels : Channels) (number : Nat) : Effect :=
  let channel := channels.nth number
  ⟨channels.put number channel.close, .closed number, channel.sleepers, channel.closeLines⟩

def closeReceiver (channels : Channels) (number : Nat) : Effect :=
  let channel := channels.nth number
  ⟨channels.put number channel.closeReceiver, .hungUp number channel.buffer, channel.sleepers,
    channel.closeReceiverLines⟩

end Channels

end Intcode
