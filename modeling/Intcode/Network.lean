import Intcode.Network.Amplifier
import Intcode.Network.Listener
import Intcode.Network.Relay

/-!
# Networks

A network is a number of channels and of agents that work on them. Any agent that is able to
may make the next move; a run of the network is any such interleaving. An agent is unable to
move when it has not been started, when it has ended, or while it sleeps on a channel.

From outside, values can be sent and received, channel ends closed and amplifiers started.

Embeds threads and what they share: an agent is a thread, a move is one instruction or one
operation on a channel, which holds the lock of the channel from beginning to end. Left out
are time, priorities and the scheduler: the time limit of a wait may run out at any moment
of it.
-/
namespace Intcode

inductive Agent where
  | amplifier (a : Amplifier)
  | listener (l : Listener)
  | relay (r : Relay)
  deriving DecidableEq, Repr

namespace Agent

def idle : Agent :=
  .listener { channel := 0, activity := .finished }

def isAlive : Agent → Bool
  | amplifier a => a.isAlive
  | listener l => l.isAlive
  | relay r => r.isAlive

def awaits : Agent → Option Nat
  | amplifier a => a.awaits
  | listener l => l.awaits
  | relay r => r.awaits

/-- Whether the agent may give up its sleep. -/
def isTimed : Agent → Bool
  | listener l => l.timed
  | _ => false

/-- The move of an agent with the given number: one machine instruction or one operation on
a channel. -/
def move (self : Nat) (agent : Agent) (channels : Channels) : Agent × Effect :=
  match agent with
  | amplifier a =>
    let (a, effect) := a.move self channels
    (amplifier a, effect)
  | listener l =>
    let (l, effect) := l.move self channels
    (listener l, effect)
  | relay r =>
    let (r, effect) := r.move self channels
    (relay r, effect)

end Agent

/-- Channels and agents, both by number, and what has been written to the log. -/
structure Network where
  channels : Channels := #[]
  agents : Array Agent := #[]
  log : Log := #[]
  deriving Repr

namespace Network

/-- A network after a change, what the change did on the channels, and the agents that it
has enabled to move. -/
structure Transition where
  network : Network
  deed : Deed := .internal
  woken : List Nat := []

def isAsleep (n : Network) (i : Nat) (agent : Agent) : Bool :=
  match agent.awaits with
  | some channel => (n.channels.nth channel).sleepers.contains i
  | none => false

def enabled (n : Network) (i : Nat) : Bool :=
  match n.agents[i]? with
  | none => false
  | some agent => agent.isAlive && (agent.isTimed || !n.isAsleep i agent)

/-- Let the agent with a number move. It is taken out of its place while it does. -/
def advance (n : Network) (i : Nat) : Transition :=
  let ⟨channels, agents, log⟩ := n
  if bound : i < agents.size then
    let agent := agents[i]
    let agents := agents.set i Agent.idle bound
    let (agent, ⟨channels, deed, woken, lines⟩) := agent.move i channels
    ⟨⟨channels, agents.setIfInBounds i agent, log ++ lines⟩, deed, woken⟩
  else ⟨⟨channels, agents, log⟩, .internal, []⟩

/-- The network after an operation on its channels from outside. -/
def affected (n : Network) (effect : Effect) : Transition :=
  ⟨{ n with channels := effect.channels, log := n.log ++ effect.lines }, effect.deed,
    effect.woken⟩

def addChannel (n : Network) (channel : Channel) : Network :=
  { n with channels := n.channels.push channel }

def addAgent (n : Network) (agent : Agent) : Network :=
  { n with agents := n.agents.push agent }

/-- Send a value from outside; a fault says that it was refused. -/
def send (n : Network) (number : Nat) (value : Int) : Option Fault × Transition :=
  let (fault, effect) := n.channels.send number value
  (fault, n.affected effect)

/-- Receive from outside without waiting. An open channel without a value is a fault. -/
def receive (n : Network) (number : Nat) : Except Fault (Option Int) × Transition :=
  match n.channels.poll number with
  | (.value value, effect) => (.ok (some value), n.affected effect)
  | (.endOfStream, effect) => (.ok none, n.affected effect)
  | (.nothing, effect) =>
    (.error (.receiveTimeout (n.channels.nth number).name), n.affected effect)

def close (n : Network) (number : Nat) : Transition :=
  n.affected (n.channels.close number)

def closeReceiver (n : Network) (number : Nat) : Transition :=
  n.affected (n.channels.closeReceiver number)

def amplifier? (n : Network) (i : Nat) : Option Amplifier :=
  match n.agents[i]? with
  | some (.amplifier a) => some a
  | _ => none

/-- Start an amplifier, which can be done once. -/
def start (n : Network) (i : Nat) : Except Fault Transition :=
  match n.amplifier? i with
  | none => .error .notStarted
  | some a =>
    if a.activity = .unstarted then
      let started := Agent.amplifier { a with activity := .starting }
      .ok ⟨{ n with agents := n.agents.setIfInBounds i started }, .internal, [i]⟩
    else .error .alreadyStarted

def hasEnded (n : Network) (i : Nat) : Except Fault Bool :=
  match n.amplifier? i with
  | none => .error .notStarted
  | some a => if a.activity = .unstarted then .error .notStarted else .ok (!a.isAlive)

end Network

end Intcode
