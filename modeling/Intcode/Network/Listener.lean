import Intcode.Network.Effect

/-!
# Listeners

A listener receives from a channel on behalf of someone outside the network: one value, or
all values up to the end of the stream. A timed one may give up at any moment of its sleep,
and then looks at the channel a last time.

Embeds `receive` and the iteration over a channel, called by a thread from outside.
-/
namespace Intcode

namespace Listener

inductive Extent where
  | one
  | all
  deriving DecidableEq, Repr

inductive Activity where
  | listening
  /-- The time is up: the next look is the last. -/
  | expired
  | finished
  | timedOut
  deriving DecidableEq, Repr

end Listener

structure Listener where
  channel : Nat
  extent : Listener.Extent := .one
  timed : Bool := false
  activity : Listener.Activity := .listening
  values : List Int := []
  deriving DecidableEq, Repr

namespace Listener

def isAlive (l : Listener) : Bool :=
  l.activity = .listening || l.activity = .expired

def awaits (l : Listener) : Option Nat :=
  if l.isAlive then some l.channel else none

/-- Keep a value; one is enough for a listener that wants one. -/
def keep (l : Listener) (value : Int) : Listener :=
  { l with
    values := l.values ++ [value]
    activity :=
      match l.extent with
      | .one => .finished
      | .all => .listening }

/-- Look at the channel for the last time. -/
def lookOnce (l : Listener) (channels : Channels) : Listener × Effect :=
  match channels.poll l.channel with
  | (.value value, effect) => (l.keep value, effect)
  | (.endOfStream, effect) => ({ l with activity := .finished }, effect)
  | (.nothing, effect) => ({ l with activity := .timedOut }, effect)

def look (self : Nat) (l : Listener) (channels : Channels) : Listener × Effect :=
  match channels.receive self l.channel with
  | (.value value, effect) => (l.keep value, effect)
  | (.endOfStream, effect) => ({ l with activity := .finished }, effect)
  | (.nothing, effect) => (l, effect)

/-- The move of a listener with the given number. One that moves in its sleep gives up. -/
def move (self : Nat) (l : Listener) (channels : Channels) : Listener × Effect :=
  match l.activity with
  | .finished | .timedOut => (l, .none channels)
  | .expired => l.lookOnce channels
  | .listening =>
    if (channels.nth l.channel).sleepers.contains self then
      ({ l with activity := .expired }, channels.rouse self l.channel)
    else l.look self channels

end Listener

end Intcode
