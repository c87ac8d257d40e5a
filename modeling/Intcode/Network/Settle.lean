import Intcode.Network

/-!
# Letting a network come to rest

One way to run a network: the agents that are able to move wait in a queue. The first of them
makes one move and joins the queue again at its end if it is able to go on, and agents that it
has woken join behind it. The network is at rest when the queue is empty.
-/
namespace Intcode.Network

/-- The agents that join the queue after a move of an agent: itself, unless it cannot go on,
and those that it has woken. -/
def joining (n : Network) (i : Nat) (woken : List Nat) : List Nat :=
  if n.enabled i then i :: woken else woken

/-- Let the queued agents move in turn until the network is at rest, or for `fuel` turns. -/
def settle : (fuel : Nat) → List Nat → Network → Option Network
  | _, [], n => some n
  | 0, _ :: _, _ => none
  | fuel + 1, i :: queue, n =>
    if n.enabled i then
      let ⟨next, _, woken⟩ := n.advance i
      settle fuel (queue ++ next.joining i woken) next
    else settle fuel queue n

def Transition.settle (fuel : Nat) (t : Transition) : Option Network :=
  Network.settle fuel t.woken t.network

end Intcode.Network
