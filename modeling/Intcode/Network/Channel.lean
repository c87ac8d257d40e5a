import Intcode.Fault
import Intcode.Log

/-!
# Channels

A channel carries integers from a sender to a receiver, first in first out, and each side
can be closed on its own. When the sender closes, what is buffered can still be received, and
after it comes the end of the stream. When the receiver closes, what is buffered is dropped.
Nothing can be sent once either side is closed.

Only receiving can wait. A receiver that finds an open channel empty goes to sleep; the next
value sent wakes the receiver that has slept longest, and closing either side wakes all of
them. A receiver that has been woken looks at the channel again.

Embeds the class `Channel`; its lock is held for a whole operation, and its condition is the
list of sleepers.
-/
namespace Intcode

/-- A channel, with the numbers of the receivers that sleep on it, longest first. -/
structure Channel where
  name : String := "channel"
  buffer : List Int := []
  senderClosed : Bool := false
  receiverClosed : Bool := false
  sleepers : List Nat := []
  deriving DecidableEq, Repr, Inhabited

namespace Channel

/-- What a look at a channel finds. -/
inductive Receipt where
  /-- The next value. -/
  | value (v : Int)
  /-- Nothing is buffered and nothing can come. -/
  | endOfStream
  /-- Nothing is buffered yet. -/
  | nothing
  deriving DecidableEq, Repr

/-- Whether both sides are still there. -/
def isOpen (c : Channel) : Bool :=
  !c.senderClosed && !c.receiverClosed

/-- Buffer a value and wake one sleeper, if the channel is open. -/
def send (c : Channel) (value : Int) : Except Fault Channel :=
  if c.isOpen then .ok { c with buffer := c.buffer ++ [value], sleepers := c.sleepers.drop 1 }
  else .error (.channelClosed c.name value)

def nextSleeper (c : Channel) : List Nat :=
  c.sleepers.take 1

/-- Look at the channel, and take the next value if there is one. -/
def take (c : Channel) : Receipt × Channel :=
  match c.buffer with
  | value :: rest => (.value value, { c with buffer := rest })
  | [] => if c.isOpen then (.nothing, c) else (.endOfStream, c)

/-- Close the sender's side and wake all sleepers. -/
def close (c : Channel) : Channel :=
  { c with senderClosed := true, sleepers := [] }

/-- Close the receiver's side, drop what is buffered and wake all sleepers. -/
def closeReceiver (c : Channel) : Channel :=
  { c with receiverClosed := true, buffer := [], sleepers := [] }

def sleep (c : Channel) (receiver : Nat) : Channel :=
  { c with sleepers := c.sleepers ++ [receiver] }

def rouse (c : Channel) (receiver : Nat) : Channel :=
  { c with sleepers := c.sleepers.filter (· != receiver) }

/-- What closing the sender's side writes to the log; only the first time counts. -/
def closeLines (c : Channel) : Log :=
  if c.senderClosed then #[]
  else #[⟨.debug, .channel, s!"Channel '{c.name}' closed by sender"⟩]

def closeReceiverLines (c : Channel) : Log :=
  if c.receiverClosed then #[]
  else
    #[⟨.debug, .channel,
      s!"Channel '{c.name}' closed by receiver ({c.buffer.length} values dropped)"⟩]

def describe (c : Channel) : String :=
  let status :=
    if c.receiverClosed then "receiver closed"
    else if c.senderClosed then "closed"
    else "open"
  s!"Channel({c.name}, pending={c.buffer.length}, {status})"

end Channel

end Intcode
