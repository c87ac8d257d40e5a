/-!
# Log entries

What a run reports besides its result. An entry has a level, the part of the system that
wrote it, and its text. The log of a run lists its entries in the order in which they were
written.

Left out are the time of an entry, and what a handler makes of it. An entry is written with
all of its numbers in full; that some are too long to be written shows only when a handler
renders it.
-/
namespace Intcode

namespace Log

inductive Level where
  | debug
  | info
  | warning
  | error
  deriving DecidableEq, Repr

/-- The part of the system that wrote an entry. -/
inductive Origin where
  | machine
  | runner
  | channel
  | amplifier
  | pipeline
  deriving DecidableEq, Repr

structure Entry where
  level : Level
  origin : Origin
  text : String
  deriving DecidableEq, Repr

end Log

abbrev Log := Array Log.Entry

/-- The log with an entry added, if there is one. -/
def Log.note (log : Log) (line : Option Log.Entry) : Log :=
  match line with
  | some entry => log.push entry
  | none => log

end Intcode
