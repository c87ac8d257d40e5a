import Intcode.Fault
import Intcode.Log

/-!
# Reports

Computations that run machines need not end. They are given a bound, and report an answer
or a fault if they ended within it, together with what they wrote to the log.
-/
namespace Intcode

/-- The answer of a bounded computation (`none` when the bound was too small) and its log. -/
structure Report (α : Type) where
  result : Option (Except Fault α)
  log : Log
  deriving Repr

namespace Report

variable {α : Type}

def answer (value : α) (log : Log) : Report α :=
  ⟨some (.ok value), log⟩

def failure (fault : Fault) (log : Log) : Report α :=
  ⟨some (.error fault), log⟩

def unfinished (log : Log) : Report α :=
  ⟨none, log⟩

end Report

end Intcode
