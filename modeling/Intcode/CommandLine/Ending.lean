import Intcode.CommandLine.Usage
import Intcode.Report
import Intcode.Settings
import Intcode.Text.Utf8

/-!
# How a command ends

A command works in given surroundings: the settings, and what is found under each path. It
ends by printing something, by reporting a fault, by refusing its arguments, or by giving up
on something that is not its to report.

A number that is to be printed may be too long to be written (`Text.isWritable`). By then
the computation is over, and the command gives up on it as well (`Ending.printing`).
-/
namespace Intcode.CommandLine

/-- What is found under a path that exists. -/
inductive Entry where
  | directory
  | file (bytes : List UInt8)
  deriving DecidableEq, Repr

/-- What a command can see. -/
structure Surroundings where
  settings : Settings
  find : String → Option Entry

/-- Something that a command does not report itself. -/
inductive Crash where
  /-- A path that should be a file is not one. -/
  | notAFile
  | fault (cause : Fault)
  deriving DecidableEq, Repr

inductive Ending where
  | printed (text : String)
  | failed (fault : Fault)
  | misused (misuse : Misuse)
  /-- Something had been printed before. -/
  | crashed (text : String) (crash : Crash)
  /-- The bound on the run was too small. -/
  | unfinished
  deriving DecidableEq, Repr

namespace Ending

/-- The number that the command returns: two for a misuse, one for any other failure. -/
def exitCode : Ending → Nat
  | printed _ => 0
  | misused _ => 2
  | failed _ | crashed .. | unfinished => 1

def output : Ending → String
  | printed text | crashed text _ => text
  | failed fault => s!"Error: {fault.message}\n"
  | misused _ | unfinished => ""

def complaint? : Ending → Option String
  | misused misuse => some ("Error: " ++ misuse.message)
  | _ => none

/-- The end by a fault. Faults of the interpreter and of values handed in are reported. -/
def ofFault (fault : Fault) : Ending :=
  match fault.family with
  | .interpreter | .value => failed fault
  | _ => crashed "" (.fault fault)

/-- The end of a command that goes on with what a computation reports. -/
def ofReport {α : Type} (report : Report α) (next : α → Ending) : Ending :=
  match report.result with
  | none => unfinished
  | some (.error fault) => ofFault fault
  | some (.ok value) => next value

/-- The end of a command that prints a text with the given numbers in it. Nobody answers for
numbers that are too long to be written once the computation is over. -/
def printing (numbers : List Int) (text : String) : Ending :=
  if numbers.all Text.isWritable then printed text else crashed "" (.fault .overlongNumber)

end Ending

def withText (surroundings : Surroundings) (path : String) (next : String → Ending) : Ending :=
  match surroundings.find path with
  | some (.file bytes) =>
    match Text.Utf8.readText bytes with
    | .error defect => Ending.ofFault (.undecodable defect)
    | .ok text => next text
  | _ => .crashed "" .notAFile

end Intcode.CommandLine
