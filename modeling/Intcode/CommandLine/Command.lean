import Intcode.Ascii
import Intcode.Batch
import Intcode.CommandLine.Display
import Intcode.CommandLine.Ending
import Intcode.CommandLine.Options
import Intcode.Pipeline.Search

/-!
# Commands

`run` runs a program on given inputs, `amplify` runs a pipeline with given phase settings,
and `search` looks for the best ordering of phase settings. Each takes one file, which holds
the program.

Embeds the commands `run`, `amplify` and `search`, with `_parse_phases` and `_fail`. Colours
are left out.
-/
namespace Intcode.CommandLine

inductive Command where
  | run
  | amplify
  | search
  deriving DecidableEq, Repr

namespace Command

def ofName? : String → Option Command
  | "run" => some run
  | "amplify" => some amplify
  | "search" => some search
  | _ => none

def helpSpec : OptionSpec := { long := "--help", kind := .flag }

def feedbackSpec : OptionSpec := { long := "--feedback", kind := .flag }

def phasesSpec : OptionSpec := { long := "--phases", kind := .text }

def specs : Command → List OptionSpec
  | run =>
    [{ long := "--input", letter := some 'i', kind := .integers },
      { long := "--ascii", kind := .path },
      { long := "--decode-ascii", kind := .flag },
      { long := "--max-steps", kind := .integer },
      helpSpec]
  | amplify => [phasesSpec, feedbackSpec, { long := "--signal", kind := .integer }, helpSpec]
  | search => [phasesSpec, feedbackSpec, helpSpec]

def usage : Command → String
  | run => "Usage: intcode run [OPTIONS] FILE\n"
  | amplify => "Usage: intcode amplify [OPTIONS] FILE\n"
  | search => "Usage: intcode search [OPTIONS] FILE\n"

/-- The option that the command cannot do without. -/
def needed : Command → Option String
  | amplify => some "--phases"
  | run | search => none

/-- Accept the arguments of a command and find its file. The options that are given are
looked at first, then the file, then what is missing, and at last what is too much. -/
def check (command : Command) (found : String → Bool) (parsed : Parsed) :
    Except Misuse String := do
  checkOptions found parsed
  match parsed.arguments with
  | [] => throw (.argumentMissing "FILE")
  | path :: extra =>
    checkPath found "'FILE'" path
    match command.needed with
    | some long => if !parsed.has long then throw (.optionMissing long)
    | none => pure ()
    match extra with
    | [] => return path
    | first :: rest => throw (.extraArguments first rest)

/-- Read phase settings: numerals with commas between them, blank parts left out. -/
def phases? (text : String) : Option (List Int) :=
  let parts := (Text.fields ',' text.toList).filter fun part => !(Text.trim part).isEmpty
  parts.mapM Text.integer?

def withPhases (text : String) (next : List Int → Ending) : Ending :=
  match phases? text with
  | none => .misused (.badPhases text)
  | some phases => next phases

/-- Print outputs as text in a frame, if there is any, and then the plain numbers, one after
the other. -/
def printDecoded (outputs : List Int) : Ending :=
  let (text, numbers) := Ascii.split outputs
  let frame := if text.isEmpty then "" else framed text
  let written := frame ++ ofLines ((numbers.takeWhile Text.isWritable).map toString)
  if numbers.all Text.isWritable then .printed written
  else .crashed written (.fault .overlongNumber)

def printOutputs (decoded : Bool) (outputs : List Int) : Ending :=
  if decoded then printDecoded outputs
  else .printing outputs (Text.joinIntegers "," outputs ++ "\n")

/-- Run a program. The text of a second file may follow the inputs. -/
def performRun (surroundings : Surroundings) (fuel : Nat) (parsed : Parsed) (file : String) :
    Ending :=
  let finish (listing : String) (inputs : List Int) : Ending :=
    Ending.ofReport
      (Batch.run surroundings.settings fuel (.text listing) inputs
        (parsed.integer? "--max-steps"))
      (printOutputs (parsed.has "--decode-ascii"))
  let inputs := parsed.integers "--input"
  withText surroundings file fun listing =>
    match parsed.value? "--ascii" with
    | none => finish listing inputs
    | some path =>
      withText surroundings path fun text =>
        match Ascii.encode text with
        | .error fault => Ending.ofFault fault
        | .ok codes => finish listing (inputs ++ codes)

def wiring (parsed : Parsed) : Pipeline.Wiring :=
  if parsed.has "--feedback" then .loop else .chain

def printSignal : Option Int → Ending
  | none => .printed "The pipeline produced no signal\n"
  | some signal => .printing [signal] s!"Signal: {signal}\n"

def performAmplify (surroundings : Surroundings) (fuel : Nat) (parsed : Parsed)
    (file : String) : Ending :=
  withPhases ((parsed.value? "--phases").getD "") fun phases =>
    withText surroundings file fun listing =>
      Ending.ofReport
        (Pipeline.concurrent (wiring parsed) surroundings.settings fuel (.text listing) phases
          ((parsed.integer? "--signal").getD 0))
        printSignal

/-- The phase settings to order when none are given. -/
def defaultPhases : Pipeline.Wiring → List Int
  | .chain => [0, 1, 2, 3, 4]
  | .loop => [5, 6, 7, 8, 9]

def wiringName : Pipeline.Wiring → String
  | .chain => "chain"
  | .loop => "feedback"

def bestTable (wiring : Pipeline.Wiring) (best : Pipeline.Best) : String :=
  table "Best phase setting"
    [⟨"Mode", wiringName wiring⟩,
      ⟨"Phases", Text.joinIntegers "," best.phases⟩,
      ⟨"Signal", match best.signal with
        | none => "-"
        | some signal => toString signal⟩]

def printBest (wiring : Pipeline.Wiring) (best : Pipeline.Best) : Ending :=
  .printing (best.phases ++ best.signal.toList) (bestTable wiring best)

def performSearch (surroundings : Surroundings) (fuel : Nat) (parsed : Parsed)
    (file : String) : Ending :=
  let wiring := wiring parsed
  let finish (phases : List Int) : Ending :=
    withText surroundings file fun listing =>
      Ending.ofReport
        (Pipeline.searchPipeline wiring surroundings.settings fuel (.text listing) phases)
        (printBest wiring)
  match parsed.value? "--phases" with
  | none | some "" => finish (defaultPhases wiring)
  | some text => withPhases text finish

def perform (command : Command) (surroundings : Surroundings) (fuel : Nat) (parsed : Parsed)
    (file : String) : Ending :=
  match command with
  | run => performRun surroundings fuel parsed file
  | amplify => performAmplify surroundings fuel parsed file
  | search => performSearch surroundings fuel parsed file

def invoke (command : Command) (surroundings : Surroundings) (fuel : Nat)
    (args : List String) : Ending :=
  match parse command.specs true args with
  | .error misuse => .misused misuse
  | .ok parsed =>
    if parsed.has helpSpec.long then .printed command.usage
    else
      match command.check (fun path => (surroundings.find path).isSome) parsed with
      | .error misuse => .misused misuse
      | .ok file => command.perform surroundings fuel parsed file

end Command

end Intcode.CommandLine
