import Intcode.CommandLine.Command
import Intcode.Text.Uppercase

/-!
# The command line

The arguments start with options that concern every command, then name a command, and go on
with what is meant for it. The log level is set once the command is known to exist and
before its own arguments are looked at.

Embeds the command group `cli` with its options. Left out are the help texts, and what the
log handler prints, which shows the time.
-/
namespace Intcode.CommandLine

/-- The number of a log level; a name that is not known is a warning. -/
def levelNumber : String → Nat
  | "NOTSET" => 0
  | "DEBUG" => 10
  | "INFO" => 20
  | "WARN" | "WARNING" => 30
  | "ERROR" => 40
  | "CRITICAL" | "FATAL" => 50
  | _ => 30

def initialLevel : Nat := 30

def commonSpecs : List OptionSpec :=
  [{ long := "--version", kind := .flag },
    { long := "--log-level", kind := .text },
    Command.helpSpec]

def versionText : String := "intcode, version 0.1.0\n"

def usage : String := "Usage: intcode [OPTIONS] COMMAND [ARGS]...\n"

/-- What an option asks to be printed instead of doing anything else. -/
def notice? (occurrence : Occurrence) : Option String :=
  match occurrence.spec.long with
  | "--version" => some versionText
  | "--help" => some usage
  | _ => none

/-- The name of the log level: the one given, unless it is empty, or that of the settings. -/
def levelName (settings : Settings) (parsed : Parsed) : String :=
  match parsed.value? "--log-level" with
  | none | some "" => settings.logLevel
  | some name => name

/-- The log level that is asked for, in any mixture of upper and lower case. -/
def level (settings : Settings) (parsed : Parsed) : Nat :=
  levelNumber (String.ofList (Text.upper (levelName settings parsed).toList))

/-- How the program ends and the log level it leaves behind. -/
structure Conclusion where
  ending : Ending
  level : Nat := initialLevel
  deriving Repr

/-- Carry out what the arguments ask for. Every run of a machine or a network is bounded by
`fuel`. -/
def run (surroundings : Surroundings) (fuel : Nat) (args : List String) : Conclusion :=
  if args.isEmpty then ⟨.printed usage, initialLevel⟩
  else
    match parse commonSpecs false args with
    | .error misuse => ⟨.misused misuse, initialLevel⟩
    | .ok parsed =>
      match parsed.occurrences.findSome? notice? with
      | some text => ⟨.printed text, initialLevel⟩
      | none =>
        match parsed.arguments with
        | [] => ⟨.misused .missingCommand, initialLevel⟩
        | name :: rest =>
          match Command.ofName? name with
          | none => ⟨.misused (.noSuchCommand name), initialLevel⟩
          | some command =>
            ⟨command.invoke surroundings fuel rest, level surroundings.settings parsed⟩

end Intcode.CommandLine
