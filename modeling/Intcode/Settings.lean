import Intcode.Text.Blank
import Intcode.Text.Numeral
import Intcode.Text.Quoted
import Intcode.Text.Uppercase
import Intcode.Word

/-!
# Settings

Defaults that apply to every machine unless a caller says otherwise, read from the named
variables of an environment. A variable that is absent or makes no sense leaves the default
in place.

Embeds `IntcodeConfig` with `from_env` and `_parse_value`. `room` is no setting of the
system: it stands for the allocator that it runs on.
-/
namespace Intcode

abbrev Environment := String → Option String

/-- The settings: a step budget, whether to trace, and the log level of the command line. The
room is no variable: it is how many cells the allocator at hand gives at once. -/
structure Settings where
  maxSteps : Option Int := none
  trace : Bool := false
  logLevel : String := "WARNING"
  room : Nat := Word.cellCount
  deriving DecidableEq, Repr

namespace Settings

inductive Value where
  | flag (value : Bool)
  | number (value : Int)
  | text (value : String)
  deriving DecidableEq, Repr

/-- The letters of ASCII in lower case; the words for true and false have no others. -/
def lowerAscii (text : List Char) : String :=
  String.ofList (text.map Char.toLower)

/-- Whether a text starts and ends with the given quote; one quote does both. -/
def isQuotedWith (quote : Char) (text : List Char) : Bool :=
  text.head? == some quote && text.getLast? == some quote

def withoutEnds (text : List Char) : List Char :=
  (text.drop 1).dropLast

/-- Read the text of a variable: a word for true or false, an integer, or else a text, from
which a pair of quotes is taken off. -/
def Value.parse (raw : String) : Value :=
  let text := Text.trim raw.toList
  let word := lowerAscii text
  if word ∈ ["true", "yes", "on"] then flag true
  else if word ∈ ["false", "no", "off"] then flag false
  else
    match Text.integer? text with
    | some n => number n
    | none =>
      if isQuotedWith Text.doubleQuote text || isQuotedWith Text.singleQuote text then
        Value.text (String.ofList (withoutEnds text))
      else Value.text (String.ofList text)

/-- The value of a variable; an absent one reads as the empty text. -/
def variableValue (environment : Environment) (name : String) : Value :=
  Value.parse ((environment name).getD "")

/-- A step budget is a positive number. -/
def budgetOf : Value → Option Int
  | .number n => if 0 < n then some n else none
  | _ => none

/-- Tracing is switched on by a word for true or by the number one. -/
def traceOf : Value → Bool
  | .flag value => value
  | .number n => n = 1
  | .text _ => false

/-- A log level is named in upper case; an absent or empty name is the default. -/
def logLevelOf : Option String → String
  | none | some "" => "WARNING"
  | some name => String.ofList (Text.upper (Text.trim name.toList))

def ofEnvironment (environment : Environment) : Settings where
  maxSteps := budgetOf (variableValue environment "INTCODE_MAX_STEPS")
  trace := traceOf (variableValue environment "INTCODE_TRACE")
  logLevel := logLevelOf (environment "INTCODE_LOG_LEVEL")

end Settings

end Intcode
