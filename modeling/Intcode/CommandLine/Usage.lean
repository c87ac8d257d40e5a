import Intcode.Text.Fields
import Intcode.Text.Quoted

/-!
# Misuse of the command line

What can be wrong with the arguments, before any file is read.

Left out are the lines about the usage of a command that stand above the complaint.
-/
namespace Intcode.CommandLine

/-- A way in which the arguments make no sense. -/
inductive Misuse where
  | missingCommand
  | noSuchCommand (name : String)
  | noSuchOption (name : String) (suggestions : List String)
  | valueMissing (option : String)
  | valueUnexpected (option : String)
  | argumentMissing (name : String)
  | optionMissing (name : String)
  | noSuchPath (parameter path : String)
  | notInteger (parameter text : String)
  | badPhases (text : String)
  | extraArguments (first : String) (rest : List String)
  deriving DecidableEq, Repr

namespace Misuse

/-- What is added to the report of an option that does not exist. -/
def suggestionText : List String → String
  | [] => ""
  | [name] => s!" Did you mean {name}?"
  | names => " (Possible options: " ++ Text.join ", " names ++ ")"

def message : Misuse → String
  | missingCommand => "Missing command."
  | noSuchCommand name => "No such command " ++ Text.quoted name ++ "."
  | noSuchOption name suggestions => s!"No such option: {name}" ++ suggestionText suggestions
  | valueMissing option => "Option " ++ Text.quoted option ++ " requires an argument."
  | valueUnexpected option => "Option " ++ Text.quoted option ++ " does not take a value."
  | argumentMissing name => s!"Missing argument '{name}'."
  | optionMissing name => s!"Missing option '{name}'."
  | noSuchPath parameter path =>
    s!"Invalid value for {parameter}: Path " ++ Text.quoted path ++ " does not exist."
  | notInteger parameter text =>
    s!"Invalid value for {parameter}: " ++ Text.quoted text ++ " is not a valid integer."
  | badPhases text =>
    "Invalid value: expected comma separated integers, got " ++ Text.quoted text
  | extraArguments first [] => s!"Got unexpected extra argument ({first})"
  | extraArguments first rest =>
    "Got unexpected extra arguments (" ++ Text.join " " (first :: rest) ++ ")"

end Misuse

end Intcode.CommandLine
