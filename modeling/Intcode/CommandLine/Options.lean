import Intcode.CommandLine.Usage
import Intcode.Text.Numeral
import Intcode.Text.Similarity

/-!
# Options

The grammar of options. An option has a long name, after two dashes, and may have a letter,
after one. Its value is the rest of the argument (after an equals sign, for a long name) or
the next argument, whatever that looks like. Two dashes alone end the options; everything
that is not an option is a plain argument.

What an option accepts is checked afterwards, in the order in which the options first occur.

Embeds the parser of options that the commands are declared with, as far as these
declarations use it.
-/
namespace Intcode.CommandLine

/-- What an option accepts. -/
inductive Kind where
  /-- No value. -/
  | flag
  | text
  | integer
  /-- An integer each time the option occurs. -/
  | integers
  /-- The path of something that exists. -/
  | path
  deriving DecidableEq, Repr

structure OptionSpec where
  long : String
  letter : Option Char := none
  kind : Kind
  deriving DecidableEq, Repr

namespace OptionSpec

def takesValue (spec : OptionSpec) : Bool :=
  spec.kind != .flag

/-- How the option is referred to in a report about its value. -/
def hint (spec : OptionSpec) : String :=
  match spec.letter with
  | some letter => s!"'-{letter}' / '{spec.long}'"
  | none => s!"'{spec.long}'"

end OptionSpec

structure Occurrence where
  spec : OptionSpec
  value : String := ""
  deriving DecidableEq, Repr

structure Parsed where
  occurrences : List Occurrence := []
  arguments : List String := []
  deriving DecidableEq, Repr

/-- What one argument says: uses of options, the last of which may still lack its value and
is then given with the name it was used by. -/
structure Reading where
  occurrences : List Occurrence := []
  open? : Option (OptionSpec × String) := none

/-- Read letters that stand after one dash. -/
def readLetters (specs : List OptionSpec) : List Char → Except Misuse Reading
  | [] => .ok {}
  | letter :: rest =>
    let name := String.ofList ['-', letter]
    match specs.find? (·.letter == some letter) with
    | none => .error (.noSuchOption name [])
    | some spec =>
      if spec.takesValue then
        if rest.isEmpty then .ok ⟨[], some (spec, name)⟩
        else .ok ⟨[⟨spec, String.ofList rest⟩], none⟩
      else
        match readLetters specs rest with
        | .error misuse => .error misuse
        | .ok reading => .ok { reading with occurrences := ⟨spec, ""⟩ :: reading.occurrences }

/-- The name of an option and the value given to it with an equals sign. -/
def splitEquals (arg : List Char) : String × Option String :=
  let name := arg.takeWhile (· != '=')
  match arg.drop name.length with
  | [] => (String.ofList name, none)
  | _ :: value => (String.ofList name, some (String.ofList value))

def readOption (specs : List OptionSpec) (arg : List Char) : Except Misuse Reading :=
  let (name, given) := splitEquals arg
  match specs.find? (·.long == name) with
  | some spec =>
    match spec.takesValue, given with
    | true, some value => .ok ⟨[⟨spec, value⟩], none⟩
    | true, none => .ok ⟨[], some (spec, name)⟩
    | false, some _ => .error (.valueUnexpected name)
    | false, none => .ok ⟨[⟨spec, ""⟩], none⟩
  | none =>
    if arg.take 2 = ['-', '-'] then
      .error (.noSuchOption name (Text.suggestions name (specs.map (·.long))))
    else readLetters specs (arg.drop 1)

def looksLikeOption (arg : List Char) : Bool :=
  arg.head? == some '-' && 1 < arg.length

/-- Put earlier uses of options in front. -/
def Parsed.after (parsed : Parsed) (earlier : List Occurrence) : Parsed :=
  { parsed with occurrences := earlier ++ parsed.occurrences }

/-- Read the arguments. Unless options may be mixed with plain arguments, the first plain
argument ends them. -/
def parse (specs : List OptionSpec) (mixed : Bool) : List String → Except Misuse Parsed
  | [] => .ok {}
  | arg :: rest =>
    if arg = "--" then .ok { arguments := rest }
    else if looksLikeOption arg.toList then
      match readOption specs arg.toList with
      | .error misuse => .error misuse
      | .ok ⟨occurrences, none⟩ => (parse specs mixed rest).map (·.after occurrences)
      | .ok ⟨occurrences, some (spec, name)⟩ =>
        match rest with
        | [] => .error (.valueMissing name)
        | value :: others =>
          (parse specs mixed others).map (·.after (occurrences ++ [⟨spec, value⟩]))
    else if mixed then
      (parse specs mixed rest).map fun parsed =>
        { parsed with arguments := arg :: parsed.arguments }
    else .ok { arguments := arg :: rest }

namespace Parsed

def values (parsed : Parsed) (long : String) : List String :=
  (parsed.occurrences.filter (·.spec.long == long)).map (·.value)

/-- The value that counts when an option is given several times: the last one. -/
def value? (parsed : Parsed) (long : String) : Option String :=
  (parsed.values long).getLast?

def has (parsed : Parsed) (long : String) : Bool :=
  !(parsed.values long).isEmpty

def integers (parsed : Parsed) (long : String) : List Int :=
  (parsed.values long).filterMap fun text => Text.integer? text.toList

def integer? (parsed : Parsed) (long : String) : Option Int :=
  match parsed.value? long with
  | none => none
  | some text => Text.integer? text.toList

/-- The options in the order in which they first occur. -/
def order (parsed : Parsed) : List OptionSpec :=
  (parsed.occurrences.map (·.spec)).eraseDups

end Parsed

def checkInteger (hint text : String) : Except Misuse Unit :=
  match Text.integer? text.toList with
  | some _ => .ok ()
  | none => .error (.notInteger hint text)

def checkPath (found : String → Bool) (hint path : String) : Except Misuse Unit :=
  if found path then .ok () else .error (.noSuchPath hint path)

def checkOption (found : String → Bool) (parsed : Parsed) (spec : OptionSpec) :
    Except Misuse Unit :=
  match spec.kind, parsed.value? spec.long with
  | .integers, _ => (parsed.values spec.long).forM (checkInteger spec.hint)
  | .integer, some text => checkInteger spec.hint text
  | .path, some path => checkPath found spec.hint path
  | _, _ => .ok ()

def checkOptions (found : String → Bool) (parsed : Parsed) : Except Misuse Unit :=
  parsed.order.forM (checkOption found parsed)

end Intcode.CommandLine
