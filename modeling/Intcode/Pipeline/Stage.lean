import Intcode.Fault
import Intcode.Log
import Intcode.Text.Fields
import Intcode.Text.Numeral
import Intcode.Word

/-!
# Stages

A pipeline runs one program once for each of its phase settings. The runs are its stages;
the first 26 are named by a letter, the later ones by their number.

Embeds the operation `stage_name`. Phase settings and signals in a log entry are written in
full, as all numbers there.
-/
namespace Intcode.Pipeline

def letters : List Char :=
  "ABCDEFGHIJKLMNOPQRSTUVWXYZ".toList

def stageName (index : Nat) : String :=
  match letters[index]? with
  | some letter => letter.toString
  | none => s!"amp{index}"

/-- The name that an integer gives; a negative one counts from the end of the alphabet. -/
def stageName? (index : Int) : Except Fault String :=
  if 0 ≤ index then
    if Text.isWritable index then .ok (stageName index.toNat) else .error .overlongNumber
  else if !Word.fits index then .error .addressTooWide
  else if index + letters.length < 0 then .error .noStageName
  else .ok (stageName (index + letters.length).toNat)

def listText (phases : List Int) : String :=
  "[" ++ Text.joinIntegers ", " phases ++ "]"

/-- An ordering of phase settings in words; a single one keeps its comma. -/
def orderingText : List Int → String
  | [phase] => s!"({phase},)"
  | phases => "(" ++ Text.joinIntegers ", " phases ++ ")"

def signalText : Option Int → String
  | some signal => toString signal
  | none => "None"

/-- The log entry for an output that finds the first stage at its end. -/
def finalEntry (value : Int) : Log.Entry :=
  ⟨.debug, .pipeline, s!"Head halted, {value} is the final signal"⟩

end Intcode.Pipeline
