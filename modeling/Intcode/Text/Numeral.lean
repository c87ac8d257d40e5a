import Intcode.Text.Blank
import Intcode.Text.DecimalDigit
import Intcode.Text.Fields

/-!
# Numerals

Two ways to write an integer are read. A *literal*, as program text has it, is an
optional sign and ASCII digits. A *numeral*, as settings and options have it, may also be
padded, may use the decimal digits of any script, and may have single underscores between
its digits. Either is refused when it has more than `digitLimit` digits.

Numbers are written in decimal, and one that has more than `digitLimit` digits cannot be
written either (`isWritable`).
-/
namespace Intcode.Text

/-- The largest number of digits that is read or written; leading zeros count, the sign does
not. -/
def digitLimit : Nat := 4300

/-- Whether a natural number has no more than so many digits. -/
def fitsDigits : (count : Nat) → Nat → Bool
  | 0, n => n == 0
  | count + 1, n => n < 10 || fitsDigits count (n / 10)

/-- Whether an integer is short enough to be written. -/
def isWritable (value : Int) : Bool :=
  fitsDigits digitLimit value.natAbs

/-- The sign of a numeral (`true` when it is negative) and what follows it. -/
def splitSign : List Char → Bool × List Char
  | '-' :: rest => (true, rest)
  | '+' :: rest => (false, rest)
  | text => (false, text)

/-- The number with the given decimal digits, the most significant first. -/
def ofDigits (digits : List Nat) : Nat :=
  digits.foldl (fun value digit => 10 * value + digit) 0

def withSign (negative : Bool) (magnitude : Nat) : Int :=
  if negative then -(magnitude : Int) else magnitude

/-- Whether a text is an optional sign followed by ASCII digits, at least one. -/
def isLiteral (text : List Char) : Bool :=
  let digits := (splitSign text).2
  !digits.isEmpty && digits.all Char.isDigit

def literalDigits (text : List Char) : Nat :=
  (splitSign text).2.length

def literalValue (text : List Char) : Int :=
  let (negative, digits) := splitSign text
  withSign negative (ofDigits (digits.map asciiDigitValue))

/-- The values of a run of digits, at least one. -/
def digitRun? (run : List Char) : Option (List Nat) :=
  if run.isEmpty then none else run.mapM digitValue?

/-- The digits of an unsigned numeral: runs of digits with one underscore between
neighbouring runs. -/
def numeralDigits? (body : List Char) : Option (List Nat) :=
  match (fields '_' body).mapM digitRun? with
  | none => none
  | some runs => some runs.flatten

def integer? (text : List Char) : Option Int :=
  let (negative, body) := splitSign (trimWhile (fun c => isBlank c && !isSeparator c) text)
  match numeralDigits? body with
  | none => none
  | some digits =>
    if digits.length ≤ digitLimit then some (withSign negative (ofDigits digits)) else none

end Intcode.Text
