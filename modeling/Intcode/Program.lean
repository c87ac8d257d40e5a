import Intcode.Fault
import Intcode.Text.Numeral
import Intcode.Word

/-!
# Programs

A program is a list of integer cells, given as such or as text: literals with commas
between them, padded freely, with one comma more allowed at the end. Every cell fits in a
signed 64-bit word. `Program.load` reads a program from the left and stops at the first
part that is not acceptable.

Embeds the operation `parse_program` and the checks with which a `Memory` is made. A cell
that is handed in as a number is written down for its report before it is looked at, so that
one too long to be written is refused for that.
-/
namespace Intcode

/-- A program as it is handed in. -/
inductive Program where
  | text (listing : String)
  | image (values : List Int)
  deriving DecidableEq, Repr

namespace Program

def checkRange (value : Int) (literal : String) (index : Nat) : Except Fault Int :=
  if Word.fits value then .ok value else .error (.wideLiteral literal index)

/-- Read one part of a program text, which stands at the given index. The length of a
literal is looked at before its value. -/
def readCell (index : Nat) (part : List Char) : Except Fault Int :=
  let literal := Text.trim part
  if !Text.isLiteral literal then .error (.malformedLiteral (String.ofList literal) index)
  else if Text.digitLimit < Text.literalDigits literal then
    .error (.overlongLiteral (Text.literalDigits literal))
  else checkRange (Text.literalValue literal) (String.ofList literal) index

def readCells (index : Nat) : List (List Char) → Except Fault (List Int)
  | [] => .ok []
  | part :: rest =>
    match readCell index part with
    | .error fault => .error fault
    | .ok cell =>
      match readCells (index + 1) rest with
      | .error fault => .error fault
      | .ok cells => .ok (cell :: cells)

/-- The parts without the empty one that a comma at the end leaves behind. -/
def dropEmptyLast (parts : List (List Char)) : List (List Char) :=
  if parts.getLast? = some [] then parts.dropLast else parts

def parts (trimmed : List Char) : List (List Char) :=
  dropEmptyLast (Text.fields ',' trimmed)

def parse (text : String) : Except Fault (List Int) :=
  match Text.trim text.toList with
  | [] => .error .emptyProgram
  | c :: rest => readCells 0 (parts (c :: rest))

/-- Accept a cell that fits. It is written down for the report before it is looked at. -/
def checkCell (index : Nat) (value : Int) : Except Fault Int :=
  if Text.isWritable value then checkRange value (toString value) index
  else .error .overlongNumber

def checkCells (index : Nat) : List Int → Except Fault (List Int)
  | [] => .ok []
  | value :: rest =>
    match checkCell index value with
    | .error fault => .error fault
    | .ok cell =>
      match checkCells (index + 1) rest with
      | .error fault => .error fault
      | .ok cells => .ok (cell :: cells)

def load : Program → Except Fault (List Int)
  | text listing => parse listing
  | image values => checkCells 0 values

end Program

end Intcode
