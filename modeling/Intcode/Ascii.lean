import Intcode.Fault
import Intcode.Text.Blank

/-!
# Text as values

Programs may talk in text: a character is the value of its code point, and a line ends with
a line feed. Only ASCII can be sent. Of what a program puts out, the values in the range of
ASCII are text and the others are plain numbers.

Embeds the operations `encode_ascii`, `encode_lines` and `split_ascii_output`. Lines are
given as a list: no lines are no values, not a single line feed.
-/
namespace Intcode.Ascii

def lineEnd : Int := 10

/-- Whether a value is the code point of an ASCII character. -/
def isCode (value : Int) : Bool :=
  0 ≤ value && value ≤ 127

/-- The values of a text whose first character stands at the given position. -/
def encodeFrom (position : Nat) : List Char → Except Fault (List Int)
  | [] => .ok []
  | c :: rest =>
    if 127 < c.toNat then .error (.nonAscii c position)
    else
      match encodeFrom (position + 1) rest with
      | .error fault => .error fault
      | .ok values => .ok (c.toNat :: values)

def encode (text : String) : Except Fault (List Int) :=
  encodeFrom 0 text.toList

/-- The values of one line, without the line feeds it may end in, and the value that ends
it. -/
def encodeLine (line : String) : Except Fault (List Int) :=
  match encodeFrom 0 (Text.dropEndWhile (· == '\n') line.toList) with
  | .error fault => .error fault
  | .ok values => .ok (values ++ [lineEnd])

def encodeLines : List String → Except Fault (List Int)
  | [] => .ok []
  | line :: rest =>
    match encodeLine line with
    | .error fault => .error fault
    | .ok values =>
      match encodeLines rest with
      | .error fault => .error fault
      | .ok others => .ok (values ++ others)

def textOf (values : List Int) : String :=
  String.ofList ((values.filter isCode).map fun value => Char.ofNat value.toNat)

def numbersOf (values : List Int) : List Int :=
  values.filter fun value => !isCode value

/-- The text and the plain numbers in a list of values. -/
def split (values : List Int) : String × List Int :=
  (textOf values, numbersOf values)

end Intcode.Ascii
