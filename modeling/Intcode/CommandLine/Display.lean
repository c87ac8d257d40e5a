import Intcode.Text.Blank
import Intcode.Text.Fields

/-!
# Frames and tables

How the command line sets text in a frame with a title, and the outcome of a search in a
table.

Left out are colours, markup within the text, and the wrapping of lines that are too wide
for the screen.
-/
namespace Intcode.CommandLine

def repeated (c : Char) (count : Nat) : String :=
  String.ofList (List.replicate count c)

def padRight (width : Nat) (text : String) : String :=
  text ++ repeated ' ' (width - text.length)

/-- A text in the middle of a line; the left side gets the smaller half of the padding. -/
def centred (width : Nat) (text : String) : String :=
  padRight width (repeated ' ' ((width - text.length) / 2) ++ text)

/-- The length of the longest text, and at least the given one. -/
def widest (least : Nat) (texts : List String) : Nat :=
  texts.foldl (fun width text => max width text.length) least

/-- Lines, each with a line feed after it. -/
def ofLines (lines : List String) : String :=
  String.join (lines.map (· ++ "\n"))

/-- The lines of a text without the line feeds at its end. -/
def linesOf (text : String) : List String :=
  (Text.fields '\n' (Text.dropEndWhile (· == '\n') text.toList)).map String.ofList

def frameTitle : String := " Output "

def framed (text : String) : String :=
  let lines := linesOf text
  let width := widest frameTitle.length lines + 2
  let left := (width - frameTitle.length) / 2
  let right := width - frameTitle.length - left
  ofLines <|
    ["╭" ++ repeated '─' left ++ frameTitle ++ repeated '─' right ++ "╮"] ++
    lines.map (fun line => "│ " ++ padRight (width - 2) line ++ " │") ++
    ["╰" ++ repeated '─' width ++ "╯"]

/-- A column with one value under its heading. -/
structure Column where
  heading : String
  value : String

def Column.width (c : Column) : Nat :=
  max c.heading.length c.value.length

/-- A line of a table: a cell for each column, between a left edge, dividers and a right
edge. -/
def tableLine (left divider right : String) (cells : List String) : String :=
  left ++ Text.join divider cells ++ right

def tableRule (columns : List Column) (left divider right : String) (c : Char) : String :=
  tableLine left divider right (columns.map fun column => repeated c (column.width + 2))

def tableRow (columns : List Column) (edge : String) (text : Column → String) : String :=
  tableLine edge edge edge
    (columns.map fun column => " " ++ padRight column.width (text column) ++ " ")

def table (title : String) (columns : List Column) : String :=
  let rule := tableRule columns "┏" "┳" "┓" '━'
  ofLines
    [centred rule.length title,
      rule,
      tableRow columns "┃" (·.heading),
      tableRule columns "┡" "╇" "┩" '━',
      tableRow columns "│" (·.value),
      tableRule columns "└" "┴" "┘" '─']

end Intcode.CommandLine
