/-!
# Fields of a text

A separator character cuts a text into its fields. A text with `n` separators has
`n + 1` fields, empty ones included, and joining them gives the text back.
-/
namespace Intcode.Text

def fields (separator : Char) : List Char → List (List Char)
  | [] => [[]]
  | c :: rest =>
    if c = separator then [] :: fields separator rest
    else
      match fields separator rest with
      | [] => [[c]]
      | field :: others => (c :: field) :: others

def join (separator : String) (parts : List String) : String :=
  separator.intercalate parts

def joinIntegers (separator : String) (values : List Int) : String :=
  join separator (values.map toString)

theorem fields_ne_nil (separator : Char) (text : List Char) : fields separator text ≠ [] := by
  cases text with
  | nil => simp [fields]
  | cons c rest =>
    rw [fields]
    split
    · simp
    · split <;> simp

end Intcode.Text
