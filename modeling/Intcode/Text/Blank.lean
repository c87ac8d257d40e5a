/-!
# Blank characters and trimming

Program text, settings and numerals may be padded. What counts as padding is the
Unicode white space class together with the four information separators U+001C to
U+001F, and nothing else: a zero width space, for instance, is text.
-/
namespace Intcode.Text

/-- The four control characters that separate units of information. They pad a
text but, unlike every other blank, never a numeral. -/
def isSeparator (c : Char) : Bool :=
  0x1C ≤ c.toNat && c.toNat ≤ 0x1F

def isBlank (c : Char) : Bool :=
  let n := c.toNat
  (0x09 ≤ n && n ≤ 0x0D) || isSeparator c || n == 0x20 || n == 0x85 || n == 0xA0 ||
    n == 0x1680 || (0x2000 ≤ n && n ≤ 0x200A) || n == 0x2028 || n == 0x2029 ||
    n == 0x202F || n == 0x205F || n == 0x3000

def dropEndWhile (test : Char → Bool) (text : List Char) : List Char :=
  (text.reverse.dropWhile test).reverse

def trimWhile (test : Char → Bool) (text : List Char) : List Char :=
  dropEndWhile test (text.dropWhile test)

def trim (text : List Char) : List Char :=
  trimWhile isBlank text

end Intcode.Text
