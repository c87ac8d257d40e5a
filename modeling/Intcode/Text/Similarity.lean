/-!
# Similar words

How much two words have in common, to suggest a word for one that was mistyped. The longest
block that occurs in both is matched first, of several the one that starts earliest in the
first word and then in the second, and then what is left of it and what is right of it. Two
words are similar when at least three fifths of their characters are matched.
-/
namespace Intcode.Text

def commonStart : List Char → List Char → Nat
  | a :: as, b :: bs => if a = b then commonStart as bs + 1 else 0
  | _, _ => 0

/-- A block that occurs in two words: where it starts in each, and its length. -/
structure Block where
  first : Nat := 0
  second : Nat := 0
  length : Nat := 0

/-- The longer of two blocks; the earlier one if they are equally long. -/
def Block.longer (earlier later : Block) : Block :=
  if earlier.length < later.length then later else earlier

def longestFrom (first : Nat) (a b : List Char) : Block :=
  (List.range b.length).foldl
    (fun best second => best.longer ⟨first, second, commonStart a (b.drop second)⟩) {}

def longestBlock (a b : List Char) : Block :=
  (List.range a.length).foldl (fun best first => best.longer (longestFrom first (a.drop first) b))
    {}

/-- How many characters of two words are matched; the first word has at most `bound`. -/
def matchedWithin : (bound : Nat) → List Char → List Char → Nat
  | 0, _, _ => 0
  | bound + 1, a, b =>
    let block := longestBlock a b
    if block.length = 0 then 0
    else
      matchedWithin bound (a.take block.first) (b.take block.second) + block.length +
        matchedWithin bound (a.drop (block.first + block.length))
          (b.drop (block.second + block.length))

def matched (a b : String) : Nat :=
  matchedWithin a.length a.toList b.toList

/-- A candidate with its share of matched characters, as a fraction. -/
structure Candidate where
  word : String
  matched : Nat
  total : Nat

def Candidate.isClose (c : Candidate) : Bool :=
  3 * c.total ≤ 10 * c.matched

/-- Whether a candidate comes before another: by its share, then by its word, larger ones
first. -/
def Candidate.precedes (c d : Candidate) : Bool :=
  let left := c.matched * d.total
  let right := d.matched * c.total
  right < left || (right == left && d.word ≤ c.word)

/-- Up to three of the given words that are similar to a word, in alphabetical order. -/
def suggestions (word : String) (words : List String) : List String :=
  let candidates := words.map fun w => Candidate.mk w (matched w word) (w.length + word.length)
  let best := ((candidates.filter Candidate.isClose).mergeSort Candidate.precedes).take 3
  (best.map Candidate.word).mergeSort (· ≤ ·)

end Intcode.Text
