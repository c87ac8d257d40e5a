import Mathlib.Algebra.Ring.Int.Defs
import Mathlib.Data.List.Forall2
import Intcode.Proofs.Program
import Intcode.Proofs.Text

/-!
# The grammar of program texts

A program text is cut into parts at its commas, once its padding is gone, and every part stands for
a cell (`HasParts`, `Accepts`). `Refuses` says for what a part is refused, and by which of several
defects when it has more than one. Reading a text succeeds on just the texts of this grammar, fails
on all others for the leftmost part that is refused, and undoes every way to write cells down
(`Listing`).
-/
namespace Intcode.Program

/-- A part of a program text stands for a cell: padding aside it is a literal of no more than 4300
digits, and what it denotes fits in a signed 64-bit word. -/
def Accepts (part : List Char) (cell : Int) : Prop :=
  ∃ literal count, Text.Strips part literal ∧ Text.Denotes literal count cell ∧ count ≤ 4300 ∧
    -2 ^ 63 ≤ cell ∧ cell ≤ 2 ^ 63 - 1

/-- Why the part at an index is refused. Of a literal, its length is looked at before its value. -/
inductive Refuses (index : Nat) (part : List Char) : Fault → Prop where
  | malformed {literal : List Char} (strips : Text.Strips part literal)
      (meaningless : ∀ count value, ¬Text.Denotes literal count value) :
      Refuses index part (.malformedLiteral (String.ofList literal) index)
  | overlong {literal : List Char} {count : Nat} {value : Int} (strips : Text.Strips part literal)
      (denotes : Text.Denotes literal count value) (long : 4300 < count) :
      Refuses index part (.overlongLiteral count)
  | wide {literal : List Char} {count : Nat} {value : Int} (strips : Text.Strips part literal)
      (denotes : Text.Denotes literal count value) (short : count ≤ 4300)
      (outside : value < -2 ^ 63 ∨ 2 ^ 63 - 1 < value) :
      Refuses index part (.wideLiteral (String.ofList literal) index)

/-- The parts of a program text that is not blank: what stands between its commas, without the
empty part that a comma at the end leaves behind. -/
def HasParts (text : List Char) (parts : List (List Char)) : Prop :=
  ∃ core, Text.Strips text core ∧ core ≠ [] ∧
    (core.splitOn ',' = parts ++ [[]] ∨ core.splitOn ',' = parts ∧ parts.getLast? ≠ some [])

/-- Parts are refused for the leftmost of them that stands for no cell. What comes after it makes no
difference. -/
def RefusesFirst (index : Nat) (parts : List (List Char)) (fault : Fault) : Prop :=
  ∃ before part after, parts = before ++ part :: after ∧
    (∀ earlier ∈ before, ∃ cell, Accepts earlier cell) ∧ Refuses (index + before.length) part fault

/-- A way to write a cell down: digits with zeros and a sign before them, and padding around. A
number that is not negative may have a plus sign. -/
structure Spelling where
  cell : Int
  fits : -2 ^ 63 ≤ cell ∧ cell ≤ 2 ^ 63 - 1
  before : List Char := []
  plus : Bool := false
  zeros : Nat := 0
  after : List Char := []
  padded : (∀ c ∈ before, Text.isBlank c) ∧ ∀ c ∈ after, Text.isBlank c := by simp
  short : zeros + (Nat.toDigits 10 cell.natAbs).length ≤ 4300

namespace Spelling

variable (spelling : Spelling)

def digits : List Char :=
  List.replicate spelling.zeros '0' ++ Nat.toDigits 10 spelling.cell.natAbs

def literal : List Char :=
  if spelling.cell < 0 then '-' :: spelling.digits
  else if spelling.plus then '+' :: spelling.digits
  else spelling.digits

def part : List Char :=
  spelling.before ++ spelling.literal ++ spelling.after

end Spelling

/-- A way to write a program down: spelled cells with commas between them, at least one, perhaps one
comma more at the end, and padding around the whole. -/
structure Listing where
  spellings : List Spelling
  inhabited : spellings ≠ []
  before : List Char := []
  trailing : Bool := false
  after : List Char := []
  padded : (∀ c ∈ before, Text.isBlank c) ∧ ∀ c ∈ after, Text.isBlank c := by simp

namespace Listing

variable (listing : Listing)

def cells : List Int :=
  listing.spellings.map (·.cell)

def body : List Char :=
  [','].intercalate (listing.spellings.map (·.part)) ++ if listing.trailing then [','] else []

def text : String :=
  String.ofList (listing.before ++ listing.body ++ listing.after)

end Listing

variable {index : Nat} {part text : List Char} {parts : List (List Char)} {cell : Int}
  {cells : List Int} {fault : Fault}

/-! ## One part -/

theorem fits_iff : Word.fits cell ↔ -2 ^ 63 ≤ cell ∧ cell ≤ 2 ^ 63 - 1 := by
  rw [Word.fits, Bool.and_eq_true, decide_eq_true_iff, decide_eq_true_iff, Word.bound]
  omega

theorem checkRange_eq (literal : String) : checkRange cell literal index =
    if -2 ^ 63 ≤ cell ∧ cell ≤ 2 ^ 63 - 1 then .ok cell
    else .error (.wideLiteral literal index) := by
  simp only [checkRange, fits_iff]

theorem readCell_of_meaningless
    (meaningless : ∀ count value, ¬Text.Denotes (Text.trim part) count value) :
    readCell index part =
      .error (.malformedLiteral (String.ofList (Text.trim part)) index) := by
  have unread : Text.isLiteral (Text.trim part) = false := by
    by_contra literal
    exact meaningless _ _ (Text.denotes_iff.mpr ⟨by simpa using literal, rfl, rfl⟩)
  simp [readCell, unread]

theorem readCell_of_denotes {count : Nat} {value : Int}
    (denotes : Text.Denotes (Text.trim part) count value) :
    readCell index part =
      if 4300 < count then .error (.overlongLiteral count)
      else checkRange value (String.ofList (Text.trim part)) index := by
  obtain ⟨literal, rfl, rfl⟩ := Text.denotes_iff.mp denotes
  simp only [readCell, literal, Bool.not_true, Bool.false_eq_true, if_false]
  rfl

theorem Accepts.readCell (accepts : Accepts part cell) (index : Nat) :
    Program.readCell index part = .ok cell := by
  obtain ⟨literal, count, strips, denotes, short, fits⟩ := accepts
  obtain rfl := strips.trim_eq
  rw [readCell_of_denotes denotes, if_neg (Nat.not_lt.mpr short), checkRange_eq, if_pos fits]

theorem Refuses.readCell (refuses : Refuses index part fault) :
    Program.readCell index part = .error fault := by
  cases refuses with
  | malformed strips meaningless =>
    obtain rfl := strips.trim_eq
    exact readCell_of_meaningless meaningless
  | overlong strips denotes long =>
    obtain rfl := strips.trim_eq
    rw [readCell_of_denotes denotes, if_pos long]
  | wide strips denotes short outside =>
    obtain rfl := strips.trim_eq
    rw [readCell_of_denotes denotes, if_neg (Nat.not_lt.mpr short), checkRange_eq,
      if_neg (by omega)]

/-- A part that stands for no cell is refused. -/
theorem accepts_or_refuses (index : Nat) (part : List Char) :
    (∃ cell, Accepts part cell) ∨ ∃ fault, Refuses index part fault := by
  have strips := Text.strips_trim part
  by_cases literal : ∃ count value, Text.Denotes (Text.trim part) count value
  · obtain ⟨count, value, denotes⟩ := literal
    by_cases long : 4300 < count
    · exact Or.inr ⟨_, .overlong strips denotes long⟩
    · have short : count ≤ 4300 := Nat.not_lt.mp long
      by_cases fits : -2 ^ 63 ≤ value ∧ value ≤ 2 ^ 63 - 1
      · exact Or.inl ⟨value, _, count, strips, denotes, short, fits⟩
      · exact Or.inr ⟨_, .wide strips denotes short (by omega)⟩
  · refine Or.inr ⟨_, .malformed strips ?_⟩
    intro count value denotes
    exact literal ⟨count, value, denotes⟩

theorem readCell_ok_iff : readCell index part = .ok cell ↔ Accepts part cell := by
  constructor
  · intro read
    rcases accepts_or_refuses index part with ⟨cell', accepts⟩ | ⟨fault, refuses⟩
    · cases read.symm.trans (accepts.readCell index)
      exact accepts
    · cases read.symm.trans refuses.readCell
  · intro accepts
    exact accepts.readCell index

theorem readCell_error_iff : readCell index part = .error fault ↔ Refuses index part fault := by
  constructor
  · intro failed
    rcases accepts_or_refuses index part with ⟨cell, accepts⟩ | ⟨fault', refuses⟩
    · cases failed.symm.trans (accepts.readCell index)
    · cases failed.symm.trans refuses.readCell
      exact refuses
  · exact Refuses.readCell

/-! ## All parts -/

theorem readCells_ok_iff :
    readCells index parts = .ok cells ↔ List.Forall₂ Accepts parts cells := by
  induction parts generalizing index cells with
  | nil => simp [readCells, eq_comm]
  | cons part rest ih =>
    rw [List.forall₂_cons_left_iff, readCells]
    constructor
    · intro read
      split at read
      · cases read
      next cell first =>
        split at read
        · cases read
        next others later =>
          cases read
          exact ⟨cell, others, readCell_ok_iff.mp first, ih.mp later, rfl⟩
    · rintro ⟨cell, others, first, later, rfl⟩
      rw [readCell_ok_iff.mpr first, ih.mpr later]

theorem readCells_error_iff :
    readCells index parts = .error fault ↔ RefusesFirst index parts fault := by
  induction parts generalizing index with
  | nil =>
    constructor
    · intro failed
      cases failed
    · rintro ⟨before, part, after, empty, -⟩
      simp at empty
  | cons part rest ih =>
    rw [readCells]
    constructor
    · intro failed
      split at failed
      next first =>
        cases failed
        exact ⟨[], part, rest, rfl, by simp, readCell_error_iff.mp first⟩
      next cell first =>
        split at failed
        next later =>
          cases failed
          obtain ⟨before, refused, after, rfl, accepted, refuses⟩ := ih.mp later
          refine ⟨part :: before, refused, after, rfl, ?_, ?_⟩
          · simpa using ⟨⟨cell, readCell_ok_iff.mp first⟩, accepted⟩
          · rwa [List.length_cons, ← Nat.add_assoc, Nat.add_right_comm]
        · cases failed
    · rintro ⟨before, refused, after, cut, accepted, refuses⟩
      cases before with
      | nil =>
        cases cut
        have first : readCell index part = .error fault := refuses.readCell
        rw [first]
      | cons first before =>
        cases cut
        obtain ⟨cell, accepts⟩ := accepted part (by simp)
        have later : RefusesFirst (index + 1) (before ++ refused :: after) fault := by
          refine ⟨before, refused, after, rfl, fun earlier member => ?_, ?_⟩
          · exact accepted earlier (List.mem_cons_of_mem _ member)
          · rwa [List.length_cons, ← Nat.add_assoc, Nat.add_right_comm] at refuses
        rw [accepts.readCell, ih.mpr later]

/-! ## The whole text -/

theorem HasParts.parse_eq {text : String} (cut : HasParts text.toList parts) :
    parse text = readCells 0 parts := by
  obtain ⟨core, strips, inhabited, cut⟩ := cut
  have divided : Program.parts core = parts := by
    rw [Program.parts, Text.fields_eq_splitOn, dropEmptyLast]
    rcases cut with cut | ⟨cut, filled⟩
    · rw [cut, List.getLast?_concat, if_pos rfl, List.dropLast_concat]
    · rw [cut, if_neg filled]
  rw [parse, strips.trim_eq]
  cases core with
  | nil => exact absurd rfl inhabited
  | cons c rest => exact congrArg (readCells 0) divided

theorem parse_of_blank {text : String} (blank : Text.Strips text.toList []) :
    parse text = .error .emptyProgram := by
  rw [parse, blank.trim_eq]

/-- A text is blank or has parts. -/
theorem strips_or_hasParts (text : List Char) :
    Text.Strips text [] ∨ ∃ parts, HasParts text parts := by
  have strips := Text.strips_trim text
  by_cases blank : Text.trim text = []
  · exact Or.inl (blank ▸ strips)
  · right
    by_cases trailing : ((Text.trim text).splitOn ',').getLast? = some []
    · obtain ⟨parts, cut⟩ := List.getLast?_eq_some_iff.mp trailing
      exact ⟨parts, _, strips, blank, Or.inl cut⟩
    · exact ⟨_, _, strips, blank, Or.inr ⟨rfl, trailing⟩⟩

theorem HasParts.inhabited (cut : HasParts text parts) : parts ≠ [] := by
  rintro rfl
  obtain ⟨core, -, inhabited, cut⟩ := cut
  rcases cut with cut | ⟨cut, -⟩
  · have joined : [','].intercalate (core.splitOn ',') = core := List.intercalate_splitOn ','
    rw [cut] at joined
    exact inhabited joined.symm
  · exact List.splitOn_ne_nil ',' core cut

theorem parse_ok_iff {text : String} : parse text = .ok cells ↔
    ∃ parts, HasParts text.toList parts ∧ List.Forall₂ Accepts parts cells := by
  constructor
  · intro read
    rcases strips_or_hasParts text.toList with blank | ⟨parts, cut⟩
    · cases read.symm.trans (parse_of_blank blank)
    · exact ⟨parts, cut, readCells_ok_iff.mp (cut.parse_eq.symm.trans read)⟩
  · rintro ⟨parts, cut, accepts⟩
    rw [cut.parse_eq]
    exact readCells_ok_iff.mpr accepts

theorem parse_error_iff {text : String} : parse text = .error fault ↔
    Text.Strips text.toList [] ∧ fault = .emptyProgram ∨
      ∃ parts, HasParts text.toList parts ∧ RefusesFirst 0 parts fault := by
  constructor
  · intro failed
    rcases strips_or_hasParts text.toList with blank | ⟨parts, cut⟩
    · cases failed.symm.trans (parse_of_blank blank)
      exact Or.inl ⟨blank, rfl⟩
    · exact Or.inr ⟨parts, cut, readCells_error_iff.mp (cut.parse_eq.symm.trans failed)⟩
  · rintro (⟨blank, rfl⟩ | ⟨parts, cut, refuses⟩)
    · exact parse_of_blank blank
    · rw [cut.parse_eq]
      exact readCells_error_iff.mpr refuses

/-! ## Padding around the whole -/

theorem Accepts.ne_nil (accepts : Accepts part cell) : part ≠ [] := by
  rintro rfl
  have read := accepts.readCell 0
  cases read

theorem Accepts.of_padded {bare : List Char} (accepts : Accepts part cell)
    (padded : Text.Padded part bare) : Accepts bare cell := by
  obtain ⟨literal, count, strips, meaning⟩ := accepts
  have stripped : Text.trim bare = literal := padded.trim_eq.symm.trans strips.trim_eq
  exact ⟨literal, count, Text.strips_iff.mpr stripped, meaning⟩

theorem accepts_of_padded {bare : List (List Char)} (accepts : List.Forall₂ Accepts parts cells)
    (padded : List.Forall₂ Text.Padded parts bare) : List.Forall₂ Accepts bare cells := by
  induction padded generalizing cells with
  | nil => exact accepts
  | cons first _ ih =>
    cases accepts with
    | cons one others => exact .cons (one.of_padded first) (ih others)

theorem accepts_ne_nil (accepts : List.Forall₂ Accepts parts cells) : [] ∉ parts := by
  induction accepts with
  | nil => simp
  | cons first _ ih => exact List.not_mem_cons_of_ne_of_not_mem first.ne_nil.symm ih

/-! ## Listings -/

theorem isBlank_of_isDigit {c : Char} (digit : c.isDigit) : Text.isBlank c = false := by
  have range : 48 ≤ c.toNat ∧ c.toNat ≤ 57 := by
    simpa [Char.isDigit, UInt32.le_iff_toNat_le] using digit
  simp [Text.isBlank, Text.isSeparator]
  omega

namespace Spelling

theorem digits_isDigit (spelling : Spelling) : ∀ c ∈ spelling.digits, c.isDigit := by
  intro c member
  rcases List.mem_append.mp member with zero | digit
  · rw [List.eq_of_mem_replicate zero]
    rfl
  · exact Nat.isDigit_of_mem_toDigits (by decide) (by decide) digit

theorem digits_value (spelling : Spelling) :
    Nat.ofDigitChars 10 spelling.digits 0 = spelling.cell.natAbs := by
  rw [digits, Nat.ofDigitChars_append, Nat.ofDigitChars_replicate_zero, Nat.mul_zero,
    Nat.ofDigitChars_toDigits (by decide) (by decide)]

theorem denotes (spelling : Spelling) :
    Text.Denotes spelling.literal spelling.digits.length spelling.cell := by
  have inhabited : spelling.digits ≠ [] := by
    simp [digits, Nat.toDigits_ne_nil]
  have ascii := spelling.digits_isDigit
  have value := spelling.digits_value
  unfold literal
  split
  next negative =>
    have meaning := Text.Denotes.minus inhabited ascii
    rwa [value, show -(spelling.cell.natAbs : Int) = spelling.cell by omega] at meaning
  next positive =>
    have same : (spelling.cell.natAbs : Int) = spelling.cell := by omega
    split
    · have meaning := Text.Denotes.plus inhabited ascii
      rwa [value, same] at meaning
    · have meaning := Text.Denotes.unsigned inhabited ascii
      rwa [value, same] at meaning

theorem mem_literal {spelling : Spelling} {c : Char} (member : c ∈ spelling.literal) :
    c = '-' ∨ c = '+' ∨ c.isDigit := by
  unfold literal at member
  split at member
  · exact (List.mem_cons.mp member).imp id fun digit => Or.inr (spelling.digits_isDigit c digit)
  · right
    split at member
    · exact (List.mem_cons.mp member).imp id (spelling.digits_isDigit c)
    · exact Or.inr (spelling.digits_isDigit c member)

theorem literal_solid (spelling : Spelling) : ∀ c ∈ spelling.literal, Text.isBlank c = false := by
  intro c member
  rcases mem_literal member with rfl | rfl | digit
  · rfl
  · rfl
  · exact isBlank_of_isDigit digit

theorem accepts (spelling : Spelling) : Accepts spelling.part spelling.cell := by
  refine ⟨spelling.literal, spelling.digits.length, ⟨?_, ?_, ?_⟩, spelling.denotes, ?_,
    spelling.fits⟩
  · exact ⟨_, _, rfl, spelling.padded⟩
  · intro c member
    exact spelling.literal_solid c (List.mem_of_mem_head? member)
  · intro c member
    exact spelling.literal_solid c (List.mem_of_mem_getLast? member)
  · simpa [digits] using spelling.short

theorem comma_not_mem (spelling : Spelling) : ',' ∉ spelling.part := by
  have comma : Text.isBlank ',' = false := rfl
  intro member
  rcases List.mem_append.mp member with member | member
  · rcases List.mem_append.mp member with member | member
    · cases comma.symm.trans (spelling.padded.1 _ member)
    · rcases mem_literal member with minus | plus | digit
      · cases minus
      · cases plus
      · cases digit
  · cases comma.symm.trans (spelling.padded.2 _ member)

/-- A cell as it is printed, with nothing around it. -/
def plain (cell : Int) (fits : -2 ^ 63 ≤ cell ∧ cell ≤ 2 ^ 63 - 1) : Spelling where
  cell
  fits
  short := by
    have enough : (Nat.toDigits 10 cell.natAbs).length ≤ 19 :=
      (Nat.length_toDigits_le_iff (by decide) (by decide)).mpr (by omega)
    omega

theorem part_plain (cell : Int) (fits : -2 ^ 63 ≤ cell ∧ cell ≤ 2 ^ 63 - 1) :
    (plain cell fits).part = (toString cell).toList := by
  have text : (plain cell fits).part = (plain cell fits).literal := by
    simp [part, plain]
  rw [text, Int.toString_eq_repr]
  cases cell with
  | ofNat n =>
    have positive : ¬(plain (.ofNat n) fits).cell < 0 := Int.not_lt.mpr (Int.natCast_nonneg n)
    rw [literal, if_neg positive]
    simp [plain, digits, Int.repr, Nat.repr]
  | negSucc n =>
    have negative : (plain (.negSucc n) fits).cell < 0 := Int.negSucc_lt_zero n
    rw [literal, if_pos negative]
    simp [plain, digits, Int.repr, Nat.repr]

end Spelling

namespace Listing

theorem intercalate_trailing (inhabited : parts ≠ []) :
    [','].intercalate (parts ++ [[]]) = [','].intercalate parts ++ [','] := by
  induction parts with
  | nil => exact absurd rfl inhabited
  | cons part rest ih =>
    cases rest with
    | nil => simp [List.intercalate]
    | cons next rest =>
      rw [List.cons_append, List.cons_append, List.intercalate_cons_cons,
        List.intercalate_cons_cons, ← List.cons_append, ih (by simp)]
      simp

theorem splitOn_body (listing : Listing) : listing.body.splitOn ',' =
    listing.spellings.map (·.part) ++ if listing.trailing then [[]] else [] := by
  have inhabited : listing.spellings.map (·.part) ≠ [] := by
    simpa using listing.inhabited
  have absent : ∀ part ∈ listing.spellings.map (·.part), ',' ∉ part := by
    intro part member
    obtain ⟨spelling, -, rfl⟩ := List.mem_map.mp member
    exact spelling.comma_not_mem
  unfold body
  split
  · rw [← intercalate_trailing inhabited]
    refine List.splitOn_intercalate ',' (fun part member => ?_) (by simp)
    rcases List.mem_append.mp member with member | member
    · exact absent part member
    · rw [List.mem_singleton.mp member]
      simp
  · rw [List.append_nil, List.append_nil]
    exact List.splitOn_intercalate ',' absent inhabited

theorem accepts (listing : Listing) :
    List.Forall₂ Accepts (listing.spellings.map (·.part)) listing.cells := by
  unfold cells
  induction listing.spellings with
  | nil => exact .nil
  | cons spelling rest ih => exact .cons spelling.accepts ih

/-- The parts of a listing stand for its cells, wherever its padding is. -/
theorem hasParts (listing : Listing) :
    ∃ parts, HasParts listing.text.toList parts ∧ List.Forall₂ Accepts parts listing.cells := by
  have strips := Text.strips_trim listing.body
  have around : Text.Padded listing.text.toList listing.body :=
    ⟨_, _, String.toList_ofList, listing.padded⟩
  have whole : Text.Strips listing.text.toList (Text.trim listing.body) :=
    ⟨around.trans strips.padded, strips.first, strips.last⟩
  have comma : Text.isBlank ',' = false := rfl
  have padded := Text.fields_padded comma strips.padded
  rw [Text.fields_eq_splitOn, Text.fields_eq_splitOn, listing.splitOn_body] at padded
  cases trailing : listing.trailing with
  | false =>
    rw [trailing, if_neg Bool.false_ne_true, List.append_nil] at padded
    have accepted := accepts_of_padded listing.accepts padded
    refine ⟨_, ⟨_, whole, ?_, Or.inr ⟨rfl, ?_⟩⟩, accepted⟩
    · intro blank
      rw [blank, List.splitOn_nil] at accepted
      exact accepts_ne_nil accepted (by simp)
    · intro last
      exact accepts_ne_nil accepted (List.mem_of_getLast? last)
  | true =>
    rw [trailing, if_pos rfl, ← List.forall₂_reverse_iff, List.reverse_concat,
      List.forall₂_cons_left_iff] at padded
    obtain ⟨last, others, ⟨before, after, empty, -⟩, padded, reversed⟩ := padded
    have cut : (Text.trim listing.body).splitOn ',' = others.reverse ++ [[]] := by
      obtain ⟨-, rfl, -⟩ : before = [] ∧ last = [] ∧ after = [] := by simpa using empty
      rw [← List.reverse_reverse (List.splitOn ..), reversed, List.reverse_cons]
    have accepted : List.Forall₂ Accepts others.reverse listing.cells := by
      refine accepts_of_padded listing.accepts ?_
      rwa [← List.forall₂_reverse_iff, List.reverse_reverse]
    refine ⟨others.reverse, ⟨_, whole, ?_, Or.inl cut⟩, accepted⟩
    intro blank
    rw [blank, List.splitOn_nil] at cut
    have none : listing.cells.length = 0 := by
      rw [← accepted.length_eq]
      simpa using congrArg List.length cut
    exact listing.inhabited (by simpa [cells] using none)

theorem cells_fit (listing : Listing) :
    ∀ cell ∈ listing.cells, -2 ^ 63 ≤ cell ∧ cell ≤ 2 ^ 63 - 1 := by
  intro cell member
  obtain ⟨spelling, -, rfl⟩ := List.mem_map.mp member
  exact spelling.fits

/-- The cells as they are printed, with commas between them. -/
theorem exists_plain (inhabited : cells ≠ [])
    (fits : ∀ cell ∈ cells, -2 ^ 63 ≤ cell ∧ cell ≤ 2 ^ 63 - 1) :
    ∃ listing : Listing, listing.cells = cells ∧ listing.text = Text.joinIntegers "," cells := by
  let spellings := cells.attach.map fun cell => Spelling.plain cell.1 (fits cell.1 cell.2)
  refine ⟨{ spellings, inhabited := by simpa [spellings] using inhabited }, ?_, ?_⟩
  · simp [Listing.cells, spellings, Spelling.plain]
  · rw [← String.toList_inj, Text.joinIntegers, Text.join, String.toList_intercalate]
    simp [text, body, spellings, Spelling.part_plain]
    rfl

end Listing

/-- What comes after a part that is refused is not looked at. -/
theorem readCells_of_refused (unfit : ¬∃ cell, Accepts part cell) (before : List (List Char))
    (after after' : List (List Char)) :
    readCells index (before ++ part :: after) = readCells index (before ++ part :: after') := by
  induction before generalizing index with
  | nil =>
    rcases accepts_or_refuses index part with accepts | ⟨fault, refuses⟩
    · exact absurd accepts unfit
    · simp only [List.nil_append, readCells, refuses.readCell]
  | cons first before ih => simp only [List.cons_append, readCells, ih]

theorem checkCells_of_fits (fits : ∀ cell ∈ cells, -2 ^ 63 ≤ cell ∧ cell ≤ 2 ^ 63 - 1) :
    checkCells index cells = .ok cells :=
  checkCells_ok_iff.mpr ⟨rfl, fun cell member => fits_iff.mpr (fits cell member)⟩

/-- Reading a text gives cells exactly when it has parts that stand for them, and there is at least
one. Otherwise it fails: because the text is blank, or for the leftmost part that stands for no
cell, and then nothing that comes after this part makes a difference. However cells are written
down, reading gives them back, and the program is the same as if it had been handed in as cells;
there is a way to write down any cells that fit, and it is how they are printed. -/
theorem parse_exact (text : String) :
    (∀ cells, parse text = .ok cells ↔
      ∃ parts, HasParts text.toList parts ∧ List.Forall₂ Accepts parts cells) ∧
    (∀ cells, parse text = .ok cells → cells ≠ []) ∧
    (∀ fault, parse text = .error fault ↔
      Text.Strips text.toList [] ∧ fault = .emptyProgram ∨
        ∃ parts, HasParts text.toList parts ∧ RefusesFirst 0 parts fault) ∧
    (∀ (other : String) before part after after',
      HasParts text.toList (before ++ part :: after) →
      HasParts other.toList (before ++ part :: after') →
      (¬∃ cell, Accepts part cell) → parse other = parse text) ∧
    (∀ listing : Listing, parse listing.text = .ok listing.cells ∧
      (Program.text listing.text).load = (Program.image listing.cells).load) ∧
    ∀ cells : List Int, cells ≠ [] → (∀ cell ∈ cells, -2 ^ 63 ≤ cell ∧ cell ≤ 2 ^ 63 - 1) →
      ∃ listing : Listing, listing.cells = cells ∧
        listing.text = Text.joinIntegers "," cells := by
  refine ⟨fun cells => parse_ok_iff, ?_, fun fault => parse_error_iff, ?_, ?_, ?_⟩
  · rintro cells read rfl
    obtain ⟨parts, cut, accepts⟩ := parse_ok_iff.mp read
    exact cut.inhabited (List.forall₂_nil_right_iff.mp accepts)
  · intro other before part after after' cut cut' unfit
    rw [cut.parse_eq, cut'.parse_eq]
    exact readCells_of_refused unfit before after' after
  · intro listing
    have read : parse listing.text = .ok listing.cells := parse_ok_iff.mpr listing.hasParts
    refine ⟨read, ?_⟩
    rw [load, load, read, checkCells_of_fits listing.cells_fit]
  · intro cells inhabited fits
    exact Listing.exists_plain inhabited fits

/-- Seven and minus one, with zeros, padding and a comma at the end. -/
def sevenAndMinusOne : Listing where
  spellings :=
    [{ cell := 7, fits := by decide, zeros := 2, short := by decide },
      { cell := -1, fits := by decide, after := [' '], padded := by simp [Text.isBlank],
        short := by decide }]
  inhabited := by simp
  before := ['\n']
  trailing := true
  after := ['\t']
  padded := by simp [Text.isBlank]

/-- A defect is reported whatever stands behind it, also a cell that would not fit. The listing is
read back. -/
theorem parse_exact_misspelled :
    parse " +1 , x,2" = .error (.malformedLiteral "x" 1) ∧
    parse " +1 , x,99999999999999999999," = parse " +1 , x,2" ∧
    parse "\n007,-1 ,\t" = .ok [7, -1] := by
  obtain ⟨-, -, fails, later, listings, -⟩ := parse_exact " +1 , x,2"
  have refuses : Refuses 1 " x".toList (.malformedLiteral "x" 1) := readCell_error_iff.mp rfl
  have accepts : Accepts "+1 ".toList 1 := readCell_ok_iff.mp (rfl : readCell 0 _ = _)
  have cut : HasParts " +1 , x,2".toList (["+1 ".toList] ++ " x".toList :: ["2".toList]) :=
    ⟨_, Text.strips_trim _, by decide, Or.inr ⟨by decide, by decide⟩⟩
  have cut' : HasParts " +1 , x,99999999999999999999,".toList
      (["+1 ".toList] ++ " x".toList :: ["99999999999999999999".toList]) :=
    ⟨_, Text.strips_trim _, by decide, Or.inl (by decide)⟩
  refine ⟨(fails _).mpr (Or.inr ⟨_, cut, _, _, _, rfl, ?_, refuses⟩), ?_, ?_⟩
  · simpa using ⟨1, accepts⟩
  · refine later _ _ _ _ _ cut cut' ?_
    rintro ⟨cell, accepts⟩
    cases (accepts.readCell 1).symm.trans refuses.readCell
  · exact (listings sevenAndMinusOne).1

end Intcode.Program
