import Mathlib.Data.List.Forall2
import Intcode.Text.Numeral

/-!
# What trimming, cutting and reading a text come to

`Strips` and `Denotes` say without a procedure what is left of a padded text and which integer a
literal stands for; `trim` and the readers of literals find just that. Cutting a text into its
fields is `List.splitOn`, which has its theory in the library.
-/
namespace Intcode.Text

/-- A text is another one with padding around it. -/
def Padded (text core : List Char) : Prop :=
  ∃ before after, text = before ++ core ++ after ∧
    (∀ c ∈ before, isBlank c) ∧ ∀ c ∈ after, isBlank c

/-- What is left of a text when the padding at both of its ends is taken away. -/
structure Strips (text core : List Char) : Prop where
  padded : Padded text core
  first : ∀ c ∈ core.head?, isBlank c = false
  last : ∀ c ∈ core.getLast?, isBlank c = false

/-- A literal is an optional sign followed by one or more digits of ASCII. It denotes the integer
that its digits stand for in the decimal system; `count` is their number. -/
inductive Denotes : (literal : List Char) → (count : Nat) → (value : Int) → Prop where
  | unsigned {digits : List Char} (inhabited : digits ≠ []) (ascii : ∀ c ∈ digits, c.isDigit) :
    Denotes digits digits.length (Nat.ofDigitChars 10 digits 0)
  | plus {digits : List Char} (inhabited : digits ≠ []) (ascii : ∀ c ∈ digits, c.isDigit) :
    Denotes ('+' :: digits) digits.length (Nat.ofDigitChars 10 digits 0)
  | minus {digits : List Char} (inhabited : digits ≠ []) (ascii : ∀ c ∈ digits, c.isDigit) :
    Denotes ('-' :: digits) digits.length (-(Nat.ofDigitChars 10 digits 0 : Int))

variable {text core before after literal digits : List Char} {test : Char → Bool}

/-! ## Trimming -/

theorem dropWhile_append_exact (dropped : ∀ c ∈ before, test c)
    (kept : ∀ c ∈ core.head?, test c = false) : (before ++ core).dropWhile test = core := by
  rw [List.dropWhile_append_of_pos dropped]
  cases core with
  | nil => rfl
  | cons c rest => simp [kept c rfl]

theorem dropEndWhile_append_exact (kept : ∀ c ∈ core.getLast?, test c = false)
    (dropped : ∀ c ∈ after, test c) : dropEndWhile test (core ++ after) = core := by
  rw [dropEndWhile, List.reverse_append, dropWhile_append_exact (by simpa using dropped)
    (by simpa using kept), List.reverse_reverse]

theorem mem_takeWhile {c : Char} (member : c ∈ text.takeWhile test) : test c :=
  List.all_eq_true.mp List.all_takeWhile c member

theorem head?_dropWhile {c : Char} (member : c ∈ (text.dropWhile test).head?) :
    test c = false := by
  have boundary := List.head?_dropWhile_not test text
  rwa [Option.mem_def.mp member] at boundary

/-- Trimming finds what the padding leaves, in whatever way the text is divided. -/
theorem Strips.trim_eq (strips : Strips text core) : trim text = core := by
  obtain ⟨⟨before, after, rfl, blank, blank'⟩, first, last⟩ := strips
  cases core with
  | nil =>
    -- All of the text is padding, and the front takes it all.
    have padding : ∀ c ∈ before ++ after, isBlank c := by
      intro c member
      exact (List.mem_append.mp member).elim (blank c) (blank' c)
    have nothing : (before ++ after ++ []).dropWhile isBlank = [] :=
      dropWhile_append_exact padding (by simp)
    rw [List.append_nil] at nothing ⊢
    rw [trim, trimWhile, nothing]
    rfl
  | cons c rest =>
    rw [trim, trimWhile, List.append_assoc, dropWhile_append_exact blank (by simpa using first)]
    exact dropEndWhile_append_exact last blank'

theorem strips_trim (text : List Char) : Strips text (trim text) := by
  have front : text.takeWhile isBlank ++ text.dropWhile isBlank = text :=
    List.takeWhile_append_dropWhile
  obtain ⟨after, back, blank⟩ :
      ∃ after, trim text ++ after = text.dropWhile isBlank ∧ ∀ c ∈ after, isBlank c := by
    refine ⟨((text.dropWhile isBlank).reverse.takeWhile isBlank).reverse, ?_, ?_⟩
    · rw [trim, trimWhile, dropEndWhile, ← List.reverse_append, List.takeWhile_append_dropWhile,
        List.reverse_reverse]
    · intro c member
      exact mem_takeWhile (List.mem_reverse.mp member)
  refine ⟨⟨text.takeWhile isBlank, after, ?_, fun c => mem_takeWhile, blank⟩, ?_, ?_⟩
  · rw [List.append_assoc, back, front]
  · intro c member
    have head : c ∈ (text.dropWhile isBlank).head? := by
      rw [← back, List.head?_append, Option.mem_def.mp member]
      rfl
    exact head?_dropWhile head
  · intro c member
    rw [trim, trimWhile, dropEndWhile, List.getLast?_reverse] at member
    exact head?_dropWhile member

/-- A text has exactly one part that is left of it. -/
theorem strips_iff : Strips text core ↔ trim text = core :=
  ⟨Strips.trim_eq, fun trimmed => trimmed ▸ strips_trim text⟩

theorem Padded.trans {inner : List Char} (outer : Padded text core) (padded : Padded core inner) :
    Padded text inner := by
  obtain ⟨before, after, rfl, blank, blank'⟩ := outer
  obtain ⟨before', after', rfl, inside, inside'⟩ := padded
  refine ⟨before ++ before', after' ++ after, by simp, ?_, ?_⟩
  · intro c member
    exact (List.mem_append.mp member).elim (blank c) (inside c)
  · intro c member
    exact (List.mem_append.mp member).elim (inside' c) (blank' c)

/-- Padding makes no difference to what is left. -/
theorem Padded.trim_eq (padded : Padded text core) : trim text = trim core := by
  obtain ⟨inner, first, last⟩ := strips_trim core
  exact Strips.trim_eq ⟨padded.trans inner, first, last⟩

/-! ## Cutting -/

theorem fields_eq_splitOn (separator : Char) (text : List Char) :
    fields separator text = text.splitOn separator := by
  induction text with
  | nil => rfl
  | cons c rest ih =>
    have cut : (c :: rest).splitOn separator =
        if c == separator then [] :: rest.splitOn separator
        else (rest.splitOn separator).modifyHead (List.cons c) :=
      List.splitOnP_cons_eq_if_modifyHead c rest
    rw [fields, ih, cut]
    by_cases same : c = separator
    · simp only [same, if_true, beq_self_eq_true]
    · simp only [same, if_false, beq_iff_eq]
      split
      next empty => exact absurd empty (List.splitOn_ne_nil separator rest)
      next field others found => rw [found, List.modifyHead_cons]

theorem fields_cons_of_ne {separator c : Char} (apart : c ≠ separator) (rest : List Char) :
    ∃ field others, fields separator rest = field :: others ∧
      fields separator (c :: rest) = (c :: field) :: others := by
  cases cut : fields separator rest with
  | nil => exact absurd cut (fields_ne_nil separator rest)
  | cons field others => exact ⟨field, others, rfl, by rw [fields, if_neg apart, cut]⟩

theorem fields_of_not_mem {separator : Char} (absent : separator ∉ text) :
    fields separator text = [text] := by
  induction text with
  | nil => rfl
  | cons c rest ih =>
    have apart : c ≠ separator := by
      rintro rfl
      exact absent (by simp)
    rw [fields, if_neg apart, ih fun member => absent (List.mem_cons_of_mem c member)]

theorem fields_padded_back {separator : Char} (solid : isBlank separator = false)
    (blank : ∀ c ∈ after, isBlank c) :
    List.Forall₂ (fun field bare => ∃ after, field = bare ++ after ∧ ∀ c ∈ after, isBlank c)
      (fields separator (core ++ after)) (fields separator core) := by
  induction core with
  | nil =>
    have absent : separator ∉ after := by
      intro member
      simp [blank separator member] at solid
    rw [List.nil_append, fields_of_not_mem absent]
    exact .cons ⟨after, rfl, blank⟩ .nil
  | cons c core ih =>
    by_cases same : c = separator
    · rw [List.cons_append, fields, fields, if_pos same, if_pos same]
      exact .cons ⟨[], rfl, by simp⟩ ih
    · obtain ⟨field, others, cut, cut'⟩ := fields_cons_of_ne same (core ++ after)
      obtain ⟨bare, others', bareCut, bareCut'⟩ := fields_cons_of_ne same core
      rw [cut, bareCut, List.forall₂_cons] at ih
      obtain ⟨⟨padding, rfl, blank⟩, later⟩ := ih
      rw [List.cons_append, cut', bareCut']
      exact .cons ⟨padding, rfl, blank⟩ later

/-- Padding around a text is padding around its fields. -/
theorem fields_padded {separator : Char} (solid : isBlank separator = false)
    (padded : Padded text core) :
    List.Forall₂ Padded (fields separator text) (fields separator core) := by
  obtain ⟨before, after, rfl, blank, blank'⟩ := padded
  induction before with
  | nil =>
    refine (fields_padded_back solid blank').imp ?_
    rintro field bare ⟨padding, rfl, blank⟩
    exact ⟨[], padding, rfl, by simp, blank⟩
  | cons c before ih =>
    have first : isBlank c := blank c (by simp)
    have apart : c ≠ separator := by
      rintro rfl
      simp [first] at solid
    obtain ⟨field, others, cut, cut'⟩ := fields_cons_of_ne apart (before ++ core ++ after)
    have inner := ih fun d member => blank d (List.mem_cons_of_mem c member)
    rw [cut, List.forall₂_cons_left_iff] at inner
    obtain ⟨bare, others', ⟨front, back, rfl, padding⟩, later, bareCut⟩ := inner
    rw [List.cons_append, List.cons_append, cut', bareCut]
    exact .cons ⟨c :: front, back, rfl, by simpa [first] using padding.1, padding.2⟩ later

/-! ## Literals -/

theorem ofDigits_map (digits : List Char) :
    ofDigits (digits.map asciiDigitValue) = Nat.ofDigitChars 10 digits 0 := by
  rw [ofDigits, List.foldl_map]
  rfl

theorem splitSign_of_isDigit (ascii : ∀ c ∈ digits, c.isDigit) :
    splitSign digits = (false, digits) := by
  unfold splitSign
  split
  · exact absurd (ascii '-' (by simp)) (by decide)
  · exact absurd (ascii '+' (by simp)) (by decide)
  · rfl

theorem isLiteral_iff : isLiteral literal ↔
    (splitSign literal).2 ≠ [] ∧ ∀ c ∈ (splitSign literal).2, c.isDigit := by
  simp [isLiteral]

/-- The readers of literals find what a literal denotes, and how many digits it has. -/
theorem denotes_iff {count : Nat} {value : Int} : Denotes literal count value ↔
    isLiteral literal ∧ literalDigits literal = count ∧ literalValue literal = value := by
  rw [isLiteral_iff]
  constructor
  · rintro (⟨inhabited, ascii⟩ | ⟨inhabited, ascii⟩ | ⟨inhabited, ascii⟩)
    · simp only [literalDigits, literalValue, splitSign_of_isDigit ascii, ofDigits_map]
      exact ⟨⟨inhabited, ascii⟩, trivial, rfl⟩
    · simp only [literalDigits, literalValue, splitSign, ofDigits_map]
      exact ⟨⟨inhabited, ascii⟩, trivial, rfl⟩
    · simp only [literalDigits, literalValue, splitSign, ofDigits_map]
      exact ⟨⟨inhabited, ascii⟩, trivial, rfl⟩
  · rintro ⟨⟨inhabited, ascii⟩, rfl, rfl⟩
    rw [literalDigits, literalValue]
    rcases sign : splitSign literal with ⟨negative, digits⟩
    rw [sign] at inhabited ascii
    simp only [ofDigits_map]
    unfold splitSign at sign
    split at sign
    · cases sign
      exact .minus inhabited ascii
    · cases sign
      exact .plus inhabited ascii
    · cases sign
      exact .unsigned inhabited ascii

end Intcode.Text
