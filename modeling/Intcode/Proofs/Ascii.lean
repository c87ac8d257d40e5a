import Intcode.Ascii
import Intcode.Proofs.Text

/-!
# Text sent and text received

What is sent to a program as text can be read back from it as text: the values of a text, or of
lines, hold nothing but that text (`split_codes`), and cutting it at the line feeds gives the lines
back (`fields_lines`). In the other direction, the values in the range of ASCII are those of the
text that they make up (`encode_textOf`). Only characters outside ASCII cannot be sent, and the
first of them is reported (`encode_error_iff`).
-/
namespace Intcode.Ascii

def IsAscii (c : Char) : Prop :=
  c.toNat ≤ 127

instance (c : Char) : Decidable (IsAscii c) :=
  inferInstanceAs (Decidable (c.toNat ≤ 127))

/-- A line of ASCII that has no line feed in it. -/
structure Plain (line : String) : Prop where
  ascii : ∀ c ∈ line.toList, IsAscii c
  whole : '\n' ∉ line.toList

/-- The test goes through the characters of the line, not through all that there are. -/
instance (line : String) : Decidable (Plain line) :=
  decidable_of_iff (line.toList.all fun c => decide (IsAscii c) && c != '\n') (by
    simp only [List.all_eq_true, Bool.and_eq_true, decide_eq_true_eq, bne_iff_ne]
    constructor
    · intro plain
      exact ⟨fun c member => (plain c member).1, fun member => (plain '\n' member).2 rfl⟩
    · intro plain c member
      refine ⟨plain.ascii c member, ?_⟩
      rintro rfl
      exact plain.whole member)

def codes (text : List Char) : List Int :=
  text.map fun c => (c.toNat : Int)

/-- Lines one after the other, with a line feed at the end of each. -/
def ended (lines : List String) : List Char :=
  lines.flatMap fun line => line.toList ++ ['\n']

variable {text : List Char} {values : List Int} {lines : List String} {line : String}
  {position : Nat} {fault : Fault}

theorem codes_append (text rest : List Char) : codes (text ++ rest) = codes text ++ codes rest :=
  List.map_append

theorem ended_cons (line : String) (lines : List String) :
    ended (line :: lines) = line.toList ++ '\n' :: ended lines := by
  simp [ended]

/-! ## Texts -/

theorem encodeFrom_of_ascii (ascii : ∀ c ∈ text, IsAscii c) :
    encodeFrom position text = .ok (codes text) := by
  induction text generalizing position with
  | nil => rfl
  | cons c rest ih =>
    have first : ¬127 < c.toNat := Nat.not_lt.mpr (ascii c (by simp))
    have later : encodeFrom (position + 1) rest = .ok (codes rest) :=
      ih fun d member => ascii d (List.mem_cons_of_mem c member)
    rw [encodeFrom, if_neg first, later]
    rfl

theorem encodeFrom_of_foreign {before after : List Char} {c : Char}
    (ascii : ∀ b ∈ before, IsAscii b) (foreign : ¬IsAscii c) :
    encodeFrom position (before ++ c :: after) =
      .error (.nonAscii c (position + before.length)) := by
  induction before generalizing position with
  | nil =>
    have wide : 127 < c.toNat := Nat.not_le.mp foreign
    rw [List.nil_append, encodeFrom, if_pos wide]
    rfl
  | cons b before ih =>
    have first : ¬127 < b.toNat := Nat.not_lt.mpr (ascii b (by simp))
    have later : encodeFrom (position + 1) (before ++ c :: after) =
        .error (.nonAscii c (position + 1 + before.length)) :=
      ih fun d member => ascii d (List.mem_cons_of_mem b member)
    rw [List.cons_append, encodeFrom, if_neg first, later, List.length_cons]
    simp only [Nat.add_assoc, Nat.add_comm 1]

/-- A text is all ASCII, or it has a first character that is not. -/
theorem ascii_or_foreign (text : List Char) :
    (∀ c ∈ text, IsAscii c) ∨ ∃ before c after, text = before ++ c :: after ∧
      (∀ b ∈ before, IsAscii b) ∧ ¬IsAscii c := by
  induction text with
  | nil => exact Or.inl (by simp)
  | cons c rest ih =>
    by_cases first : IsAscii c
    · rcases ih with ascii | ⟨before, d, after, rfl, ascii, foreign⟩
      · exact Or.inl (by simpa [first] using ascii)
      · exact Or.inr ⟨c :: before, d, after, rfl, by simpa [first] using ascii, foreign⟩
    · exact Or.inr ⟨[], c, rest, rfl, by simp, first⟩

theorem encode_ok_iff {text : String} :
    encode text = .ok values ↔ (∀ c ∈ text.toList, IsAscii c) ∧ values = codes text.toList := by
  unfold encode
  rcases ascii_or_foreign text.toList with ascii | ⟨before, c, after, cut, ascii, foreign⟩
  · rw [encodeFrom_of_ascii ascii, Except.ok.injEq]
    exact ⟨fun same => ⟨ascii, same.symm⟩, fun same => same.2.symm⟩
  · rw [cut, encodeFrom_of_foreign ascii foreign]
    simp only [reduceCtorEq, false_iff]
    intro all
    exact foreign (all.1 c (by simp))

/-- A text cannot be sent for the first of its characters that is not ASCII, and for nothing
else. -/
theorem encode_error_iff {text : String} :
    encode text = .error fault ↔ ∃ before c after, text.toList = before ++ c :: after ∧
      (∀ b ∈ before, IsAscii b) ∧ ¬IsAscii c ∧ fault = .nonAscii c before.length := by
  constructor
  · intro failed
    rcases ascii_or_foreign text.toList with ascii | ⟨before, c, after, cut, ascii, foreign⟩
    · rw [encode, encodeFrom_of_ascii ascii] at failed
      cases failed
    · rw [encode, cut, encodeFrom_of_foreign ascii foreign, Nat.zero_add] at failed
      cases failed
      exact ⟨before, c, after, cut, ascii, foreign, rfl⟩
  · rintro ⟨before, c, after, cut, ascii, foreign, rfl⟩
    rw [encode, cut, encodeFrom_of_foreign ascii foreign, Nat.zero_add]

/-! ## Values -/

theorem isCode_iff (value : Int) : isCode value ↔ 0 ≤ value ∧ value ≤ 127 := by
  simp [isCode]

theorem isCode_of_ascii {value : Int} (ascii : ∀ c ∈ text, IsAscii c)
    (member : value ∈ codes text) : isCode value := by
  obtain ⟨c, among, rfl⟩ := List.mem_map.mp member
  have small : c.toNat ≤ 127 := ascii c among
  rw [isCode_iff]
  omega

/-- The code points of a text of ASCII hold that text, and no plain number. -/
theorem split_codes (ascii : ∀ c ∈ text, IsAscii c) :
    split (codes text) = (String.ofList text, []) := by
  have kept : (codes text).filter isCode = codes text :=
    List.filter_eq_self.mpr fun value => isCode_of_ascii ascii
  have none : (codes text).filter (fun value => !isCode value) = [] := by
    rw [List.filter_eq_nil_iff]
    intro value member
    simp [isCode_of_ascii ascii member]
  have back : (codes text).map (fun value => Char.ofNat value.toNat) = text := by
    simp [codes, Function.comp_def]
  rw [split, textOf, numbersOf, kept, none, back]

theorem toNat_ofNat_of_isCode {value : Int} (code : isCode value) :
    ((Char.ofNat value.toNat).toNat : Int) = value := by
  obtain ⟨low, high⟩ := (isCode_iff value).mp code
  have valid : value.toNat.isValidChar := Or.inl (by omega)
  have same : (Char.ofNat value.toNat).toNat = value.toNat := by
    rw [Char.ofNat, dif_pos valid]
    rfl
  rw [same, Int.toNat_of_nonneg low]

/-- The text in a list of values has the values in the range of ASCII for its code points. -/
theorem codes_textOf (values : List Int) :
    codes (textOf values).toList = values.filter isCode := by
  have back : ∀ value ∈ values.filter isCode,
      ((Char.ofNat value.toNat).toNat : Int) = id value := by
    intro value member
    exact toNat_ofNat_of_isCode (List.mem_filter.mp member).2
  rw [textOf, String.toList_ofList, codes, List.map_map]
  exact (List.map_congr_left back).trans (List.map_id _)

theorem encode_textOf (values : List Int) :
    encode (textOf values) = .ok (values.filter isCode) := by
  rw [encode_ok_iff, codes_textOf]
  refine ⟨fun c member => ?_, rfl⟩
  have among : (c.toNat : Int) ∈ codes (textOf values).toList :=
    List.mem_map.mpr ⟨c, member, rfl⟩
  rw [codes_textOf, List.mem_filter, isCode_iff] at among
  have small : c.toNat ≤ 127 := by omega
  exact small

theorem length_split (values : List Int) :
    (split values).1.length + (split values).2.length = values.length := by
  have text : (split values).1.length = (values.filter isCode).length := by
    rw [← codes_textOf, codes, List.length_map, String.length_toList]
    rfl
  rw [text]
  exact (List.length_eq_length_filter_add isCode).symm

/-! ## Lines -/

theorem encodeLine_of_plain (plain : Plain line) :
    encodeLine line = .ok (codes (line.toList ++ ['\n'])) := by
  have kept : Text.dropEndWhile (· == '\n') (line.toList ++ []) = line.toList := by
    apply Text.dropEndWhile_append_exact
    · intro c last
      have apart : c ≠ '\n' := by
        rintro rfl
        exact plain.whole (List.mem_of_getLast? last)
      simpa using apart
    · simp
  rw [List.append_nil] at kept
  rw [encodeLine, kept, encodeFrom_of_ascii plain.ascii, codes_append]
  rfl

theorem encodeLines_of_plain (plain : ∀ line ∈ lines, Plain line) :
    encodeLines lines = .ok (codes (ended lines)) := by
  induction lines with
  | nil => rfl
  | cons line rest ih =>
    have first := encodeLine_of_plain (plain line (by simp))
    have later := ih fun other member => plain other (List.mem_cons_of_mem line member)
    simp only [encodeLines, first, later]
    rw [← codes_append, List.append_assoc, ended_cons]
    rfl

theorem ascii_ended (plain : ∀ line ∈ lines, Plain line) : ∀ c ∈ ended lines, IsAscii c := by
  intro c member
  obtain ⟨line, among, here⟩ := List.mem_flatMap.mp member
  rcases List.mem_append.mp here with inside | last
  · exact (plain line among).ascii c inside
  · rw [List.mem_singleton.mp last]
    decide

/-- Cutting lines at the line feeds gives them back, with an empty field after the last one. -/
theorem fields_lines (plain : ∀ line ∈ lines, Plain line) :
    Text.fields '\n' (ended lines) = lines.map String.toList ++ [[]] := by
  induction lines with
  | nil => rfl
  | cons line rest ih =>
    have whole : ∀ c ∈ line.toList, (c == '\n') = false := by
      intro c member
      have apart : c ≠ '\n' := by
        rintro rfl
        exact (plain line (by simp)).whole member
      simpa using apart
    have later := ih fun other member => plain other (List.mem_cons_of_mem line member)
    rw [Text.fields_eq_splitOn] at later ⊢
    rw [ended_cons, List.map_cons, List.cons_append, ← later]
    exact List.splitOnP_append_cons_of_forall_mem whole '\n' (by simp) _

theorem fields_split_lines (plain : ∀ line ∈ lines, Plain line) :
    (Text.fields '\n' (String.ofList (ended lines)).toList).map String.ofList = lines ++ [""] := by
  rw [String.toList_ofList, fields_lines plain]
  simp [Function.comp_def]

/-- Sending and receiving text. Lines of ASCII without line feeds can be sent; what is sent for them
is text only, it falls into these lines and an empty field after them, and no other lines are
sent in the same way. A text can be sent exactly if it is ASCII, and then it is received as it is;
otherwise its first character that is not ASCII is reported, with its position. Of any values,
those from 0 to 127 are the ones that are sent for the text in them and the others are the plain
numbers, each in their order, and none is lost. -/
theorem codec_exact :
    (∀ lines, (∀ line ∈ lines, Plain line) → ∃ values text, encodeLines lines = .ok values ∧
      split values = (text, []) ∧
      (Text.fields '\n' text.toList).map String.ofList = lines ++ [""]) ∧
    (∀ lines lines', (∀ line ∈ lines, Plain line) → (∀ line ∈ lines', Plain line) →
      encodeLines lines = encodeLines lines' → lines = lines') ∧
    (∀ text, ((∃ values, encode text = .ok values) ↔ ∀ c ∈ text.toList, IsAscii c) ∧
      (∀ values, encode text = .ok values → split values = (text, [])) ∧
      ∀ fault, encode text = .error fault ↔ ∃ before c after, text.toList = before ++ c :: after ∧
        (∀ b ∈ before, IsAscii b) ∧ ¬IsAscii c ∧ fault = .nonAscii c before.length) ∧
    ∀ values, ∃ text others, split values = (text, others) ∧
      encode text = .ok (values.filter fun value => 0 ≤ value ∧ value ≤ 127) ∧
      others = values.filter (fun value => ¬(0 ≤ value ∧ value ≤ 127)) ∧
      text.length + others.length = values.length := by
  refine ⟨?_, ?_, ?_, ?_⟩
  · intro lines plain
    exact ⟨_, _, encodeLines_of_plain plain, split_codes (ascii_ended plain),
      fields_split_lines plain⟩
  · intro lines lines' plain plain' same
    rw [encodeLines_of_plain plain, encodeLines_of_plain plain', Except.ok.injEq] at same
    have received := split_codes (ascii_ended plain)
    rw [same, split_codes (ascii_ended plain'), Prod.mk.injEq] at received
    have cut := fields_split_lines plain
    rw [← received.1, fields_split_lines plain'] at cut
    exact (List.append_cancel_right cut).symm
  · intro text
    refine ⟨?_, ?_, fun fault => encode_error_iff⟩
    · simp only [encode_ok_iff, exists_and_left, exists_eq, and_true]
    · intro values sent
      obtain ⟨ascii, rfl⟩ := encode_ok_iff.mp sent
      rw [split_codes ascii, String.ofList_toList]
  · intro values
    have codes : isCode = fun value => decide (0 ≤ value ∧ value ≤ 127) := by
      funext value
      exact Bool.eq_iff_iff.mpr ((isCode_iff value).trans decide_eq_true_iff.symm)
    refine ⟨_, _, rfl, ?_, ?_, length_split values⟩
    · rw [← codes]
      exact encode_textOf values
    · simp only [numbersOf, codes, decide_not]

/-- Three lines, one of them empty, are received as they were sent; no character of a text that
stands behind one outside ASCII is looked at; numbers among the values of a text are told apart. -/
theorem codec_exact_mixed :
    (∃ values text, encodeLines ["walk", "", "not T J"] = .ok values ∧ split values = (text, []) ∧
      (Text.fields '\n' text.toList).map String.ofList = ["walk", "", "not T J", ""]) ∧
    encode "caféß" = .error (.nonAscii 'é' 3) ∧
    ∃ text, split [72, -1, 105, 19352493] = (text, [-1, 19352493]) ∧
      encode text = .ok [72, 105] := by
  obtain ⟨lines, -, texts, values⟩ := codec_exact
  have plain : ∀ line ∈ ["walk", "", "not T J"], Plain line := by decide +kernel
  refine ⟨lines _ plain, ?_, ?_⟩
  · rw [(texts "caféß").2.2]
    exact ⟨['c', 'a', 'f'], 'é', ['ß'], by decide +kernel, by simp [IsAscii], by decide, rfl⟩
  · obtain ⟨text, others, received, sent, rfl, -⟩ := values [72, -1, 105, 19352493]
    exact ⟨text, received, sent⟩

end Intcode.Ascii
