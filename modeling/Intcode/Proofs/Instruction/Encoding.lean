import Mathlib.Data.List.Basic
import Mathlib.Tactic.Ring
import Intcode.Instruction.Decode
import Intcode.Proofs.Fault

/-!
# The encoding of instructions

A word encodes an instruction as a sum: the number of the operation, a digit for the mode of each
operand from the hundreds on, and anything above (`Layout.word`). Decoding succeeds on just these
words and finds what they encode (`Encodes`); every other word it refuses for the first of its
defects (`Refuses`). What connects the two is that the digits of a word are those of the sum
(`horner_eq_iff`).

A defect is raised with the word and the pointer in its wording. Words and pointers that can be
written are refused for the defect itself, and others for their length.
-/
namespace Intcode.Instruction

/-- An operation by its number, with the number of its operands and the one that it writes to,
counted from zero. -/
structure Layout where
  opcode : Int
  count : Nat
  written : Option Nat
  deriving DecidableEq, Repr

def layouts : List Layout :=
  [⟨1, 3, some 2⟩, ⟨2, 3, some 2⟩, ⟨3, 1, some 0⟩, ⟨4, 1, none⟩, ⟨5, 2, none⟩, ⟨6, 2, none⟩,
    ⟨7, 3, some 2⟩, ⟨8, 3, some 2⟩, ⟨9, 1, none⟩, ⟨99, 0, none⟩]

namespace Layout

/-- The modes are ones that the operands can have: there are as many, and the operand that is
written is not immediate. -/
def Admits (layout : Layout) (modes : List Mode) : Prop :=
  modes.length = layout.count ∧ ∀ k ∈ layout.written, modes[k]? ≠ some .immediate

/-- The word with the given modes, and any number in the digits above them. -/
def word (layout : Layout) (modes : List Mode) (above : Int) : Int :=
  layout.opcode + (modes.mapIdx fun i mode => mode.digit * 10 ^ (i + 2)).sum +
    above * 10 ^ (layout.count + 2)

end Layout

/-- A word encodes the operation with a number, and modes for its operands. -/
def Encodes (word opcode : Int) (modes : List Mode) : Prop :=
  ∃ layout ∈ layouts, layout.opcode = opcode ∧ layout.Admits modes ∧
    ∃ above, 0 ≤ above ∧ word = layout.word modes above

def digit (word : Int) (k : Nat) : Int :=
  word / 10 ^ (k + 2) % 10

def Supported (digit : Int) : Prop :=
  digit = 0 ∨ digit = 1 ∨ digit = 2

/-- Why a word is refused. The operation comes first, then the digits of its operands from the
lowest on, and at last whether the operand that is written is immediate. -/
inductive Refuses (word pointer : Int) : Fault → Prop where
  | negative (below : word < 0) : Refuses word pointer (.unknownOpcode word pointer)
  | unlisted (natural : 0 ≤ word) (absent : ∀ layout ∈ layouts, layout.opcode ≠ word % 100) :
      Refuses word pointer (.unknownOpcode (word % 100) pointer)
  | mode {layout : Layout} {k : Nat} (natural : 0 ≤ word) (listed : layout ∈ layouts)
      (opcode : layout.opcode = word % 100) (used : k < layout.count)
      (unsupported : ¬Supported (digit word k)) (lower : ∀ j < k, Supported (digit word j)) :
      Refuses word pointer (.unsupportedMode word (digit word k) pointer)
  | target {layout : Layout} {k : Nat} (natural : 0 ≤ word) (listed : layout ∈ layouts)
      (opcode : layout.opcode = word % 100)
      (supported : ∀ j < layout.count, Supported (digit word j))
      (written : layout.written = some k) (immediate : digit word k = 1) :
      Refuses word pointer (.immediateTarget word pointer)

variable {ρ ω : Type} {word pointer : Int} {modes : List Mode} {fault : Fault}
  {i : Instruction Mode Target}

/-! ## Operations -/

def written? : Instruction ρ ω → Option Nat
  | compute .. => some 2
  | input _ => some 0
  | output _ | jump .. | adjustBase _ | halt => none

def layout (i : Instruction ρ ω) : Layout :=
  ⟨i.opcode, i.arity, i.written?⟩

def shape : Instruction ρ ω → Instruction Unit Unit
  | compute operation .. => compute operation () () ()
  | input _ => input ()
  | output _ => output ()
  | jump sense .. => jump sense () ()
  | adjustBase _ => adjustBase ()
  | halt => halt

theorem ofOpcode?_opcode (i : Instruction ρ ω) : ofOpcode? i.opcode = some i.shape := by
  cases i with
  | compute operation left right target => cases operation <;> rfl
  | jump sense condition destination => cases sense <;> rfl
  | input target => rfl
  | output value => rfl
  | adjustBase amount => rfl
  | halt => rfl

theorem opcode_of_ofOpcode? {opcode : Int} {found : Instruction Unit Unit}
    (listed : ofOpcode? opcode = some found) : found.opcode = opcode := by
  have small : ∀ n : Nat, opcode.toNat = n + 1 → opcode = n + 1 := by omega
  unfold ofOpcode? at listed
  split at listed
  all_goals cases listed
  all_goals exact (small _ ‹_›).symm

theorem opcode_bounds (i : Instruction ρ ω) : 0 ≤ i.opcode ∧ i.opcode < 100 := by
  cases i with
  | compute operation left right target => cases operation <;> simp [opcode]
  | jump sense condition destination => cases sense <;> simp [opcode]
  | input target => simp [opcode]
  | output value => simp [opcode]
  | adjustBase amount => simp [opcode]
  | halt => simp [opcode]

theorem mem_layouts {l : Layout} :
    l ∈ layouts ↔ ∃ found : Instruction Unit Unit, found.layout = l := by
  constructor
  · intro member
    simp only [layouts, List.mem_cons, List.not_mem_nil, or_false] at member
    rcases member with rfl | rfl | rfl | rfl | rfl | rfl | rfl | rfl | rfl | rfl
    · exact ⟨.compute .add () () (), rfl⟩
    · exact ⟨.compute .multiply () () (), rfl⟩
    · exact ⟨.input (), rfl⟩
    · exact ⟨.output (), rfl⟩
    · exact ⟨.jump true () (), rfl⟩
    · exact ⟨.jump false () (), rfl⟩
    · exact ⟨.compute .lessThan () () (), rfl⟩
    · exact ⟨.compute .equals () () (), rfl⟩
    · exact ⟨.adjustBase (), rfl⟩
    · exact ⟨.halt, rfl⟩
  · rintro ⟨found, rfl⟩
    cases found with
    | compute operation left right target =>
      cases operation <;> simp [layouts, layout, opcode, arity, written?]
    | jump sense condition destination =>
      cases sense <;> simp [layouts, layout, opcode, arity, written?]
    | input target => simp [layouts, layout, opcode, arity, written?]
    | output value => simp [layouts, layout, opcode, arity, written?]
    | adjustBase amount => simp [layouts, layout, opcode, arity, written?]
    | halt => simp [layouts, layout, opcode, arity, written?]

/-! ## Digits -/

/-- The digits of modes above each other, and a number above them. -/
def horner : List Mode → Int → Int
  | [], above => above
  | mode :: modes, above => mode.digit + 10 * horner modes above

theorem digit_bounds (mode : Mode) : 0 ≤ mode.digit ∧ mode.digit < 3 := by
  cases mode <;> decide

theorem sum_eq_horner (modes : List Mode) (above : Int) (k : Nat) :
    (modes.mapIdx fun i mode => mode.digit * 10 ^ (i + k)).sum + above * 10 ^ (modes.length + k) =
      10 ^ k * horner modes above := by
  induction modes generalizing k with
  | nil => simp [horner, Int.mul_comm]
  | cons mode modes ih =>
    have shifted := ih (k + 1)
    simp only [List.mapIdx_cons, List.sum_cons, List.length_cons, horner, Nat.zero_add]
    simp only [Nat.add_right_comm _ 1 k, Nat.add_assoc] at shifted ⊢
    rw [Int.add_assoc, shifted]
    ring

theorem horner_eq_iff {above value : Int} : horner modes above = value ↔
    above = value / 10 ^ modes.length ∧
      ∀ k mode, modes[k]? = some mode → mode.digit = value / 10 ^ k % 10 := by
  induction modes generalizing value with
  | nil => simp [horner]
  | cons mode modes ih =>
    have bounds := digit_bounds mode
    have split : horner (mode :: modes) above = value ↔
        mode.digit = value % 10 ∧ horner modes above = value / 10 := by
      rw [horner]
      omega
    have deeper : ∀ k, value / 10 / 10 ^ k = value / 10 ^ (k + 1) := by
      intro k
      rw [Int.ediv_ediv_of_nonneg (by decide), Int.pow_succ, Int.mul_comm]
    rw [split, ih, List.length_cons, deeper]
    constructor
    · rintro ⟨first, same, rest⟩
      refine ⟨same, fun k => ?_⟩
      cases k with
      | zero => simpa using first
      | succ k => simpa [deeper] using rest k
    · rintro ⟨same, all⟩
      refine ⟨by simpa using all 0, same, fun k => ?_⟩
      simpa [deeper] using all (k + 1)

theorem ofDigit?_eq_some_iff {d : Int} {mode : Mode} :
    Mode.ofDigit? d = some mode ↔ mode.digit = d := by
  unfold Mode.ofDigit?
  cases mode <;> simp only [Mode.digit] <;> grind

theorem supported_iff {d : Int} : Supported d ↔ ∃ mode : Mode, mode.digit = d := by
  constructor
  · rintro (rfl | rfl | rfl)
    · exact ⟨.position, rfl⟩
    · exact ⟨.immediate, rfl⟩
    · exact ⟨.relative, rfl⟩
  · rintro ⟨mode, rfl⟩
    cases mode <;> simp [Supported, Mode.digit]

theorem modeDigit_eq {k : Nat} (inside : k < 3) : modeDigit word (k + 1) = digit word k := by
  obtain rfl | rfl | rfl : k = 0 ∨ k = 1 ∨ k = 2 := by omega
  · rfl
  · rfl
  · rfl

theorem readMode_ok_iff {k : Nat} {mode : Mode} (inside : k < 3) :
    readMode word pointer (k + 1) = .ok mode ↔ mode.digit = digit word k := by
  rw [readMode, modeDigit_eq inside, ← ofDigit?_eq_some_iff]
  split <;> simp_all

theorem readMode_error_iff {k : Nat} (inside : k < 3) :
    readMode word pointer (k + 1) = .error fault ↔
      ¬Supported (digit word k) ∧
        fault = Fault.raised (.unsupportedMode word (digit word k) pointer) := by
  rw [readMode, modeDigit_eq inside, supported_iff]
  split
  next mode found =>
    have supported := ofDigit?_eq_some_iff.mp found
    simp [← supported]
  next missing =>
    have unsupported : ¬∃ mode : Mode, mode.digit = digit word k := by
      rintro ⟨mode, same⟩
      cases missing.symm.trans (ofDigit?_eq_some_iff.mpr same)
    rw [and_iff_right unsupported, Except.error.injEq, eq_comm]

/-- The modes of so many operands, the first of which has the given position. -/
def readModes (word pointer : Int) : (k count : Nat) → Except Fault (List Mode)
  | _, 0 => .ok []
  | k, count + 1 =>
    match readMode word pointer (k + 1) with
    | .error fault => .error fault
    | .ok mode =>
      match readModes word pointer (k + 1) count with
      | .error fault => .error fault
      | .ok modes => .ok (mode :: modes)

theorem readModes_ok_iff {k count : Nat} (inside : k + count ≤ 3) :
    readModes word pointer k count = .ok modes ↔
      modes.length = count ∧ ∀ j mode, modes[j]? = some mode → mode.digit = digit word (k + j) := by
  induction count generalizing k modes with
  | zero => cases modes <;> simp [readModes]
  | succ count ih =>
    have shift : ∀ j, k + 1 + j = k + (j + 1) := by omega
    have first : ∀ mode, readMode word pointer (k + 1) = .ok mode ↔ mode.digit = digit word k :=
      fun mode => readMode_ok_iff (by omega)
    have later : ∀ others, readModes word pointer (k + 1) count = .ok others ↔ _ :=
      fun others => ih (by omega)
    simp only [shift] at later
    rw [readModes]
    constructor
    · intro read
      split at read
      · cases read
      next mode one =>
        split at read
        · cases read
        next others rest =>
          cases read
          obtain ⟨length, digits⟩ := (later others).mp rest
          refine ⟨by rw [List.length_cons, length], fun j other found => ?_⟩
          cases j with
          | zero =>
            cases found
            exact (first mode).mp one
          | succ j => exact digits j other found
    · rintro ⟨length, digits⟩
      cases modes with
      | nil => cases length
      | cons mode others =>
        have rest := (later others).mpr
          ⟨by simpa using length, fun j other found => digits (j + 1) other found⟩
        rw [(first mode).mpr (digits 0 mode rfl), rest]

theorem readModes_error_iff {k count : Nat} (inside : k + count ≤ 3) :
    readModes word pointer k count = .error fault ↔
      ∃ j < count, ¬Supported (digit word (k + j)) ∧
        (∀ l < j, Supported (digit word (k + l))) ∧
        fault = Fault.raised (.unsupportedMode word (digit word (k + j)) pointer) := by
  induction count generalizing k with
  | zero => simp [readModes]
  | succ count ih =>
    have shift : ∀ j, k + 1 + j = k + (j + 1) := by omega
    have later : readModes word pointer (k + 1) count = .error fault ↔ _ := ih (by omega)
    simp only [shift] at later
    rw [readModes]
    constructor
    · intro failed
      split at failed
      next one =>
        cases failed
        obtain ⟨unsupported, rfl⟩ := (readMode_error_iff (by omega)).mp one
        exact ⟨0, by omega, unsupported, by omega, rfl⟩
      next mode one =>
        have supported := (readMode_ok_iff (by omega)).mp one
        split at failed
        next rest =>
          cases failed
          obtain ⟨j, used, unsupported, lower, rfl⟩ := later.mp rest
          refine ⟨j + 1, by omega, unsupported, fun l below => ?_, rfl⟩
          cases l with
          | zero => exact supported_iff.mpr ⟨mode, supported⟩
          | succ l => exact lower l (by omega)
        · cases failed
    · rintro ⟨j, used, unsupported, lower, same⟩
      cases j with
      | zero => rw [(readMode_error_iff (by omega)).mpr ⟨unsupported, same⟩]
      | succ j =>
        obtain ⟨mode, supported⟩ := supported_iff.mp (lower 0 (by omega))
        have rest := later.mpr
          ⟨j, by omega, unsupported, fun l below => lower (l + 1) (by omega), same⟩
        rw [(readMode_ok_iff (by omega)).mpr supported, rest]

/-! ## Instructions -/

/-- The instruction with the given modes, unless the operation cannot have them. -/
def withModes? : Instruction Unit Unit → List Mode → Option (Instruction Mode Target)
  | compute operation .., [left, right, target] =>
    target.target?.map (compute operation left right)
  | input _, [target] => target.target?.map input
  | output _, [value] => some (output value)
  | jump sense .., [condition, destination] => some (jump sense condition destination)
  | adjustBase _, [amount] => some (adjustBase amount)
  | halt, [] => some halt
  | _, _ => none

theorem withModes?_modes (i : Instruction Mode Target) : i.shape.withModes? i.modes = some i := by
  cases i with
  | compute operation left right target => cases target <;> rfl
  | input target => cases target <;> rfl
  | output value => rfl
  | jump sense condition destination => rfl
  | adjustBase amount => rfl
  | halt => rfl

theorem mode_of_target? {mode : Mode} {target : Target} (found : mode.target? = some target) :
    target.mode = mode := by
  cases mode <;> cases found <;> rfl

theorem of_withModes? {found : Instruction Unit Unit} (filled : found.withModes? modes = some i) :
    i.shape = found ∧ i.modes = modes := by
  unfold withModes? at filled
  split at filled
  · obtain ⟨target, written, rfl⟩ := Option.map_eq_some_iff.mp filled
    exact ⟨rfl, by rw [← mode_of_target? written]; rfl⟩
  · obtain ⟨target, written, rfl⟩ := Option.map_eq_some_iff.mp filled
    exact ⟨rfl, by rw [← mode_of_target? written]; rfl⟩
  · cases filled
    exact ⟨rfl, rfl⟩
  · cases filled
    exact ⟨rfl, rfl⟩
  · cases filled
    exact ⟨rfl, rfl⟩
  · cases filled
    exact ⟨rfl, rfl⟩
  · cases filled

theorem admits_modes (i : Instruction Mode Target) : i.shape.layout.Admits i.modes := by
  cases i with
  | compute operation left right target =>
    refine ⟨rfl, ?_⟩
    cases target <;> simp [layout, written?, shape, modes, Target.mode]
  | input target =>
    refine ⟨rfl, ?_⟩
    cases target <;> simp [layout, written?, shape, modes, Target.mode]
  | output value => exact ⟨rfl, nofun⟩
  | jump sense condition destination => exact ⟨rfl, nofun⟩
  | adjustBase amount => exact ⟨rfl, nofun⟩
  | halt => exact ⟨rfl, nofun⟩

theorem written_lt {k : Nat} (written : i.shape.layout.written = some k) : k < i.shape.arity := by
  cases i <;> cases written <;> simp [shape, arity]

theorem eq_immediate {mode : Mode} (one : mode.digit = 1) : mode = .immediate := by
  cases mode <;> first | rfl | cases one

/-- An operation has an instruction for all modes that it admits. -/
theorem exists_withModes? {found : Instruction Unit Unit} (admits : found.layout.Admits modes) :
    ∃ i, found.withModes? modes = some i := by
  obtain ⟨length, written⟩ := admits
  cases found with
  | compute operation left right target =>
    obtain ⟨l, r, t, rfl⟩ := List.length_eq_three.mp length
    cases t with
    | position => exact ⟨_, rfl⟩
    | immediate => exact absurd rfl (written 2 rfl)
    | relative => exact ⟨_, rfl⟩
  | input target =>
    obtain ⟨t, rfl⟩ := List.length_eq_one_iff.mp length
    cases t with
    | position => exact ⟨_, rfl⟩
    | immediate => exact absurd rfl (written 0 rfl)
    | relative => exact ⟨_, rfl⟩
  | output value =>
    obtain ⟨v, rfl⟩ := List.length_eq_one_iff.mp length
    exact ⟨_, rfl⟩
  | jump sense condition destination =>
    obtain ⟨c, d, rfl⟩ := List.length_eq_two.mp length
    exact ⟨_, rfl⟩
  | adjustBase amount =>
    obtain ⟨a, rfl⟩ := List.length_eq_one_iff.mp length
    exact ⟨_, rfl⟩
  | halt =>
    obtain rfl := List.length_eq_zero_iff.mp length
    exact ⟨_, rfl⟩

theorem decode_eq {found : Instruction Unit Unit} (natural : 0 ≤ word)
    (listed : ofOpcode? (word % 100) = some found) :
    decode word pointer =
      match readModes word pointer 0 found.arity with
      | .error fault => .error fault
      | .ok modes =>
        match found.withModes? modes with
        | some i => .ok i
        | none => .error (Fault.raised (.immediateTarget word pointer)) := by
  rw [decode, if_neg (Int.not_lt.mpr natural), listed]
  cases found with
  | compute operation left right target =>
    simp only [traverse, arity, readModes, bind, Except.bind]
    cases readMode word pointer 1 with
    | error fault => rfl
    | ok left =>
      cases readMode word pointer 2 with
      | error fault => rfl
      | ok right =>
        cases readMode word pointer 3 with
        | error fault => rfl
        | ok target => cases target <;> rfl
  | input target =>
    simp only [traverse, arity, readModes, bind, Except.bind]
    cases readMode word pointer 1 with
    | error fault => rfl
    | ok target => cases target <;> rfl
  | output value =>
    simp only [traverse, arity, readModes, bind, Except.bind]
    cases readMode word pointer 1 <;> rfl
  | jump sense condition destination =>
    simp only [traverse, arity, readModes, bind, Except.bind]
    cases readMode word pointer 1 with
    | error fault => rfl
    | ok condition => cases readMode word pointer 2 <;> rfl
  | adjustBase amount =>
    simp only [traverse, arity, readModes, bind, Except.bind]
    cases readMode word pointer 1 <;> rfl
  | halt => rfl

theorem fits_digit (word : Int) (k : Nat) : Word.fits (digit word k) := by
  rw [Word.fits, Bool.and_eq_true, decide_eq_true_iff, decide_eq_true_iff, Word.bound, digit]
  omega

theorem arity_le (i : Instruction ρ ω) : i.arity ≤ 3 := by
  cases i <;> simp [arity]

theorem operands_ok_iff (i : Instruction ρ ω) :
    readModes word pointer 0 i.arity = .ok modes ↔
      modes.length = i.arity ∧ ∀ k mode, modes[k]? = some mode → mode.digit = digit word k := by
  have inside : 0 + i.arity ≤ 3 := by simpa using i.arity_le
  rw [readModes_ok_iff inside]
  simp only [Nat.zero_add]

theorem operands_error_iff (i : Instruction ρ ω) :
    readModes word pointer 0 i.arity = .error fault ↔
      ∃ k < i.arity, ¬Supported (digit word k) ∧ (∀ j < k, Supported (digit word j)) ∧
        fault = Fault.raised (.unsupportedMode word (digit word k) pointer) := by
  have inside : 0 + i.arity ≤ 3 := by simpa using i.arity_le
  rw [readModes_error_iff inside]
  simp only [Nat.zero_add]

theorem shape_eq (found : Instruction Unit Unit) : found.shape = found := by
  cases found <;> rfl

/-- The sum that encodes an instruction, told by the digits of the word. -/
theorem encodes_iff {opcode : Int} : Encodes word opcode modes ↔
    0 ≤ word ∧ ∃ found, ofOpcode? (word % 100) = some found ∧ found.opcode = opcode ∧
      found.layout.Admits modes ∧
      ∀ k mode, modes[k]? = some mode → mode.digit = digit word k := by
  have shifted : ∀ k, word / 100 / 10 ^ k = word / 10 ^ (k + 2) := by
    intro k
    rw [Int.ediv_ediv_of_nonneg (by decide)]
    congr 1
    ring
  have sum : ∀ {l : Layout} {above : Int}, l.Admits modes →
      l.word modes above = l.opcode + 100 * horner modes above := by
    rintro l above ⟨length, -⟩
    rw [Layout.word, Int.add_assoc, ← length, sum_eq_horner]
    norm_num
  have floor : ∀ k : Nat, 0 ≤ word / 10 ^ k ↔ 0 ≤ word :=
    fun k => Int.ediv_nonneg_iff_of_pos (Int.pow_pos (by decide))
  constructor
  · rintro ⟨l, listed, rfl, admits, above, natural, encoded⟩
    obtain ⟨found, rfl⟩ := mem_layouts.mp listed
    have bounds : 0 ≤ found.layout.opcode ∧ found.layout.opcode < 100 := found.opcode_bounds
    rw [sum admits] at encoded
    have low : found.layout.opcode = word % 100 := by omega
    have high : horner modes above = word / 100 := by omega
    obtain ⟨rfl, digits⟩ := horner_eq_iff.mp high
    simp only [shifted] at natural digits
    refine ⟨(floor _).mp natural, found, ?_, rfl, admits, digits⟩
    rw [← low, layout, ofOpcode?_opcode, shape_eq]
  · rintro ⟨natural, found, listed, rfl, admits, digits⟩
    have low : found.layout.opcode = word % 100 := opcode_of_ofOpcode? listed
    refine ⟨found.layout, mem_layouts.mpr ⟨found, rfl⟩, rfl, admits,
      word / 100 / 10 ^ modes.length, ?_, ?_⟩
    · rw [shifted]
      exact (floor _).mpr natural
    · have high : horner modes (word / 100 / 10 ^ modes.length) = word / 100 := by
        refine horner_eq_iff.mpr ⟨rfl, fun k mode found => ?_⟩
        rw [shifted]
        exact digits k mode found
      rw [sum admits, high, low]
      omega

/-- What a word encodes is an instruction. -/
theorem Encodes.exists_instruction {opcode : Int} (encodes : Encodes word opcode modes) :
    ∃ i : Instruction Mode Target, i.opcode = opcode ∧ i.modes = modes := by
  obtain ⟨-, found, listed, rfl, admits, -⟩ := encodes_iff.mp encodes
  obtain ⟨i, filled⟩ := exists_withModes? admits
  obtain ⟨rfl, rfl⟩ := of_withModes? filled
  exact ⟨i, (opcode_of_ofOpcode? (ofOpcode?_opcode i)).symm, rfl⟩

theorem Encodes.decode (encodes : Encodes word i.opcode i.modes) (pointer : Int) :
    Instruction.decode word pointer = .ok i := by
  obtain ⟨natural, found, listed, same, admits, digits⟩ := encodes_iff.mp encodes
  have read : readModes word pointer 0 found.arity = .ok i.modes :=
    found.operands_ok_iff.mpr ⟨admits.1, digits⟩
  have shape : i.shape = found := by
    have listed' := ofOpcode?_opcode i
    rw [← same, ofOpcode?_opcode, shape_eq] at listed'
    exact (Option.some.inj listed').symm
  rw [decode_eq natural listed, read, ← shape]
  simp only [withModes?_modes]

/-- A word encodes no more than one instruction. -/
theorem Encodes.unique {opcode opcode' : Int} {modes' : List Mode}
    (one : Encodes word opcode modes) (other : Encodes word opcode' modes') :
    opcode = opcode' ∧ modes = modes' := by
  obtain ⟨i, rfl, rfl⟩ := one.exists_instruction
  obtain ⟨i', rfl, rfl⟩ := other.exists_instruction
  cases (one.decode 0).symm.trans (other.decode 0)
  exact ⟨rfl, rfl⟩

theorem ofOpcode?_of_mem_layouts {l : Layout} (listed : l ∈ layouts) :
    ∃ found : Instruction Unit Unit, found.layout = l ∧ ofOpcode? l.opcode = some found := by
  obtain ⟨found, rfl⟩ := mem_layouts.mp listed
  exact ⟨found, rfl, by rw [layout, ofOpcode?_opcode, shape_eq]⟩

theorem Refuses.decode (refuses : Refuses word pointer fault) :
    Instruction.decode word pointer = .error fault.raised := by
  cases refuses with
  | negative below => rw [Instruction.decode, if_pos below]
  | unlisted natural absent =>
    have missing : ofOpcode? (word % 100) = none := by
      cases listed : ofOpcode? (word % 100) with
      | none => rfl
      | some found =>
        have member : found.layout ∈ layouts := mem_layouts.mpr ⟨found, rfl⟩
        exact absurd (opcode_of_ofOpcode? listed) (absent found.layout member)
    rw [Instruction.decode, if_neg (Int.not_lt.mpr natural), missing]
  | @mode _ k natural listed opcode used unsupported lower =>
    obtain ⟨found, rfl, listed⟩ := ofOpcode?_of_mem_layouts listed
    have failed : readModes word pointer 0 found.arity =
        .error (Fault.raised (.unsupportedMode word (digit word k) pointer)) :=
      found.operands_error_iff.mpr ⟨k, used, unsupported, lower, rfl⟩
    rw [decode_eq natural (opcode ▸ listed), failed]
  | @target _ k natural listed opcode supported written immediate =>
    obtain ⟨found, rfl, listed⟩ := ofOpcode?_of_mem_layouts listed
    rw [decode_eq natural (opcode ▸ listed)]
    cases read : readModes word pointer 0 found.arity with
    | error fault =>
      obtain ⟨j, used, unsupported, -⟩ := found.operands_error_iff.mp read
      exact absurd (supported j used) unsupported
    | ok modes =>
      obtain ⟨length, digits⟩ := found.operands_ok_iff.mp read
      cases filled : found.withModes? modes with
      | none => simp only [filled]
      | some i =>
        obtain ⟨rfl, rfl⟩ := of_withModes? filled
        have inside : k < i.modes.length := length ▸ written_lt written
        have mode : i.modes[k] = .immediate :=
          eq_immediate ((digits k _ (List.getElem?_eq_getElem inside)).trans immediate)
        refine absurd ?_ (i.admits_modes.2 k written)
        rw [List.getElem?_eq_getElem inside, mode]

/-- A word that encodes no instruction is refused. -/
theorem encodes_or_refuses (word pointer : Int) :
    (∃ i : Instruction Mode Target, Encodes word i.opcode i.modes) ∨
      ∃ fault, Refuses word pointer fault := by
  by_cases natural : 0 ≤ word
  · cases listed : ofOpcode? (word % 100) with
    | none =>
      refine Or.inr ⟨_, .unlisted natural fun l member opcode => ?_⟩
      obtain ⟨found, -, listed'⟩ := ofOpcode?_of_mem_layouts member
      rw [opcode, listed] at listed'
      cases listed'
    | some found =>
      have member : found.layout ∈ layouts := mem_layouts.mpr ⟨found, rfl⟩
      have opcode : found.layout.opcode = word % 100 := opcode_of_ofOpcode? listed
      cases read : readModes word pointer 0 found.arity with
      | error fault =>
        obtain ⟨k, used, unsupported, lower, -⟩ := found.operands_error_iff.mp read
        exact Or.inr ⟨_, .mode natural member opcode used unsupported lower⟩
      | ok modes =>
        obtain ⟨length, digits⟩ := found.operands_ok_iff.mp read
        by_cases admits : found.layout.Admits modes
        · have encodes : Encodes word found.opcode modes :=
            encodes_iff.mpr ⟨natural, found, listed, rfl, admits, digits⟩
          obtain ⟨i, same, rfl⟩ := encodes.exists_instruction
          exact Or.inl ⟨i, same ▸ encodes⟩
        · obtain ⟨k, written, immediate⟩ : ∃ k ∈ found.layout.written,
              modes[k]? = some .immediate := by
            by_contra absent
            exact admits ⟨length, fun k written immediate => absent ⟨k, written, immediate⟩⟩
          have supported : ∀ j < found.arity, Supported (digit word j) := by
            intro j used
            have inside : j < modes.length := length ▸ used
            exact supported_iff.mpr ⟨_, digits j _ (List.getElem?_eq_getElem inside)⟩
          have one : digit word k = 1 := (digits k _ immediate).symm
          exact Or.inr ⟨_, .target natural member opcode supported written one⟩
  · exact Or.inr ⟨_, .negative (Int.not_le.mp natural)⟩

theorem decode_ok_iff : decode word pointer = .ok i ↔ Encodes word i.opcode i.modes := by
  refine ⟨fun decoded => ?_, fun encodes => encodes.decode pointer⟩
  obtain ⟨other, encodes⟩ | ⟨fault, refuses⟩ := encodes_or_refuses word pointer
  · cases decoded.symm.trans (encodes.decode pointer)
    exact encodes
  · cases decoded.symm.trans refuses.decode

theorem decode_error_iff : decode word pointer = .error fault ↔
    ∃ defect, Refuses word pointer defect ∧ fault = defect.raised := by
  constructor
  · intro decoded
    obtain ⟨other, encodes⟩ | ⟨defect, refuses⟩ := encodes_or_refuses word pointer
    · cases decoded.symm.trans (encodes.decode pointer)
    · cases decoded.symm.trans refuses.decode
      exact ⟨defect, refuses, rfl⟩
  · rintro ⟨defect, refuses, rfl⟩
    exact refuses.decode

/-- The digits of a word from the hundreds on depend on nothing above them. -/
theorem digit_congr {other : Int} {count k : Nat} (used : k < count)
    (same : other % 10 ^ (count + 2) = word % 10 ^ (count + 2)) :
    digit other k = digit word k := by
  -- Above the digit a multiple of ten is added.
  obtain ⟨t, rfl⟩ : ∃ t, other = word + 10 ^ (count + 2) * t := by
    refine ⟨other / 10 ^ (count + 2) - word / 10 ^ (count + 2), ?_⟩
    have divided := Int.emod_add_mul_ediv other (10 ^ (count + 2))
    have divided' := Int.emod_add_mul_ediv word (10 ^ (count + 2))
    rw [Int.mul_sub]
    omega
  obtain ⟨n, rfl⟩ := Nat.exists_eq_add_of_lt used
  have split : (10 : Int) ^ (k + n + 1 + 2) * t = 10 ^ (k + 2) * (10 * (10 ^ n * t)) := by
    ring
  have positive : (10 : Int) ^ (k + 2) ≠ 0 := Int.pow_ne_zero (by decide)
  rw [digit, split, Int.add_mul_ediv_left _ _ positive, Int.add_mul_emod_self_left, digit]

/-- Words that agree up to the highest mode encode the same. -/
theorem encodes_congr {other opcode : Int} {l : Layout} (listed : l ∈ layouts)
    (low : l.opcode = word % 100) (natural : 0 ≤ word) (natural' : 0 ≤ other)
    (same : other % 10 ^ (l.count + 2) = word % 10 ^ (l.count + 2)) :
    Encodes other opcode modes ↔ Encodes word opcode modes := by
  obtain ⟨found, rfl, opcodes⟩ := ofOpcode?_of_mem_layouts listed
  have low' : other % 100 = word % 100 := by
    have hundred : (100 : Int) ∣ 10 ^ (found.layout.count + 2) := ⟨10 ^ found.layout.count, by ring⟩
    rw [← Int.emod_emod_of_dvd other hundred, same, Int.emod_emod_of_dvd word hundred]
  rw [low] at opcodes
  simp only [encodes_iff, natural, natural', low', opcodes, true_and, Option.some.injEq,
    exists_eq_left']
  refine and_congr_right fun _ => and_congr_right fun admits => ?_
  have digits : ∀ k mode, modes[k]? = some mode → digit other k = digit word k := by
    intro k mode read
    have used := (List.getElem?_eq_some_iff.mp read).1
    exact digit_congr (admits.1 ▸ used) same
  exact forall₃_congr fun k mode read => by rw [digits k mode read]

/-- What a word of no more digits than can be written is refused for can be worded, if the pointer
can be written too. -/
theorem Refuses.raised_eq (refuses : Refuses word pointer fault) (short : Text.isWritable word)
    (short' : Text.isWritable pointer) : fault.raised = fault := by
  refine Fault.raised_of_writable ?_
  cases refuses with
  | negative below => simp [Fault.numbers, short, short']
  | unlisted natural absent =>
    have low : Text.isWritable (word % 100) := Text.isWritable_of_le (by omega) short
    simp [Fault.numbers, low, short']
  | @mode _ k natural listed opcode used unsupported lower =>
    have one : Text.isWritable (digit word k) := Text.isWritable_of_fits (fits_digit word k)
    simp [Fault.numbers, one, short, short']
  | target natural listed opcode supported written immediate =>
    simp [Fault.numbers, short, short']

/-- Decoding accepts just the words that encode an instruction, and finds what they encode.
Everything above the highest mode is ignored. All other words are refused for their first defect,
which is raised as it is as long as the word and the pointer can be written. -/
theorem decode_exact (word pointer : Int) :
    (∀ i, decode word pointer = .ok i ↔ Encodes word i.opcode i.modes) ∧
    (∀ opcode modes, (∃ i, decode word pointer = .ok i ∧ i.opcode = opcode ∧ i.modes = modes) ↔
      Encodes word opcode modes) ∧
    (∀ opcode modes opcode' modes', Encodes word opcode modes → Encodes word opcode' modes' →
      opcode = opcode' ∧ modes = modes') ∧
    (∀ layout ∈ layouts, ∀ modes, layout.Admits modes → ∀ above, 0 ≤ above →
      ∃ i, decode (layout.word modes above) pointer = .ok i ∧ i.opcode = layout.opcode ∧
        i.modes = modes) ∧
    (∀ layout ∈ layouts, layout.opcode = word % 100 → 0 ≤ word → ∀ other, 0 ≤ other →
      other % 10 ^ (layout.count + 2) = word % 10 ^ (layout.count + 2) →
      ∀ i, decode other pointer = .ok i ↔ decode word pointer = .ok i) ∧
    (∀ fault, decode word pointer = .error fault ↔
      ∃ defect, Refuses word pointer defect ∧ fault = defect.raised) ∧
    (Text.isWritable word → Text.isWritable pointer →
      ∀ fault, decode word pointer = .error fault ↔ Refuses word pointer fault) := by
  have found : ∀ {word opcode modes}, Encodes word opcode modes →
      ∃ i, decode word pointer = .ok i ∧ i.opcode = opcode ∧ i.modes = modes := by
    intro word opcode modes encodes
    obtain ⟨i, rfl, rfl⟩ := encodes.exists_instruction
    exact ⟨i, encodes.decode pointer, rfl, rfl⟩
  refine ⟨fun i => decode_ok_iff, fun opcode modes => ⟨?_, found⟩,
    fun _ _ _ _ => Encodes.unique, ?_, ?_, fun fault => decode_error_iff, ?_⟩
  · rintro ⟨i, decoded, rfl, rfl⟩
    exact decode_ok_iff.mp decoded
  · intro l listed modes admits above natural
    exact found ⟨l, listed, rfl, admits, above, natural, rfl⟩
  · intro l listed low natural other natural' same i
    rw [decode_ok_iff, decode_ok_iff, encodes_congr listed low natural natural' same]
  · intro short short' fault
    rw [decode_error_iff]
    constructor
    · rintro ⟨defect, refuses, rfl⟩
      rwa [refuses.raised_eq short short']
    · intro refuses
      exact ⟨fault, refuses, (refuses.raised_eq short short').symm⟩

/-- `31002` multiplies a cell with a number, and has no mode for where the result goes. The word
`71099` halts: none of the digits above is of a mode. -/
theorem decode_exact_digits :
    decode 31002 0 = .error (.unsupportedMode 31002 3 0) ∧ decode 71099 0 = .ok halt ∧
      ∃ i, decode 721002 0 = .ok i ∧ i.opcode = 2 ∧
        i.modes = [.position, .immediate, .relative] := by
  obtain ⟨-, -, -, -, -, -, refused⟩ := decode_exact 31002 0
  obtain ⟨-, -, -, -, ignored, -⟩ := decode_exact 99 0
  obtain ⟨-, -, -, hit, -⟩ := decode_exact 0 0
  refine ⟨(refused (by decide) (by decide) _).mpr ?_, ?_, ?_⟩
  · refine @Refuses.mode _ _ ⟨2, 3, some 2⟩ 2 (by decide) (by decide) (by decide) (by decide) ?_ ?_
    · unfold Supported
      decide
    · unfold Supported
      decide
  · refine (ignored ⟨99, 0, none⟩ (by decide) (by decide) (by decide) 71099 ?_ ?_ halt).mpr rfl
    · decide
    · decide
  · refine hit ⟨2, 3, some 2⟩ (by decide) [.position, .immediate, .relative] ⟨rfl, ?_⟩ 7 ?_
    · decide
    · decide

/-- A negative word of 5001 digits is refused for its sign, but not with the fault that says so. -/
theorem decode_overlong :
    Refuses (-(10 ^ 5000 : Nat)) 0 (.unknownOpcode (-(10 ^ 5000 : Nat)) 0) ∧
      decode (-(10 ^ 5000 : Nat)) 0 = .error (.unworded (.unknownOpcode (-(10 ^ 5000 : Nat)) 0)) ∧
      (Fault.unworded (.unknownOpcode (-(10 ^ 5000 : Nat)) 0)).isInterpreterFault = false := by
  have positive : ∀ n, (0 : Int) < (10 ^ n : Nat) :=
    fun n => Int.natCast_pos.mpr (Nat.pow_pos (by decide))
  have refuses : Refuses (-(10 ^ 5000 : Nat)) 0 (.unknownOpcode (-(10 ^ 5000 : Nat)) 0) :=
    .negative (Int.neg_neg_of_pos (positive 5000))
  refine ⟨refuses, ?_, rfl⟩
  rw [refuses.decode, Fault.raised_of_overlong List.mem_cons_self
    (Text.not_isWritable_pow (by decide)).2]

end Intcode.Instruction
