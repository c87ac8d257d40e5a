import Mathlib.Logic.Function.Basic
import Intcode.Machine.Step

/-!
# Machines with endless memory

An ideal machine has a cell for every natural number, all zero at first but for those of its
program, and a length that says how far cells have come into use. Where memory ends matters only in
that instructions are fetched from below the length. Its steps are the table of the instruction
set, column by column: what is written and where (`result`, `target?`), where the pointer goes
(`next`), how far the length reaches (`reach`). `Executes` says what follows for one executed
instruction.

The table is read off the description of the instruction set and not off `execute`, which it is
compared with later.
-/
namespace Intcode

@[ext] structure Ideal where
  cells : Nat → Int
  length : Nat
  ip : Int := 0
  base : Int := 0
  inputs : List Int
  outputs : List Int := []

namespace Ideal

def ofCells (cells inputs : List Int) : Ideal where
  cells := fun address => cells.getD address 0
  length := cells.length
  inputs := inputs

def operand (s : Ideal) (k : Nat) : Int :=
  s.cells (s.ip + k).toNat

def address? (s : Ideal) (k : Nat) : Mode → Option Int
  | .position => some (s.operand k)
  | .immediate => none
  | .relative => some (s.operand k + s.base)

def addresses (s : Ideal) (i : Instruction Mode Target) : List (Option Int) :=
  i.modes.mapIdx fun index mode => s.address? (index + 1) mode

/-- The first negative address that an operand of an instruction refers to. -/
def negative? (s : Ideal) (i : Instruction Mode Target) : Option Int :=
  ((s.addresses i).filterMap id).find? (· < 0)

def value (s : Ideal) (i : Instruction Mode Target) (k : Nat) : Int :=
  match (s.addresses i)[k - 1]? with
  | some (some address) => s.cells address.toNat
  | _ => s.operand k

def written? (opcode : Int) : Option Nat :=
  if opcode = 1 ∨ opcode = 2 ∨ opcode = 7 ∨ opcode = 8 then some 3
  else if opcode = 3 then some 1
  else none

def target? (s : Ideal) (i : Instruction Mode Target) : Option Nat :=
  match written? i.opcode with
  | none => none
  | some k => (s.addresses i)[k - 1]?.join.map Int.toNat

def result (s : Ideal) (i : Instruction Mode Target) : Int :=
  if i.opcode = 1 then s.value i 1 + s.value i 2
  else if i.opcode = 2 then s.value i 1 * s.value i 2
  else if i.opcode = 7 then if s.value i 1 < s.value i 2 then 1 else 0
  else if i.opcode = 8 then if s.value i 1 = s.value i 2 then 1 else 0
  else s.inputs.headD 0

/-- Where the pointer goes after an instruction. -/
def next (s : Ideal) (i : Instruction Mode Target) : Int :=
  if i.opcode = 5 ∧ s.value i 1 ≠ 0 then s.value i 2
  else if i.opcode = 6 ∧ s.value i 1 = 0 then s.value i 2
  else if i.opcode = 5 ∨ i.opcode = 6 then s.ip + 3
  else if i.opcode = 3 ∨ i.opcode = 4 ∨ i.opcode = 9 then s.ip + 2
  else s.ip + 4

/-- How far the length reaches once the operands of an instruction have been looked up. -/
def reach (s : Ideal) (i : Instruction Mode Target) : Nat :=
  (((s.addresses i).filterMap id).map fun address => address.toNat + 1).foldl max s.length

def perform (s : Ideal) (i : Instruction Mode Target) : Ideal where
  cells :=
    match s.target? i with
    | some address => Function.update s.cells address (s.result i)
    | none => s.cells
  length := s.reach i
  ip := s.next i
  base := if i.opcode = 9 then s.base + s.value i 1 else s.base
  inputs := if i.opcode = 3 then s.inputs.tail else s.inputs
  outputs := if i.opcode = 4 then s.outputs ++ [s.value i 1] else s.outputs

def fetch (s : Ideal) : Except Fault (Instruction Mode Target) :=
  if s.ip < 0 ∨ (s.length : Int) ≤ s.ip then
    .error (Fault.raised (.pointerOutOfBounds s.ip s.length))
  else Instruction.decode (s.cells s.ip.toNat) s.ip

/-- How an instruction that is not executed leaves the machine. -/
def stall? (s : Ideal) (i : Instruction Mode Target) : Option Outcome :=
  if i.opcode = 99 then some .halted
  else if i.opcode = 3 ∧ s.inputs = [] then some .awaitingInput
  else none

/-- Why an instruction cannot be executed: it does not end below the length, or an operand refers
to a negative address. -/
def fault? (s : Ideal) (i : Instruction Mode Target) : Option Fault :=
  if (s.length : Int) ≤ s.ip + i.arity then
    some (Fault.raised (.pointerOutOfBounds (s.ip + i.arity) s.length))
  else (s.negative? i).map fun address => Fault.raised (.negativeAddress address s.ip)

def step (s : Ideal) : Except Fault Outcome × Ideal :=
  match s.fetch with
  | .error fault => (.error fault, s)
  | .ok i =>
    match s.stall? i with
    | some outcome => (.ok outcome, s)
    | none =>
      match s.fault? i with
      | some fault => (.error fault, s)
      | none => (.ok .running, s.perform i)

/-- The machine after so many executed instructions, if it executes that many. -/
def after : (count : Nat) → Ideal → Option Ideal
  | 0, s => some s
  | count + 1, s =>
    match s.step with
    | (.ok .running, next) => after count next
    | _ => none

/-! ## The effect of an instruction -/

/-- The cell of an operand that is written. -/
def cell (s : Ideal) (k : Nat) (target : Target) : Nat :=
  ((s.address? k target.mode).getD 0).toNat

theorem target?_compute (s : Ideal) (operation : Operation) (left right : Mode) (target : Target) :
    s.target? (.compute operation left right target) = some (s.cell 3 target) := by
  cases operation <;> cases target <;> rfl

theorem target?_input (s : Ideal) (target : Target) :
    s.target? (.input target) = some (s.cell 1 target) := by
  cases target <;> rfl

/-- What an executed instruction does to an ideal machine. -/
structure Executes (s : Ideal) (i : Instruction Mode Target) (next : Ideal) : Prop where
  /-- No cell changes but the one that is written to. -/
  kept : ∀ address, s.target? i ≠ some address → next.cells address = s.cells address
  written : ∀ address, s.target? i = some address → next.cells address = s.result i
  /-- The operations that write to a cell. -/
  writes : (s.target? i).isSome ↔ i.opcode ∈ [1, 2, 3, 7, 8]
  /-- The length covers the addresses that operands refer to, and no more. -/
  grows : s.length ≤ next.length
  covers : ∀ address, some address ∈ s.addresses i → 0 ≤ address ∧ address < next.length
  least : next.length = s.length ∨
    ∃ address, some address ∈ s.addresses i ∧ (next.length : Int) = address + 1
  /-- Immediate operands refer to no address. -/
  immediate : (∀ mode ∈ i.modes, mode = .immediate) → next.length = s.length
  base : next.base = if i.opcode = 9 then s.base + s.value i 1 else s.base
  ip : next.ip = s.next i
  inputs : next.inputs = if i.opcode = 3 then s.inputs.tail else s.inputs
  outputs : next.outputs = if i.opcode = 4 then s.outputs ++ [s.value i 1] else s.outputs

theorem foldl_max_cases (xs : List Nat) (start : Nat) :
    start ≤ xs.foldl max start ∧ (∀ x ∈ xs, x ≤ xs.foldl max start) ∧
      (xs.foldl max start = start ∨ xs.foldl max start ∈ xs) := by
  induction xs generalizing start with
  | nil => simp
  | cons x xs ih =>
    obtain ⟨above, bound, attained⟩ := ih (max start x)
    simp only [List.foldl_cons, List.mem_cons, forall_eq_or_imp]
    refine ⟨by omega, ⟨by omega, bound⟩, ?_⟩
    rcases attained with same | member
    · rcases Nat.le_total x start with below | higher
      · exact Or.inl (by omega)
      · exact Or.inr (Or.inl (by omega))
    · exact Or.inr (Or.inr member)

theorem length_le_reach (s : Ideal) (i : Instruction Mode Target) : s.length ≤ s.reach i :=
  (foldl_max_cases _ _).1

theorem isSome_target? (s : Ideal) (i : Instruction Mode Target) :
    (s.target? i).isSome ↔ i.opcode ∈ [1, 2, 3, 7, 8] := by
  cases i with
  | compute operation left right target =>
    cases operation <;> simp [target?_compute, Instruction.opcode]
  | input target => simp [target?_input, Instruction.opcode]
  | jump sense condition destination =>
    cases sense <;> simp [target?, written?, Instruction.opcode]
  | output value => simp [target?, written?, Instruction.opcode]
  | adjustBase amount => simp [target?, written?, Instruction.opcode]
  | halt => simp [target?, written?, Instruction.opcode]

theorem reach_cases {s : Ideal} {i : Instruction Mode Target} (sound : s.negative? i = none) :
    s.length ≤ s.reach i ∧
    (∀ address, some address ∈ s.addresses i → 0 ≤ address ∧ address < s.reach i) ∧
    (s.reach i = s.length ∨
      ∃ address, some address ∈ s.addresses i ∧ (s.reach i : Int) = address + 1) := by
  have natural : ∀ address, some address ∈ s.addresses i → 0 ≤ address := by
    intro address referred
    have member : address ∈ (s.addresses i).filterMap id :=
      List.mem_filterMap.mpr ⟨_, referred, rfl⟩
    simpa using List.find?_eq_none.mp sound address member
  obtain ⟨above, bound, attained⟩ := foldl_max_cases
    (((s.addresses i).filterMap id).map fun address => address.toNat + 1) s.length
  refine ⟨above, ?_, ?_⟩
  · intro address referred
    have small : address.toNat + 1 ≤ s.reach i :=
      bound _ (List.mem_map.mpr ⟨address, List.mem_filterMap.mpr ⟨_, referred, rfl⟩, rfl⟩)
    have := natural address referred
    omega
  · refine attained.imp id fun member => ?_
    obtain ⟨address, member, reached⟩ := List.mem_map.mp member
    obtain ⟨_, referred, rfl⟩ := List.mem_filterMap.mp member
    have reached : address.toNat + 1 = s.reach i := reached
    have := natural address referred
    exact ⟨address, referred, by omega⟩

theorem addresses_immediate {s : Ideal} {i : Instruction Mode Target}
    (immediate : ∀ mode ∈ i.modes, mode = .immediate) (address : Int) :
    some address ∉ s.addresses i := by
  intro referred
  obtain ⟨index, inside, found⟩ := List.mem_mapIdx.mp referred
  rw [immediate _ (List.getElem_mem inside)] at found
  cases found

theorem executes_perform {s : Ideal} {i : Instruction Mode Target} (sound : s.negative? i = none) :
    s.Executes i (s.perform i) := by
  obtain ⟨grows, covers, least⟩ := reach_cases sound
  exact {
    kept := by
      intro address apart
      unfold perform
      cases aimed : s.target? i with
      | none => rfl
      | some target =>
        refine Function.update_of_ne (fun same => apart ?_) _ _
        rw [aimed, same]
    written := by
      intro address aimed
      simp only [perform, aimed, Function.update_self]
    writes := s.isSome_target? i
    grows
    covers
    least
    immediate := by
      intro immediate
      rcases least with same | ⟨address, referred, -⟩
      · exact same
      · exact absurd referred (addresses_immediate immediate address)
    base := rfl
    ip := rfl
    inputs := rfl
    outputs := rfl }

theorem stall?_ne_running (s : Ideal) (i : Instruction Mode Target) :
    s.stall? i ≠ some .running := by
  unfold stall?
  split
  · simp
  · split <;> simp

section Step

variable {s : Ideal} {i : Instruction Mode Target}

theorem step_of_fetch_error {fault : Fault} (fetched : s.fetch = .error fault) :
    s.step = (.error fault, s) := by
  simp only [step, fetched]

theorem step_of_stall {outcome : Outcome} (fetched : s.fetch = .ok i)
    (stalled : s.stall? i = some outcome) : s.step = (.ok outcome, s) := by
  simp only [step, fetched, stalled]

theorem step_of_fault {fault : Fault} (fetched : s.fetch = .ok i) (free : s.stall? i = none)
    (failed : s.fault? i = some fault) : s.step = (.error fault, s) := by
  simp only [step, fetched, free, failed]

theorem step_of_sound (fetched : s.fetch = .ok i) (free : s.stall? i = none)
    (sound : s.fault? i = none) : s.step = (.ok .running, s.perform i) := by
  simp only [step, fetched, free, sound]

end Step

/-- A step that goes on executes the instruction at the pointer. -/
theorem executes_of_running {s next : Ideal} (running : s.step = (.ok .running, next)) :
    ∃ i, s.fetch = .ok i ∧ s.Executes i next := by
  unfold step at running
  split at running
  · cases running
  next i fetched =>
    split at running
    next stalled =>
      cases running
      exact absurd stalled (s.stall?_ne_running i)
    next free =>
      split at running
      · cases running
      next sound =>
        cases running
        have natural : s.negative? i = none := by
          unfold fault? at sound
          split at sound
          · cases sound
          · exact Option.map_eq_none_iff.mp sound
        exact ⟨i, fetched, executes_perform natural⟩

/-- A step that does not go on changes nothing. -/
theorem unchanged_of_not_running {s next : Ideal} {answer : Except Fault Outcome}
    (stepped : s.step = (answer, next)) (stopped : answer ≠ .ok .running) : next = s := by
  unfold step at stepped
  split at stepped
  · cases stepped
    rfl
  · split at stepped
    · cases stepped
      rfl
    · split at stepped
      · cases stepped
        rfl
      · cases stepped
        exact absurd rfl stopped

end Ideal

end Intcode
