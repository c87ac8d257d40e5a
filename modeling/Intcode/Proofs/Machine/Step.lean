import Intcode.Machine.Run
import Intcode.Proofs.Fault

/-!
# Steps by cases

A step fails in the fetch, stalls, or tries to execute the instruction at the pointer; the three
lemmas `step_of_fetch_error`, `step_of_stall` and `step_of_attempt` say which, with the budget
taken into account, and `stepsTo_of_step` collects them for a step that is given. Whatever a step
fails with is an execution fault, so that it is never mistaken for the closure of a channel or for
a deadlock.
-/
namespace Intcode

/-- Whether a fault says why an instruction cannot be executed. -/
def Fault.isInstructionFault : Fault → Bool
  | .unsupportedMode .. | .immediateTarget .. | .pointerOutOfBounds .. | .negativeAddress ..
  | .unknownOpcode .. | .stepLimit .. => true
  | _ => false

/-- Whether a fault is one that the execution of an instruction can end in: it says why the
instruction cannot be executed, or that this is too long to be worded, or it is the allocator's. -/
def Fault.isExecutionFault : Fault → Bool
  | .growthTooWide | .memoryExhausted => true
  | .unworded cause => cause.isInstructionFault && !cause.isWordable
  | fault => fault.isInstructionFault

namespace Fault

variable {fault : Fault}

theorem family_of_isInstructionFault (stops : fault.isInstructionFault) :
    fault.family = .interpreter := by
  cases fault <;> first | rfl | cases stops

theorem isExecutionFault_of_isInstructionFault (stops : fault.isInstructionFault) :
    fault.isExecutionFault := by
  cases fault <;> first | rfl | cases stops

theorem isExecutionFault_raised (stops : fault.isInstructionFault) :
    fault.raised.isExecutionFault := by
  rcases fault.raised_cases with ⟨-, same⟩ | ⟨long, same⟩
  · rw [same]
    exact isExecutionFault_of_isInstructionFault stops
  · rw [same, isExecutionFault, stops, long]
    rfl

theorem isChannelClosed_of_isExecutionFault (executing : fault.isExecutionFault) :
    fault.isChannelClosed = false := by
  cases fault <;> first | rfl | cases executing

/-- The execution of an instruction ends in a fault of the interpreter, or in one of the allocator,
or in one of the interpreter that is too long to be worded. -/
theorem family_of_isExecutionFault (executing : fault.isExecutionFault) :
    fault.family = .interpreter ∨ fault.family = .allocation ∨
      ∃ cause, fault = .unworded cause ∧ cause.family = .interpreter ∧
        cause.isWordable = false := by
  cases fault with
  | unworded cause =>
    simp only [isExecutionFault, Bool.and_eq_true, Bool.not_eq_true'] at executing
    exact Or.inr (Or.inr ⟨cause, rfl, family_of_isInstructionFault executing.1, executing.2⟩)
  | growthTooWide => exact Or.inr (Or.inl rfl)
  | memoryExhausted => exact Or.inr (Or.inl rfl)
  | _ => exact Or.inl (family_of_isInstructionFault executing)

end Fault

namespace Instruction

variable {ρ ω ρ' ω' : Type}

private theorem ok_of_bind {α β : Type} {operand : Except Fault α}
    {rest : α → Except Fault β} {replaced : β} (success : operand >>= rest = .ok replaced) :
    ∃ place, rest place = .ok replaced := by
  rcases operand with fault | place
  · simp [bind, Except.bind] at success
  · exact ⟨place, success⟩

/-- Replacing the operands keeps the operation. -/
theorem traverse_opcode {read : Nat → ρ → Except Fault ρ'} {write : Nat → ω → Except Fault ω'}
    {i : Instruction ρ ω} {j : Instruction ρ' ω'} (success : i.traverse read write = .ok j) :
    j.opcode = i.opcode := by
  cases i with
  | compute operation left right target =>
    obtain ⟨l, success⟩ := ok_of_bind success
    obtain ⟨r, success⟩ := ok_of_bind success
    obtain ⟨t, success⟩ := ok_of_bind success
    cases success
    cases operation <;> rfl
  | input target =>
    obtain ⟨t, success⟩ := ok_of_bind success
    cases success
    rfl
  | output value =>
    obtain ⟨v, success⟩ := ok_of_bind success
    cases success
    rfl
  | jump sense condition destination =>
    obtain ⟨c, success⟩ := ok_of_bind success
    obtain ⟨d, success⟩ := ok_of_bind success
    cases success
    cases sense <;> rfl
  | adjustBase amount =>
    obtain ⟨a, success⟩ := ok_of_bind success
    cases success
    rfl
  | halt =>
    cases success
    rfl

private theorem error_of_bind {α β : Type} {operand : Except Fault α}
    {rest : α → Except Fault β} {fault : Fault} (failed : operand >>= rest = .error fault) :
    operand = .error fault ∨ ∃ place, rest place = .error fault := by
  rcases operand with cause | place
  · left
    simpa [bind, Except.bind] using failed
  · exact Or.inr ⟨place, failed⟩

/-- Replacing the operands fails only where replacing one of them does. -/
theorem traverse_error {read : Nat → ρ → Except Fault ρ'} {write : Nat → ω → Except Fault ω'}
    {i : Instruction ρ ω} {fault : Fault} (failed : i.traverse read write = .error fault) :
    (∃ k x, read k x = .error fault) ∨ ∃ k y, write k y = .error fault := by
  cases i with
  | compute operation left right target =>
    rcases error_of_bind failed with failed | ⟨l, failed⟩
    · exact Or.inl ⟨1, left, failed⟩
    rcases error_of_bind failed with failed | ⟨r, failed⟩
    · exact Or.inl ⟨2, right, failed⟩
    rcases error_of_bind failed with failed | ⟨t, failed⟩
    · exact Or.inr ⟨3, target, failed⟩
    · cases failed
  | input target =>
    rcases error_of_bind failed with failed | ⟨t, failed⟩
    · exact Or.inr ⟨1, target, failed⟩
    · cases failed
  | output value =>
    rcases error_of_bind failed with failed | ⟨v, failed⟩
    · exact Or.inl ⟨1, value, failed⟩
    · cases failed
  | jump sense condition destination =>
    rcases error_of_bind failed with failed | ⟨c, failed⟩
    · exact Or.inl ⟨1, condition, failed⟩
    rcases error_of_bind failed with failed | ⟨d, failed⟩
    · exact Or.inl ⟨2, destination, failed⟩
    · cases failed
  | adjustBase amount =>
    rcases error_of_bind failed with failed | ⟨a, failed⟩
    · exact Or.inl ⟨1, amount, failed⟩
    · cases failed
  | halt => cases failed

/-- The operation with number three is the one that asks for an input. -/
theorem opcode_eq_three {i : Instruction ρ ω} : i.opcode = 3 ↔ ∃ target, i = .input target := by
  constructor
  · intro three
    cases i with
    | compute operation left right target => cases operation <;> simp [opcode] at three
    | input target => exact ⟨target, rfl⟩
    | output value => simp [opcode] at three
    | jump sense condition destination => cases sense <;> simp [opcode] at three
    | adjustBase amount => simp [opcode] at three
    | halt => simp [opcode] at three
  · rintro ⟨target, rfl⟩
    rfl

theorem decode_error {word pointer : Int} {fault : Fault}
    (failed : decode word pointer = .error fault) : fault.isExecutionFault := by
  have badMode : ∀ k, readMode word pointer k = .error fault → fault.isExecutionFault := by
    intro k unread
    unfold readMode at unread
    split at unread <;> cases unread
    exact Fault.isExecutionFault_raised rfl
  have badTarget : ∀ mode, readTarget word pointer mode = .error fault →
      fault.isExecutionFault := by
    intro mode unread
    unfold readTarget at unread
    split at unread <;> cases unread
    exact Fault.isExecutionFault_raised rfl
  unfold decode at failed
  split at failed
  · cases failed
    exact Fault.isExecutionFault_raised rfl
  · split at failed
    · cases failed
      exact Fault.isExecutionFault_raised rfl
    · split at failed
      next unmoded =>
        cases failed
        rcases traverse_error unmoded with ⟨k, _, unread⟩ | ⟨k, _, unread⟩ <;>
          exact badMode k unread
      · rcases traverse_error failed with ⟨k, _, unread⟩ | ⟨k, mode, unread⟩
        · cases unread
        · exact badTarget mode unread

end Instruction

namespace Machine

theorem checkAddress_error {m : Machine} {address : Int} {fault : Fault}
    (failed : m.checkAddress address = .error fault) : fault.isExecutionFault := by
  unfold checkAddress at failed
  split at failed <;> cases failed
  exact Fault.isExecutionFault_raised rfl

theorem locateSource_error {m : Machine} {k : Nat} {mode : Mode} {fault : Fault}
    (failed : m.locateSource k mode = .error fault) : fault.isExecutionFault := by
  have unchecked : ∀ address, (m.checkAddress address).map Place.cell = .error fault →
      fault.isExecutionFault := by
    intro address failed
    cases checked : m.checkAddress address with
    | error cause =>
      rw [checked] at failed
      cases failed
      exact checkAddress_error checked
    | ok place =>
      rw [checked] at failed
      cases failed
  cases mode with
  | position => exact unchecked _ failed
  | immediate => cases failed
  | relative => exact unchecked _ failed

theorem locateTarget_error {m : Machine} {k : Nat} {target : Target} {fault : Fault}
    (failed : m.locateTarget k target = .error fault) : fault.isExecutionFault := by
  cases target <;> exact checkAddress_error failed

theorem growthFault?_isExecutionFault {m : Machine} {j : Instruction Place Nat} {fault : Fault}
    (failed : m.growthFault? j = some fault) : fault.isExecutionFault := by
  unfold growthFault? Memory.growthFault? Memory.refusal? at failed
  grind [Fault.isExecutionFault]

theorem fetch_error {m : Machine} {fault : Fault} (failed : m.fetch = .error fault) :
    fault.isExecutionFault := by
  unfold fetch at failed
  split at failed
  · cases failed
    exact Fault.isExecutionFault_raised rfl
  · exact Instruction.decode_error failed

theorem resolve_error {m : Machine} {i : Instruction Mode Target} {fault : Fault}
    (failed : m.resolve i = .error fault) : fault.isExecutionFault := by
  unfold resolve at failed
  dsimp only at failed
  split at failed
  · cases failed
    exact Fault.isExecutionFault_raised rfl
  · split at failed
    next untraversed =>
      cases failed
      rcases Instruction.traverse_error untraversed with ⟨k, mode, lost⟩ | ⟨k, target, lost⟩
      · exact locateSource_error lost
      · exact locateTarget_error lost
    · split at failed
      next grown =>
        cases failed
        exact growthFault?_isExecutionFault grown
      · cases failed

/-- Locate the operands of an instruction that is about to be executed and counted. -/
def attempt (m : Machine) (i : Instruction Mode Target) : Except Fault (Instruction Place Nat) :=
  match m.budget with
  | none => m.resolve i
  | some budget =>
    if budget ≤ m.steps then .error (Fault.raised (.stepLimit m.steps budget)) else m.resolve i

theorem attempt_opcode {m : Machine} {i : Instruction Mode Target} {j : Instruction Place Nat}
    (tried : m.attempt i = .ok j) : j.opcode = i.opcode := by
  have resolved : m.resolve i = .ok j := by
    unfold attempt at tried
    split at tried
    · exact tried
    · split at tried
      · cases tried
      · exact tried
  unfold resolve at resolved
  dsimp only at resolved
  split at resolved
  · cases resolved
  · split at resolved
    · cases resolved
    next located traversed =>
      split at resolved
      · cases resolved
      · cases resolved
        exact Instruction.traverse_opcode traversed

theorem stall?_ne_running (m : Machine) (i : Instruction Mode Target) :
    m.stall? i ≠ some .running := by
  cases i <;> simp [stall?]

theorem perform_steps (m : Machine) (j : Instruction Place Nat) :
    (m.perform j).steps = m.steps := by
  cases j <;> simp only [perform]
  split <;> rfl

section Step

variable {m : Machine} {i : Instruction Mode Target}

theorem step_of_fetch_error {fault : Fault} (fetched : m.fetch = .error fault) :
    m.step = (.error fault, m) := by
  simp only [step, budgetFault?, execute, fetched]
  cases m.budget with
  | none => rfl
  | some budget =>
    by_cases spent : budget ≤ m.steps
    · simp only [spent, if_true]
    · simp only [spent, if_false]

theorem step_of_stall {outcome : Outcome} (fetched : m.fetch = .ok i)
    (stalled : m.stall? i = some outcome) : m.step = (.ok outcome, m.settleStep outcome) := by
  simp only [step, budgetFault?, execute, fetched, stalled]
  cases m.budget with
  | none => rfl
  | some budget => simp only [ite_self]

theorem step_of_attempt (fetched : m.fetch = .ok i) (free : m.stall? i = none) :
    m.step =
      match m.attempt i with
      | .error fault => (.error fault, m)
      | .ok j => (.ok .running, ((m.cover j).perform j).settleStep .running) := by
  simp only [step, budgetFault?, execute, fetched, free, attempt]
  cases m.budget with
  | none => cases m.resolve i <;> rfl
  | some budget =>
    by_cases spent : budget ≤ m.steps
    · simp only [spent, if_true]
    · simp only [spent, if_false]
      cases m.resolve i <;> rfl

end Step

/-- The ways in which a step comes out: there is no instruction to fetch, the instruction is not one
to execute here, it cannot be executed, or it is. -/
inductive StepsTo (m : Machine) : Except Fault Outcome → Machine → Prop where
  | unfetched {fault : Fault} (fetched : m.fetch = .error fault) : StepsTo m (.error fault) m
  | stalled {i : Instruction Mode Target} {outcome : Outcome} (fetched : m.fetch = .ok i)
    (stalled : m.stall? i = some outcome) : StepsTo m (.ok outcome) (m.settleStep outcome)
  | refused {i : Instruction Mode Target} {fault : Fault} (fetched : m.fetch = .ok i)
    (free : m.stall? i = none) (refused : m.attempt i = .error fault) :
    StepsTo m (.error fault) m
  | executed {i : Instruction Mode Target} {j : Instruction Place Nat} (fetched : m.fetch = .ok i)
    (free : m.stall? i = none) (tried : m.attempt i = .ok j) :
    StepsTo m (.ok .running) (((m.cover j).perform j).settleStep .running)

theorem stepsTo_of_step {m next : Machine} {outcome : Except Fault Outcome}
    (stepped : m.step = (outcome, next)) : m.StepsTo outcome next := by
  cases fetched : m.fetch with
  | error fault =>
    rw [step_of_fetch_error fetched] at stepped
    cases stepped
    exact .unfetched fetched
  | ok i =>
    cases stalled : m.stall? i with
    | some result =>
      rw [step_of_stall fetched stalled] at stepped
      cases stepped
      exact .stalled fetched stalled
    | none =>
      rw [step_of_attempt fetched stalled] at stepped
      cases tried : m.attempt i with
      | error fault =>
        rw [tried] at stepped
        cases stepped
        exact .refused fetched stalled tried
      | ok j =>
        rw [tried] at stepped
        cases stepped
        exact .executed fetched stalled tried

theorem cover_eq (m : Machine) (j : Instruction Place Nat) :
    m.cover j = { m with memory := (m.cover j).memory } := by
  unfold cover
  split <;> rfl

/-- A step that executes an instruction counts it. -/
theorem steps_of_running {m next : Machine} (running : m.step = (.ok .running, next)) :
    next.steps = m.steps + 1 := by
  unfold step at running
  split at running
  · cases running
  · split at running
    · cases running
    next outcome after executed =>
      simp only [Prod.mk.injEq, Except.ok.injEq] at running
      obtain ⟨rfl, rfl⟩ := running
      unfold execute at executed
      split at executed
      · cases executed
      · split at executed
        next stalled => cases executed; exact absurd stalled (stall?_ne_running _ _)
        · split at executed
          · cases executed
          · cases executed
            rw [cover_eq]
            simp only [settleStep, perform_steps]

theorem perform_budget (m : Machine) (j : Instruction Place Nat) :
    (m.perform j).budget = m.budget := by
  cases j <;> simp only [perform]
  split <;> rfl

/-- A step that executes an instruction is within the budget, and leaves it as it is. -/
theorem budget_of_running {m next : Machine} (running : m.step = (.ok .running, next)) :
    next.budget = m.budget ∧ ∀ budget, m.budget = some budget → m.steps < budget := by
  cases fetched : m.fetch with
  | error fault =>
    rw [step_of_fetch_error fetched] at running
    cases running
  | ok i =>
    cases stalled : m.stall? i with
    | some outcome =>
      rw [step_of_stall fetched stalled] at running
      cases running
      exact absurd stalled (stall?_ne_running m i)
    | none =>
      rw [step_of_attempt fetched stalled] at running
      cases tried : m.attempt i with
      | error fault => simp [tried] at running
      | ok j =>
        simp only [tried, Prod.mk.injEq, true_and] at running
        subst running
        refine ⟨?_, ?_⟩
        · rw [cover_eq]
          simp only [settleStep, perform_budget]
        · intro budget limited
          by_cases spent : budget ≤ m.steps
          · simp [attempt, limited, spent] at tried
          · exact Int.not_le.mp spent

/-- What a step fails with is an execution fault. -/
theorem step_error {m next : Machine} {fault : Fault} (failed : m.step = (.error fault, next)) :
    fault.isExecutionFault := by
  cases fetched : m.fetch with
  | error cause =>
    rw [step_of_fetch_error fetched] at failed
    cases failed
    exact fetch_error fetched
  | ok i =>
    cases stalled : m.stall? i with
    | some outcome =>
      rw [step_of_stall fetched stalled] at failed
      cases failed
    | none =>
      rw [step_of_attempt fetched stalled] at failed
      unfold attempt at failed
      cases limit : m.budget with
      | none =>
        simp only [limit] at failed
        split at failed
        next unresolved => cases failed; exact resolve_error unresolved
        · cases failed
      | some budget =>
        simp only [limit] at failed
        split at failed
        next untried =>
          cases failed
          split at untried
          · cases untried
            exact Fault.isExecutionFault_raised rfl
          · exact resolve_error untried
        · cases failed

end Machine

end Intcode
