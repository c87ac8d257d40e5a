import Intcode.Proofs.Machine.Step

/-!
# The core of a machine

What a machine does next depends on its memory, pointer, base, step count and budget alone:
its core. The waiting inputs only decide whether an instruction that asks for one can go on,
and the name, the trace switch, the outputs so far and the last outcome decide nothing.
`Core.act` is what a bare machine with this core does, and `step_eq_respond` says that every
machine with the core does the same. Later modules use this and open `step` no more.
-/
namespace Intcode

/-- The part of a machine that its instructions depend on. -/
structure Core where
  memory : Memory
  ip : Int
  base : Int
  steps : Nat
  budget : Option Int

/-- What a core does next. -/
inductive Act where
  | fail (fault : Fault)
  | halt
  /-- Ask for an input; with one at hand, the instruction is executed or fails. -/
  | read (next : Int → Except Fault Core)
  | write (value : Int) (next : Core)
  | go (next : Core)

namespace Machine

def core (m : Machine) : Core :=
  ⟨m.memory, m.ip, m.base, m.steps, m.budget⟩

/-- The machine after an instruction that left the given core, inputs and outputs. -/
def resume (m : Machine) (c : Core) (inputs : List Int) (outputs : Array Int) : Machine :=
  { m with
    memory := c.memory
    ip := c.ip
    base := c.base
    steps := c.steps
    budget := c.budget
    inputs
    outputs
    last := some .running }

end Machine

namespace Core

def machine (c : Core) (inputs : List Int) : Machine where
  memory := c.memory
  ip := c.ip
  base := c.base
  inputs := inputs
  steps := c.steps
  budget := c.budget

/-- What an executed instruction did, read off the bare machine that it left. -/
def executed (next : Machine) : Act :=
  match next.outputs.toList with
  | [] => .go next.core
  | value :: _ => .write value next.core

/-- What a bare machine with this core does next. -/
def act (c : Core) : Act :=
  match (c.machine []).step with
  | (.error fault, _) => .fail fault
  | (.ok .halted, _) => .halt
  | (.ok .awaitingInput, _) =>
    .read fun value =>
      match (c.machine [value]).step with
      | (.error fault, _) => .error fault
      | (.ok _, next) => .ok next.core
  | (.ok .running, next) => executed next

end Core

namespace Machine

/-- A machine as a response to what its core does. -/
def respond (m : Machine) : Act → Except Fault Outcome × Machine
  | .fail fault => (.error fault, m)
  | .halt => (.ok .halted, { m with last := some .halted })
  | .read next =>
    match m.inputs with
    | [] => (.ok .awaitingInput, { m with last := some .awaitingInput })
    | value :: rest =>
      match next value with
      | .error fault => (.error fault, m)
      | .ok c => (.ok .running, m.resume c rest m.outputs)
  | .write value c => (.ok .running, m.resume c m.inputs (m.outputs.push value))
  | .go c => (.ok .running, m.resume c m.inputs m.outputs)

theorem cover_machine (m : Machine) (inputs : List Int) (j : Instruction Place Nat) :
    ((m.core.machine inputs).cover j).memory = (m.cover j).memory := by
  unfold cover
  split <;> rfl

/-- Executing an instruction that asks for an input takes the first one. -/
theorem perform_input (m : Machine) (target : Nat) (value : Int) (rest : List Int)
    (given : m.inputs = value :: rest) :
    ((m.cover (.input target)).perform (.input target)).settleStep .running =
      m.resume ((((m.core.machine [value]).cover (.input target)).perform
        (.input target)).settleStep .running).core rest m.outputs := by
  rw [cover_eq m, cover_eq (m.core.machine [value]), cover_machine]
  simp [perform, given, Core.machine, core, settleStep, resume]

/-- Executing any other instruction leaves the inputs alone, and outputs come after those that
are there already. -/
theorem perform_other (m : Machine) (j : Instruction Place Nat) (other : j.opcode ≠ 3) :
    (.ok .running, ((m.cover j).perform j).settleStep .running) =
      m.respond (Core.executed
        ((((m.core.machine []).cover j).perform j).settleStep .running)) := by
  rw [cover_eq m, cover_eq (m.core.machine []), cover_machine]
  cases j with
  | compute operation left right target =>
    cases left <;> cases right <;>
      simp [perform, value, Core.machine, core, settleStep, resume, respond, Core.executed]
  | input target => exact absurd rfl other
  | output place =>
    cases place <;>
      simp [perform, value, Core.machine, core, settleStep, resume, respond, Core.executed]
  | jump sense condition destination =>
    cases condition <;> cases destination <;>
      simp only [perform, value, Core.machine, core, settleStep, resume, respond,
        Core.executed] <;> rfl
  | adjustBase amount =>
    cases amount <;>
      simp [perform, value, Core.machine, core, settleStep, resume, respond, Core.executed]
  | halt => simp [perform, Core.machine, core, settleStep, resume, respond, Core.executed]

private theorem step_eq_respond_of_other {m : Machine} {i : Instruction Mode Target}
    (fetched : m.fetch = .ok i) (other : i.opcode ≠ 3)
    (free : ∀ m' : Machine, m'.stall? i = none) : m.step = m.respond m.core.act := by
  have bare : (m.core.machine []).fetch = .ok i := fetched
  have tried : (m.core.machine []).attempt i = m.attempt i := rfl
  rw [step_of_attempt fetched (free m)]
  simp only [Core.act, step_of_attempt bare (free _), tried]
  cases located : m.attempt i with
  | error fault => rfl
  | ok j =>
    have kept : j.opcode ≠ 3 := by rw [attempt_opcode located]; exact other
    exact perform_other m j kept

private theorem step_eq_respond_of_input {m : Machine} {target : Target}
    (fetched : m.fetch = .ok (.input target)) : m.step = m.respond m.core.act := by
  have bare : ∀ inputs, (m.core.machine inputs).fetch = .ok (.input target) := fun _ => fetched
  have starved : (m.core.machine []).stall? (.input target) = some .awaitingInput := rfl
  simp only [Core.act, step_of_stall (bare []) starved, respond]
  cases given : m.inputs with
  | nil =>
    have stalled : m.stall? (.input target) = some .awaitingInput := by simp [stall?, given]
    simp [step_of_stall fetched stalled, settleStep, given]
  | cons value rest =>
    have free : m.stall? (.input target) = none := by simp [stall?, given]
    have fed : (m.core.machine [value]).stall? (.input target) = none := by
      simp [stall?, Core.machine]
    have tried : (m.core.machine [value]).attempt (.input target) = m.attempt (.input target) :=
      rfl
    simp only [step_of_attempt fetched free, step_of_attempt (bare [value]) fed, tried]
    cases located : m.attempt (.input target) with
    | error fault => rfl
    | ok j =>
      obtain ⟨address, rfl⟩ := Instruction.opcode_eq_three.mp (attempt_opcode located)
      simp only [perform_input m address value rest given]

/-- A step does what the core of the machine does. -/
theorem step_eq_respond (m : Machine) : m.step = m.respond m.core.act := by
  cases fetched : m.fetch with
  | error fault =>
    have bare : (m.core.machine []).fetch = .error fault := fetched
    simp only [Core.act, step_of_fetch_error fetched, step_of_fetch_error bare, respond]
  | ok i =>
    cases i with
    | halt =>
      have bare : (m.core.machine []).fetch = .ok .halt := fetched
      have stalled : ∀ m' : Machine, m'.stall? .halt = some .halted := fun _ => rfl
      simp only [Core.act, step_of_stall fetched (stalled m), step_of_stall bare (stalled _),
        respond, settleStep]
    | input target => exact step_eq_respond_of_input fetched
    | compute operation left right target =>
      exact step_eq_respond_of_other fetched (by cases operation <;> simp [Instruction.opcode])
        (fun _ => rfl)
    | output value =>
      exact step_eq_respond_of_other fetched (by simp [Instruction.opcode]) (fun _ => rfl)
    | jump sense condition destination =>
      exact step_eq_respond_of_other fetched (by cases sense <;> simp [Instruction.opcode])
        (fun _ => rfl)
    | adjustBase amount =>
      exact step_eq_respond_of_other fetched (by simp [Instruction.opcode]) (fun _ => rfl)

section Acts

variable {m : Machine} {c : Core} {fault : Fault} {value : Int} {rest : List Int}
  {next : Int → Except Fault Core}

theorem step_of_fail (acts : m.core.act = .fail fault) : m.step = (.error fault, m) := by
  rw [step_eq_respond, acts]
  rfl

theorem step_of_halt (acts : m.core.act = .halt) :
    m.step = (.ok .halted, { m with last := some .halted }) := by
  rw [step_eq_respond, acts]
  rfl

theorem step_of_starved (acts : m.core.act = .read next) (starved : m.inputs = []) :
    m.step = (.ok .awaitingInput, { m with last := some .awaitingInput }) := by
  rw [step_eq_respond, acts]
  simp only [respond, starved]

theorem step_of_read (acts : m.core.act = .read next) (given : m.inputs = value :: rest)
    (taken : next value = .ok c) : m.step = (.ok .running, m.resume c rest m.outputs) := by
  rw [step_eq_respond, acts]
  simp only [respond, given, taken]

theorem step_of_read_error (acts : m.core.act = .read next) (given : m.inputs = value :: rest)
    (refused : next value = .error fault) : m.step = (.error fault, m) := by
  rw [step_eq_respond, acts]
  simp only [respond, given, refused]

theorem step_of_write (acts : m.core.act = .write value c) :
    m.step = (.ok .running, m.resume c m.inputs (m.outputs.push value)) := by
  rw [step_eq_respond, acts]
  rfl

theorem step_of_go (acts : m.core.act = .go c) :
    m.step = (.ok .running, m.resume c m.inputs m.outputs) := by
  rw [step_eq_respond, acts]
  rfl

/-- A step that fails changes nothing. -/
theorem unchanged_of_step {stepped : Machine} (failed : m.step = (.error fault, stepped)) :
    stepped = m := by
  rw [step_eq_respond] at failed
  unfold respond at failed
  grind

/-- A step that halts finds the core at its end, and changes only what is remembered of it. -/
theorem halt_of_step {stepped : Machine} (halted : m.step = (.ok .halted, stepped)) :
    m.core.act = .halt ∧ stepped = { m with last := some .halted } := by
  rw [step_eq_respond] at halted
  unfold respond at halted
  grind

/-- A step that lacks an input finds the core asking for one, and changes only what is remembered
of it. -/
theorem starved_of_step {stepped : Machine} (starved : m.step = (.ok .awaitingInput, stepped)) :
    (∃ next, m.core.act = .read next) ∧ m.inputs = [] ∧
      stepped = { m with last := some .awaitingInput } := by
  rw [step_eq_respond] at starved
  unfold respond at starved
  grind

end Acts

@[simp] theorem resume_core (m : Machine) (c : Core) (inputs : List Int) (outputs : Array Int) :
    (m.resume c inputs outputs).core = c := rfl

@[simp] theorem resume_inputs (m : Machine) (c : Core) (inputs : List Int) (outputs : Array Int) :
    (m.resume c inputs outputs).inputs = inputs := rfl

@[simp] theorem resume_outputs (m : Machine) (c : Core) (inputs : List Int) (outputs : Array Int) :
    (m.resume c inputs outputs).outputs = outputs := rfl

@[simp] theorem drained_core (m : Machine) : m.drained.core = m.core := rfl

@[simp] theorem feed_core (m : Machine) (values : List Int) : (m.feed values).core = m.core := rfl

end Machine

namespace Core

variable {c d : Core} {value : Int} {next : Int → Except Fault Core}

theorem steps_of_go (acts : c.act = .go d) : d.steps = c.steps + 1 :=
  Machine.steps_of_running (Machine.step_of_go (m := c.machine []) acts)

theorem steps_of_write (acts : c.act = .write value d) : d.steps = c.steps + 1 :=
  Machine.steps_of_running (Machine.step_of_write (m := c.machine []) acts)

theorem steps_of_read (acts : c.act = .read next) (taken : next value = .ok d) :
    d.steps = c.steps + 1 :=
  Machine.steps_of_running (Machine.step_of_read (m := c.machine [value]) acts rfl taken)

end Core

end Intcode
