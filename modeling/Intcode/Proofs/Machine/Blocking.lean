import Intcode.Proofs.Machine.Budget
import Intcode.Proofs.Machine.Resumption

/-!
# What a blocked machine remembers

Whether a machine is at its end, or lacks an input, is read off what it remembers of its last step.
Steps that fail are not remembered, inputs may have come in since, and programs write over their
own instructions. Still, what is remembered is true: along all calls that are made on a machine, the
instruction at the pointer is the one that it halted at or that asked for an input (`Remembers`).
So a machine that has halted has done so for good, and a machine that lacks an input stays where it
is until it is fed, whatever the budget (`blocked_of_used`).

The calls are `step`, `run_until_blocked`, `feed` and `drain_output`.
-/
namespace Intcode.Machine

inductive Call where
  | step
  | run
  | feed (values : List Int)
  | drain

inductive Reply where
  /-- How a step or a run came out. -/
  | ended (outcome : Except Fault Outcome)
  /-- The outputs that were taken. -/
  | taken (outputs : List Int)
  | done

def Call.inputs : Call → List Int
  | .feed values => values
  | _ => []

def Reply.outputs : Reply → List Int
  | .taken outputs => outputs
  | _ => []

/-- A call that returns, its reply and the machine that it leaves. One that fails returns as well;
a run that never ends does not. -/
inductive Serves : Machine → Call → Reply → Machine → Prop where
  | step {m next : Machine} {outcome : Except Fault Outcome} (stepped : m.step = (outcome, next)) :
    Serves m .step (.ended outcome) next
  | run {m final : Machine} {outcome : Except Fault Outcome} (ends : m.Ends outcome final) :
    Serves m .run (.ended outcome) final
  | feed (m : Machine) (values : List Int) : Serves m (.feed values) .done (m.feed values)
  | drain (m : Machine) : Serves m .drain (.taken m.outputs.toList) m.drained

/-- Calls that are made on a machine one after the other, and the machine that they leave. -/
inductive Used : Machine → List (Call × Reply) → Machine → Prop where
  | none (m : Machine) : Used m [] m
  | call {m next final : Machine} {call : Call} {reply : Reply} {later : List (Call × Reply)}
    (first : Serves m call reply next) (rest : Used next later final) :
    Used m ((call, reply) :: later) final

/-- The word at the pointer is there, and it is the one of the given instruction. -/
def PointsAt (m : Machine) (i : Instruction Mode Target) : Prop :=
  0 ≤ m.ip ∧ ∃ word, m.memory.cells[m.ip.toNat]? = some word ∧
    Instruction.decode word m.ip = .ok i

/-- Steps and runs come out in the given way and change nothing, whatever the budget. -/
structure Idle (m : Machine) (outcome : Outcome) : Prop where
  step : ∀ budget, (m.limitedTo budget).step = (.ok outcome, m.limitedTo budget)
  run : ∀ budget fuel,
    (m.limitedTo budget).run (fuel + 1) = (some (.ok outcome), m.limitedTo budget)

/-- What becomes of a machine at its end when more calls are made on it. -/
structure Lingers (m : Machine) (calls : List (Call × Reply)) (final : Machine) : Prop where
  /-- Inputs pile up and outputs may be gone. Nothing else changes. -/
  kept : final = { m with
    inputs := m.inputs ++ calls.flatMap (·.1.inputs), outputs := final.outputs }
  /-- There are no outputs but those from before, taken or not. -/
  outputs : calls.flatMap (·.2.outputs) ++ final.outputs.toList = m.outputs.toList
  replies : ∀ call outcome, (call, Reply.ended outcome) ∈ calls → outcome = .ok .halted

variable {m next final : Machine} {i : Instruction Mode Target} {outcome : Outcome}
  {answer : Except Fault Outcome} {fuel : Nat} {call : Call} {reply : Reply}
  {calls : List (Call × Reply)}

/-! ## What is remembered is true -/

/-- What the machine remembers of its last step is true of the instruction at the pointer. -/
structure Remembers (m : Machine) : Prop where
  halted : m.last = some .halted → m.fetch = .ok .halt
  awaiting : m.last = some .awaitingInput → ∃ target, m.fetch = .ok (.input target)

theorem fetch_settleStep (m : Machine) (outcome : Outcome) :
    (m.settleStep outcome).fetch = m.fetch := by
  cases outcome <;> rfl

theorem last_settleStep (m : Machine) (outcome : Outcome) :
    (m.settleStep outcome).last = some outcome := by
  cases outcome <;> rfl

theorem halt_of_stall (stalled : m.stall? i = some .halted) : i = .halt := by
  cases i with
  | halt => rfl
  | input target =>
    simp only [stall?] at stalled
    split at stalled <;> cases stalled
  | _ => cases stalled

theorem input_of_stall (stalled : m.stall? i = some .awaitingInput) :
    ∃ target, i = .input target := by
  cases i with
  | input target => exact ⟨target, rfl⟩
  | _ => cases stalled

/-- A step remembers the instruction that it stopped at. One that goes on forgets the instruction
that the step before stopped at, and one that fails leaves it where it is. -/
theorem Remembers.step (remembers : m.Remembers) (stepped : m.step = (answer, next)) :
    next.Remembers := by
  cases stepsTo_of_step stepped with
  | unfetched fetched => exact remembers
  | refused fetched free refused => exact remembers
  | stalled fetched stalled =>
    constructor
    · intro halted
      rw [last_settleStep, Option.some.injEq] at halted
      subst halted
      rw [fetch_settleStep, fetched, halt_of_stall stalled]
    · intro awaiting
      rw [last_settleStep, Option.some.injEq] at awaiting
      subst awaiting
      obtain ⟨target, rfl⟩ := input_of_stall stalled
      exact ⟨target, (fetch_settleStep m _).trans fetched⟩
  | executed fetched free tried =>
    -- The instruction may have written over itself, but nothing is remembered of it.
    constructor
    · intro halted
      cases halted
    · intro awaiting
      cases awaiting

theorem Remembers.run (remembers : m.Remembers) (ran : m.run fuel = (some answer, final)) :
    final.Remembers := by
  induction fuel generalizing m with
  | zero => simp [Machine.run] at ran
  | succ fuel ih =>
    rcases stepped : m.step with ⟨result, next⟩
    have kept := remembers.step stepped
    by_cases running : result = .ok .running
    · subst running
      rw [Machine.run, stepped] at ran
      exact ih kept ran
    · rw [run_of_step stepped running] at ran
      cases ran
      exact kept

theorem Remembers.serves (remembers : m.Remembers) (served : Serves m call reply next) :
    next.Remembers := by
  cases served with
  | step stepped => exact remembers.step stepped
  | run ends =>
    obtain ⟨fuel, ran⟩ := ends
    exact remembers.run ran
  | feed values => exact ⟨remembers.halted, remembers.awaiting⟩
  | drain => exact ⟨remembers.halted, remembers.awaiting⟩

theorem Remembers.used (remembers : m.Remembers) (used : Used m calls final) :
    final.Remembers := by
  induction used with
  | none m => exact remembers
  | call first _ ih => exact ih (remembers.serves first)

/-- A fresh machine has nothing to remember. -/
theorem remembers_of_load {settings : Settings} {program : Program} {setup : Setup}
    (loaded : load settings program setup = .ok m) : m.Remembers := by
  unfold load at loaded
  split at loaded
  · cases loaded
  · cases loaded
    constructor
    · intro halted
      cases halted
    · intro awaiting
      cases awaiting

/-! ## Machines that are blocked -/

theorem pointsAt_of_fetch (fetched : m.fetch = .ok i) : m.PointsAt i := by
  unfold fetch at fetched
  split at fetched
  · cases fetched
  next within =>
    have inside : m.ip.toNat < m.memory.cells.size := by
      have : m.memory.cells.size = m.memory.size := rfl
      omega
    refine ⟨by omega, m.memory.cells[m.ip.toNat], Array.getElem?_eq_getElem inside, ?_⟩
    simpa [Memory.read, inside] using fetched

/-- A machine that remembers the end of the step that it is about to take is not changed by it. -/
theorem idle_of_stall (fetched : m.fetch = .ok i) (stalled : m.stall? i = some outcome)
    (last : m.last = some outcome) : m.Idle outcome := by
  have same : ∀ budget, (m.limitedTo budget).step = (.ok outcome, m.limitedTo budget) := by
    intro budget
    have settled : m.settleStep outcome = m := by
      cases outcome with
      | running => exact absurd stalled (stall?_ne_running m i)
      | halted => rw [settleStep, ← last]
      | awaitingInput => rw [settleStep, ← last]
    have found : (m.limitedTo budget).fetch = .ok i := fetched
    rw [step_of_stall found stalled, settleStep_limitedTo, settled]
  refine ⟨same, fun budget fuel => run_of_step (same budget) ?_ fuel⟩
  rintro ⟨⟩
  exact stall?_ne_running m i stalled

theorem Remembers.idle_of_halted (remembers : m.Remembers) (halted : m.last = some .halted) :
    m.Idle .halted :=
  idle_of_stall (remembers.halted halted) rfl halted

theorem Remembers.idle_of_waiting (remembers : m.Remembers) (last : m.last = some .awaitingInput)
    (starved : m.inputs = []) : m.Idle .awaitingInput := by
  obtain ⟨target, fetched⟩ := remembers.awaiting last
  exact idle_of_stall fetched (by simp [stall?, starved]) last

theorem lingers_of_idle (idle : m.Idle .halted) (served : Serves m call reply next) :
    m.Lingers [(call, reply)] next := by
  have step : m.step = (.ok .halted, m) := idle.step m.budget
  have run : m.Ends (.ok .halted) m := ⟨1, idle.run m.budget 0⟩
  cases served with
  | step stepped =>
    cases step.symm.trans stepped
    exact ⟨by simp [Call.inputs], by simp [Reply.outputs], by simp⟩
  | run ends =>
    obtain ⟨rfl, rfl⟩ := run.unique ends
    exact ⟨by simp [Call.inputs], by simp [Reply.outputs], by simp⟩
  | feed values => exact ⟨by simp [Call.inputs, feed], by simp [Reply.outputs, feed], by simp⟩
  | drain => exact ⟨by simp [Call.inputs, drained], by simp [Reply.outputs, drained], by simp⟩

theorem Lingers.cons {later : List (Call × Reply)} (first : m.Lingers [(call, reply)] next)
    (rest : next.Lingers later final) : m.Lingers ((call, reply) :: later) final where
  kept := by
    rw [rest.kept, first.kept]
    simp
  outputs := by
    have before := first.outputs
    rw [← rest.outputs] at before
    simpa using before
  replies := by
    intro call' outcome member
    rcases List.mem_cons.mp member with here | there
    · exact first.replies call' outcome (by simp [here])
    · exact rest.replies call' outcome there

/-- Once a machine is at its end, no call changes that. -/
theorem Remembers.lingers (remembers : m.Remembers) (halted : m.last = some .halted)
    (used : Used m calls final) : m.Lingers calls final := by
  induction used with
  | none m => exact ⟨by simp, by simp, by simp⟩
  | call first _ ih =>
    have served := lingers_of_idle (remembers.idle_of_halted halted) first
    apply served.cons
    apply ih (remembers.serves first)
    rw [served.kept]
    exact halted

/-- A machine that has been used in any way since it was new. If it is at its end, then it points at
an instruction to halt. However it is used from then on, it stays at its end and replies that it has
halted, and nothing of it changes but the inputs that it is fed and the outputs that are taken. If
it lacks an input, then it points at an instruction that asks for one, there is none, and it stays
like that when it is stepped or run. No budget makes a difference to this, spent or not. -/
theorem blocked_of_used {settings : Settings} {program : Program} {setup : Setup} {fresh : Machine}
    (loaded : load settings program setup = .ok fresh) (used : Used fresh calls m) :
    (m.halted → m.PointsAt .halt ∧ ∀ later final, Used m later final →
      final.halted ∧ m.Lingers later final ∧ final.Idle .halted) ∧
    (m.waiting → (∃ target, m.PointsAt (.input target)) ∧ m.inputs = [] ∧
      m.Idle .awaitingInput) := by
  have remembers := (remembers_of_load loaded).used used
  constructor
  · intro halted
    have last : m.last = some .halted := of_decide_eq_true halted
    refine ⟨pointsAt_of_fetch (remembers.halted last), ?_⟩
    intro later final used'
    have lingers := remembers.lingers last used'
    have last' : final.last = some .halted := by
      rw [lingers.kept]
      exact last
    exact ⟨decide_eq_true last', lingers, (remembers.used used').idle_of_halted last'⟩
  · intro waiting
    obtain ⟨last, starved⟩ : m.last = some .awaitingInput ∧ m.inputs = [] := by
      simpa [Machine.waiting] using waiting
    obtain ⟨target, fetched⟩ := remembers.awaiting last
    exact ⟨⟨target, pointsAt_of_fetch fetched⟩, starved, remembers.idle_of_waiting last starved⟩

/-- Reads a number over its own first word, and gives out what it finds there. -/
def readOver : List Int :=
  [3, 0, 4, 0, 99]

/-- The program lacks an input and then has one. Once it has halted its budget of two is spent; it
is fed again, its outputs are taken, and still it halts. -/
theorem blocked_of_used_readOver :
    ∃ fresh m m' final, load {} (.image readOver) { budget := some 2 } = .ok fresh ∧
      Used fresh [(.run, .ended (.ok .awaitingInput))] m ∧ m.waiting ∧ m.Idle .awaitingInput ∧
      Used fresh [(.run, .ended (.ok .awaitingInput)), (.feed [5], .done),
        (.run, .ended (.ok .halted))] m' ∧ m'.halted ∧ m'.steps = 2 ∧ m'.PointsAt .halt ∧
      Used m' [(.feed [7], .done), (.drain, .taken [5]), (.step, .ended (.ok .halted))] final ∧
      final.halted ∧ final.Idle .halted ∧ 5 :: final.outputs.toList = m'.outputs.toList := by
  have loaded : load {} (.image readOver) { budget := some 2 } =
      .ok (ofCells {} readOver { budget := some 2 }) := rfl
  obtain ⟨m, waits, waiting, m', halts, halted, steps, final, lingers⟩ :
      ∃ m, Used (ofCells {} readOver { budget := some 2 })
        [(.run, .ended (.ok .awaitingInput))] m ∧ m.waiting ∧
      ∃ m', Used (ofCells {} readOver { budget := some 2 })
        [(.run, .ended (.ok .awaitingInput)), (.feed [5], .done), (.run, .ended (.ok .halted))]
          m' ∧ m'.halted ∧ m'.steps = 2 ∧
      ∃ final, Used m' [(.feed [7], .done), (.drain, .taken [5]), (.step, .ended (.ok .halted))]
        final :=
    ⟨_, .call (.run ⟨1, rfl⟩) (.none _), rfl,
      _, .call (.run ⟨1, rfl⟩) (.call (.feed _ _) (.call (.run ⟨3, rfl⟩) (.none _))), rfl, rfl,
      _, .call (.feed _ _) (.call (.drain _) (.call (.step rfl) (.none _)))⟩
  obtain ⟨-, -, idle⟩ := (blocked_of_used loaded waits).2 waiting
  obtain ⟨points, later⟩ := (blocked_of_used loaded halts).1 halted
  obtain ⟨halted', lingering, idle'⟩ := later _ final lingers
  exact ⟨_, m, m', final, loaded, waits, waiting, idle, halts, halted, steps, points, lingers,
    halted', idle', lingering.outputs⟩

end Intcode.Machine
