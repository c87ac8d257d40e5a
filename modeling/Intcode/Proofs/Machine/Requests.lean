import Intcode.Proofs.Machine.Runs

/-!
# The last request for an input

A run arrives at instructions that ask for an input, whether the inputs are there already or not.
`Machine.lastRequest` is the state in which it does so for the last time. Of all the runs of the
core on the same inputs that lead up to a request, the one to this state has come farthest
(`lastRequest_latest`).
-/
namespace Intcode.Machine

open Intcode.Core

variable {m next final : Machine} {fuel : Nat} {outcome : Except Fault Outcome}

def request? (m : Machine) : Option Machine :=
  match m.fetch with
  | .ok (.input _) => some m
  | _ => none

/-- The state in which a machine arrives at an instruction that asks for an input, for the last time
within so many steps. -/
def lastRequest : (fuel : Nat) → Machine → Option Machine
  | 0, _ => none
  | fuel + 1, m =>
    match m.step with
    | (.ok .running, next) => (lastRequest fuel next).or m.request?
    | _ => m.request?

/-- A core asks for an input where the instruction at the pointer does. -/
theorem asksInput_iff (m : Machine) :
    m.core.AsksInput ↔ ∃ target, m.fetch = .ok (.input target) := by
  constructor
  · rintro ⟨next, acts⟩
    have starved := step_of_starved (m := m.core.machine []) acts rfl
    have bare : (m.core.machine []).fetch = m.fetch := rfl
    cases fetched : m.fetch with
    | error fault =>
      rw [step_of_fetch_error (bare.trans fetched)] at starved
      cases starved
    | ok i =>
      cases i with
      | input target => exact ⟨target, rfl⟩
      | halt =>
        rw [step_of_stall (bare.trans fetched) rfl] at starved
        cases starved
      | _ =>
        rw [step_of_attempt (bare.trans fetched) rfl] at starved
        split at starved <;> cases starved
  · rintro ⟨target, fetched⟩
    have bare : (m.core.machine []).fetch = .ok (.input target) := fetched
    exact (starved_of_step (step_of_stall bare rfl)).1

theorem request?_cases (m : Machine) :
    m.core.AsksInput ∧ m.request? = some m ∨ ¬m.core.AsksInput ∧ m.request? = none := by
  unfold request?
  split
  next target fetched => exact Or.inl ⟨m.asksInput_iff.mpr ⟨target, fetched⟩, rfl⟩
  next other =>
    refine Or.inr ⟨?_, rfl⟩
    intro asks
    obtain ⟨target, fetched⟩ := m.asksInput_iff.mp asks
    exact other target fetched

/-- A step that does not execute an instruction finds the core at an end. -/
theorem ending_of_stopped {answer : Except Fault Outcome} (stepped : m.step = (answer, next))
    (stopped : answer ≠ .ok .running) : m.core.ending m.inputs = some answer := by
  cases acts : m.core.act with
  | fail fault =>
    rw [step_of_fail acts] at stepped
    cases stepped
    exact ending_of_fail acts
  | halt =>
    rw [step_of_halt acts] at stepped
    cases stepped
    exact ending_of_halt acts
  | read next =>
    cases given : m.inputs with
    | nil =>
      rw [step_of_starved acts given] at stepped
      cases stepped
      exact ending_of_starved acts
    | cons value rest =>
      cases taken : next value with
      | error fault =>
        rw [step_of_read_error acts given taken] at stepped
        cases stepped
        exact ending_of_read_error acts taken
      | ok c =>
        rw [step_of_read acts given taken] at stepped
        cases stepped
        exact absurd rfl stopped
  | write value c =>
    rw [step_of_write acts] at stepped
    cases stepped
    exact absurd rfl stopped
  | go c =>
    rw [step_of_go acts] at stepped
    cases stepped
    exact absurd rfl stopped

/-- An executed instruction is the first one of every run on the inputs that executes any. -/
theorem first_of_running (running : m.step = (.ok .running, next)) :
    ∃ reads outputs, m.inputs = reads ++ next.inputs ∧
      next.outputs.toList = m.outputs.toList ++ outputs ∧ Runs m.core reads outputs next.core ∧
      ∀ r o p, Runs m.core r o p → r <+: m.inputs →
        p = m.core ∨ ∃ r' o', Runs next.core r' o' p ∧ r' <+: next.inputs := by
  cases acts : m.core.act with
  | fail fault => simp [step_of_fail acts] at running
  | halt => simp [step_of_halt acts] at running
  | read wants =>
    cases given : m.inputs with
    | nil => simp [step_of_starved acts given] at running
    | cons value rest =>
      cases taken : wants value with
      | error fault => simp [step_of_read_error acts given taken] at running
      | ok c =>
        rw [step_of_read acts given taken] at running
        cases running
        refine ⟨[value], [], by simp, by simp, .read acts taken (.stay c), ?_⟩
        intro r o p run inside
        cases run with
        | stay => exact Or.inl rfl
        | go acts' => cases acts.symm.trans acts'
        | write acts' => cases acts.symm.trans acts'
        | read acts' taken' later =>
          cases acts.symm.trans acts'
          obtain ⟨rfl, within⟩ := List.cons_prefix_cons.mp inside
          cases taken.symm.trans taken'
          exact Or.inr ⟨_, _, later, within⟩
  | write value c =>
    rw [step_of_write acts] at running
    cases running
    refine ⟨[], [value], rfl, by simp, .write acts (.stay c), ?_⟩
    intro r o p run inside
    cases run with
    | stay => exact Or.inl rfl
    | go acts' => cases acts.symm.trans acts'
    | read acts' => cases acts.symm.trans acts'
    | write acts' later =>
      cases acts.symm.trans acts'
      exact Or.inr ⟨_, _, later, inside⟩
  | go c =>
    rw [step_of_go acts] at running
    cases running
    refine ⟨[], [], rfl, by simp, .go acts (.stay c), ?_⟩
    intro r o p run inside
    cases run with
    | stay => exact Or.inl rfl
    | write acts' => cases acts.symm.trans acts'
    | read acts' => cases acts.symm.trans acts'
    | go acts' later =>
      cases acts.symm.trans acts'
      exact Or.inr ⟨_, _, later, inside⟩

/-- Of the runs on the inputs of a machine that lead up to a request for an input, the one to the
given state has come farthest; without one there is no such run. -/
def Latest (m : Machine) : Option Machine → Prop
  | none => ∀ r o p, Runs m.core r o p → r <+: m.inputs → ¬p.AsksInput
  | some request =>
    request.core.AsksInput ∧
      (∃ reads outputs, m.inputs = reads ++ request.inputs ∧
        request.outputs.toList = m.outputs.toList ++ outputs ∧
        Runs m.core reads outputs request.core) ∧
      ∀ r o p, Runs m.core r o p → r <+: m.inputs → p.AsksInput → p.steps ≤ request.core.steps

/-- A machine that executes nothing on its inputs has its last request here, if anywhere. -/
theorem latest_request? (stays : ∀ r o p, Runs m.core r o p → r <+: m.inputs → p.AsksInput →
    p = m.core) : m.Latest m.request? := by
  rcases m.request?_cases with ⟨asks, here⟩ | ⟨silent, here⟩
  · rw [here]
    refine ⟨asks, ⟨[], [], rfl, by simp, .stay _⟩, ?_⟩
    intro r o p run inside asks'
    exact Nat.le_of_eq (congrArg Core.steps (stays r o p run inside asks'))
  · rw [here]
    intro r o p run inside asks
    exact silent (stays r o p run inside asks ▸ asks)

theorem lastRequest_latest (ran : m.run fuel = (some outcome, final)) :
    m.Latest (m.lastRequest fuel) := by
  induction fuel generalizing m with
  | zero => simp [run] at ran
  | succ fuel ih =>
    rcases stepped : m.step with ⟨answer, next⟩
    by_cases running : answer = .ok .running
    · subst running
      simp only [run, stepped] at ran
      have later := ih ran
      obtain ⟨reads, outputs, given, written, first, others⟩ := first_of_running stepped
      simp only [lastRequest, stepped]
      cases found : next.lastRequest fuel with
      | some request =>
        rw [found] at later
        obtain ⟨asks, ⟨reads', outputs', given', written', path⟩, farthest⟩ := later
        refine ⟨asks, ⟨reads ++ reads', outputs ++ outputs', ?_, ?_, first.trans path⟩, ?_⟩
        · rw [given, given', List.append_assoc]
        · rw [written', written, List.append_assoc]
        · intro r o p run inside asks'
          rcases others r o p run inside with rfl | ⟨r', o', run', inside'⟩
          · exact Nat.le_trans first.steps_le path.steps_le
          · exact farthest r' o' p run' inside' asks'
      | none =>
        rw [found] at later
        refine latest_request? ?_
        intro r o p run inside asks
        rcases others r o p run inside with same | ⟨r', o', run', inside'⟩
        · exact same
        · exact absurd asks (later r' o' p run' inside')
    · have here : m.lastRequest (fuel + 1) = m.request? := by
        unfold lastRequest
        split
        next stepped' =>
          rw [stepped] at stepped'
          cases stepped'
          exact absurd rfl running
        · rfl
      rw [here]
      refine latest_request? ?_
      intro r o p run inside asks
      exact (run.stay_of_ending (ending_of_stopped stepped running) inside).2.2.symm

end Intcode.Machine
