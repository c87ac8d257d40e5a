import Intcode.Batch
import Intcode.Proofs.Machine.Core

/-!
# Inputs may come in any batches

A machine that is fed more inputs than it has read does what it would have done without them, up
to the point where it would have lacked one (`step_feed`, `run_feed_of_settled`). There it goes on
as a machine does that was suspended and is then fed (`run_feed_of_waiting`). Outputs that have
been taken away make no difference either (`run_preceded`). So a caller that feeds a machine batch
by batch, and takes its outputs at every suspension, ends up with what a batch run returns that was
given all inputs at once (`serve_of_run`).

What the last step came to is the only trace that a suspension leaves on a machine, and it is gone
with the next instruction: `SameState` leaves it out.

`serve` is a caller of `run_until_blocked`, `drain_output` and `feed`.
-/
namespace Intcode.Machine

/-- The two machines are in the same state, whatever their last steps came to. -/
def SameState (m m' : Machine) : Prop :=
  m = { m' with last := m.last }

/-- The run of a machine ends in the given way and leaves the given machine. -/
def Ends (m : Machine) (outcome : Except Fault Outcome) (final : Machine) : Prop :=
  ∃ fuel, m.run fuel = (some outcome, final)

def Diverges (m : Machine) : Prop :=
  ∀ fuel, (m.run fuel).1 = none

def preceded (m : Machine) (earlier : Array Int) : Machine :=
  { m with outputs := earlier ++ m.outputs }

/-- Run a machine and take its outputs. At every suspension it is fed the next batch, until it
halts or there is no batch left. The outputs of all these runs, in order. -/
def serve (fuel : Nat) (m : Machine) (batches : List (List Int)) :
    Option (Except Fault (List Int)) :=
  match m.run fuel with
  | (none, _) => none
  | (some (.error fault), _) => some (.error fault)
  | (some (.ok .awaitingInput), suspended) =>
    match batches with
    | [] => some (.ok suspended.outputs.toList)
    | batch :: rest =>
      (serve fuel (suspended.drained.feed batch) rest).map
        (Except.map (suspended.outputs.toList ++ ·))
  | (some (.ok _), stopped) => some (.ok stopped.outputs.toList)

variable {m m' next final suspended : Machine} {values : List Int} {fuel : Nat}
  {outcome : Except Fault Outcome}

/-! ## One step -/

/-- Unless the machine lacks an input, inputs that come after its own change nothing. -/
theorem step_feed (stepped : m.step = (outcome, next)) (settled : outcome ≠ .ok .awaitingInput) :
    (m.feed values).step = (outcome, next.feed values) := by
  rw [step_eq_respond] at stepped ⊢
  rw [feed_core]
  cases acts : m.core.act with
  | fail fault =>
    rw [acts] at stepped
    cases stepped
    rfl
  | halt =>
    rw [acts] at stepped
    cases stepped
    rfl
  | write value c =>
    rw [acts] at stepped
    cases stepped
    rfl
  | go c =>
    rw [acts] at stepped
    cases stepped
    rfl
  | read next =>
    rw [acts] at stepped
    cases given : m.inputs with
    | nil =>
      simp only [respond, given] at stepped
      cases stepped
      exact absurd rfl settled
    | cons value rest =>
      cases taken : next value with
      | error fault =>
        simp only [respond, given, taken] at stepped
        cases stepped
        simp only [respond, feed, given, List.cons_append, taken]
      | ok c =>
        simp only [respond, given, taken] at stepped
        cases stepped
        simp only [respond, feed, given, List.cons_append, taken, resume]

/-- Outputs that are there already change nothing. -/
theorem step_preceded (m : Machine) (earlier : Array Int) :
    (m.preceded earlier).step = (m.step.1, m.step.2.preceded earlier) := by
  have core : (m.preceded earlier).core = m.core := rfl
  rw [step_eq_respond, step_eq_respond, core]
  cases acts : m.core.act with
  | fail fault => rfl
  | halt => rfl
  | go c => rfl
  | write value c => simp only [respond, preceded, resume, Array.append_push]
  | read next =>
    cases given : m.inputs with
    | nil => simp only [respond, preceded, given]
    | cons value rest =>
      cases taken : next value <;> simp only [respond, preceded, given, taken, resume]

/-- A step does not look at what the last one came to, and forgets it unless it fails. -/
theorem step_last (m : Machine) (last : Option Outcome) :
    { m with last }.step = m.step ∨
      ∃ fault, m.step = (.error fault, m) ∧
        { m with last }.step = (.error fault, { m with last }) := by
  have core : { m with last }.core = m.core := rfl
  rw [step_eq_respond, step_eq_respond, core]
  cases acts : m.core.act with
  | fail fault => exact Or.inr ⟨fault, rfl, rfl⟩
  | halt => exact Or.inl rfl
  | go c => exact Or.inl rfl
  | write value c => exact Or.inl rfl
  | read next =>
    cases given : m.inputs with
    | nil => exact Or.inl (by simp only [respond, given])
    | cons value rest =>
      cases taken : next value with
      | error fault =>
        refine Or.inr ⟨fault, ?_, ?_⟩
        · simp only [respond, given, taken]
        · simp only [respond, taken]
      | ok c => exact Or.inl (by simp only [respond, given, taken, resume])

/-! ## Runs -/

/-- A run that has ended does not change when it may take more steps. -/
theorem run_add (ran : m.run fuel = (some outcome, final)) (more : Nat) :
    m.run (fuel + more) = (some outcome, final) := by
  induction fuel generalizing m with
  | zero => simp [run] at ran
  | succ fuel ih =>
    rw [Nat.add_right_comm]
    unfold run at ran ⊢
    split at ran
    next stepped => simpa only [stepped] using ih ran
    next stepped => simpa only [stepped] using ran
    next stepped => simpa only [stepped] using ran
    next stepped => simpa only [stepped] using ran

/-- A machine with a budget comes to an end when it may take more steps than the budget leaves. -/
theorem run_ends_of_budget {budget : Int} (limited : m.budget = some budget)
    (enough : (budget - m.steps).toNat < fuel) :
    ∃ outcome final, m.run fuel = (some outcome, final) := by
  induction fuel generalizing m with
  | zero => exact absurd enough (Nat.not_lt_zero _)
  | succ fuel ih =>
    unfold run
    split
    next next stepped =>
      obtain ⟨kept, within⟩ := budget_of_running stepped
      have counted := steps_of_running stepped
      have left := within budget limited
      exact ih (kept.trans limited) (by omega)
    · exact ⟨_, _, rfl⟩
    · exact ⟨_, _, rfl⟩
    · exact ⟨_, _, rfl⟩

/-- A run has no more than one end. -/
theorem Ends.unique {outcome' : Except Fault Outcome} {final' : Machine}
    (one : m.Ends outcome final) (other : m.Ends outcome' final') :
    outcome = outcome' ∧ final = final' := by
  obtain ⟨fuel, ran⟩ := one
  obtain ⟨fuel', ran'⟩ := other
  have longer := run_add ran fuel'
  rw [Nat.add_comm, run_add ran' fuel] at longer
  simpa [eq_comm] using longer

theorem run_preceded (m : Machine) (earlier : Array Int) (fuel : Nat) :
    (m.preceded earlier).run fuel = ((m.run fuel).1, (m.run fuel).2.preceded earlier) := by
  induction fuel generalizing m with
  | zero => rfl
  | succ fuel ih =>
    unfold run
    rw [step_preceded]
    rcases m.step with ⟨fault | outcome, next⟩
    · rfl
    · cases outcome with
      | running => exact ih next
      | halted => rfl
      | awaitingInput => rfl

theorem SameState.outputs (same : SameState m m') : m.outputs = m'.outputs := by
  rw [same]

/-- Machines in the same state have runs that end in the same way and state. -/
theorem SameState.run (same : SameState m m') (fuel : Nat) :
    (m.run fuel).1 = (m'.run fuel).1 ∧ SameState (m.run fuel).2 (m'.run fuel).2 := by
  rw [same]
  cases fuel with
  | zero => exact ⟨rfl, rfl⟩
  | succ fuel =>
    unfold Machine.run
    rcases step_last m' m.last with stepped | ⟨fault, failed, failed'⟩
    · rw [stepped]
      exact ⟨rfl, rfl⟩
    · rw [failed, failed']
      exact ⟨rfl, rfl⟩

/-- A run that does not end for lack of an input is the same with more inputs behind its own. -/
theorem run_feed_of_settled (values : List Int) (ran : m.run fuel = (some outcome, final))
    (settled : outcome ≠ .ok .awaitingInput) :
    (m.feed values).run fuel = (some outcome, final.feed values) := by
  induction fuel generalizing m with
  | zero => simp [run] at ran
  | succ fuel ih =>
    unfold run at ran ⊢
    split at ran
    next next stepped =>
      simp only [step_feed stepped (by simp)]
      exact ih ran
    next next stepped =>
      cases ran
      simp only [step_feed stepped settled]
    next next stepped =>
      cases ran
      exact absurd rfl settled
    next fault next stepped =>
      cases ran
      simp only [step_feed stepped settled]

/-- A machine that would lack an input, had it not been fed more, takes so many steps up to that
point, and from there on does what the suspended machine does once it is fed. -/
theorem run_feed_of_waiting (values : List Int)
    (ran : m.run fuel = (some (.ok .awaitingInput), suspended)) :
    ∃ steps ≤ fuel, ∀ more,
      ((m.feed values).run (steps + more)).1 = ((suspended.feed values).run more).1 ∧
      SameState ((m.feed values).run (steps + more)).2 ((suspended.feed values).run more).2 := by
  induction fuel generalizing m with
  | zero => simp [run] at ran
  | succ fuel ih =>
    unfold run at ran
    split at ran
    next next stepped =>
      obtain ⟨steps, within, same⟩ := ih ran
      refine ⟨steps + 1, by omega, fun more => ?_⟩
      rw [Nat.add_right_comm]
      simp only [run, step_feed stepped (by simp)]
      exact same more
    next => simp at ran
    next next stepped =>
      cases ran
      obtain ⟨-, -, rfl⟩ := starved_of_step stepped
      have same : SameState (m.feed values) ({ m with last := some .awaitingInput }.feed values) :=
        rfl
      exact ⟨0, Nat.zero_le _, fun more => by rw [Nat.zero_add]; exact same.run more⟩
    next => simp at ran

/-- With fewer inputs a run ends no later. -/
theorem run_ends_of_feed (ran : (m.feed values).run fuel = (some outcome, final)) :
    ∃ outcome' final', m.run fuel = (some outcome', final') := by
  induction fuel generalizing m with
  | zero => simp [run] at ran
  | succ fuel ih =>
    rcases stepped : m.step with ⟨fault | outcome, next⟩
    · exact ⟨_, _, by simp [run, stepped]; exact ⟨rfl, rfl⟩⟩
    · cases outcome with
      | running =>
        simp only [run, step_feed stepped (by simp)] at ran
        simpa only [run, stepped] using ih ran
      | halted => exact ⟨_, _, by simp [run, stepped]; exact ⟨rfl, rfl⟩⟩
      | awaitingInput => exact ⟨_, _, by simp [run, stepped]; exact ⟨rfl, rfl⟩⟩

/-! ## Batches -/

@[simp] theorem feed_nil (m : Machine) : m.feed [] = m := by
  simp [feed]

/-- Feeding two batches at once, or the second one after the outputs were taken, makes no
difference but for these outputs. -/
theorem feed_append (m : Machine) (batch rest : List Int) :
    m.feed (batch ++ rest) = ((m.drained.feed batch).feed rest).preceded m.outputs := by
  simp [feed, drained, preceded]

/-- A run that returns when all inputs are there from the start gives the same outputs as one in
which they come batch by batch. -/
theorem serve_of_run {batches : List (List Int)} {result : Outcome}
    (ran : (m.feed batches.flatten).run fuel = (some (.ok result), final)) :
    m.serve fuel batches = some (.ok final.outputs.toList) := by
  induction batches generalizing m result final with
  | nil =>
    rw [List.flatten_nil, feed_nil] at ran
    unfold serve
    cases result <;> simp only [ran]
  | cons batch rest ih =>
    obtain ⟨outcome, reached, ran'⟩ := run_ends_of_feed ran
    by_cases settled : outcome = .ok .awaitingInput
    · subst settled
      obtain ⟨steps, within, same⟩ :=
        run_feed_of_waiting (batch :: rest).flatten ran'
      have resumed := same (fuel - steps)
      rw [Nat.add_sub_cancel' within, ran] at resumed
      rcases later : (reached.feed (batch :: rest).flatten).run (fuel - steps) with ⟨ended, stopped⟩
      rw [later] at resumed
      obtain ⟨rfl, state⟩ := resumed
      have taken : final.outputs = stopped.outputs := state.outputs
      have whole := run_add later steps
      rw [Nat.sub_add_cancel within, List.flatten_cons, feed_append, run_preceded] at whole
      rcases continued : ((reached.drained.feed batch).feed rest.flatten).run fuel with
        ⟨ended, left⟩
      rw [continued] at whole
      obtain ⟨rfl, rfl⟩ := Prod.mk.inj whole
      unfold serve
      simp only [ran', ih continued, Option.map_some, Except.map, taken]
      simp [preceded]
    · have unchanged := run_feed_of_settled (batch :: rest).flatten ran' settled
      rw [ran] at unchanged
      simp only [Prod.mk.injEq, Option.some.injEq] at unchanged
      obtain ⟨rfl, rfl⟩ := unchanged
      unfold serve
      cases result with
      | awaitingInput => exact absurd rfl settled
      | running => simp only [ran', feed]
      | halted => simp only [ran', feed]

end Intcode.Machine

namespace Intcode.Batch

variable {settings : Settings} {fuel : Nat} {program : Program} {inputs outputs cells : List Int}
  {budget : Option Int}

/-- The run of a machine behind a batch run that returned. -/
theorem run_of_ok
    (success : (run settings fuel program inputs budget).result = some (.ok outputs)) :
    ∃ cells outcome final, program.load = .ok cells ∧
      (Machine.ofCells settings cells { inputs, budget }).run fuel = (some (.ok outcome), final) ∧
      final.outputs.toList = outputs := by
  unfold run Machine.load at success
  cases loaded : program.load with
  | error fault => simp [loaded, Report.failure] at success
  | ok cells =>
    simp only [loaded, collect] at success
    rcases ran : (Machine.ofCells settings cells { inputs, budget }).run fuel with
      ⟨_ | fault | outcome, final⟩
    · simp [ran, Report.unfinished] at success
    · simp [ran, Report.failure] at success
    · refine ⟨cells, outcome, final, rfl, ran, ?_⟩
      cases outcome <;> simpa [ran, Report.answer] using success

/-- The run of a machine behind a batch run that failed, unless there is no program. -/
theorem run_of_error {fault : Fault} (loaded : program.load = .ok cells)
    (failed : (run settings fuel program inputs budget).result = some (.error fault)) :
    ∃ final, (Machine.ofCells settings cells { inputs, budget }).run fuel =
      (some (.error fault), final) := by
  simp only [run, Machine.load, loaded, collect] at failed
  rcases ran : (Machine.ofCells settings cells { inputs, budget }).run fuel with
    ⟨_ | cause | outcome, final⟩
  · simp [ran, Report.unfinished] at failed
  · simp only [ran, Report.failure, Option.some.injEq, Except.error.injEq] at failed
    exact ⟨final, by rw [failed]⟩
  · cases outcome <;> simp [ran, Report.answer] at failed

end Intcode.Batch

namespace Intcode.Machine

/-- The runs of a machine before and after it is fed, whatever state it is in. If it lacks an input,
feeding it earlier or then makes no difference to how it ends and in which state, or to its never
ending; if it halts or fails, it does so with the further inputs left over. A program that returns
on some inputs gives the same outputs when the inputs come in batches, the first of them from the
start and each other one at a suspension. -/
theorem run_feed_cases (m : Machine) (values : List Int) :
    (∀ suspended, m.Ends (.ok .awaitingInput) suspended →
      (m.feed values).Diverges ∧ (suspended.feed values).Diverges ∨
        ∃ outcome final final', (m.feed values).Ends outcome final ∧
          (suspended.feed values).Ends outcome final' ∧ final.SameState final') ∧
    (∀ stopped, m.Ends (.ok .halted) stopped →
      (m.feed values).Ends (.ok .halted) (stopped.feed values)) ∧
    (∀ fault stopped, m.Ends (.error fault) stopped →
      (m.feed values).Ends (.error fault) (stopped.feed values)) ∧
    ∀ (settings : Settings) (fuel : Nat) (program : Program) (first : List Int)
      (batches : List (List Int)) (budget : Option Int) (outputs : List Int),
      (Batch.run settings fuel program (first ++ batches.flatten) budget).result =
        some (.ok outputs) →
      ∃ fresh, load settings program { inputs := first, budget } = .ok fresh ∧
        fresh.serve fuel batches = some (.ok outputs) := by
  refine ⟨?_, ?_, ?_, ?_⟩
  · rintro suspended ⟨fuel, ran⟩
    obtain ⟨steps, -, same⟩ := run_feed_of_waiting values ran
    by_cases diverges : (suspended.feed values).Diverges
    · refine Or.inl ⟨fun more => ?_, diverges⟩
      rcases ended : (m.feed values).run more with ⟨_ | outcome, final⟩
      · rfl
      · have longer := (same more).1
        rw [Nat.add_comm, run_add ended steps, diverges more] at longer
        cases longer
    · obtain ⟨more, ended⟩ := Classical.not_forall.mp diverges
      rcases resumed : (suspended.feed values).run more with ⟨_ | outcome, final'⟩
      · rw [resumed] at ended
        exact absurd rfl ended
      · have state := same more
        rw [resumed] at state
        exact Or.inr ⟨outcome, ((m.feed values).run (steps + more)).2, final',
          ⟨steps + more, Prod.ext state.1 rfl⟩, ⟨more, resumed⟩, state.2⟩
  · rintro stopped ⟨fuel, ran⟩
    exact ⟨fuel, run_feed_of_settled values ran (by simp)⟩
  · rintro fault stopped ⟨fuel, ran⟩
    exact ⟨fuel, run_feed_of_settled values ran (by simp)⟩
  · intro settings fuel program first batches budget outputs returned
    obtain ⟨cells, outcome, final, loaded, ran, rfl⟩ := Batch.run_of_ok returned
    exact ⟨ofCells settings cells { inputs := first, budget }, by simp only [load, loaded],
      serve_of_run ran⟩

/-- Passes on two values, one after the other. -/
def passTwo : List Int :=
  [3, 9, 4, 9, 3, 9, 4, 9, 99, 0]

/-- The program lacks its second value, and then goes on in the same way whether it was fed before
or only now. -/
theorem run_feed_cases_passTwo :
    (∃ suspended outcome final final',
      (ofCells {} passTwo { inputs := [5] }).Ends (.ok .awaitingInput) suspended ∧
      ((ofCells {} passTwo { inputs := [5] }).feed [6]).Ends outcome final ∧
      (suspended.feed [6]).Ends outcome final' ∧ final.SameState final') ∧
    ∃ fresh, load {} (.image passTwo) { inputs := [5] } = .ok fresh ∧
      fresh.serve 9 [[6]] = some (.ok [5, 6]) := by
  obtain ⟨waits, -, -, batches⟩ := run_feed_cases (ofCells {} passTwo { inputs := [5] }) [6]
  constructor
  · have suspends : ((ofCells {} passTwo { inputs := [5] }).run 9).1 =
        some (.ok .awaitingInput) := rfl
    have halts : (((ofCells {} passTwo { inputs := [5] }).feed [6]).run 9).1 =
        some (.ok .halted) := rfl
    have ended : (ofCells {} passTwo { inputs := [5] }).Ends (.ok .awaitingInput)
        ((ofCells {} passTwo { inputs := [5] }).run 9).2 := ⟨9, Prod.ext suspends rfl⟩
    rcases waits _ ended with ⟨diverges, -⟩ | ⟨outcome, final, final', one, other, same⟩
    · have := diverges 9
      rw [halts] at this
      cases this
    · exact ⟨_, outcome, final, final', ended, one, other, same⟩
  · have returned : (Batch.run {} 9 (.image passTwo) ([5] ++ [[6]].flatten) none).result =
        some (.ok [5, 6]) := rfl
    exact batches {} 9 (.image passTwo) [5] [[6]] none [5, 6] returned

end Intcode.Machine
