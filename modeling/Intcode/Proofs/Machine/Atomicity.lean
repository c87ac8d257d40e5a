import Intcode.Proofs.Machine.InPlace
import Intcode.Proofs.Machine.Runs

/-!
# Failing changes nothing

A step that fails leaves the machine as it was, also when it is carried out in place. So a run that
fails leaves the machine that its last executed instruction left, and fails in the same way when it
is tried again (`unchanged_of_failure`). `Stops` says how many instructions a run executes, and
which step ends it.
-/
namespace Intcode.Machine

/-- The machine executes so many instructions, and the step after the last of them ends the run. -/
structure Stops (m : Machine) (count : Nat) (last : Machine) (outcome : Except Fault Outcome)
    (final : Machine) : Prop where
  reached : m.after count = some last
  stepped : last.step = (outcome, final)
  ended : outcome ≠ .ok .running

variable {m last final : Machine} {count fuel : Nat} {outcome : Except Fault Outcome}

/-- A run goes on from the state that its first instructions lead to. -/
theorem run_of_after (reached : m.after count = some last) (fuel : Nat) :
    m.run (count + fuel) = last.run fuel := by
  induction count generalizing m with
  | zero =>
    cases reached
    rw [Nat.zero_add]
  | succ count ih =>
    unfold after at reached
    split at reached
    next next running =>
      rw [Nat.add_right_comm, run, running]
      exact ih reached
    · cases reached

/-- A step that does not execute an instruction ends a run. -/
theorem run_of_step (stepped : m.step = (outcome, final)) (ended : outcome ≠ .ok .running)
    (fuel : Nat) : m.run (fuel + 1) = (some outcome, final) := by
  rw [run, stepped]
  rcases outcome with fault | outcome
  · rfl
  · cases outcome with
    | running => exact absurd rfl ended
    | halted => rfl
    | awaitingInput => rfl

theorem stops_of_run (ran : m.run fuel = (some outcome, final)) :
    ∃ count < fuel, ∃ last, m.Stops count last outcome final := by
  induction fuel generalizing m with
  | zero => simp [Machine.run] at ran
  | succ fuel ih =>
    rcases stepped : m.step with ⟨answer, next⟩
    by_cases running : answer = .ok .running
    · subst running
      rw [Machine.run, stepped] at ran
      obtain ⟨count, within, last, reached, stepped', ended⟩ := ih ran
      refine ⟨count + 1, Nat.succ_lt_succ within, last, ?_, stepped', ended⟩
      rw [after, stepped]
      exact reached
    · rw [run_of_step stepped running] at ran
      cases ran
      exact ⟨0, Nat.succ_pos _, m, rfl, stepped, running⟩

theorem unchanged_of_execute {fault : Fault} {left : Machine}
    (failed : m.execute = (.error fault, left)) : left = m := by
  unfold execute at failed
  split at failed
  · cases failed
    rfl
  · split at failed
    · cases failed
    · split at failed
      · cases failed
        rfl
      · cases failed

/-- A failure changes nothing, whatever the state of the machine. A step in place comes to the same
as `step`, and an instruction in place to the same as `execute`; where they fail, the machine is the
one from before. A run that fails leaves the machine that it has reached by executing so many
instructions, with the outputs of all of them behind those from before and with all inputs that it
has not read. Run again, the machine fails in the same way and stays as it is. -/
theorem unchanged_of_failure (m : Machine) :
    Action.step.run m = m.step ∧ Action.execute.run m = m.execute ∧
    (∀ fault left, m.step = (.error fault, left) → left = m) ∧
    (∀ fault left, m.execute = (.error fault, left) → left = m) ∧
    ∀ fuel fault final, m.run fuel = (some (.error fault), final) →
      (∃ count, m.after count = some final) ∧ final.step = (.error fault, final) ∧
      (∃ reads outputs, m.core.Runs reads outputs final.core ∧
        m.inputs = reads ++ final.inputs ∧
        final.outputs.toList = m.outputs.toList ++ outputs) ∧
      ∀ again, final.run (again + 1) = (some (.error fault), final) := by
  refine ⟨Action.step_eq m, Action.execute_eq m, fun _ _ => unchanged_of_step,
    fun _ _ => unchanged_of_execute, ?_⟩
  intro fuel fault final ran
  obtain ⟨count, -, last, reached, failed, -⟩ := stops_of_run ran
  cases unchanged_of_step failed
  obtain ⟨reads, outputs, given, path, written, -⟩ := run_spec ran
  exact ⟨⟨count, reached⟩, failed, ⟨reads, outputs, path, given, written⟩,
    run_of_step failed (by simp)⟩

/-- Gives out a number, and then has an input that it cannot store. -/
def misplaced : List Int :=
  [104, 7, 3, -1]

/-- The input is still there after the failure, and so is the output from before. -/
theorem unchanged_of_failure_misplaced :
    ∃ final, (ofCells {} misplaced { inputs := [5] }).run 9 =
        (some (.error (.negativeAddress (-1) 2)), final) ∧
      final.inputs = [5] ∧ final.outputs = #[7] ∧
      ∀ again, final.run (again + 1) = (some (.error (.negativeAddress (-1) 2)), final) := by
  obtain ⟨final, ran, inputs, outputs⟩ :
      ∃ final, (ofCells {} misplaced { inputs := [5] }).run 9 =
          (some (.error (.negativeAddress (-1) 2)), final) ∧
        final.inputs = [5] ∧ final.outputs = #[7] := ⟨_, rfl, rfl, rfl⟩
  obtain ⟨-, -, -, -, runs⟩ := unchanged_of_failure (ofCells {} misplaced { inputs := [5] })
  obtain ⟨-, -, -, again⟩ := runs 9 _ final ran
  exact ⟨final, ran, inputs, outputs, again⟩

end Intcode.Machine
