import Intcode.Proofs.Network.Settling
import Intcode.Proofs.Pipeline.Sequence

/-!
# A chain never gets stuck

Whatever its stages do, a chain has finished or some stage or the relay is able to move: the relay
closes the channel of the first stage at once, and every stage closes the next channel on its way
out, however it ends. With a budget every stage comes to an end on any inputs. Then the outputs of
each stage, given those of the one before it at once, are a solution (`budget_solution`), and so all
schedules are bounded, the one that `concurrent` takes among them (`chain_progresses`).
-/
namespace Intcode.Pipeline

open Network

/-- The result of a pipeline is a signal, or the failure of one of its stages. -/
def Answers (stages : Nat) (result : Option (Except Fault (Option Int))) : Prop :=
  (∃ signal, result = some (.ok signal)) ∨
    ∃ k < stages, ∃ cause, result = some (.error (.stageFailed (stageName k) cause))

/-- All stages of a chain have ended, and the relay with a result. -/
structure Finished (phases : List Int) (n : Network) : Prop where
  stages : ∀ k < phases.length, ∃ a, n.agents[k]? = some (.amplifier a) ∧ a.activity = .ended
  relay : ∃ r, n.agents[phases.length]? = some (.relay r) ∧ r.activity = .ended
  answers : Answers phases.length (conclude .chain phases n).result

section

variable {settings : Settings} {cells phases : List Int} {signal : Int}

theorem Coherent.verdict_answers {wiring : Wiring} {start : Core} {moves : Moves} {n : Network}
    (coherent : Coherent wiring start phases signal moves n) :
    Answers phases.length (some (verdict n)) := by
  unfold verdict
  split
  next fault failed =>
    obtain ⟨agent, member, blamed⟩ := List.exists_of_findSome?_eq_some failed
    obtain ⟨k, there⟩ := List.mem_iff_getElem?.mp member
    rw [Array.getElem?_toList] at there
    have role := (coherent.serves k agent there).role
    cases agent with
    | amplifier a =>
      obtain ⟨within, name⟩ := role
      simp only [stageFailure?] at blamed
      split at blamed
      next cause _ =>
        split at blamed
        · cases blamed
        · cases blamed
          exact Or.inr ⟨k, within, cause, by rw [name]⟩
      · cases blamed
    | listener l => exact absurd role id
    | relay r => cases blamed
  · exact Or.inl ⟨_, rfl⟩

theorem Coherent.finished_of_atRest {start : Core} {moves : Moves} {n : Network}
    (coherent : Coherent .chain start phases signal moves n) (rest : n.AtRest) :
    Finished phases n := by
  have finished := coherent.chain_over rest
  refine ⟨?_, ?_, ?_⟩
  · intro k within
    obtain ⟨a, there, -⟩ := coherent.stage within
    exact ⟨a, there, coherent.stage_ended finished there⟩
  · obtain ⟨r, there, -⟩ := coherent.relay
    exact ⟨r, there, coherent.relay_ended finished there⟩
  · rw [conclude_result finished rfl]
    exact coherent.verdict_answers

/-- What each stage of a chain writes when it is given all that the stage before it writes. -/
def cascade (settings : Settings) (fuel : Nat) (cells phases : List Int) (signal : Int) :
    Nat → List Int
  | 0 => []
  | k + 1 =>
    ((Machine.ofCells settings cells
      { inputs := initially phases signal k ++ cascade settings fuel cells phases signal k }).run
        fuel).2.outputs.toList

/-- With a budget every stage comes to an end on any inputs, and so a chain has a solution. -/
theorem budget_solution {budget : Int} (limited : settings.maxSteps = some budget) :
    Nonempty (Solution .chain (startCore settings cells) phases signal) := by
  have ends : ∀ inputs, ∃ outcome final,
      (Machine.ofCells settings cells { inputs }).run (budget.toNat + 1) = (some outcome, final) :=
    fun inputs => Machine.run_ends_of_budget limited (by simp [Machine.ofCells])
  generalize streams : cascade settings (budget.toNat + 1) cells phases signal = stream
  have runs : ∀ k < phases.length, ∃ outcome final,
      stageRun settings (budget.toNat + 1) cells phases signal stream k = (some outcome, final) ∧
        final.outputs.toList = stream (k + 1) := by
    intro k _
    obtain ⟨outcome, final, ran⟩ := ends (initially phases signal k ++ stream k)
    refine ⟨outcome, final, ran, ?_⟩
    subst streams
    rw [cascade, ran]
  have closure : stream 0 = if Wiring.chain = .loop then stream phases.length else [] := by
    subst streams
    rfl
  obtain ⟨s, -⟩ := solution_of_runs runs closure
  exact ⟨s⟩

/-- If all schedules of a chain are bounded, the one that is taken when it is run ends in an
answer. -/
theorem exists_concurrent {program : Program} (nonempty : phases ≠ [])
    (loaded : program.load = .ok cells)
    (bounded : ∃ bound, ∀ moves n, (network .chain settings cells phases signal).Schedule moves n →
      moves.length ≤ bound) :
    ∃ fuel, Answers phases.length
      (concurrent .chain settings fuel program phases signal).result := by
  obtain ⟨bound, bounded⟩ := bounded
  obtain ⟨fuel, last, settled⟩ :=
    exists_settle bounded .rest (List.range (phases.length + 1))
  have queued : ∀ j, (network .chain settings cells phases signal).enabled j = true →
      j ∈ List.range (phases.length + 1) := by
    intro j able
    obtain ⟨agent, there⟩ := agent_of_enabled able
    have coherent := Coherent.init .chain settings cells phases signal nonempty
    exact List.mem_range.mpr (Nat.lt_succ_of_le (coherent.place there))
  obtain ⟨moves, schedule, rest⟩ := settle_atRest .rest queued settled
  refine ⟨fuel, ?_⟩
  have answers := ((coherent_of_schedule nonempty schedule).finished_of_atRest rest).answers
  simpa [concurrent, nonempty, loaded, settled] using answers

end

/-- At any time a chain has finished, with a signal or the failure of a stage, or some stage or the
relay is able to move. With a budget for its machines it makes only so many moves, in whatever
order, and so it always answers, also when its agents take turns. -/
theorem chain_progresses (settings : Settings) {program : Program} {cells phases : List Int}
    (signal : Int) (nonempty : phases ≠ []) (loaded : program.load = .ok cells) :
    (∀ moves n, Interleaving .chain settings program phases signal moves n →
      Finished phases n ∨ ∃ i, n.enabled i = true) ∧
    ∀ budget, settings.maxSteps = some budget →
      (∃ bound, ∀ moves n, Interleaving .chain settings program phases signal moves n →
        moves.length ≤ bound) ∧
      ∃ fuel, Answers phases.length
        (concurrent .chain settings fuel program phases signal).result := by
  constructor
  · rintro moves n ⟨cells, -, schedule⟩
    by_cases able : ∃ i, n.enabled i = true
    · exact Or.inr able
    · have rest : n.AtRest := fun i => Bool.eq_false_iff.mpr fun moves => able ⟨i, moves⟩
      exact Or.inl ((coherent_of_schedule nonempty schedule).finished_of_atRest rest)
  · intro budget limited
    obtain ⟨s⟩ : Nonempty (Solution .chain (startCore settings cells) phases signal) :=
      budget_solution limited
    obtain ⟨bound, bounded⟩ := s.schedule_bounded nonempty
    refine ⟨⟨bound, ?_⟩, exists_concurrent nonempty loaded ⟨bound, bounded⟩⟩
    rintro moves n ⟨cells', loaded', schedule⟩
    cases loaded.symm.trans loaded'
    exact bounded moves n schedule

/-- At phase 0 goes round in a circle; at any other phase reads a value and halts. -/
def roundabout : List Int :=
  [3, 9, 1006, 9, 2, 3, 9, 99, 0, 0]

/-- The first stage spends its budget and the second one waits in vain, and yet the chain ends. -/
theorem chain_progresses_roundabout :
    (∃ moves n, Interleaving .chain { maxSteps := some 20 } (.image roundabout) [0, 1] 7 moves n ∧
      n.AtRest ∧ Finished [0, 1] n) ∧
    ∃ fuel, Answers 2
      (concurrent .chain { maxSteps := some 20 } fuel (.image roundabout) [0, 1] 7).result := by
  have loaded : (Program.image roundabout).load = .ok roundabout := rfl
  obtain ⟨progress, limited⟩ :=
    chain_progresses { maxSteps := some 20 } 7 (List.cons_ne_nil 0 [1]) loaded
  obtain ⟨⟨bound, bounded⟩, answers⟩ := limited 20 rfl
  obtain ⟨moves, n, schedule, rest⟩ := exists_atRest
    fun moves now schedule => bounded moves now ⟨roundabout, loaded, schedule⟩
  have interleaving : Interleaving .chain { maxSteps := some 20 } (.image roundabout) [0, 1] 7
      moves n := ⟨roundabout, loaded, schedule⟩
  refine ⟨⟨moves, n, interleaving, rest, ?_⟩, answers⟩
  refine (progress moves n interleaving).resolve_right ?_
  rintro ⟨i, able⟩
  simp [rest i] at able

end Intcode.Pipeline
