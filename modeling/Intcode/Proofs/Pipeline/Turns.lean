import Intcode.Pipeline.Ring
import Intcode.Proofs.Machine.Runs

/-!
# Turns and passes of a ring

`Turn` says what one stage of a ring does in its turn, and `Sweep` what a whole pass does; the log
plays no part in either, and `pass_iff_sweep` ties them to `pass`. Each fact about a pass follows
from the same fact about a turn, stage by stage in the order of the list.
-/
namespace Intcode

/-- A run can only end by halting, or for lack of an input after the last one. -/
theorem Core.ending_ok {c : Core} {rest : List Int} {outcome : Outcome}
    (ended : c.ending rest = some (.ok outcome)) :
    (outcome = .halted ∧ c.act = .halt) ∨ (outcome = .awaitingInput ∧ c.AsksInput ∧ rest = []) := by
  unfold ending at ended
  split at ended
  · cases ended
  next acts =>
    cases ended
    exact Or.inl ⟨rfl, acts⟩
  next next acts =>
    cases ended
    exact Or.inr ⟨rfl, ⟨next, acts⟩, rfl⟩
  · split at ended <;> cases ended
  · cases ended
  · cases ended

/-- A machine with a core that halts takes no step. -/
theorem Machine.core_of_halt {m final : Machine} {fuel : Nat} {outcome : Except Fault Outcome}
    (halts : m.core.act = .halt) (ran : m.run fuel = (some outcome, final)) :
    final.core = m.core := by
  obtain ⟨reads, outputs, -, run, -, -, -⟩ := run_spec ran
  exact (run.stay_of_ending (Core.ending_of_halt halts) List.prefix_rfl).2.2.symm

namespace Pipeline

/-- Whether a turn did anything, from the machine before it and after it. -/
def hasMoved (before : Nat) (blocked : Machine) (stopped : Bool) : Bool :=
  !blocked.outputs.toList.isEmpty || stopped || blocked.steps != before

/-- The turn of a stage: what becomes of it, its outputs, and whether anything happened. -/
inductive Turn (fuel : Nat) (feederStopped : Bool) (handed : List Int) (stage : RingStage) :
    RingStage → List Int → Bool → Prop where
  | skipped (stopped : stage.stopped = true) :
      Turn fuel feederStopped handed stage ⟨stage.machine.feed handed, true⟩ [] false
  | taken {outcome : Outcome} {blocked : Machine} (going : stage.stopped = false)
      (ran : (stage.machine.feed handed).run fuel = (some (.ok outcome), blocked)) :
      Turn fuel feederStopped handed stage ⟨blocked.drained, blocked.halted || feederStopped⟩
        blocked.outputs.toList
        (hasMoved stage.machine.steps blocked (blocked.halted || feederStopped))

/-- The turns of several stages: what becomes of them, the outputs of the last one, and whether
anything happened. -/
inductive Sweep (fuel : Nat) : Bool → List Int → List RingStage → List RingStage → List Int →
    Bool → Prop where
  | nil {feederStopped : Bool} {handed : List Int} :
      Sweep fuel feederStopped handed [] [] handed false
  | cons {feederStopped moved progressed : Bool} {handed outputs tail : List Int}
      {stage stage' : RingStage} {rest rest' : List RingStage}
      (turn : Turn fuel feederStopped handed stage stage' outputs moved)
      (later : Sweep fuel stage'.stopped outputs rest rest' tail progressed) :
      Sweep fuel feederStopped handed (stage :: rest) (stage' :: rest') tail (moved || progressed)

theorem passFrom_of_sweep {fuel : Nat} {feederStopped moved : Bool} {handed tail : List Int}
    {stages after : List RingStage}
    (sweep : Sweep fuel feederStopped handed stages after tail moved) (progressed : Bool)
    (done : List RingStage) (log : Log) :
    (passFrom fuel feederStopped handed progressed done stages log).result =
      some (.ok ⟨done.reverse ++ after, tail, progressed || moved⟩) := by
  induction sweep generalizing progressed done log with
  | nil => simp [passFrom, Report.answer]
  | cons turn _ ih =>
    cases turn with
    | skipped stopped =>
      simp only [passFrom, stopped, ↓reduceIte]
      rw [ih]
      simp
    | taken going ran =>
      simp only [passFrom, going, Bool.false_eq_true, ↓reduceIte, ran]
      rw [ih]
      simp [Machine.feed, hasMoved, Bool.or_assoc]

theorem sweep_of_passFrom {fuel : Nat} {feederStopped progressed : Bool} {handed : List Int}
    {done stages : List RingStage} {log : Log} {swept : Pass}
    (passed : (passFrom fuel feederStopped handed progressed done stages log).result =
      some (.ok swept)) :
    ∃ after moved, Sweep fuel feederStopped handed stages after swept.tail moved ∧
      swept.stages = done.reverse ++ after ∧ swept.progressed = (progressed || moved) := by
  induction stages generalizing feederStopped progressed handed done log with
  | nil =>
    simp only [passFrom, Report.answer, Option.some.injEq, Except.ok.injEq] at passed
    subst passed
    exact ⟨[], false, .nil, by simp, by simp⟩
  | cons stage rest ih =>
    cases stopped : stage.stopped with
    | true =>
      simp only [passFrom, stopped, ↓reduceIte] at passed
      obtain ⟨after, moved, sweep, stages, progress⟩ := ih passed
      refine ⟨_, _, .cons (.skipped stopped) sweep, ?_, ?_⟩
      · simpa using stages
      · simpa using progress
    | false =>
      simp only [passFrom, stopped, Bool.false_eq_true, ↓reduceIte] at passed
      rcases ran : (stage.machine.feed handed).run fuel with ⟨_ | fault | outcome, blocked⟩
      · simp [ran, Report.unfinished] at passed
      · simp [ran, Report.failure] at passed
      · simp only [ran] at passed
        obtain ⟨after, moved, sweep, stages, progress⟩ := ih passed
        refine ⟨_, _, .cons (.taken stopped ran) sweep, ?_, ?_⟩
        · simpa using stages
        · simpa [Machine.feed, hasMoved, Bool.or_assoc] using progress

/-- A pass is a sweep over all stages. -/
theorem pass_iff_sweep {fuel : Nat} {stages : List RingStage} {log : Log} {swept : Pass} :
    (pass fuel stages log).result = some (.ok swept) ↔
      Sweep fuel (tailStopped stages) [] stages swept.stages swept.tail swept.progressed := by
  constructor
  · intro passed
    obtain ⟨after, moved, sweep, stages, progress⟩ := sweep_of_passFrom passed
    rw [stages, progress]
    exact sweep
  · intro sweep
    exact passFrom_of_sweep sweep false [] log

/-- What a pass fails with is an execution fault of a stage. -/
theorem passFrom_error {fuel : Nat} {feederStopped progressed : Bool} {handed : List Int}
    {done stages : List RingStage} {log : Log} {fault : Fault}
    (failed : (passFrom fuel feederStopped handed progressed done stages log).result =
      some (.error fault)) : fault.isExecutionFault := by
  induction stages generalizing feederStopped progressed handed done log with
  | nil => simp [passFrom, Report.answer] at failed
  | cons stage rest ih =>
    simp only [passFrom] at failed
    split at failed
    · exact ih failed
    · split at failed
      · simp [Report.unfinished] at failed
      next ran =>
        cases failed
        exact Machine.run_error ran
      · exact ih failed

/-! ## What a machine was given and has written -/

/-- A machine was given the listed inputs in all, and has handed on the listed outputs. -/
structure Ran (start : Core) (given written : List Int) (m : Machine) : Prop where
  run : ∃ reads, given = reads ++ m.inputs ∧ start.Runs reads written m.core
  drained : m.outputs = #[]

section

variable {fuel : Nat} {feederStopped moved : Bool} {handed outputs tail : List Int}
  {stage stage' : RingStage} {stages after : List RingStage} {start : Core}
  {given written : List Int}

theorem Ran.feed {m : Machine} (ran : Ran start given written m) (values : List Int) :
    Ran start (given ++ values) written (m.feed values) := by
  obtain ⟨⟨reads, split, run⟩, drained⟩ := ran
  refine ⟨⟨reads, ?_, run⟩, drained⟩
  rw [split, List.append_assoc]
  rfl

theorem Ran.after_run {m blocked : Machine} {outcome : Except Fault Outcome}
    (before : Ran start given written m) (ran : m.run fuel = (some outcome, blocked)) :
    Ran start given (written ++ blocked.outputs.toList) blocked.drained := by
  obtain ⟨⟨reads, split, run⟩, drained⟩ := before
  obtain ⟨more, outputs, rest, path, emitted, -, -⟩ := Machine.run_spec ran
  rw [drained, List.nil_append] at emitted
  refine ⟨⟨reads ++ more, ?_, ?_⟩, rfl⟩
  · rw [split, rest, List.append_assoc]
    rfl
  · rw [emitted]
    exact run.trans path

theorem Turn.ran (turn : Turn fuel feederStopped handed stage stage' outputs moved)
    (before : Ran start given written stage.machine) :
    Ran start (given ++ handed) (written ++ outputs) stage'.machine := by
  cases turn with
  | skipped stopped => simpa using before.feed handed
  | taken going ran => exact (before.feed handed).after_run ran

/-- A pass feeds every stage what the stage before it has written. The streams are those of the
first listed stage, at position `j`, and of all that come after it. -/
theorem Sweep.ran {initial : Nat → List Int} {stream : Nat → List Int} {j : Nat}
    (sweep : Sweep fuel feederStopped handed stages after tail moved)
    (before : ∀ i stage, stages[i]? = some stage →
      Ran start (initial (j + i) ++ stream (j + i)) (stream (j + i + 1)) stage.machine) :
    ∃ stream' : Nat → List Int, stream' j = stream j ++ handed ∧
      stream' (j + stages.length) = stream (j + stages.length) ++ tail ∧
      ∀ i stage, after[i]? = some stage →
        Ran start (initial (j + i) ++ stream' (j + i)) (stream' (j + i + 1)) stage.machine := by
  induction sweep generalizing stream j with
  | @nil _ handed => exact ⟨fun k => stream k ++ handed, rfl, rfl, by simp⟩
  | @cons _ _ _ handed outputs tail stage stage' rest rest' turn later ih =>
    have shifted : ∀ i stage, rest[i]? = some stage →
        Ran start (initial (j + 1 + i) ++ stream (j + 1 + i)) (stream (j + 1 + i + 1))
          stage.machine := by
      intro i stage there
      have later := before (i + 1) stage there
      rwa [show j + (i + 1) = j + 1 + i by omega] at later
    obtain ⟨stream', first, last, after⟩ := ih shifted
    refine ⟨fun k => if k = j then stream j ++ handed else stream' k, by simp, ?_, ?_⟩
    · rw [List.length_cons, show j + (rest.length + 1) = j + 1 + rest.length by omega]
      dsimp only
      rw [if_neg (by omega)]
      exact last
    · intro i stage there
      cases i with
      | zero =>
        cases Option.some.inj there
        simp only [Nat.add_zero, ↓reduceIte]
        rw [if_neg (by omega), first, ← List.append_assoc]
        exact turn.ran (before 0 _ rfl)
      | succ i =>
        have found := after i stage there
        dsimp only
        rw [if_neg (by omega), if_neg (by omega)]
        rwa [show j + 1 + i = j + (i + 1) by omega] at found

/-! ## Who has stopped, and why -/

/-- Every stage that has stopped is at its end, or lacks an input that nobody will give it: the
stage that feeds it has stopped too. `feederStopped` says so of the first listed stage. -/
def Orderly (feederStopped : Bool) : List RingStage → Prop
  | [] => True
  | stage :: rest =>
    (stage.stopped = true → stage.machine.core.act = .halt ∨
      stage.machine.core.AsksInput ∧ stage.machine.inputs = [] ∧ feederStopped = true) ∧
    (stage.stopped = false → stage.machine.halted = false) ∧ Orderly stage.stopped rest

theorem Orderly.mono {later : Bool} (orderly : Orderly feederStopped stages)
    (also : feederStopped = true → later = true) : Orderly later stages := by
  cases stages with
  | nil => trivial
  | cons stage rest =>
    obtain ⟨why, running, rest⟩ := orderly
    refine ⟨?_, running, rest⟩
    intro stopped
    rcases why stopped with halts | ⟨asks, none, feeder⟩
    · exact Or.inl halts
    · exact Or.inr ⟨asks, none, also feeder⟩

/-- How a stage stands after a turn that it has taken. -/
theorem blocked_of_run {m blocked : Machine} {outcome : Outcome}
    (ran : m.run fuel = (some (.ok outcome), blocked)) :
    (blocked.halted = true ∧ blocked.core.act = .halt) ∨
      (blocked.halted = false ∧ blocked.core.AsksInput ∧ blocked.inputs = []) := by
  obtain ⟨-, -, -, -, -, ended, last⟩ := Machine.run_spec ran
  rcases Core.ending_ok ended with ⟨rfl, halts⟩ | ⟨rfl, asks, none⟩
  · exact Or.inl ⟨by simp [Machine.halted, last _ rfl], halts⟩
  · exact Or.inr ⟨by simp [Machine.halted, last _ rfl], asks, none⟩

/-- A pass leaves the stages orderly. A stage that had stopped before is handed nothing. -/
theorem Sweep.orderly {before : Bool}
    (sweep : Sweep fuel feederStopped handed stages after tail moved)
    (orderly : Orderly before stages) (remains : before = true → feederStopped = true)
    (silent : before = true → handed = []) : Orderly feederStopped after := by
  induction sweep generalizing before with
  | nil => trivial
  | cons turn later ih =>
    obtain ⟨why, running, rest⟩ := orderly
    cases turn with
    | skipped stopped =>
      refine ⟨?_, by simp, ih rest (fun _ => rfl) (fun _ => rfl)⟩
      intro _
      rcases why stopped with halts | ⟨asks, none, feeder⟩
      · exact Or.inl halts
      · exact Or.inr ⟨asks, by simp [Machine.feed, none, silent feeder], remains feeder⟩
    | taken going ran =>
      refine ⟨?_, ?_, ih rest (by simp [going]) (by simp [going])⟩
      · intro stopped
        rcases blocked_of_run ran with ⟨-, halts⟩ | ⟨running, asks, none⟩
        · exact Or.inl halts
        · exact Or.inr ⟨asks, none, by simpa [running] using stopped⟩
      · intro going
        exact (Bool.or_eq_false_iff.mp going).1

/-- After a stage that has stopped, all others stop in the same pass. -/
theorem Sweep.all_stopped (sweep : Sweep fuel true handed stages after tail moved) :
    ∀ stage ∈ after, stage.stopped = true := by
  generalize always : true = feeder at sweep
  induction sweep with
  | nil => simp
  | cons turn later ih =>
    subst always
    cases turn with
    | skipped stopped => simpa using ih rfl
    | taken going ran => simpa using ih (by simp)

/-- In a pass after which some stage goes on, the feeder of the first one has not stopped. -/
theorem Sweep.feeder_going (sweep : Sweep fuel feederStopped handed stages after tail moved)
    (going : after.all (·.stopped) = false) : feederStopped = false := by
  cases feederStopped with
  | false => rfl
  | true =>
    have all := List.all_eq_true.mpr sweep.all_stopped
    cases all.symm.trans going

/-- The last stage hands on nothing in a pass, if it had stopped before. -/
theorem Sweep.tail_silent (sweep : Sweep fuel feederStopped handed stages after tail moved)
    (nothing : stages = [] → handed = []) (stopped : stages ≠ [] → tailStopped stages = true) :
    tail = [] := by
  induction sweep with
  | nil => exact nothing rfl
  | @cons _ _ _ _ _ _ stage _ rest _ turn later ih =>
    refine ih ?_ ?_
    · intro last
      subst last
      cases turn with
      | skipped _ => rfl
      | taken going _ => simp [tailStopped, going] at stopped
    · intro more
      have := stopped (by simp)
      rwa [tailStopped, List.getLast?_cons_of_ne_nil more] at this

theorem Sweep.length_eq (sweep : Sweep fuel feederStopped handed stages after tail moved) :
    after.length = stages.length := by
  induction sweep with
  | nil => rfl
  | cons _ _ ih => simp [ih]

/-- A stage at its end stays there. -/
theorem Sweep.halts (sweep : Sweep fuel feederStopped handed stages after tail moved)
    (halts : ∃ stage ∈ stages, stage.machine.core.act = .halt) :
    ∃ stage ∈ after, stage.machine.core.act = .halt := by
  induction sweep with
  | nil => simp at halts
  | @cons _ _ _ _ _ _ stage stage' rest rest' turn later ih =>
    simp only [List.mem_cons, exists_eq_or_imp] at halts ⊢
    refine halts.imp ?_ ih
    intro halts
    cases turn with
    | skipped _ => exact halts
    | taken _ ran =>
      have same := Machine.core_of_halt (m := stage.machine.feed _) halts ran
      simpa [same] using halts

/-- The first stage to stop in a pass is at its end. -/
theorem Sweep.stopped_halts (sweep : Sweep fuel feederStopped handed stages after tail moved)
    (stopped : ∃ stage ∈ after, stage.stopped = true) :
    feederStopped = true ∨ (∃ stage ∈ stages, stage.stopped = true) ∨
      ∃ stage ∈ after, stage.machine.core.act = .halt := by
  induction sweep with
  | nil => simp at stopped
  | cons turn later ih =>
    simp only [List.mem_cons, exists_eq_or_imp] at stopped ⊢
    cases turn with
    | skipped before => exact Or.inr (Or.inl (Or.inl before))
    | @taken outcome blocked going ran =>
      rcases blocked_of_run ran with ⟨-, halts⟩ | ⟨running, -, -⟩
      · exact Or.inr (Or.inr (Or.inl halts))
      · simp only [running, Bool.false_or] at stopped ih ⊢
        rcases stopped with feeder | later
        · exact Or.inl feeder
        · rcases ih later with feeder | before | halts
          · exact Or.inl feeder
          · exact Or.inr (Or.inl (Or.inr before))
          · exact Or.inr (Or.inr (Or.inr halts))

/-! ## Passes in which nothing happens -/

end

end Pipeline

end Intcode
