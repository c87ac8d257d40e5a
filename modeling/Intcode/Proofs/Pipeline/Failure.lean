import Intcode.Proofs.Batch
import Intcode.Proofs.Pipeline.Rest

/-!
# Which failures a pipeline reports

A stage fails when its machine cannot execute an instruction. `Network.Raises` says that this has
happened in the course of a schedule, whatever has become of it afterwards. An amplifier keeps the
fault if it is one of the interpreter, and from then on only closes its channels. So nobody waits
for it, and a pipeline that is over names the first stage with such a fault. A fault of the
allocator leaves no trace, and neither does one that is too long to be worded: the stage looks as
if it had come to the end of its input, and the pipeline returns a signal.
-/
namespace Intcode

namespace Amplifier

variable {a next : Amplifier} {deed : Deed} {fault : Fault}

/-- The amplifier is on its way out, or has ended. -/
def IsLeaving (a : Amplifier) : Prop :=
  a.activity = .closingInbound ∨ a.activity = .closingOutbound ∨ a.activity = .ended

/-- An amplifier on its way out keeps the fault that it has. -/
theorem Moves.leaving (moves : a.Moves deed next) (leaving : a.IsLeaving) :
    next.IsLeaving ∧ next.error = a.error := by
  cases moves with
  | closeInbound now => exact ⟨Or.inr (Or.inl rfl), rfl⟩
  | closeOutbound now => exact ⟨Or.inr (Or.inr rfl), rfl⟩
  | _ now => simp [IsLeaving, now] at leaving

/-- An amplifier whose machine fails is on its way out, with the fault if it is one that is kept. -/
theorem Moves.of_failed {stepped : Machine} (moves : a.Moves deed next)
    (executes : a.activity = .executing) (failed : a.machine.step = (.error fault, stepped)) :
    next.IsLeaving ∧ next.error = (keptFault fault).or a.error := by
  cases moves with
  | fault now raised =>
    rw [failed] at raised
    cases raised
    exact ⟨Or.inl rfl, rfl⟩
  | run now raised => simp [failed] at raised
  | halt now raised => simp [failed] at raised
  | flush now raised => simp [failed] at raised
  | _ now => simp [executes] at now

/-- A fault that an amplifier has was there before, or is a refusal, or comes from an instruction
that could not be executed. -/
theorem Moves.error_cases (moves : a.Moves deed next) (failed : next.error = some fault) :
    a.error = some fault ∨ fault.isChannelClosed = true ∨
      a.activity = .executing ∧ ∃ stepped, a.machine.step = (.error fault, stepped) := by
  cases moves with
  | @fault stepped cause now raised =>
    by_cases kept : cause.isInterpreterFault
    · simp only [keptFault, kept, ↓reduceIte, Option.some_or, Option.some.injEq] at failed
      exact Or.inr (Or.inr ⟨now, stepped, failed ▸ raised⟩)
    · simp only [keptFault, kept, Bool.false_eq_true, ↓reduceIte, Option.none_or] at failed
      exact Or.inl failed
  | refuse now =>
    cases failed
    exact Or.inr (Or.inl rfl)
  | _ now => exact Or.inl failed

end Amplifier

namespace Network

/-- In the course of the listed moves, the machine of the amplifier with a number failed to execute
an instruction. -/
inductive Raises (n : Network) (k : Nat) (fault : Fault) : Moves → Network → Prop where
  | now {moves : Moves} {now : Network} {a : Amplifier} {stepped : Machine}
      (before : n.Schedule moves now) (able : now.enabled k = true)
      (there : now.agents[k]? = some (.amplifier a)) (executes : a.activity = .executing)
      (failed : a.machine.step = (.error fault, stepped)) :
      Raises n k fault (moves ++ [(k, (now.advance k).deed)]) (now.advance k).network
  | later {moves : Moves} {now : Network} {i : Nat} (before : Raises n k fault moves now)
      (able : now.enabled i = true) :
      Raises n k fault (moves ++ [(i, (now.advance i).deed)]) (now.advance i).network

theorem Raises.schedule {n now : Network} {k : Nat} {fault : Fault} {moves : Moves}
    (raised : n.Raises k fault moves now) : n.Schedule moves now := by
  induction raised with
  | now before able => exact before.move able
  | later _ able ih => exact ih.move able

theorem Raises.replay {n₀ n n' : Network} {k : Nat} {fault : Fault} {order : List Nat}
    {moves moves' : Moves} (raised : n₀.Raises k fault moves n)
    (replayed : Network.replay order moves n = some (moves', n')) :
    n₀.Raises k fault moves' n' := by
  induction order generalizing moves n with
  | nil =>
    cases replayed
    exact raised
  | cons i rest ih =>
    simp only [Network.replay] at replayed
    split at replayed
    next able => exact ih (raised.later able) replayed
    · cases replayed

theorem Raises.isExecutionFault {n now : Network} {k : Nat} {fault : Fault} {moves : Moves}
    (raised : n.Raises k fault moves now) : fault.isExecutionFault := by
  induction raised with
  | now _ _ _ _ failed => exact Machine.step_error failed
  | later _ _ ih => exact ih

end Network

namespace Pipeline

open Network

/-- After a move, a stage is as it was, or it has made the move itself. -/
theorem Coherent.stage_moved {wiring : Wiring} {start : Core} {phases : List Int} {signal : Int}
    {moves : Moves} {n : Network} {i k : Nat} {next : Amplifier}
    (coherent : Coherent wiring start phases signal moves n) (able : n.enabled i = true)
    (there : (n.advance i).network.agents[k]? = some (.amplifier next)) :
    k ≠ i ∧ n.agents[k]? = some (.amplifier next) ∨
      k = i ∧ ∃ a, n.agents[k]? = some (.amplifier a) ∧ a.Moves (n.advance i).deed next := by
  obtain ⟨agent, before, -, moved, -⟩ := coherent.moved able
  rw [advance_agents before] at there
  by_cases own : k = i
  · subst own
    rw [if_pos rfl] at there
    rw [Option.some.inj there] at moved
    cases moved with
    | amplifier moved => exact Or.inr ⟨rfl, _, before, moved⟩
  · rw [if_neg own] at there
    exact Or.inl ⟨own, there⟩

section Stages

variable {wiring : Wiring} {settings : Settings} {cells phases : List Int} {signal : Int}
  {moves : Moves} {n : Network} {k : Nat} {fault : Fault}

/-- A stage that has failed is on its way out or has ended, with the fault if it is one that is
kept. -/
theorem error_of_raises {a : Amplifier} (nonempty : phases ≠ [])
    (raised : (network wiring settings cells phases signal).Raises k fault moves n)
    (there : n.agents[k]? = some (.amplifier a)) :
    a.IsLeaving ∧ a.error = Amplifier.keptFault fault := by
  induction raised generalizing a with
  | @now moves now b stepped before able standing executes failed =>
    have coherent := coherent_of_schedule nonempty before
    have clean : b.error = none := by
      obtain ⟨-, -, -, reads, unsent, -, stands⟩ := coherent.serves k _ standing
      simp only [Amplifier.Stands, executes] at stands
      exact stands.1.clean
    rcases coherent.stage_moved able there with ⟨apart, -⟩ | ⟨-, c, standing', moved⟩
    · exact absurd rfl apart
    · cases standing.symm.trans standing'
      obtain ⟨leaving, kept⟩ := moved.of_failed executes failed
      rw [clean, Option.or_none] at kept
      exact ⟨leaving, kept⟩
  | @later moves now i raised able ih =>
    have coherent := coherent_of_schedule nonempty raised.schedule
    rcases coherent.stage_moved able there with ⟨-, same⟩ | ⟨-, b, before, moved⟩
    · exact ih same
    · obtain ⟨leaving, kept⟩ := ih before
      obtain ⟨leaving, same⟩ := moved.leaving leaving
      exact ⟨leaving, same.trans kept⟩

/-- A stage that has a fault other than a refusal has failed with it. -/
theorem raises_of_error {a : Amplifier} (nonempty : phases ≠ [])
    (schedule : (network wiring settings cells phases signal).Schedule moves n)
    (there : n.agents[k]? = some (.amplifier a)) (kept : a.error = some fault)
    (own : fault.isChannelClosed = false) :
    (network wiring settings cells phases signal).Raises k fault moves n := by
  induction schedule generalizing a with
  | rest =>
    have member := Array.mem_of_getElem? there
    obtain ⟨i, -, rfl⟩ : ∃ i < phases.length, stageAmplifier settings cells i = a := by
      simpa [network] using member
    cases kept
  | @move moves now i before able ih =>
    have coherent := coherent_of_schedule nonempty before
    rcases coherent.stage_moved able there with ⟨-, same⟩ | ⟨rfl, b, standing, moved⟩
    · exact (ih same kept).later able
    · rcases moved.error_cases kept with already | refused | ⟨executes, stepped, failed⟩
      · exact (ih standing already).later able
      · simp [own] at refused
      · exact .now before able standing executes failed

theorem place_of_raises (nonempty : phases ≠ [])
    (raised : (network wiring settings cells phases signal).Raises k fault moves n) :
    k < phases.length := by
  induction raised with
  | now before _ there =>
    exact ((coherent_of_schedule nonempty before).serves k _ there).role.1
  | later _ _ ih => exact ih

/-- A pipeline at rest with a failed stage is over. -/
theorem isOver_of_raises (nonempty : phases ≠ [])
    (raised : (network wiring settings cells phases signal).Raises k fault moves n)
    (rest : n.AtRest) : isOver n = true := by
  have coherent := coherent_of_schedule nonempty raised.schedule
  obtain ⟨a, there, -⟩ := coherent.stage (place_of_raises nonempty raised)
  have leaving := (error_of_raises nonempty raised there).1
  rcases coherent.loop_rest rest with finished | waits
  · exact finished
  · have looking := (Amplifier.awaits_iff.mp (waits k _ there).2.awaits).1
    simp [Amplifier.IsLeaving, looking] at leaving

/-- The failure of a stage that a pipeline answers for is one of its machine, and a fault of the
interpreter. -/
theorem raises_of_stageFailure {a : Amplifier} {failure : Fault} (nonempty : phases ≠ [])
    (schedule : (network wiring settings cells phases signal).Schedule moves n)
    (there : n.agents[k]? = some (.amplifier a))
    (failed : stageFailure? (.amplifier a) = some failure) :
    ∃ fault, (network wiring settings cells phases signal).Raises k fault moves n ∧
      fault.isInterpreterFault = true := by
  cases kept : a.error with
  | none => simp [stageFailure?, kept] at failed
  | some fault =>
    have own : fault.isChannelClosed = false := by
      cases closed : fault.isChannelClosed with
      | false => rfl
      | true => simp [stageFailure?, kept, closed] at failed
    have raised := raises_of_error nonempty schedule there kept own
    refine ⟨fault, raised, ?_⟩
    have keeps := (error_of_raises nonempty raised there).2
    rw [kept, Amplifier.keptFault] at keeps
    split at keeps
    next interpreter => exact interpreter
    · cases keeps

/-- The first stage that failed with a fault of the interpreter is the one that a pipeline names. -/
theorem verdict_of_first_raised (nonempty : phases ≠ [])
    (raised : (network wiring settings cells phases signal).Raises k fault moves n)
    (kept : fault.isInterpreterFault = true)
    (before : ∀ j < k, ∀ cause,
      (network wiring settings cells phases signal).Raises j cause moves n →
        cause.isInterpreterFault = false) :
    verdict n = .error (.stageFailed (stageName k) fault) := by
  have coherent := coherent_of_schedule nonempty raised.schedule
  obtain ⟨a, there, -⟩ := coherent.stage (place_of_raises nonempty raised)
  have error : a.error = some fault := by
    rw [(error_of_raises nonempty raised there).2, Amplifier.keptFault, if_pos kept]
  refine coherent.verdict_error there error
    (Fault.isChannelClosed_of_isExecutionFault raised.isExecutionFault) ?_
  intro j earlier b standing
  cases failed : stageFailure? (.amplifier b) with
  | none => rfl
  | some failure =>
    obtain ⟨cause, raised', kept'⟩ :=
      raises_of_stageFailure nonempty raised.schedule standing failed
    cases kept'.symm.trans (before j earlier cause raised')

end Stages

/-- In the course of an interleaving of a pipeline, the machine of a stage failed to execute an
instruction. -/
def StageRaises (wiring : Wiring) (settings : Settings) (program : Program) (phases : List Int)
    (signal : Int) (k : Nat) (fault : Fault) (moves : Moves) (n : Network) : Prop :=
  ∃ cells, program.load = .ok cells ∧
    (network wiring settings cells phases signal).Raises k fault moves n

/-- A pipeline at rest is over if the machine of a stage failed. Of the stages whose machines failed
with a fault of the interpreter, it names the first. If it is over, it returns a signal just in case
no machine failed with such a fault. The only other faults are those of the allocator, and those of
the interpreter that are too long to be worded. -/
theorem failures_reported {wiring : Wiring} {settings : Settings} {program : Program}
    {phases : List Int} {signal : Int} {moves : Moves} {n : Network} (nonempty : phases ≠ [])
    (interleaving : Interleaving wiring settings program phases signal moves n)
    (rest : n.AtRest) :
    (∀ k fault, StageRaises wiring settings program phases signal k fault moves n →
      isOver n = true) ∧
    (∀ k fault, StageRaises wiring settings program phases signal k fault moves n →
      fault.isInterpreterFault = true →
      (∀ j < k, ∀ cause, StageRaises wiring settings program phases signal j cause moves n →
        cause.isInterpreterFault = false) →
      (conclude wiring phases n).result = some (.error (.stageFailed (stageName k) fault))) ∧
    (isOver n = true →
      ((∃ returned, (conclude wiring phases n).result = some (.ok returned)) ↔
        ∀ k fault, StageRaises wiring settings program phases signal k fault moves n →
          fault.isInterpreterFault = false)) ∧
    ∀ k fault, StageRaises wiring settings program phases signal k fault moves n →
      fault.isInterpreterFault = false →
      fault.family = .allocation ∨
        ∃ cause, fault = .unworded cause ∧ cause.family = .interpreter ∧
          cause.isWordable = false := by
  obtain ⟨cells, loaded, schedule⟩ := interleaving
  have named : ∀ k fault, StageRaises wiring settings program phases signal k fault moves n →
      fault.isInterpreterFault = true →
      (∀ j < k, ∀ cause, StageRaises wiring settings program phases signal j cause moves n →
        cause.isInterpreterFault = false) →
      (conclude wiring phases n).result = some (.error (.stageFailed (stageName k) fault)) := by
    rintro k fault ⟨cells', loaded', raised⟩ kept before
    refine conclude_result (isOver_of_raises nonempty raised rest)
      (verdict_of_first_raised nonempty raised kept ?_)
    intro j earlier cause raised'
    exact before j earlier cause ⟨cells', loaded', raised'⟩
  refine ⟨?_, named, fun finished => ⟨?_, ?_⟩, ?_⟩
  · rintro k fault ⟨cells', -, raised⟩
    exact isOver_of_raises nonempty raised rest
  · rintro ⟨returned, success⟩ k
    induction k using Nat.strongRecOn with
    | ind k ih =>
      intro fault raised
      cases kept : fault.isInterpreterFault with
      | false => rfl
      | true =>
        rw [named k fault raised kept ih] at success
        cases success
  · intro foreign
    have blameless : ∀ (k : Nat) (a : Amplifier), n.agents[k]? = some (.amplifier a) →
        stageFailure? (.amplifier a) = none := by
      intro k a there
      cases failed : stageFailure? (.amplifier a) with
      | none => rfl
      | some failure =>
        obtain ⟨fault, raised, kept⟩ := raises_of_stageFailure nonempty schedule there failed
        cases kept.symm.trans (foreign k fault ⟨cells, loaded, raised⟩)
    exact ⟨_, conclude_result finished
      ((coherent_of_schedule nonempty schedule).verdict_ok blameless)⟩
  · rintro k fault ⟨cells', -, raised⟩ foreign
    refine (Fault.family_of_isExecutionFault raised.isExecutionFault).resolve_left ?_
    simpa [Fault.isInterpreterFault] using foreign

/-- The fault that the machine of a stage is about to fail with. -/
def failing? (n : Network) (k : Nat) : Option Fault :=
  match n.amplifier? k with
  | none => none
  | some a =>
    match a.activity, a.machine.step with
    | .executing, (.error fault, _) => some fault
    | _, _ => none

theorem failing?_eq_some {n : Network} {k : Nat} {fault : Fault}
    (fails : failing? n k = some fault) :
    ∃ a stepped, n.agents[k]? = some (.amplifier a) ∧ a.activity = .executing ∧
      a.machine.step = (.error fault, stepped) := by
  unfold failing? at fails
  split at fails
  · cases fails
  next a found =>
    split at fails
    next executes failed =>
      cases fails
      unfold amplifier? at found
      split at found
      next there =>
        cases found
        exact ⟨a, _, there, executes, failed⟩
      · cases found
    · cases fails

/-- A replay in which a stage fails, with everything that the whole of it was seen to do. -/
theorem StageRaises.of_replay {α : Type} {wiring : Wiring} {settings : Settings}
    {program : Program} {cells phases : List Int} {signal : Int} {order later : List Nat} {k : Nat}
    {fault : Fault} {view : Moves × Network → α} {seen : α} (loaded : program.load = .ok cells)
    (replayed : (replay order [] (network wiring settings cells phases signal)).map
      (fun now => (failing? now.2 k, (replay (k :: later) now.1 now.2).map view)) =
        some (some fault, some seen)) :
    ∃ moves n, StageRaises wiring settings program phases signal k fault moves n ∧
      view (moves, n) = seen := by
  obtain ⟨⟨moves, now⟩, found, viewed⟩ := Option.map_eq_some_iff.mp replayed
  simp only [Prod.mk.injEq] at viewed
  obtain ⟨fails, onward⟩ := viewed
  obtain ⟨⟨moves', n⟩, onward, seen⟩ := Option.map_eq_some_iff.mp onward
  obtain ⟨a, stepped, there, executes, failed⟩ := failing?_eq_some fails
  unfold replay at onward
  split at onward
  next able =>
    have raised := Raises.now (replay_schedule .rest found) able there executes failed
    exact ⟨moves', n, ⟨cells, loaded, raised.replay onward⟩, seen⟩
  · cases onward

/-- Has no operation of that number. -/
def unknown : List Int :=
  [42]

/-- Both stages fail, and the first of them is named. -/
theorem failures_reported_unknown :
    ∃ moves n, Interleaving .chain {} (.image unknown) [0, 1] 7 moves n ∧ isOver n = true ∧
      (conclude .chain [0, 1] n).result =
        some (.error (.stageFailed "A" (.unknownOpcode 42 0))) := by
  have loaded : (Program.image unknown).load = .ok unknown := rfl
  have replayed : (replay [0] [] (network .chain {} unknown [0, 1] 7)).map
      (fun now => (failing? now.2 0,
        (replay (0 :: (.replicate 2 0 ++ .replicate 4 1 ++ .replicate 2 2)) now.1 now.2).map
          (fun after => isOver after.2))) = some (some (.unknownOpcode 42 0), some true) := by
    decide +kernel
  obtain ⟨moves, n, raised, finished⟩ := StageRaises.of_replay loaded replayed
  obtain ⟨cells, loaded', raises⟩ := raised
  have interleaving : Interleaving .chain {} (.image unknown) [0, 1] 7 moves n :=
    ⟨cells, loaded', raises.schedule⟩
  refine ⟨moves, n, interleaving, finished, ?_⟩
  refine (failures_reported (by decide) interleaving (atRest_of_isOver finished)).2.1 0 _
    ⟨cells, loaded', raises⟩ rfl ?_
  intro j earlier
  exact absurd earlier (Nat.not_lt_zero j)

/-- A replay in which a stage fails and the pipeline returns a signal nevertheless. -/
theorem StageRaises.returned_of_replay {wiring : Wiring} {settings : Settings} {program : Program}
    {cells phases : List Int} {signal : Int} {order later : List Nat} {k : Nat} {fault : Fault}
    {returned : Option Int} (loaded : program.load = .ok cells)
    (replayed : (replay order [] (network wiring settings cells phases signal)).map
      (fun now => (failing? now.2 k, (replay (k :: later) now.1 now.2).map
        (fun after => (isOver after.2, (verdict after.2).toOption)))) =
          some (some fault, some (true, some returned))) :
    ∃ moves n, StageRaises wiring settings program phases signal k fault moves n ∧
      isOver n = true ∧ (conclude wiring phases n).result = some (.ok returned) := by
  obtain ⟨moves, n, raised, seen⟩ := StageRaises.of_replay loaded replayed
  simp only [Prod.mk.injEq] at seen
  obtain ⟨finished, success⟩ := seen
  refine ⟨moves, n, raised, finished, conclude_result finished ?_⟩
  cases reached : verdict n with
  | error fault => simp [reached, Except.toOption] at success
  | ok signal => simpa [reached, Except.toOption] using success

/-- Sends 7 on, reads its phase setting, and then looks up a cell that is far too high to be
allocated. -/
def overreach : List Int :=
  [104, 7, 3, 8, 1, 9223372036854775807, 0, 0, 0]

/-- The only stage of a chain fails, and the chain returns a signal, or the absence of one. -/
theorem failures_reported_overreach :
    (∃ moves n, StageRaises .chain {} (.image overreach) [0] 0 0 .memoryExhausted moves n ∧
      isOver n = true ∧ (conclude .chain [0] n).result = some (.ok (some 7))) ∧
    ∃ moves n, StageRaises .chain {} (.image Batch.climber) [0] 0 0
        (.unworded (.pointerOutOfBounds (10 ^ 8192 : Nat) 56)) moves n ∧
      isOver n = true ∧ (conclude .chain [0] n).result = some (.ok none) := by
  have overreached : (replay (.replicate 6 0) [] (network .chain {} overreach [0] 0)).map
      (fun now => (failing? now.2 0,
        (replay (0 :: (.replicate 2 0 ++ .replicate 3 1)) now.1 now.2).map
          (fun after => (isOver after.2, (verdict after.2).toOption)))) =
        some (some .memoryExhausted, some (true, some (some 7))) := by
    decide +kernel
  have climbed : (replay (.replicate 15 0) [] (network .chain {} Batch.climber [0] 0)).map
      (fun now => (failing? now.2 0,
        (replay (0 :: (.replicate 2 0 ++ .replicate 2 1)) now.1 now.2).map
          (fun after => (isOver after.2, (verdict after.2).toOption)))) =
        some (some (.unworded (.pointerOutOfBounds (10 ^ 8192 : Nat) 56)),
          some (true, some none)) := by
    decide +kernel
  exact ⟨StageRaises.returned_of_replay rfl overreached,
    StageRaises.returned_of_replay (by decide +kernel) climbed⟩

end Pipeline

end Intcode
