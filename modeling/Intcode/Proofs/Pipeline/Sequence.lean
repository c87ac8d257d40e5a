import Intcode.Pipeline.Sequence
import Intcode.Proofs.Machine.Resumption
import Intcode.Proofs.Pipeline.Chain
import Intcode.Proofs.Pipeline.Termination

/-!
# A chain does what its stages do one after the other

When the stages run one after the other, each is given its phase setting and the last output of
the stage before it. If each stage but the last one has a single output, these runs are a
solution of the chain (`sequence_solution`): every stage is given the same inputs in both. Then
all schedules of the chain are bounded and over when at rest, and report the signal of the
sequence, or the failure of its last stage (`chain_of_sequence`).
-/
namespace Intcode

namespace Pipeline

open Network

/-- What stages with the given phase settings hand over in the end, run one after the other from
the given signal, if each of them has exactly one output. -/
def handover (settings : Settings) (fuel : Nat) (program : Program) :
    List Int → Int → Option Int
  | [], signal => some signal
  | phase :: rest, signal =>
    match (Batch.run settings fuel program [phase, signal] none).result with
    | some (.ok [next]) => handover settings fuel program rest next
    | _ => none

section

variable {settings : Settings} {fuel : Nat} {program : Program} {cells phases : List Int}
  {signal last : Int}

/-- The values that are handed over, each by the stage before to the stage with that number. -/
theorem handover_passed (handed : handover settings fuel program phases signal = some last) :
    ∃ passed : Nat → Int, passed 0 = signal ∧ passed phases.length = last ∧
      ∀ k phase, phases[k]? = some phase →
        (Batch.run settings fuel program [phase, passed k] none).result =
          some (.ok [passed (k + 1)]) := by
  induction phases generalizing signal with
  | nil => exact ⟨fun _ => signal, rfl, Option.some.inj handed, by simp⟩
  | cons phase rest ih =>
    simp only [handover] at handed
    split at handed
    next next emitted =>
      obtain ⟨passed, first, final, runs⟩ := ih handed
      refine ⟨fun k => match k with | 0 => signal | k + 1 => passed k, rfl, final, ?_⟩
      intro k phase' there
      cases k with
      | zero =>
        cases Option.some.inj there
        simpa only [first] using emitted
      | succ k => exact runs k phase' there
    · cases handed

/-- A machine that was given its inputs at once and came to an end. -/
theorem concludes_of_run {inputs : List Int} {outcome : Except Fault Outcome} {final : Machine}
    (ran : (Machine.ofCells settings cells { inputs }).run fuel = (some outcome, final)) :
    ∃ reads, inputs = reads ++ final.inputs ∧
      (startCore settings cells).Runs reads final.outputs.toList final.core ∧
      final.core.ending final.inputs = some outcome := by
  obtain ⟨reads, outputs, given, run, written, ended, -⟩ := Machine.run_spec ran
  have none : (Machine.ofCells settings cells { inputs }).outputs = #[] := rfl
  rw [none, List.nil_append] at written
  exact ⟨reads, given, written ▸ run, ended⟩

/-- The last stage of a sequence that returned, if each stage before it has exactly one output. -/
theorem sequenceFrom_last (nonempty : phases ≠ [])
    (handed : handover settings fuel program phases.dropLast signal = some last) {log : Log}
    {returned : Option Int}
    (success : (sequenceFrom settings fuel program phases signal log).result =
      some (.ok returned)) :
    ∃ outputs, (Batch.run settings fuel program [phases.getLast nonempty, last] none).result =
      some (.ok outputs) ∧ returned = outputs.getLast? := by
  induction phases generalizing signal log with
  | nil => exact absurd rfl nonempty
  | cons phase rest ih =>
    cases rest with
    | nil =>
      cases Option.some.inj handed
      rcases ran : Batch.run settings fuel program [phase, last] none with
        ⟨_ | fault | outputs, lines⟩
      · simp [sequenceFrom, ran, Report.unfinished] at success
      · simp [sequenceFrom, ran, Report.failure] at success
      · refine ⟨outputs, by simp [ran], ?_⟩
        cases final : outputs.getLast? <;>
          simpa [sequenceFrom, ran, final, Report.answer, eq_comm] using success
    | cons phase' rest =>
      simp only [List.dropLast_cons_cons, handover] at handed
      split at handed
      next next emitted =>
        rcases ran : Batch.run settings fuel program [phase, signal] none with ⟨result, lines⟩
        rw [ran] at emitted
        dsimp only at emitted
        subst emitted
        simp only [sequenceFrom, ran, List.getLast?_singleton] at success
        exact ih (by simp) handed success
      · cases handed

/-- The run of a stage that is given all of its inputs at once, those of the given streams. -/
def stageRun (settings : Settings) (fuel : Nat) (cells phases : List Int) (signal : Int)
    (stream : Nat → List Int) (k : Nat) : Machine.RunResult :=
  (Machine.ofCells settings cells { inputs := initially phases signal k ++ stream k }).run fuel

/-- Streams that the stages write when each of them runs on its own are a solution. -/
theorem solution_of_runs {wiring : Wiring} {stream : Nat → List Int}
    (runs : ∀ k < phases.length, ∃ outcome final,
      stageRun settings fuel cells phases signal stream k = (some outcome, final) ∧
        final.outputs.toList = stream (k + 1))
    (closure : stream 0 = if wiring = .loop then stream phases.length else []) :
    ∃ s : Solution wiring (startCore settings cells) phases signal, s.stream = stream ∧
      ∀ k outcome final,
        stageRun settings fuel cells phases signal stream k = (some outcome, final) →
        s.outcome k = outcome := by
  refine ⟨⟨stream, fun k => (stageRun settings fuel cells phases signal stream k).2.inputs,
    fun k => (stageRun settings fuel cells phases signal stream k).2.core,
    fun k => (stageRun settings fuel cells phases signal stream k).1.getD (.ok .running),
    ?_, ?_, closure⟩, rfl, ?_⟩
  · intro k within
    obtain ⟨outcome, final, ran, written⟩ := runs k within
    obtain ⟨reads, fed, run, -⟩ := concludes_of_run ran
    simp only [ran, ← written]
    exact ⟨reads, fed, run⟩
  · intro k within
    obtain ⟨outcome, final, ran, -⟩ := runs k within
    obtain ⟨_, -, -, ended⟩ := concludes_of_run ran
    simpa only [ran, Option.getD_some] using ended
  · intro k outcome final ran
    simp only [ran, Option.getD_some]

/-- The streams of a chain: each stage but the last one writes the value that it hands over. -/
def handedOn (stages : Nat) (passed : Nat → Int) (written : List Int) (k : Nat) : List Int :=
  if k = 0 then [] else if k < stages then [passed k] else written

/-- The inputs of a stage to which one value is handed over. -/
theorem initially_handedOn {passed : Nat → Int} {written : List Int} {k : Nat} {phase : Int}
    (there : phases[k]? = some phase) (first : passed 0 = signal) :
    initially phases signal k ++ handedOn phases.length passed written k = [phase, passed k] := by
  simp only [initially, there, primed, handedOn]
  by_cases head : k = 0
  · subst head
    simp [first]
  · obtain ⟨within, -⟩ := List.getElem?_eq_some_iff.mp there
    rw [if_neg head, if_neg head, if_pos within]
    rfl

/-- The runs of a sequence are a solution of the chain, if each stage but the last one has
exactly one output. -/
theorem sequence_solution (nonempty : phases ≠ []) (loaded : program.load = .ok cells)
    (handed : handover settings fuel program phases.dropLast signal = some last)
    {outcome : Except Fault Outcome} {final : Machine}
    (ran : (Machine.ofCells settings cells
      { inputs := [phases.getLast nonempty, last] }).run fuel = (some outcome, final)) :
    ∃ s : Solution .chain (startCore settings cells) phases signal,
      s.stream phases.length = final.outputs.toList ∧ s.outcome (phases.length - 1) = outcome ∧
        ∀ k < phases.length - 1, ∃ o, s.outcome k = .ok o := by
  have positive := List.length_pos_iff.mpr nonempty
  obtain ⟨passed, first, ends, runs⟩ := handover_passed handed
  rw [List.length_dropLast] at ends
  generalize streams : handedOn phases.length passed final.outputs.toList = stream
  have early : ∀ k < phases.length - 1, ∃ o stopped,
      stageRun settings fuel cells phases signal stream k = (some (.ok o), stopped) ∧
        stopped.outputs.toList = stream (k + 1) := by
    intro k before
    have there : phases[k]? = some (phases.get ⟨k, by omega⟩) := by simp
    have kept : phases.dropLast[k]? = some (phases.get ⟨k, by omega⟩) := by
      rw [List.getElem?_dropLast, if_pos before, there]
    obtain ⟨cells', o, stopped, loaded', ran', written⟩ := Batch.run_of_ok (runs k _ kept)
    cases loaded.symm.trans loaded'
    refine ⟨o, stopped, ?_, ?_⟩
    · rw [stageRun, ← streams, initially_handedOn there first, ran']
    · rw [written, ← streams, handedOn, if_neg (by omega), if_pos (by omega)]
  have late : stageRun settings fuel cells phases signal stream (phases.length - 1) =
      (some outcome, final) := by
    have there : phases[phases.length - 1]? = some (phases.getLast nonempty) := by
      rw [← List.getLast?_eq_getElem?, List.getLast?_eq_some_getLast nonempty]
    rw [stageRun, ← streams, initially_handedOn there first, ends, ran]
  have written : stream phases.length = final.outputs.toList := by
    rw [← streams, handedOn, if_neg (by omega), if_neg (Nat.lt_irrefl _)]
  have every : ∀ k < phases.length, ∃ o stopped,
      stageRun settings fuel cells phases signal stream k = (some o, stopped) ∧
        stopped.outputs.toList = stream (k + 1) := by
    intro k within
    by_cases before : k < phases.length - 1
    · obtain ⟨o, stopped, ended, written⟩ := early k before
      exact ⟨_, stopped, ended, written⟩
    · obtain rfl : k = phases.length - 1 := by omega
      refine ⟨outcome, final, late, ?_⟩
      rw [Nat.sub_add_cancel positive, written]
  have closure : stream 0 = if Wiring.chain = .loop then stream phases.length else [] := by
    rw [← streams]
    rfl
  obtain ⟨s, same, outcomes⟩ := solution_of_runs every closure
  refine ⟨s, by rw [same, written], outcomes _ _ _ late, ?_⟩
  intro k before
  obtain ⟨o, stopped, ended, -⟩ := early k before
  exact ⟨o, outcomes _ _ _ ended⟩

/-- A chain whose stages do not fail in a solution reports the last value of the solution. -/
theorem chain_reports_signal (nonempty : phases ≠ []) (loaded : program.load = .ok cells)
    (s : Solution .chain (startCore settings cells) phases signal)
    (clean : ∀ k < phases.length, ∃ o, s.outcome k = .ok o) :
    AlwaysReports .chain settings program phases signal
      (.ok (s.stream phases.length).getLast?) := by
  apply s.always_reports nonempty loaded
  intro moves n schedule rest
  have coherent := coherent_of_schedule nonempty schedule
  have finished := coherent.chain_over rest
  obtain ⟨received, accepted⟩ := coherent.chain_received finished
  have closed := coherent.closed_of_ended (k := phases.length - 1) (by omega)
    (coherent.isOver_iff.mp finished _ (by omega))
  rw [outlet, if_neg (by have := coherent.nonempty; omega),
    Nat.sub_add_cancel coherent.nonempty] at closed
  have all := s.sent_complete nonempty schedule clean (fun loop => by cases loop) _
    (Nat.le_refl _) (Nat.le_refl _) closed accepted
  apply conclude_result finished
  rw [coherent.verdict_ok, received, all]
  intro k a there
  exact s.blameless nonempty schedule finished clean (fun loop => by cases loop)
    (coherent.serves k _ there).role.1 there

/-- A chain only whose last stage fails in a solution reports that failure. -/
theorem chain_reports_failure (nonempty : phases ≠ []) (loaded : program.load = .ok cells)
    (s : Solution .chain (startCore settings cells) phases signal)
    (clean : ∀ k < phases.length - 1, ∃ o, s.outcome k = .ok o) {fault : Fault}
    (failed : s.outcome (phases.length - 1) = .error fault)
    (kept : fault.isInterpreterFault = true) (own : fault.isChannelClosed = false) :
    AlwaysReports .chain settings program phases signal
      (.error (.stageFailed (stageName (phases.length - 1)) fault)) := by
  apply s.always_reports nonempty loaded
  intro moves n schedule rest
  have coherent := coherent_of_schedule nonempty schedule
  have finished := coherent.chain_over rest
  have within : phases.length - 1 < phases.length := by have := coherent.nonempty; omega
  obtain ⟨a, there, -⟩ := coherent.stage within
  have error : a.error = some fault := by
    cases s.stage_stopped nonempty schedule clean (fun loop => by cases loop) within
        (Nat.le_refl _) there (coherent.stage_ended finished there) with
    | concluded _ succeeded _ _ _ _ => cases failed.symm.trans succeeded
    | failed cause same _ error =>
      cases failed.symm.trans same
      rw [error, Amplifier.keptFault, if_pos kept]
    | refused refused _ _ =>
      -- The relay never hangs up.
      have accepted := (coherent.chain_received finished).2
      rw [Nat.sub_add_cancel coherent.nonempty] at refused
      cases accepted.symm.trans refused
  refine conclude_result finished (coherent.verdict_error there error own ?_)
  intro j earlier b found
  exact s.blameless nonempty schedule finished clean (fun loop => by cases loop) earlier found

end

/-- If each stage of a sequence but the last one has exactly one output, the chain always reports
the signal that the sequence returns. If the last stage fails with a fault of the interpreter,
the chain always reports that failure under the name of the stage; here the program has to be
readable. -/
theorem chain_of_sequence {settings : Settings} {fuel : Nat} {program : Program}
    {phases : List Int} {signal last : Int} (nonempty : phases ≠ [])
    (handed : handover settings fuel program phases.dropLast signal = some last) :
    (∀ returned, (sequence settings fuel program phases signal).result = some (.ok returned) →
      AlwaysReports .chain settings program phases signal (.ok returned)) ∧
    ∀ cells fault, program.load = .ok cells → fault.isInterpreterFault = true →
      (Batch.run settings fuel program [phases.getLast nonempty, last] none).result =
        some (.error fault) →
      AlwaysReports .chain settings program phases signal
        (.error (.stageFailed (stageName (phases.length - 1)) fault)) := by
  constructor
  · intro returned success
    rw [sequence, if_neg (by simpa using nonempty)] at success
    obtain ⟨outputs, emitted, rfl⟩ := sequenceFrom_last nonempty handed success
    obtain ⟨cells, outcome, final, loaded, ran, rfl⟩ := Batch.run_of_ok emitted
    obtain ⟨s, streamed, ended, clean⟩ := sequence_solution nonempty loaded handed ran
    rw [← streamed]
    apply chain_reports_signal nonempty loaded s
    intro k within
    by_cases before : k < phases.length - 1
    · exact clean k before
    · obtain rfl : k = phases.length - 1 := by omega
      exact ⟨outcome, ended⟩
  · intro cells fault loaded kept failed
    obtain ⟨final, ran⟩ := Batch.run_of_error loaded failed
    obtain ⟨s, -, ended, clean⟩ := sequence_solution nonempty loaded handed ran
    have own := Fault.isChannelClosed_of_isExecutionFault (Machine.run_error ran)
    exact chain_reports_failure nonempty loaded s clean ended kept own

/-- Passes on its signal. -/
def passing : List Int :=
  [3, 9, 3, 10, 4, 10, 99]

/-- Passes on its signal at phase 0, and has no operation at any other phase. -/
def breaking : List Int :=
  [3, 20, 1005, 20, 10, 3, 21, 4, 21, 99, 98]

theorem chain_of_sequence_two_stages :
    AlwaysReports .chain {} (.image passing) [0, 1] 7 (.ok (some 7)) ∧
      AlwaysReports .chain {} (.image breaking) [0, 1] 7
        (.error (.stageFailed "B" (.unknownOpcode 98 10))) := by
  have nonempty : [(0 : Int), 1] ≠ [] := by simp
  constructor
  · have passed : handover {} 9 (.image passing) [(0 : Int), 1].dropLast 7 = some 7 := by
      decide +kernel
    have returned : (sequence {} 9 (.image passing) [0, 1] 7).result = some (.ok (some 7)) := by
      decide +kernel
    exact (chain_of_sequence nonempty passed).1 (some 7) returned
  · have passed : handover {} 9 (.image breaking) [(0 : Int), 1].dropLast 7 = some 7 := by
      decide +kernel
    have failed : (Batch.run {} 9 (.image breaking) [1, 7] none).result =
        some (.error (.unknownOpcode 98 10)) := by
      decide +kernel
    exact (chain_of_sequence nonempty passed).2 breaking (.unknownOpcode 98 10) rfl rfl failed

/-- A program that cannot be read has no schedules. Its only stage fails on its own with the same
fault as the chain, which names no stage. -/
theorem chain_of_unreadable :
    handover {} 9 (.text "x") [(0 : Int)].dropLast 0 = some 0 ∧
      (Batch.run {} 9 (.text "x") [0, 0] none).result = some (.error (.malformedLiteral "x" 0)) ∧
      (Fault.malformedLiteral "x" 0).isInterpreterFault = true ∧
      (concurrent .chain {} 9 (.text "x") [0] 0).result =
        some (.error (.malformedLiteral "x" 0)) ∧
      Fault.malformedLiteral "x" 0 ≠ .stageFailed (stageName 0) (.malformedLiteral "x" 0) := by
  have unreadable : (Program.text "x").load = .error (.malformedLiteral "x" 0) := by decide +kernel
  refine ⟨rfl, ?_, rfl, ?_, by simp⟩
  · simp [Batch.run, Machine.load, unreadable, Report.failure]
  · simp [concurrent, unreadable, Report.failure]

end Pipeline

end Intcode
