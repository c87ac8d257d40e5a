import Intcode.Proofs.Pipeline.Solution
import Intcode.Proofs.Pipeline.Turns

/-!
# A ring runs to a solution of the loop

`RingState` is what holds of a ring between its passes: each stage was given what the one before
it has written, the stages have stopped in order, and what has been written so far is a part of
every solution of the loop. `Continues` says how a ring comes to its outcome from one pass to the
next. A ring that returns has come to a solution in which no stage fails, and its history is that
of the solution (`ring_explained`).
-/
namespace Intcode.Pipeline

/-! ## Handing values to the first stage -/

def feedHead (values : List Int) : List RingStage → List RingStage
  | [] => []
  | head :: others => { head with machine := head.machine.feed values } :: others

def headHalted : List RingStage → Bool
  | [] => false
  | head :: _ => head.machine.halted

def headQueue : List RingStage → Nat
  | [] => 0
  | head :: _ => head.machine.inputs.length

theorem feedHead_cons (value : Int) (values : List Int) (stages : List RingStage) :
    feedHead values (feedHead [value] stages) = feedHead (value :: values) stages := by
  cases stages <;> simp [feedHead, Machine.feed]

theorem feedHead_nil (stages : List RingStage) : feedHead [] stages = stages := by
  cases stages <;> simp [feedHead, Machine.feed]

theorem feedHead_length (values : List Int) (stages : List RingStage) :
    (feedHead values stages).length = stages.length := by
  cases stages <;> simp [feedHead]

theorem feedHead_getElem? (values : List Int) (stages : List RingStage) (k : Nat) :
    (feedHead values stages)[k + 1]? = stages[k + 1]? := by
  cases stages <;> simp [feedHead]

theorem headQueue_feedHead {stages : List RingStage} (nonempty : stages ≠ [])
    (values : List Int) :
    headQueue (feedHead values stages) = headQueue stages + values.length := by
  cases stages with
  | nil => exact absurd rfl nonempty
  | cons head others => simp [feedHead, headQueue, Machine.feed]

theorem relay_of_running {stages : List RingStage} (running : headHalted stages = false)
    (nonempty : stages ≠ []) (last : Option Int) (values : List Int) :
    relay stages last values = .fed (feedHead values stages) (values.getLast?.or last) := by
  induction values generalizing stages last with
  | nil => simp [relay, feedHead_nil]
  | cons value rest ih =>
    cases stages with
    | nil => exact absurd rfl nonempty
    | cons head others =>
      simp only [headHalted] at running
      simp only [relay, running, Bool.false_eq_true, ↓reduceIte]
      rw [ih (by exact running) (by simp), ← feedHead_cons]
      congr 1
      cases rest with
      | nil => rfl
      | cons next more => simp [List.getLast?_cons]

theorem relay_of_halted {stages : List RingStage} (halted : headHalted stages = true)
    (last : Option Int) (value : Int) (rest : List Int) :
    relay stages last (value :: rest) = .final value := by
  cases stages with
  | nil => simp [headHalted] at halted
  | cons head others =>
    simp only [headHalted] at halted
    simp [relay, halted]

/-- What becomes of the outputs of the last stage: they are fed to the first one, unless there
are any and it is at its end. -/
theorem relay_cases {stages : List RingStage} (nonempty : stages ≠ []) (values : List Int) :
    (headHalted stages = true ∧ ∃ value rest, values = value :: rest ∧
      ∀ last, relay stages last values = .final value) ∨
    ∀ last, relay stages last values = .fed (feedHead values stages) (values.getLast?.or last) := by
  cases halted : headHalted stages with
  | false => exact Or.inr fun last => relay_of_running halted nonempty last values
  | true =>
    cases values with
    | nil => exact Or.inr fun last => by simp [relay, feedHead_nil]
    | cons value rest =>
      exact Or.inl ⟨rfl, value, rest, rfl, fun last => relay_of_halted halted last value rest⟩

theorem stopped_of_tailStopped {stages : List RingStage} (stopped : tailStopped stages = true) :
    ∃ stage ∈ stages, stage.stopped = true := by
  unfold tailStopped at stopped
  split at stopped
  next stage last => exact ⟨stage, List.mem_of_getLast? last, stopped⟩
  · cases stopped

theorem feedHead_all {stages : List RingStage} (values : List Int) :
    (feedHead values stages).all (·.stopped) = stages.all (·.stopped) := by
  cases stages <;> simp [feedHead]

/-! ## Between passes -/

/-- The machine of a stage, and one at its start where there is no stage. -/
def machineAt (start : Core) (stages : List RingStage) (k : Nat) : Machine :=
  match stages[k]? with
  | some stage => stage.machine
  | none => start.machine []

theorem machineAt_of_getElem? {start : Core} {stages : List RingStage} {k : Nat}
    {stage : RingStage} (there : stages[k]? = some stage) :
    machineAt start stages k = stage.machine := by
  simp only [machineAt, there]

/-- What holds of the stages of a ring that have written the given streams. The stream of the
first stage is what was fed back to it. -/
structure RingState (start : Core) (phases : List Int) (signal : Int) (feederStopped : Bool)
    (stages : List RingStage) (stream : Nat → List Int) : Prop where
  length : stages.length = phases.length
  ran : ∀ k stage, stages[k]? = some stage →
    Ran start (initially phases signal k ++ stream k) (stream (k + 1)) stage.machine
  orderly : Orderly feederStopped stages
  halts : (∃ stage ∈ stages, stage.stopped = true) →
    ∃ stage ∈ stages, stage.machine.core.act = .halt
  least : ∀ s : Solution .loop start phases signal, ∀ k ≤ phases.length,
    stream k <+: s.stream k

namespace RingState

variable {start : Core} {phases : List Int} {signal : Int} {feederStopped : Bool}
  {stages after : List RingStage} {stream : Nat → List Int} {tail : List Int} {moved : Bool}
  {fuel : Nat}

theorem inhabited (state : RingState start phases signal feederStopped stages stream)
    (nonempty : phases ≠ []) : stages ≠ [] := by
  rw [← List.length_pos_iff, state.length]
  exact List.length_pos_iff.mpr nonempty

/-- Where some stage has stopped, no solution lets all stages lack an input. -/
theorem halted_somewhere (state : RingState start phases signal feederStopped stages stream)
    (stopped : ∃ stage ∈ stages, stage.stopped = true)
    (s : Solution .loop start phases signal) : ∃ k < phases.length, s.outcome k = .ok .halted := by
  obtain ⟨stage, member, halts⟩ := state.halts stopped
  obtain ⟨k, there⟩ := List.mem_iff_getElem?.mp member
  have within : k < phases.length := by
    obtain ⟨bound, -⟩ := List.getElem?_eq_some_iff.mp there
    have := state.length
    omega
  obtain ⟨⟨reads, given, run⟩, -⟩ := state.ran k stage there
  have inside := (List.prefix_append_right_inj (initially phases signal k)).mpr
    (state.least s k (Nat.le_of_lt within))
  rw [given] at inside
  obtain ⟨-, same, -⟩ := s.concludes within run (Core.ending_of_halt halts) inside (by simp)
  exact ⟨k, within, same.symm⟩

/-- Streams that every stage has written from what it was given are a part of every solution, if
those of the first stage are. -/
theorem least_of_ran (length : stages.length = phases.length)
    (ran : ∀ k stage, stages[k]? = some stage →
      Ran start (initially phases signal k ++ stream k) (stream (k + 1)) stage.machine)
    {wiring : Wiring} (s : Solution wiring start phases signal) (first : stream 0 <+: s.stream 0) :
    ∀ k ≤ phases.length, stream k <+: s.stream k := by
  intro k
  induction k with
  | zero => exact fun _ => first
  | succ k ih =>
    intro within
    have there : stages[k]? = some (stages.get ⟨k, by omega⟩) := by simp
    obtain ⟨⟨reads, given, run⟩, -⟩ := ran k _ there
    have inside := (List.prefix_append_right_inj (initially phases signal k)).mpr
      (ih (Nat.le_of_lt within))
    rw [given] at inside
    exact (s.confines within run ((List.prefix_append _ _).trans inside)).1

/-- After a pass, before its last outputs are handed to the first stage. -/
theorem sweep (state : RingState start phases signal (tailStopped stages) stages stream)
    (sweep : Sweep fuel (tailStopped stages) [] stages after tail moved) :
    ∃ stream', stream' 0 = stream 0 ∧
      stream' phases.length = stream phases.length ++ tail ∧
      RingState start phases signal (tailStopped stages) after stream' := by
  have shifted : ∀ i stage, stages[i]? = some stage →
      Ran start (initially phases signal (0 + i) ++ stream (0 + i)) (stream (0 + i + 1))
        stage.machine := by
    simpa using state.ran
  obtain ⟨stream', first, last, ran⟩ := sweep.ran shifted
  simp only [Nat.zero_add, List.append_nil, state.length] at first last ran
  have length := sweep.length_eq.trans state.length
  refine ⟨stream', first, last, length, ran, ?_, ?_, ?_⟩
  · exact sweep.orderly state.orderly id (fun _ => rfl)
  · intro stopped
    rcases sweep.stopped_halts stopped with feeder | before | halts
    · exact sweep.halts (state.halts (stopped_of_tailStopped feeder))
    · exact sweep.halts (state.halts before)
    · exact halts
  · intro s
    exact least_of_ran length ran s (first ▸ state.least s 0 (Nat.zero_le _))

/-- After the last outputs of a pass are handed to the first stage. A first stage that has
stopped for lack of an input is handed nothing, because the last one had stopped before. -/
theorem fed (state : RingState start phases signal feederStopped stages stream)
    (silent : feederStopped = true → tail = []) (round : stream 0 ++ tail = stream phases.length)
    {later : Bool} (also : feederStopped = true → later = true) :
    RingState start phases signal later (feedHead tail stages)
      (fun k => if k = 0 then stream phases.length else stream k) := by
  obtain ⟨length, ran, orderly, halts, least⟩ := state
  cases stages with
  | nil =>
    refine ⟨length, by simp [feedHead], trivial, by simp [feedHead], ?_⟩
    intro s k within
    cases k with
    | zero => exact (least s _ (Nat.le_refl _)).trans (s.closure ▸ List.prefix_rfl)
    | succ k => exact least s _ within
  | cons head others =>
    refine ⟨by simpa [feedHead] using length, ?_, ?_, ?_, ?_⟩
    · intro k stage there
      cases k with
      | zero =>
        cases Option.some.inj there
        simp only [↓reduceIte, Nat.zero_add, Nat.one_ne_zero]
        rw [← round, ← List.append_assoc]
        exact (ran 0 head rfl).feed tail
      | succ k => simpa using ran (k + 1) stage there
    · refine Orderly.mono ⟨?_, orderly.2.1, orderly.2.2⟩ also
      intro stopped
      rcases orderly.1 stopped with halts | ⟨asks, none, feeder⟩
      · exact Or.inl halts
      · exact Or.inr ⟨asks, by simp [Machine.feed, none, silent feeder], feeder⟩
    · simpa [feedHead] using halts
    · intro s k within
      cases k with
      | zero => exact (least s _ (Nat.le_refl _)).trans (s.closure ▸ List.prefix_rfl)
      | succ k => exact least s _ within

/-- A pass that the ring goes on from keeps what holds between passes. -/
theorem onward (state : RingState start phases signal (tailStopped stages) stages stream)
    (nonempty : phases ≠ []) (round : stream 0 = stream phases.length)
    (sweep : Sweep fuel (tailStopped stages) [] stages after tail moved)
    (going : after.all (·.stopped) = false) :
    ∃ stream', RingState start phases signal (tailStopped (feedHead tail after))
        (feedHead tail after) stream' ∧
      stream' 0 = stream' phases.length ∧
      stream' phases.length = stream phases.length ++ tail := by
  have feeder := sweep.feeder_going going
  obtain ⟨stream', first, last, state'⟩ := state.sweep sweep
  have around : stream' 0 ++ tail = stream' phases.length := by rw [first, last, round]
  refine ⟨_, state'.fed (by simp [feeder]) around (by simp [feeder]), ?_, ?_⟩
  · simp
  · simpa [nonempty] using last

/-- Stages that have all come to an end, with everything fed back, have come to a solution. -/
theorem solution (state : RingState start phases signal feederStopped stages stream)
    (round : stream 0 = stream phases.length)
    (ended : ∀ stage ∈ stages, ∃ outcome,
      stage.machine.core.ending stage.machine.inputs = some outcome) :
    ∃ s : Solution .loop start phases signal, s.stream = stream ∧
      ∀ k stage, stages[k]? = some stage → s.unread k = stage.machine.inputs ∧
        stage.machine.core.ending stage.machine.inputs = some (s.outcome k) := by
  have there : ∀ k < phases.length, ∃ stage, stages[k]? = some stage ∧
      machineAt start stages k = stage.machine := by
    intro k within
    rw [← state.length] at within
    have there := List.getElem?_eq_getElem within
    exact ⟨_, there, machineAt_of_getElem? there⟩
  refine ⟨⟨stream, fun k => (machineAt start stages k).inputs,
    fun k => (machineAt start stages k).core,
    fun k => ((machineAt start stages k).core.ending
      (machineAt start stages k).inputs).getD (.ok .running), ?_, ?_, ?_⟩, rfl, ?_⟩
  · intro k within
    obtain ⟨stage, there, same⟩ := there k within
    rw [same]
    exact (state.ran k stage there).run
  · intro k within
    obtain ⟨stage, there, same⟩ := there k within
    obtain ⟨outcome, ended⟩ := ended stage (List.mem_of_getElem? there)
    rw [same, ended]
    rfl
  · rw [if_pos rfl]
    exact round
  · intro k stage there
    obtain ⟨outcome, ended⟩ := ended stage (List.mem_of_getElem? there)
    dsimp only
    rw [machineAt_of_getElem? there, ended]
    exact ⟨rfl, rfl⟩

end RingState

theorem Orderly.ended {feederStopped : Bool} {stages : List RingStage}
    (orderly : Orderly feederStopped stages) (stopped : ∀ stage ∈ stages, stage.stopped = true) :
    ∀ stage ∈ stages, ∃ outcome,
      stage.machine.core.ending stage.machine.inputs = some (.ok outcome) := by
  induction stages generalizing feederStopped with
  | nil => simp
  | cons head others ih =>
    rw [List.forall_mem_cons] at stopped ⊢
    refine ⟨?_, ih orderly.2.2 stopped.2⟩
    rcases orderly.1 stopped.1 with halts | ⟨⟨next, acts⟩, none, -⟩
    · exact ⟨_, Core.ending_of_halt halts⟩
    · exact ⟨_, by rw [none]; exact Core.ending_of_starved acts⟩

/-- Once the first stage is at its end, all others stop in the same pass. -/
theorem Sweep.all_stopped_of_headHalted {fuel : Nat} {feederStopped moved : Bool}
    {handed tail : List Int} {stages after : List RingStage}
    (sweep : Sweep fuel feederStopped handed stages after tail moved)
    (orderly : Orderly feederStopped after) (halted : headHalted after = true) :
    ∀ stage ∈ after, stage.stopped = true := by
  cases sweep with
  | nil => simp
  | @cons _ _ _ _ _ _ stage stage' rest rest' turn later =>
    have stopped : stage'.stopped = true := by
      cases stopped : stage'.stopped with
      | true => rfl
      | false => cases halted.symm.trans (orderly.2.1 stopped)
    rw [List.forall_mem_cons]
    rw [stopped] at later
    exact ⟨stopped, later.all_stopped⟩

theorem Sweep.headQueue_le {fuel : Nat} {feederStopped moved : Bool} {tail : List Int}
    {stages after : List RingStage} (sweep : Sweep fuel feederStopped [] stages after tail moved) :
    headQueue after ≤ headQueue stages := by
  cases sweep with
  | nil => exact Nat.le_refl _
  | cons turn later =>
    cases turn with
    | skipped _ => simp [headQueue, Machine.feed]
    | taken _ ran =>
      obtain ⟨reads, -, given, -, -, -, -⟩ := Machine.run_spec ran
      have := congrArg List.length given
      simp only [Machine.feed, List.append_nil, List.length_append] at this
      simp only [headQueue, Machine.drained]
      omega

/-! ## One pass after the other -/

/-- How a ring that has one more pass to make comes to an outcome. -/
inductive Continues (fuel : Nat) (phases : List Int) (passes : Nat) (stages : List RingStage)
    (last : Option Int) : Except Fault (Option Int) → Prop where
  /-- A stage fails. -/
  | failed {fault : Fault} (execution : fault.isExecutionFault) :
      Continues fuel phases passes stages last (.error fault)
  /-- An output of the last stage finds the first one at its end. -/
  | refused {after : List RingStage} {value : Int} {rest : List Int} {moved : Bool}
      (sweep : Sweep fuel (tailStopped stages) [] stages after (value :: rest) moved)
      (halted : headHalted after = true) :
      Continues fuel phases passes stages last (.ok (some value))
  /-- All stages have stopped. -/
  | stopped {after : List RingStage} {tail : List Int} {moved : Bool}
      (sweep : Sweep fuel (tailStopped stages) [] stages after tail moved)
      (fed : relay after none tail = .fed (feedHead tail after) (tail.getLast?.or none))
      (all : after.all (·.stopped) = true) :
      Continues fuel phases passes stages last (.ok (tail.getLast?.or last))
  /-- Nothing has happened. -/
  | idle {after : List RingStage} {tail : List Int}
      (sweep : Sweep fuel (tailStopped stages) [] stages after tail false)
      (going : after.all (·.stopped) = false) :
      Continues fuel phases passes stages last (.error (Fault.raised (.deadlock phases)))
  /-- The ring goes on. -/
  | onward {after : List RingStage} {tail : List Int} {log : Log}
      {outcome : Except Fault (Option Int)}
      (sweep : Sweep fuel (tailStopped stages) [] stages after tail true)
      (fed : relay after none tail = .fed (feedHead tail after) (tail.getLast?.or none))
      (going : after.all (·.stopped) = false)
      (later : (ringFrom fuel phases passes (feedHead tail after) (tail.getLast?.or last)
        log).result = some outcome) :
      Continues fuel phases passes stages last outcome

theorem ringFrom_continues {fuel passes : Nat} {phases : List Int} {stages : List RingStage}
    {last : Option Int} {log : Log} {outcome : Except Fault (Option Int)} (nonempty : stages ≠ [])
    (result : (ringFrom fuel phases (passes + 1) stages last log).result = some outcome) :
    Continues fuel phases passes stages last outcome := by
  unfold ringFrom at result
  rcases passed : pass fuel stages log with ⟨_ | fault | ⟨after, tail, moved⟩, log'⟩
  · simp [passed, Report.unfinished] at result
  · simp only [passed, Report.failure, Option.some.injEq] at result
    subst result
    exact .failed (passFrom_error (show (pass fuel stages log).result = _ by rw [passed]))
  · have sweep := pass_iff_sweep.mp (show (pass fuel stages log).result = _ by rw [passed])
    dsimp only at sweep
    have nonempty' : after ≠ [] := by
      rw [← List.length_pos_iff, sweep.length_eq]
      exact List.length_pos_iff.mpr nonempty
    simp only [passed] at result
    rcases relay_cases nonempty' tail with ⟨halted, value, rest, rfl, relayed⟩ | relayed
    · simp only [relayed, Report.answer, Option.some.injEq] at result
      subst result
      exact .refused sweep halted
    · simp only [relayed, feedHead_all] at result
      cases all : after.all (·.stopped) with
      | true =>
        simp only [all, ↓reduceIte, Report.answer, Option.some.injEq] at result
        subst result
        exact .stopped sweep (relayed none) all
      | false =>
        cases moved with
        | false =>
          simp only [all, Bool.false_eq_true, ↓reduceIte, Bool.not_false, Report.failure,
            Option.some.injEq] at result
          subst result
          exact .idle sweep all
        | true =>
          simp only [all, Bool.false_eq_true, ↓reduceIte, Bool.not_true] at result
          exact .onward sweep (relayed none) all result

/-! ## What a ring has done in all -/

/-- What a ring has done so far: all outputs of its last stage, how many inputs its first stage
has read, and its stages. -/
structure RingHistory where
  tail : List Int := []
  headReads : Nat := 0
  stages : List RingStage

/-- The history of a ring after up to `passes` more passes. -/
def historyFrom (fuel : Nat) : (passes : Nat) → RingHistory → RingHistory
  | 0, h => h
  | passes + 1, h =>
    match (pass fuel h.stages #[]).result with
    | some (.ok swept) =>
      let tail := h.tail ++ swept.tail
      let headReads := h.headReads + (headQueue h.stages - headQueue swept.stages)
      match relay swept.stages none swept.tail with
      | .final _ => ⟨tail, headReads, swept.stages⟩
      | .fed stages _ =>
        if stages.all (·.stopped) || !swept.progressed then ⟨tail, headReads, stages⟩
        else historyFrom fuel passes ⟨tail, headReads, stages⟩
    | _ => h

/-- The history of a ring, bounded in the same way as `ring` itself. -/
def ringHistory (settings : Settings) (fuel : Nat) (program : Program) (phases : List Int)
    (signal : Int) : RingHistory :=
  match program.load with
  | .error _ => { stages := [] }
  | .ok cells =>
    historyFrom fuel fuel { stages := primeHead signal (ringStages settings cells 0 phases) }

/-- A solution of the loop tells what a ring has done that returned the given signal. -/
structure Explains {start : Core} {phases : List Int} {signal : Int}
    (s : Solution .loop start phases signal) (h : RingHistory) (returned : Option Int) : Prop where
  tail : h.tail = s.stream phases.length
  clean : ∀ k < phases.length, ∃ outcome, s.outcome k = .ok outcome
  counted : h.headReads + (s.unread 0).length = (initially phases signal 0 ++ s.stream 0).length
  length : h.stages.length = phases.length
  unread : ∀ k stage, h.stages[k + 1]? = some stage → s.unread (k + 1) = stage.machine.inputs
  /-- The loop has no solution in which all stages lack an input. -/
  lively : ∀ s' : Solution .loop start phases signal,
    ∃ k < phases.length, s'.outcome k = .ok .halted
  /-- The ring returns a late output of its last stage. -/
  late : ∃ j, returned = h.tail[j]? ∧ (h.tail ≠ [] → j < h.tail.length) ∧
    min (h.headReads - 2) (h.tail.length - 1) ≤ j

/-- A history tells what a ring has done so far whose stages have written the given streams. -/
structure Recounts (start : Core) (phases : List Int) (signal : Int) (h : RingHistory)
    (stream : Nat → List Int) : Prop where
  state : RingState start phases signal (tailStopped h.stages) h.stages stream
  round : stream 0 = stream phases.length
  collected : h.tail = stream phases.length
  counted : h.headReads + headQueue h.stages = (initially phases signal 0 ++ stream 0).length

section

variable {start : Core} {phases : List Int} {signal : Int} {h : RingHistory}
  {stages after : List RingStage} {stream : Nat → List Int} {tail : List Int} {moved : Bool}
  {fuel : Nat} {returned : Option Int}

theorem length_initially_zero (nonempty : phases ≠ []) (signal : Int) :
    (initially phases signal 0).length = 2 := by
  cases phases with
  | nil => exact absurd rfl nonempty
  | cons phase rest => simp [initially, primed]

/-- What the first stage has read by the end of a pass, and what then waits for it. -/
theorem Recounts.counted_after (recounts : Recounts start phases signal h stream)
    (sweep : Sweep fuel (tailStopped h.stages) [] h.stages after tail moved) :
    h.headReads + (headQueue h.stages - headQueue after) + headQueue after =
      (initially phases signal 0 ++ stream 0).length := by
  have shrunk := sweep.headQueue_le
  rw [← recounts.counted]
  omega

/-- The history of a pass that the ring goes on from. -/
theorem Recounts.onward (recounts : Recounts start phases signal h stream)
    (nonempty : phases ≠ [])
    (sweep : Sweep fuel (tailStopped h.stages) [] h.stages after tail moved)
    (going : after.all (·.stopped) = false) :
    ∃ stream', Recounts start phases signal ⟨h.tail ++ tail,
      h.headReads + (headQueue h.stages - headQueue after), feedHead tail after⟩ stream' := by
  obtain ⟨stream', state', round', last⟩ :=
    recounts.state.onward nonempty recounts.round sweep going
  refine ⟨stream', state', round', ?_, ?_⟩
  · rw [last, recounts.collected]
  · have inhabited : after ≠ [] := by
      rw [← List.length_pos_iff, sweep.length_eq, recounts.state.length]
      exact List.length_pos_iff.mpr nonempty
    rw [round', last, ← recounts.round, ← List.append_assoc, List.length_append,
      ← recounts.counted_after sweep, headQueue_feedHead inhabited]
    dsimp only
    omega

/-- A pass after which all stages have stopped is explained by a solution of the loop. -/
theorem Recounts.explained (recounts : Recounts start phases signal h stream)
    (nonempty : phases ≠ [])
    (sweep : Sweep fuel (tailStopped h.stages) [] h.stages after tail moved)
    (stopped : ∀ stage ∈ after, stage.stopped = true) (length : stages.length = after.length)
    (same : ∀ k, stages[k + 1]? = after[k + 1]?)
    (late : ∃ j, returned = (h.tail ++ tail)[j]? ∧
      (h.tail ++ tail ≠ [] → j < (h.tail ++ tail).length) ∧
      min (h.headReads + (headQueue h.stages - headQueue after) - 2)
        ((h.tail ++ tail).length - 1) ≤ j) :
    ∃ s : Solution .loop start phases signal, Explains s ⟨h.tail ++ tail,
      h.headReads + (headQueue h.stages - headQueue after), stages⟩ returned := by
  obtain ⟨stream', first, last, state⟩ := recounts.state.sweep sweep
  have silent : tailStopped h.stages = true → tail = [] := fun stopped =>
    sweep.tail_silent (fun _ => rfl) (fun _ => stopped)
  have around : stream' 0 ++ tail = stream' phases.length := by
    rw [first, last, recounts.round]
  have fed := state.fed silent around id
  have all : ∀ stage ∈ feedHead tail after, stage.stopped = true := by
    rw [← List.all_eq_true, feedHead_all]
    exact List.all_eq_true.mpr stopped
  have ended := fed.orderly.ended all
  obtain ⟨s, streams, ends⟩ := fed.solution (by simp)
    (fun stage member => let ⟨outcome, ended⟩ := ended stage member; ⟨_, ended⟩)
  refine ⟨s, ?_, ?_, ?_, length.trans state.length, ?_, ?_, late⟩
  · rw [recounts.collected, ← last, streams]
    simp [nonempty]
  · intro k within
    rw [← fed.length] at within
    have there := List.getElem?_eq_getElem within
    obtain ⟨outcome, ended⟩ := ended _ (List.mem_of_getElem? there)
    exact ⟨outcome, Option.some.inj ((ends k _ there).2.symm.trans ended)⟩
  · have counted := recounts.counted_after sweep
    cases after with
    | nil => exact absurd rfl (state.inhabited nonempty)
    | cons head others =>
      have fed : s.stream 0 = stream 0 ++ tail := by simp [streams, ← around, first]
      rw [(ends 0 _ rfl).1, fed]
      simp only [headQueue, List.length_append, Machine.feed] at counted ⊢
      omega
  · intro k stage there
    rw [same] at there
    exact (ends (k + 1) stage (by rw [feedHead_getElem?]; exact there)).1
  · intro s'
    have member := List.getLast_mem (state.inhabited nonempty)
    exact state.halted_somewhere ⟨_, member, stopped _ member⟩ s'

theorem late_of_last (outputs : List Int) (least : Nat) :
    ∃ j, outputs.getLast? = outputs[j]? ∧ (outputs ≠ [] → j < outputs.length) ∧
      min least (outputs.length - 1) ≤ j := by
  refine ⟨outputs.length - 1, List.getLast?_eq_getElem?, ?_, by omega⟩
  intro some
  have := List.length_pos_iff.mpr some
  omega

/-- A ring that returns is explained by a solution of the loop. -/
theorem ringFrom_explained (nonempty : phases ≠ []) {passes : Nat} {log : Log}
    (recounts : Recounts start phases signal h stream)
    (success : (ringFrom fuel phases passes h.stages h.tail.getLast? log).result =
      some (.ok returned)) :
    ∃ s : Solution .loop start phases signal, Explains s (historyFrom fuel passes h) returned := by
  induction passes generalizing h stream log with
  | zero => simp [ringFrom, Report.unfinished] at success
  | succ passes ih =>
    have again {after : List RingStage} {tail : List Int} {moved : Bool}
        (sweep : Sweep fuel (tailStopped h.stages) [] h.stages after tail moved) :
        (pass fuel h.stages #[]).result = some (.ok ⟨after, tail, moved⟩) :=
      pass_iff_sweep.mpr sweep
    generalize outcome : (Except.ok returned : Except Fault (Option Int)) = result at success
    cases ringFrom_continues (recounts.state.inhabited nonempty) success with
    | failed _ => cases outcome
    | idle _ _ => cases outcome
    | @refused after value rest moved sweep halted =>
      -- The first stage is at its end, and so all stages have stopped in this pass.
      cases outcome
      simp only [historyFrom, again sweep, relay_of_halted halted]
      obtain ⟨_, -, -, state⟩ := recounts.state.sweep sweep
      refine recounts.explained nonempty sweep
        (sweep.all_stopped_of_headHalted state.orderly halted) rfl (fun _ => rfl)
        ⟨h.tail.length, by simp, by simp, ?_⟩
      have counted := recounts.counted_after sweep
      rw [List.length_append, length_initially_zero nonempty, recounts.round,
        ← recounts.collected] at counted
      omega
    | @stopped after tail moved sweep fed all =>
      cases outcome
      simp only [historyFrom, again sweep, fed, feedHead_all, all, Bool.true_or, ↓reduceIte]
      rw [← List.getLast?_append]
      exact recounts.explained nonempty sweep (List.all_eq_true.mp all) (feedHead_length _ _)
        (feedHead_getElem? _ _) (late_of_last _ _)
    | @onward after tail log' result sweep fed going later =>
      cases outcome
      simp only [historyFrom, again sweep, fed, feedHead_all, going, Bool.not_true, Bool.or_self,
        Bool.false_eq_true, ↓reduceIte]
      rw [← List.getLast?_append] at later
      obtain ⟨stream', recounts'⟩ := recounts.onward nonempty sweep going
      exact ih recounts' later

end

/-! ## Before the first pass -/

section

variable {settings : Settings} {fuel : Nat} {program : Program} {cells phases : List Int}
  {signal : Int}

theorem ringStages_getElem? (index k : Nat) :
    (ringStages settings cells index phases)[k]? =
      phases[k]?.map fun phase =>
        { machine := Machine.ofCells settings cells
            { inputs := [phase], name := stageName (index + k) } } := by
  induction phases generalizing index k with
  | nil => simp [ringStages]
  | cons phase rest ih =>
    cases k with
    | zero => simp [ringStages]
    | succ k =>
      simp only [ringStages, List.getElem?_cons_succ, ih]
      rw [show index + 1 + k = index + (k + 1) by omega]

theorem ringStages_length (index : Nat) :
    (ringStages settings cells index phases).length = phases.length := by
  induction phases generalizing index with
  | nil => rfl
  | cons phase rest ih => simp [ringStages, ih]

theorem primeHead_eq_feedHead (signal : Int) (stages : List RingStage) :
    primeHead signal stages = feedHead [signal] stages := by
  cases stages <;> rfl

theorem orderly_of_running {feederStopped : Bool} {stages : List RingStage}
    (running : ∀ stage ∈ stages, stage.stopped = false ∧ stage.machine.halted = false) :
    Orderly feederStopped stages := by
  induction stages generalizing feederStopped with
  | nil => trivial
  | cons head others ih =>
    rw [List.forall_mem_cons] at running
    exact ⟨by simp [running.1.1], fun _ => running.1.2, ih running.2⟩

/-- The stages of a ring before its first pass. -/
theorem primed_getElem? {k : Nat} {stage : RingStage}
    (there : (primeHead signal (ringStages settings cells 0 phases))[k]? = some stage) :
    stage.stopped = false ∧
      stage.machine = Machine.ofCells settings cells
        { inputs := initially phases signal k, name := stageName k } := by
  rw [primeHead_eq_feedHead] at there
  cases k with
  | zero =>
    cases phases with
    | nil => simp [ringStages, feedHead] at there
    | cons phase rest =>
      cases Option.some.inj there
      exact ⟨rfl, rfl⟩
  | succ k =>
    rw [feedHead_getElem?, ringStages_getElem?, Nat.zero_add] at there
    obtain ⟨phase, placed, rfl⟩ := Option.map_eq_some_iff.mp there
    exact ⟨rfl, by simp [initially, placed, primed]⟩

theorem RingState.init (settings : Settings) (cells phases : List Int) (signal : Int)
    {feederStopped : Bool} :
    RingState (startCore settings cells) phases signal feederStopped
      (primeHead signal (ringStages settings cells 0 phases)) (fun _ => []) := by
  have running : ∀ stage ∈ primeHead signal (ringStages settings cells 0 phases),
      stage.stopped = false ∧ stage.machine.halted = false := by
    intro stage member
    obtain ⟨k, there⟩ := List.mem_iff_getElem?.mp member
    obtain ⟨going, same⟩ := primed_getElem? there
    exact ⟨going, by rw [same]; rfl⟩
  refine ⟨?_, ?_, orderly_of_running running, ?_, fun _ _ _ => List.nil_prefix⟩
  · rw [primeHead_eq_feedHead, feedHead_length]
    exact ringStages_length 0
  · intro k stage there
    obtain ⟨-, same⟩ := primed_getElem? there
    rw [same]
    exact ⟨⟨[], by simp [Machine.ofCells], .stay _⟩, rfl⟩
  · rintro ⟨stage, member, stopped⟩
    cases (running stage member).1.symm.trans stopped

/-- A ring that returns is explained by a solution of the loop. -/
theorem ring_explained {returned : Option Int}
    (success : (ring settings fuel program phases signal).result = some (.ok returned)) :
    phases ≠ [] ∧ ∃ cells, program.load = .ok cells ∧
      ∃ s : Solution .loop (startCore settings cells) phases signal,
        Explains s (ringHistory settings fuel program phases signal) returned := by
  unfold ring at success
  split at success
  · cases success
  next inhabited =>
    have nonempty : phases ≠ [] := by simpa using inhabited
    cases loaded : program.load with
    | error fault => simp [loaded, Report.failure] at success
    | ok cells =>
      simp only [loaded] at success
      refine ⟨nonempty, cells, rfl, ?_⟩
      simp only [ringHistory, loaded]
      refine ringFrom_explained nonempty
        (h := { stages := primeHead signal (ringStages settings cells 0 phases) })
        ⟨RingState.init settings cells phases signal, rfl, rfl, ?_⟩ success
      cases phases with
      | nil => exact absurd rfl nonempty
      | cons phase rest => rfl

end

end Intcode.Pipeline
