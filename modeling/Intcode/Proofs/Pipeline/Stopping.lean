import Intcode.Proofs.Machine.Requests
import Intcode.Proofs.Machine.Resumption
import Intcode.Proofs.Pipeline.Passes

/-!
# How a ring stops

A stop spreads: in the same pass to all stages behind the one that has stopped, and in the next
pass, around the end of the ring, to those before it (`StopSpreads`). So a ring in which a stage has
stopped ends within one more pass, and never in a deadlock. A ring whose first stage halts ends in
that very pass. And a ring ends in a deadlock if and only if it begins a pass in which every stage
waits for an input that is not there (`ring_stops`).
-/
namespace Intcode.Pipeline

section

variable {fuel : Nat} {feederStopped moved : Bool} {handed tail : List Int} {stage : RingStage}
  {stages after : List RingStage}

end

/-! ## Verdicts -/

section

variable {fuel : Nat} {phases : List Int} {stages : List RingStage} {last : Option Int}
  {swept : Pass}

/-- Once all stages have stopped and the first one has halted, the first output of the last stage
is what the ring returns. -/
theorem Pass.verdict_of_headHalted (halted : headHalted swept.stages = true)
    (stopped : ∀ stage ∈ swept.stages, stage.stopped = true) :
    swept.verdict phases last = some (.ok (swept.tail.head?.or last)) := by
  have all : swept.stages.all (·.stopped) = true := List.all_eq_true.mpr stopped
  unfold verdict
  cases swept.tail with
  | nil => simp only [relay, all, ↓reduceIte, List.head?_nil, Option.none_or]
  | cons value rest =>
    rw [relay_of_halted halted]
    rfl

theorem halted_of_run {m blocked : Machine}
    (ran : m.run fuel = (some (.ok .halted), blocked)) : blocked.halted = true := by
  obtain ⟨-, -, -, -, -, -, outcome⟩ := Machine.run_spec ran
  simp [Machine.halted, outcome _ rfl]

/-- The first stage is left halted by a pass in which it halts. -/
theorem Sweep.headHalted_of_reaches {feederStopped feeder moved : Bool}
    {handed given tail : List Int} {after : List RingStage} {stage : RingStage} {blocked : Machine}
    (sweep : Sweep fuel feederStopped handed stages after tail moved)
    (reaches : Reaches fuel feederStopped handed stages 0 stage feeder given)
    (ran : (stage.machine.feed given).run fuel = (some (.ok .halted), blocked)) :
    headHalted after = true := by
  cases reaches with
  | here going =>
    cases sweep with
    | cons turn _ =>
      obtain ⟨rfl, -, -⟩ := turn.unique (.taken going ran)
      have halted := halted_of_run ran
      exact halted

theorem HaltsAt.headHalted (halts : HaltsAt fuel stages 0)
    (passed : (pass fuel stages #[]).result = some (.ok swept)) :
    headHalted swept.stages = true := by
  obtain ⟨stage, feeder, given, blocked, reaches, ran⟩ := halts
  exact (pass_iff_sweep.mp passed).headHalted_of_reaches reaches ran

/-- A stage that halts stops. -/
theorem HaltsAt.stopsAt {position : Nat} (halts : HaltsAt fuel stages position) :
    StopsAt fuel stages position := by
  obtain ⟨stage, feeder, given, blocked, reaches, ran⟩ := halts
  refine ⟨stage, feeder, given, _, _, _, reaches, .taken reaches.going ran, ?_⟩
  simp [halted_of_run ran]

theorem tailStopped_feedHead (values : List Int) (stages : List RingStage) :
    tailStopped (feedHead values stages) = tailStopped stages := by
  cases stages with
  | nil => rfl
  | cons head others => cases others <;> rfl

theorem StopsAt.spreads {position : Nat} (stops : StopsAt fuel stages position)
    (passed : (pass fuel stages #[]).result = some (.ok swept)) :
    swept.progressed = true ∧ ∀ k, position ≤ k → ∀ stage, swept.stages[k]? = some stage →
      stage.stopped = true := by
  obtain ⟨stage, feeder, given, stage', outputs, moved, reaches, turn, stopped⟩ := stops
  exact (pass_iff_sweep.mp passed).stopped_of_reaches reaches turn stopped

/-- A stop has come to the last stage by the end of the pass. -/
theorem StopsAt.tailStopped {position : Nat} (stops : StopsAt fuel stages position)
    (inhabited : swept.stages ≠ [])
    (passed : (pass fuel stages #[]).result = some (.ok swept)) :
    tailStopped swept.stages = true := by
  have within : position ≤ swept.stages.length - 1 := by
    obtain ⟨_, _, _, _, _, _, reaches, -⟩ := stops
    rw [(pass_iff_sweep.mp passed).length_eq]
    exact Nat.le_sub_one_of_lt reaches.position_lt
  have last := List.getLast?_eq_some_getLast inhabited
  unfold Pipeline.tailStopped
  rw [last]
  rw [List.getLast?_eq_getElem?] at last
  exact (stops.spreads passed).2 _ within _ last

end

/-! ## Rings -/

section

variable {settings : Settings} {fuel : Nat} {program : Program} {phases : List Int} {signal : Int}
  {number position : Nat} {stages : List RingStage} {written : List Int}

/-- A stop has gone around the ring by the end of the next pass. -/
theorem StopsAt.around (nonempty : phases ≠ []) {next : List RingStage} {written' : List Int}
    {swept : Pass} (stops : StopsAt fuel stages position)
    (begins : Begins settings fuel program phases signal number stages written)
    (later : Begins settings fuel program phases signal (number + 1) next written')
    (passed : (pass fuel next #[]).result = some (.ok swept)) :
    ∀ stage ∈ swept.stages, stage.stopped = true := by
  cases later with
  | next before passed' relayed _ _ =>
    obtain ⟨rfl, rfl⟩ := begins.unique before
    have inhabited := begins.inhabited nonempty passed'
    obtain ⟨rfl, -⟩ := relay_fed inhabited relayed
    have sweep := pass_iff_sweep.mp passed
    rw [tailStopped_feedHead, stops.tailStopped inhabited passed'] at sweep
    exact sweep.all_stopped

theorem StopsAt.last (nonempty : phases ≠ []) {number' : Nat} {next : List RingStage}
    {written' : List Int} (stops : StopsAt fuel stages position)
    (begins : Begins settings fuel program phases signal number stages written)
    (later : Begins settings fuel program phases signal number' next written') :
    number' ≤ number + 1 := by
  rcases Nat.le_total number' (number + 1) with within | beyond
  · exact within
  · obtain ⟨_, _, second⟩ := later.earlier beyond
    refine second.le_of_ended ?_ later
    intro swept passed
    obtain ⟨returned, ended⟩ := Pass.verdict_of_stopped phases _
      (second.inhabited nonempty passed) (stops.around nonempty begins second passed)
    rw [ended]
    simp

/-- A ring in which a stage has stopped does not end in a deadlock. -/
theorem StopsAt.outcome (nonempty : phases ≠ []) (stops : StopsAt fuel stages position)
    (begins : Begins settings fuel program phases signal number stages written)
    {outcome : Except Fault (Option Int)}
    (result : (ring settings fuel program phases signal).result = some outcome) :
    (∃ returned, outcome = .ok returned) ∨
      ∃ number' next written' fault, outcome = .error fault ∧
        Begins settings fuel program phases signal number' next written' ∧
          Fails fuel next fault := by
  rcases (ring_eq_some_iff nonempty).mp result with
    ⟨fault, unread, -⟩ | ⟨number', -, next, written', ending, ends⟩
  · obtain ⟨cells, loaded⟩ := begins.loaded
    cases loaded.symm.trans unread
  · have lower := ending.le_of_endsIn ends begins
    have upper := stops.last nonempty begins ending
    cases ends with
    | failed fails => exact Or.inr ⟨number', next, written', _, rfl, ending, fails⟩
    | made passed ended =>
      cases outcome with
      | ok returned => exact Or.inl ⟨returned, rfl⟩
      | error fault =>
        -- The pass of the stop is not idle, and after the next one no stage goes on.
        obtain ⟨-, going, idle⟩ :=
          Pass.verdict_eq_error (ending.inhabited nonempty passed) ended
        rcases Nat.lt_or_eq_of_le lower with less | rfl
        · obtain rfl : number' = number + 1 := by omega
          have stopped := stops.around nonempty begins ending passed
          cases (List.all_eq_true.mpr stopped).symm.trans going
        · obtain ⟨rfl, rfl⟩ := begins.unique ending
          cases idle.symm.trans (stops.spreads passed).1

/-- A ring ends in the pass in which its first stage halts, if that pass is made. -/
theorem HaltsAt.verdict {last : Option Int} {swept : Pass} (halts : HaltsAt fuel stages 0)
    (passed : (pass fuel stages #[]).result = some (.ok swept)) :
    swept.verdict phases last = some (.ok (swept.tail.head?.or last)) := by
  refine Pass.verdict_of_headHalted (halts.headHalted passed) ?_
  intro stage member
  obtain ⟨k, there⟩ := List.mem_iff_getElem?.mp member
  exact (halts.stopsAt.spreads passed).2 k (Nat.zero_le _) stage there

theorem HaltsAt.last {number' : Nat} {next : List RingStage} {written' : List Int}
    (halts : HaltsAt fuel stages 0)
    (begins : Begins settings fuel program phases signal number stages written)
    (later : Begins settings fuel program phases signal number' next written') :
    number' ≤ number := by
  refine begins.le_of_ended ?_ later
  intro swept passed
  simp [halts.verdict passed]

theorem HaltsAt.result (nonempty : phases ≠ []) (halts : HaltsAt fuel stages 0)
    (begins : Begins settings fuel program phases signal number stages written)
    (within : number < fuel) :
    (ring settings fuel program phases signal).result =
      (pass fuel stages #[]).result.map
        (Except.map fun swept => swept.tail.head?.or written.getLast?) := by
  rcases found : (pass fuel stages #[]).result with _ | fault | swept
  · rw [begins.result nonempty (Nat.le_of_lt within),
      show fuel - number = fuel - (number + 1) + 1 by omega, ringFrom_succ, found]
    rfl
  · exact begins.result_of_endsIn nonempty within (.failed (pass_eq_error_iff.mp found))
  · exact begins.result_of_endsIn nonempty within (.made found (halts.verdict found))

end

end Intcode.Pipeline
