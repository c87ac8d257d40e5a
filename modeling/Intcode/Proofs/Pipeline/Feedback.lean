import Intcode.Proofs.Pipeline.Deadlock

/-!
# A loop of agents against a ring by turns

A ring that returns is explained by a solution of the loop, and the solution confines all
schedules of the loop. So these are bounded and end with all agents ended and no failure. The
relay of the loop ends when the last stage has closed, and then it has received all that the ring
has; or when the first stage refuses a value, and that value is the signal. The first stage
refuses only when it has stopped. If it has halted, it has read all that it reads in the ring, and
the value is a late one. But it may also have been cut off, because a stage further on has halted
and hung up with values unread; then the signal may be an early one (`loop_of_ring`,
`loop_of_ring_cutOff`).
-/
namespace Intcode.Pipeline

open Network

/-- How many outputs of the last stage the first one has read. Its first two inputs are its phase
setting and the signal. -/
def RingHistory.consumed (h : RingHistory) : Nat :=
  h.headReads - 2

section

variable {settings : Settings} {cells phases : List Int} {signal : Int} {moves : Moves}
  {n : Network} {s : Solution .loop (startCore settings cells) phases signal} {h : RingHistory}
  {returned : Option Int}

/-- A loop at rest is over, if a solution explains the ring. -/
theorem Explains.finishes (explains : Explains s h returned) (nonempty : phases ≠ [])
    (schedule : (network .loop settings cells phases signal).Schedule moves n)
    (rest : n.AtRest) : isOver n = true := by
  cases finished : isOver n with
  | true => rfl
  | false =>
    obtain ⟨s', starved⟩ :=
      (coherent_of_schedule nonempty schedule).starved_of_stuck ⟨rest, finished⟩
    obtain ⟨k, within, halted⟩ := explains.lively s'
    cases (starved k within).symm.trans halted

/-- How a loop that is over has come to its end. -/
theorem Explains.relayed (explains : Explains s h returned) (nonempty : phases ≠ [])
    (schedule : (network .loop settings cells phases signal).Schedule moves n)
    (finished : isOver n = true) :
    verdict n = .ok (traffic moves phases.length).received.getLast? ∧
      (traffic moves phases.length).received <+: h.tail ∧
      ((traffic moves phases.length).received = h.tail ∨
        (traffic moves 0).refused = true ∧
          (traffic moves phases.length).received.length = (traffic moves 0).sent.length + 1) := by
  have coherent := coherent_of_schedule nonempty schedule
  refine ⟨?_, ?_, ?_⟩
  · apply coherent.verdict_ok
    intro k a there
    exact s.blameless nonempty schedule finished explains.clean (fun _ => Nat.le_refl _)
      (coherent.serves k _ there).role.1 there
  · have inside := s.received_isPrefix nonempty schedule (Nat.le_refl _)
    rwa [initially_relay, List.nil_append, ← explains.tail] at inside
  · obtain ⟨r, there, loops, follows⟩ := coherent.relay
    have closed := follows.stands.closed_of_ended (coherent.relay_ended finished there)
    cases follows.stands.cause_of_closed loops closed with
    | finished dry _ _ =>
      have all := s.sent_complete nonempty schedule explains.clean (fun _ => Nat.le_refl _) _
        (Nat.le_refl _) (Nat.le_refl _) dry.closed dry.accepted
      apply Or.inl
      rw [dry.received, initially_relay, List.nil_append, all, explains.tail]
    | refused value refused held =>
      refine Or.inr ⟨refused, ?_⟩
      rw [show (traffic moves phases.length).received = (traffic moves 0).sent ++ [value] from held]
      simp

/-- If the first stage was not cut off, it has read as much as in the ring before it refuses a
value. -/
theorem Explains.consumed_le (explains : Explains s h returned) (nonempty : phases ≠ [])
    (schedule : (network .loop settings cells phases signal).Schedule moves n)
    (finished : isOver n = true) (uncut : (traffic moves 1).refused = false) :
    h.consumed ≤ (traffic moves 0).sent.length := by
  have coherent := coherent_of_schedule nonempty schedule
  obtain ⟨a, there, -⟩ := coherent.stage coherent.nonempty
  cases s.stage_stopped nonempty schedule explains.clean (fun _ => Nat.le_refl _)
      coherent.nonempty (Nat.zero_le _) there (coherent.stage_ended finished there) with
  | concluded _ _ _ _ _ consumed =>
    have taken := (coherent.carries 0 (Nat.zero_le _)).received_isPrefix.length_le
    have two := length_initially_zero nonempty signal
    rw [← explains.counted, ledger] at consumed
    rw [List.length_append, two] at taken
    unfold RingHistory.consumed
    dsimp only at consumed
    omega
  | failed fault failed _ _ =>
    obtain ⟨outcome, succeeded⟩ := explains.clean 0 coherent.nonempty
    cases failed.symm.trans succeeded
  | refused refused _ _ => cases uncut.symm.trans refused

/-- No stage is cut off, if the stages after it leave nothing unread in the solution. -/
theorem Explains.uncut (explains : Explains s h returned) (nonempty : phases ≠ [])
    (schedule : (network .loop settings cells phases signal).Schedule moves n)
    (finished : isOver n = true) {k : Nat} (within : k < phases.length)
    (read : ∀ j, k < j → j < phases.length → s.unread j = []) :
    (traffic moves (k + 1)).refused = false := by
  have coherent := coherent_of_schedule nonempty schedule
  have stopped : ∀ j a, j < phases.length → n.agents[j]? = some (.amplifier a) →
      s.Stopped j a (ledger moves j (j + 1)) := fun j a inside there =>
    s.stage_stopped nonempty schedule explains.clean (fun _ => Nat.le_refl _) inside
      (Nat.le_of_lt inside) there (coherent.stage_ended finished there)
  -- From the last stage backwards: the relay never hangs up.
  induction left : phases.length - k generalizing k with
  | zero => omega
  | succ left ih =>
    cases cut : (traffic moves (k + 1)).refused with
    | false => rfl
    | true =>
      have hungUp := coherent.refusals (k + 1) within cut
      by_cases last : k + 1 = phases.length
      · obtain ⟨r, -, -, follows⟩ := coherent.relay
        rw [last] at hungUp
        cases follows.listening.symm.trans hungUp
      · have next : k + 1 < phases.length := by omega
        have accepted : (traffic moves (k + 2)).refused = false :=
          ih next (fun j after inside => read j (by omega) inside) (by omega)
        obtain ⟨a, there, -⟩ := coherent.stage within
        obtain ⟨b, there', -⟩ := coherent.stage next
        have held : (traffic moves (k + 1)).sent.length < (s.stream (k + 1)).length := by
          cases stopped k a within there with
          | concluded _ _ accepted _ _ _ => cases accepted.symm.trans cut
          | failed _ _ accepted _ => cases accepted.symm.trans cut
          | refused _ held _ => exact held
        cases stopped (k + 1) b next there' with
        | concluded _ _ _ _ _ consumed =>
          have taken := (coherent.carries (k + 1) within).received_isPrefix.length_le
          rw [read (k + 1) (by omega) next, ledger] at consumed
          simp only [List.length_append, List.length_nil] at consumed taken
          omega
        | failed fault failed _ _ =>
          obtain ⟨outcome, succeeded⟩ := explains.clean (k + 1) next
          cases failed.symm.trans succeeded
        | refused refused _ _ => cases accepted.symm.trans refused

/-- A loop that is over returns an output of the last stage of the ring, if there is any, and a
late one if its first stage was not cut off. -/
theorem Explains.returns (explains : Explains s h returned) (nonempty : phases ≠ [])
    (schedule : (network .loop settings cells phases signal).Schedule moves n)
    (finished : isOver n = true) :
    ∃ j, verdict n = .ok h.tail[j]? ∧ (h.tail ≠ [] → j < h.tail.length) ∧
      ((traffic moves 1).refused = false → min h.consumed (h.tail.length - 1) ≤ j) := by
  obtain ⟨verdict, ⟨rest, split⟩, ends⟩ := explains.relayed nonempty schedule finished
  refine ⟨(traffic moves phases.length).received.length - 1, ?_, ?_, ?_⟩
  · rw [verdict, List.getLast?_eq_getElem?]
    by_cases some : (traffic moves phases.length).received = []
    · rcases ends with all | ⟨-, long⟩
      · rw [← all]
      · simp [some] at long
    · have := List.length_pos_iff.mpr some
      rw [← split, List.getElem?_append_left (by omega)]
  · intro some
    have := List.length_pos_iff.mpr some
    have := congrArg List.length split
    rw [List.length_append] at this
    rcases ends with all | ⟨-, long⟩
    · rw [all]
      omega
    · omega
  · intro uncut
    rcases ends with all | ⟨-, long⟩
    · rw [all]
      omega
    · have := explains.consumed_le nonempty schedule finished uncut
      omega

end

/-- If a ring returns, the schedules of the loop are bounded, and end with all agents ended and no
failure. The loop returns nothing if the last stage of the ring has no output, and otherwise one
of its outputs. It is none of those that the first stage of the ring has read, except perhaps the
last output of all, if no value of the first stage was refused. If moreover the last stage has at
most one output that the first one has not read, the loop returns the same as the ring. No value
of the first stage is refused if the stages after it leave nothing unread in the ring. -/
theorem loop_of_ring {settings : Settings} {fuel : Nat} {program : Program} {phases : List Int}
    {signal : Int} {returned : Option Int} {h : RingHistory}
    (success : (ring settings fuel program phases signal).result = some (.ok returned))
    (recorded : ringHistory settings fuel program phases signal = h) :
    (∃ bound, ∀ moves n, Interleaving .loop settings program phases signal moves n →
      moves.length ≤ bound) ∧
    (∀ moves n, Interleaving .loop settings program phases signal moves n → n.AtRest →
      isOver n = true ∧
      (∃ j, verdict n = .ok h.tail[j]? ∧ (h.tail ≠ [] → j < h.tail.length) ∧
        ((traffic moves 1).refused = false → min h.consumed (h.tail.length - 1) ≤ j)) ∧
      ((traffic moves 1).refused = false → h.tail.length ≤ h.consumed + 1 →
        verdict n = .ok returned) ∧
      ((∀ stage ∈ h.stages.drop 1, stage.machine.inputs = []) →
        (traffic moves 1).refused = false)) ∧
    ((∀ stage ∈ h.stages.drop 1, stage.machine.inputs = []) →
      h.tail.length ≤ h.consumed + 1 →
      AlwaysReports .loop settings program phases signal (.ok returned)) := by
  subst recorded
  obtain ⟨nonempty, cells, loaded, s, explains⟩ := ring_explained success
  generalize ringHistory settings fuel program phases signal = h at explains ⊢
  have same : ∀ moves n, (network .loop settings cells phases signal).Schedule moves n →
      isOver n = true → (traffic moves 1).refused = false → h.tail.length ≤ h.consumed + 1 →
      verdict n = .ok returned := by
    intro moves n schedule finished uncut short
    obtain ⟨j, verdict, inside, late⟩ := explains.returns nonempty schedule finished
    obtain ⟨i, rfl, inside', late'⟩ := explains.late
    rw [verdict]
    by_cases none : h.tail = []
    · simp [none]
    · have := inside none
      have := inside' none
      have := late uncut
      unfold RingHistory.consumed at *
      obtain rfl : i = j := by omega
      rfl
  have uncut : ∀ moves n, (network .loop settings cells phases signal).Schedule moves n →
      isOver n = true → (∀ stage ∈ h.stages.drop 1, stage.machine.inputs = []) →
      (traffic moves 1).refused = false := by
    intro moves n schedule finished read
    apply explains.uncut nonempty schedule finished (List.length_pos_iff.mpr nonempty)
    intro j after within
    obtain ⟨k, rfl⟩ := Nat.exists_eq_succ_of_ne_zero (Nat.ne_of_gt after)
    rw [← explains.length] at within
    have there := List.getElem?_eq_getElem within
    rw [explains.unread k _ there]
    refine read _ (List.mem_of_getElem? (i := k) ?_)
    rw [List.getElem?_drop, Nat.add_comm]
    exact there
  obtain ⟨bound, bounded⟩ := s.schedule_bounded nonempty
  refine ⟨⟨bound, ?_⟩, ?_, ?_⟩
  · rintro moves n ⟨cells', loaded', schedule⟩
    cases loaded.symm.trans loaded'
    exact bounded moves n schedule
  · rintro moves n ⟨cells', loaded', schedule⟩ rest
    cases loaded.symm.trans loaded'
    have finished := explains.finishes nonempty schedule rest
    exact ⟨finished, explains.returns nonempty schedule finished, same moves n schedule finished,
      uncut moves n schedule finished⟩
  · intro read short
    apply s.always_reports nonempty loaded
    intro moves n schedule rest
    have finished := explains.finishes nonempty schedule rest
    exact conclude_result finished
      (same moves n schedule finished (uncut moves n schedule finished read) short)

/-- Adds one to its signal, twice. -/
def twoRounds : List Int :=
  [3, 21, 3, 22, 101, 1, 22, 22, 4, 22, 3, 22, 101, 1, 22, 22, 4, 22, 99]

theorem loop_of_ring_twoRounds :
    AlwaysReports .loop {} (.image twoRounds) [0, 0] 0 (.ok (some 4)) := by
  have returned : (ring {} 20 (.image twoRounds) [0, 0] 0).result = some (.ok (some 4)) := by
    decide +kernel
  have read : ∀ stage ∈ (ringHistory {} 20 (.image twoRounds) [0, 0] 0).stages.drop 1,
      stage.machine.inputs = [] := by
    decide +kernel
  have short : (ringHistory {} 20 (.image twoRounds) [0, 0] 0).tail.length ≤
      (ringHistory {} 20 (.image twoRounds) [0, 0] 0).consumed + 1 := by
    decide +kernel
  exact (loop_of_ring returned rfl).2.2 read short

/-- Passes on all values at phase 0, and writes 10, 20 and 30 after a single value at any other
phase. -/
def cutOff : List Int :=
  [3, 30, 1005, 30, 12, 3, 31, 4, 31, 1106, 0, 5, 3, 31, 104, 10, 104, 20, 104, 30, 99]

/-- The first stage reads all three outputs of the last one in the ring. In the loop it may be
refused when it passes on the first of them, since the second stage has halted. Then it refuses
the second output, which becomes the signal. -/
theorem loop_of_ring_cutOff :
    (ring {} 40 (.image cutOff) [0, 1, 0] 7).result = some (.ok (some 30)) ∧
      (ringHistory {} 40 (.image cutOff) [0, 1, 0] 7).tail = [10, 20, 30] ∧
      (ringHistory {} 40 (.image cutOff) [0, 1, 0] 7).consumed = 3 ∧
      ∃ moves n, Interleaving .loop {} (.image cutOff) [0, 1, 0] 7 moves n ∧ n.AtRest ∧
        verdict n = .ok (some 20) := by
  refine ⟨by decide +kernel, by decide +kernel, by decide +kernel, ?_⟩
  have loaded : (Program.image cutOff).load = .ok cutOff := rfl
  have replayed : (replay (.replicate 13 0 ++ .replicate 18 1 ++ .replicate 27 2 ++
      .replicate 2 3 ++ .replicate 8 0 ++ .replicate 3 3) []
      (network .loop {} cutOff [0, 1, 0] 7)).map
      (fun after => (isOver after.2, (verdict after.2).toOption)) =
      some (true, some (some 20)) := by
    decide +kernel
  obtain ⟨moves, n, interleaving, seen⟩ := Interleaving.of_replay loaded replayed
  simp only [Prod.mk.injEq] at seen
  refine ⟨moves, n, interleaving, atRest_of_isOver seen.1, ?_⟩
  cases reached : verdict n with
  | error fault => simp [reached, Except.toOption] at seen
  | ok value => simpa [reached, Except.toOption] using seen.2

end Intcode.Pipeline
