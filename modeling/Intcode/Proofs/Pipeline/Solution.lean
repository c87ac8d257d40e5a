import Intcode.Proofs.Pipeline.Rest

/-!
# Solutions of a pipeline

A solution assigns to every channel of a pipeline all the values that will ever be sent on it, in
such a way that each stage, given the values of its own channel at once, writes those of the next
one and comes to an end. A solution knows nothing of turns or of who moves first. It confines
every schedule: what has been sent on a channel is a part of what the solution says
(`Solution.sent_isPrefix`), a stage that stops does so in the solution's way, or because its
receiver has hung up on it (`Solution.stopped`), and a channel that is closed without a refusal
has carried everything (`Solution.sent_complete`).
-/
namespace Intcode.Pipeline

open Network

/-- All values that are sent on each channel, the inputs that each stage leaves unread, where it
comes to an end and how. -/
structure Solution (wiring : Wiring) (start : Core) (phases : List Int) (signal : Int) where
  stream : Nat → List Int
  unread : Nat → List Int
  final : Nat → Core
  outcome : Nat → Except Fault Outcome
  run : ∀ k < phases.length, ∃ reads,
    initially phases signal k ++ stream k = reads ++ unread k ∧
      start.Runs reads (stream (k + 1)) (final k)
  ended : ∀ k < phases.length, (final k).ending (unread k) = some (outcome k)
  closure : stream 0 = if wiring = .loop then stream phases.length else []

section

variable {wiring : Wiring} {settings : Settings} {cells phases : List Int} {signal : Int}
  {moves : Moves} {n : Network}

/-- What holds of the sender's side of every channel before anything moves, and passes from the
inbound channel of every agent to its outbound one, holds at all times. -/
theorem sender_induction {P : Nat → List Int → (closed refused : Bool) → Prop}
    (nonempty : phases ≠ []) (first : ∀ k ≤ phases.length, P k [] false false)
    (law : ∀ {moves n}, (network wiring settings cells phases signal).Schedule moves n →
      ∀ i ≤ phases.length,
        P i (traffic moves i).sent (traffic moves i).closed (traffic moves i).refused →
        P (outlet phases.length i) (traffic moves (outlet phases.length i)).sent
          (traffic moves (outlet phases.length i)).closed
          (traffic moves (outlet phases.length i)).refused)
    (schedule : (network wiring settings cells phases signal).Schedule moves n) :
    ∀ k ≤ phases.length,
      P k (traffic moves k).sent (traffic moves k).closed (traffic moves k).refused := by
  induction schedule with
  | rest => exact first
  | @move moves now i before able ih =>
    have coherent := coherent_of_schedule nonempty before
    obtain ⟨agent, there, -, -, -, between⟩ := coherent.moved able
    have place := coherent.place there
    have frame : ∀ k ≤ phases.length, k ≠ outlet phases.length i →
        P k (traffic (moves ++ [(i, (now.advance i).deed)]) k).sent
          (traffic (moves ++ [(i, (now.advance i).deed)]) k).closed
          (traffic (moves ++ [(i, (now.advance i).deed)]) k).refused := by
      intro k within apart
      obtain ⟨sent, closed, refused⟩ := between.sending_frame (t := traffic moves k) apart
      rw [traffic_append, sent, closed, refused]
      exact ih k within
    intro k within
    by_cases own : k = outlet phases.length i
    · rw [own]
      exact law (before.move able) i place (frame i place (outlet_ne coherent.nonempty))
    · exact frame k within own

end

namespace Solution

variable {wiring : Wiring} {start : Core} {phases : List Int} {signal : Int}
  (s : Solution wiring start phases signal) {k : Nat}

/-- A run of a stage that reads no other values than the solution's is a part of the
solution's. -/
theorem confines (within : k < phases.length) {reads outputs : List Int} {c : Core}
    (run : start.Runs reads outputs c)
    (inside : reads <+: initially phases signal k ++ s.stream k) :
    outputs <+: s.stream (k + 1) ∧ c.steps ≤ (s.final k).steps := by
  obtain ⟨all, given, whole⟩ := s.run k within
  rw [given] at inside
  obtain ⟨r, o, -, written, later⟩ := whole.confined (s.ended k within) run inside
  exact ⟨written ▸ List.prefix_append _ _, later.steps_le⟩

/-- A run of a stage that comes to an end on values of the solution is the solution's. A lack of
inputs counts as an end only after all of them. -/
theorem concludes (within : k < phases.length) {reads rest outputs : List Int} {c : Core}
    {outcome : Except Fault Outcome} (run : start.Runs reads outputs c)
    (ended : c.ending rest = some outcome)
    (inside : reads ++ rest <+: initially phases signal k ++ s.stream k)
    (fed : outcome = .ok .awaitingInput → reads ++ rest = initially phases signal k ++ s.stream k) :
    outputs = s.stream (k + 1) ∧ outcome = s.outcome k ∧
      initially phases signal k ++ s.stream k = reads ++ s.unread k := by
  obtain ⟨all, given, whole⟩ := s.run k within
  rw [given] at inside fed ⊢
  obtain ⟨-, rfl, written, same⟩ := whole.ending_unique (s.ended k within) run ended inside fed
  exact ⟨written, same, rfl⟩

/-- How a stage has stopped, if the solution confines it. -/
inductive Stopped (k : Nat) (a : Amplifier) (l : Ledger) : Prop where
  | concluded (outcome : Outcome) (same : s.outcome k = .ok outcome) (accepted : l.refused = false)
      (all : l.sent = s.stream (k + 1)) (clean : a.error = none)
      (consumed : (initially phases signal k ++ s.stream k).length ≤
        l.taken.length + (s.unread k).length)
  | failed (fault : Fault) (same : s.outcome k = .error fault) (accepted : l.refused = false)
      (kept : a.error = Amplifier.keptFault fault)
  | refused (refused : l.refused = true) (held : l.sent.length < (s.stream (k + 1)).length)
      (kept : ∃ channel value, a.error = some (.channelClosed channel value))

/-- A stage that has stopped has done so in the solution's way, or because its receiver has hung
up on it. -/
theorem stopped (within : k < phases.length) {a : Amplifier} {l : Ledger} {dry : Prop}
    {reads unsent : List Int} (tracks : a.Tracks start l reads unsent)
    (cause : a.Cause l dry unsent)
    (inside : l.taken <+: initially phases signal k ++ s.stream k)
    (fed : dry → l.taken = initially phases signal k ++ s.stream k) : s.Stopped k a l := by
  have taken := tracks.taken
  rw [taken] at inside fed
  have shorter : reads.length ≤ l.taken.length := by
    rw [taken, List.length_append]
    omega
  cases cause with
  | halted halts all accepted clean =>
    obtain ⟨written, same, rest⟩ :=
      s.concludes within tracks.run (Core.ending_of_halt halts) inside (by simp)
    rw [all, List.append_nil] at written
    apply Stopped.concluded .halted same.symm accepted written clean
    rw [rest, List.length_append]
    omega
  | starved asks noInput all accepted clean atEnd =>
    obtain ⟨next, acts⟩ := asks
    have ends : a.machine.core.ending a.machine.inputs = some (.ok .awaitingInput) := by
      rw [noInput]
      exact Core.ending_of_starved acts
    obtain ⟨written, same, rest⟩ :=
      s.concludes within tracks.run ends inside (fun _ => fed atEnd)
    rw [all, List.append_nil] at written
    apply Stopped.concluded .awaitingInput same.symm accepted written clean
    rw [rest, List.length_append]
    omega
  | failed fault fails all accepted kept =>
    obtain ⟨-, same, -⟩ := s.concludes within tracks.run fails inside (by simp)
    exact .failed fault same.symm accepted kept
  | refused refused held kept =>
    obtain ⟨written, -⟩ := s.confines within tracks.run ((List.prefix_append _ _).trans inside)
    refine .refused refused ?_ kept
    have := written.length_le
    have := List.length_pos_iff.mpr held
    rw [List.length_append] at *
    omega

section Schedules

variable {settings : Settings} {cells : List Int} {moves : Moves} {n : Network}
  (s : Solution wiring (startCore settings cells) phases signal)

/-- What has been sent on a channel is a part of what the solution says. -/
theorem sent_isPrefix (nonempty : phases ≠ [])
    (schedule : (network wiring settings cells phases signal).Schedule moves n) :
    ∀ k ≤ phases.length, (traffic moves k).sent <+: s.stream k := by
  refine sender_induction (P := fun k sent _ _ => sent <+: s.stream k) nonempty
    (fun _ _ => List.nil_prefix) ?_ schedule
  intro moves n schedule i place sofar
  have coherent := coherent_of_schedule nonempty schedule
  have received := (coherent.carries i place).received_isPrefix
  unfold outlet
  split
  case isTrue last =>
    subst last
    rw [initially_relay, List.nil_append] at received
    obtain ⟨r, -, loops, follows⟩ := coherent.relay
    have forwarded := follows.stands.sent_isPrefix
    rw [loops] at forwarded
    rw [s.closure]
    by_cases loop : wiring = .loop
    · rw [if_pos (decide_eq_true loop)] at forwarded
      rw [if_pos loop]
      exact forwarded.trans (received.trans sofar)
    · rw [if_neg (by simpa using loop)] at forwarded
      rw [if_neg loop]
      exact forwarded
  case isFalse stage =>
    have within : i < phases.length := by omega
    obtain ⟨a, -, -, reads, unsent, tracks, -⟩ := coherent.stage within
    have inside : reads <+: (traffic moves i).received := tracks.reads_isPrefix
    have fed := (List.prefix_append_right_inj (initially phases signal i)).mpr sofar
    obtain ⟨written, -⟩ := s.confines within tracks.run (inside.trans (received.trans fed))
    exact (List.prefix_append _ _).trans written

theorem received_isPrefix (nonempty : phases ≠ [])
    (schedule : (network wiring settings cells phases signal).Schedule moves n)
    (within : k ≤ phases.length) :
    (traffic moves k).received <+: initially phases signal k ++ s.stream k :=
  ((coherent_of_schedule nonempty schedule).carries k within).received_isPrefix.trans
    ((List.prefix_append_right_inj _).mpr (s.sent_isPrefix nonempty schedule k within))

/-- A channel that is closed without a refusal has carried everything, if the stages before it do
not fail. In a loop all stages come before any channel. -/
theorem sent_complete (nonempty : phases ≠ [])
    (schedule : (network wiring settings cells phases signal).Schedule moves n) {bound : Nat}
    (clean : ∀ k < bound, ∃ outcome, s.outcome k = .ok outcome)
    (whole : wiring = .loop → phases.length ≤ bound) :
    ∀ k ≤ phases.length, k ≤ bound → (traffic moves k).closed = true →
      (traffic moves k).refused = false → (traffic moves k).sent = s.stream k := by
  refine sender_induction
    (P := fun k sent closed refused =>
      k ≤ bound → closed = true → refused = false → sent = s.stream k)
    nonempty (fun _ _ _ closed => by cases closed) ?_ schedule
  intro moves n schedule i place complete
  have coherent := coherent_of_schedule nonempty schedule
  unfold outlet
  split
  case isTrue last =>
    subst last
    intro _ closed accepted
    obtain ⟨r, -, loops, follows⟩ := coherent.relay
    rw [s.closure]
    by_cases loop : wiring = .loop
    · rw [if_pos loop]
      cases follows.stands.cause_of_closed (by simpa using loops.trans (decide_eq_true loop))
          closed with
      | finished dry _ all =>
        have received := dry.received
        rw [initially_relay, List.nil_append] at received
        rw [← complete (whole loop) dry.closed dry.accepted, ← received]
        exact all
      | refused _ refused _ => cases accepted.symm.trans refused
    · have nothing := follows.stands.sent_isPrefix
      rw [loops, if_neg (by simpa using loop)] at nothing
      rw [if_neg loop]
      exact List.prefix_nil.mp nothing
  case isFalse stage =>
    have within : i < phases.length := by omega
    intro bounded closed accepted
    obtain ⟨a, -, -, reads, unsent, tracks, stands⟩ := coherent.stage within
    obtain ⟨-, -, cause⟩ := stands.of_ended (stands.ended_iff.mp closed)
    have fed : Dry (initially phases signal i) (traffic moves i) →
        (traffic moves i).received = initially phases signal i ++ s.stream i := by
      intro dry
      rw [dry.received, complete (by omega) dry.closed dry.accepted]
    cases s.stopped within tracks cause (s.received_isPrefix nonempty schedule place) fed with
    | concluded _ _ _ all _ _ => exact all
    | failed fault failed _ _ =>
      obtain ⟨outcome, succeeded⟩ := clean i (by omega)
      cases failed.symm.trans succeeded
    | refused refused _ _ => cases accepted.symm.trans refused

/-- A stage that has ended has stopped in the solution's way, or was cut off. -/
theorem stage_stopped (nonempty : phases ≠ [])
    (schedule : (network wiring settings cells phases signal).Schedule moves n)
    {bound : Nat} (clean : ∀ k < bound, ∃ outcome, s.outcome k = .ok outcome)
    (whole : wiring = .loop → phases.length ≤ bound) (within : k < phases.length)
    (bounded : k ≤ bound) {a : Amplifier} (there : n.agents[k]? = some (.amplifier a))
    (ended : a.activity = .ended) : s.Stopped k a (ledger moves k (k + 1)) := by
  have coherent := coherent_of_schedule nonempty schedule
  obtain ⟨a', there', -, reads, unsent, tracks, stands⟩ := coherent.stage within
  cases there.symm.trans there'
  obtain ⟨-, -, cause⟩ := stands.of_ended ended
  apply s.stopped within tracks cause (s.received_isPrefix nonempty schedule (by omega))
  intro dry
  have all := s.sent_complete nonempty schedule clean whole k (by omega) bounded dry.closed
    dry.accepted
  exact all ▸ dry.received

/-- A pipeline that is over blames no stage that does not fail in the solution. -/
theorem blameless (nonempty : phases ≠ [])
    (schedule : (network wiring settings cells phases signal).Schedule moves n)
    (finished : isOver n = true) {bound : Nat}
    (clean : ∀ k < bound, ∃ outcome, s.outcome k = .ok outcome)
    (whole : wiring = .loop → phases.length ≤ bound) (bounded : k < bound) {a : Amplifier}
    (there : n.agents[k]? = some (.amplifier a)) : stageFailure? (.amplifier a) = none := by
  have coherent := coherent_of_schedule nonempty schedule
  have within : k < phases.length := (coherent.serves k _ there).role.1
  have ended := coherent.stage_ended finished there
  cases s.stage_stopped nonempty schedule clean whole within (Nat.le_of_lt bounded) there ended with
  | concluded _ _ _ _ clean _ => simp [stageFailure?, clean]
  | failed fault failed _ _ =>
    obtain ⟨outcome, succeeded⟩ := clean k bounded
    cases failed.symm.trans succeeded
  | refused _ _ kept =>
    obtain ⟨channel, value, kept⟩ := kept
    simp [stageFailure?, kept, Fault.isChannelClosed]

end Schedules

end Solution

end Intcode.Pipeline
