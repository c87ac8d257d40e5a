import Intcode.Proofs.Pipeline.Rest

/-!
# A chain does not depend on the order of moves

Take any two schedules of one chain. What they send on a channel agrees as far as both have come
(`Coherent.sent_agree`). If the first is over and its sender on a channel was never refused, then
it has sent everything there that the second one has (`Coherent.sent_all`): a sender that ran dry
was given at least as much as the other, and one that halted or failed comes to the same end on
all inputs that agree with its own, so that the other can have sent no more. The channel of the
relay refuses nothing, and so the relay receives the same values in all schedules that are over
(`chain_received_unique`).

A sender that was refused may well have sent less than in another schedule. That is seen by
nobody: its receiver has read all that it will ever read.
-/
namespace Intcode.Pipeline

open Network

section

variable {start : Core} {phases : List Int} {signal : Int} {moves moves' : Moves}
  {n n' : Network} {k : Nat}

theorem Coherent.chain_sent_head (coherent : Coherent .chain start phases signal moves n) :
    (traffic moves 0).sent = [] := by
  obtain ⟨r, -, loops, follows⟩ := coherent.relay
  have nothing := follows.stands.sent_isPrefix
  rw [loops, if_neg (by simp)] at nothing
  exact List.prefix_nil.mp nothing

/-- The values received on a channel agree if those sent on it do. -/
theorem Coherent.received_agree (one : Coherent .chain start phases signal moves n)
    (other : Coherent .chain start phases signal moves' n') (within : k ≤ phases.length)
    (agree : Agree (traffic moves k).sent (traffic moves' k).sent) :
    Agree (traffic moves k).received (traffic moves' k).received := by
  have whole := agree.append_left (initially phases signal k)
  have below := whole.mono_left (one.carries k within).received_isPrefix
  exact (below.symm.mono_left (other.carries k within).received_isPrefix).symm

/-- What two schedules of a chain send on a channel agrees as far as both have come. -/
theorem Coherent.sent_agree (one : Coherent .chain start phases signal moves n)
    (other : Coherent .chain start phases signal moves' n') (within : k ≤ phases.length) :
    Agree (traffic moves k).sent (traffic moves' k).sent := by
  induction k with
  | zero =>
    rw [one.chain_sent_head, other.chain_sent_head]
    exact Or.inl List.prefix_rfl
  | succ k ih =>
    obtain ⟨a, -, -, reads, unsent, tracks, -⟩ := one.stage within
    obtain ⟨a', -, -, reads', unsent', tracks', -⟩ := other.stage within
    have taken := one.received_agree other (Nat.le_of_lt within) (ih (Nat.le_of_lt within))
    have below := taken.mono_left tracks.reads_isPrefix
    have read : Agree reads reads' := (below.symm.mono_left tracks'.reads_isPrefix).symm
    have written : Agree ((traffic moves (k + 1)).sent ++ unsent)
        ((traffic moves' (k + 1)).sent ++ unsent') := by
      rcases tracks.run.linear tracks'.run read with ⟨_, o, -, more, -⟩ | ⟨_, o, -, more, -⟩
      · exact Or.inl ⟨o, more.symm⟩
      · exact Or.inr ⟨o, more.symm⟩
    have sent := written.mono_left (List.prefix_append _ _)
    exact (sent.symm.mono_left (List.prefix_append _ _)).symm

/-- An amplifier that has halted or failed has sent everything that another on the same run can
have sent, as long as their inputs agree. -/
theorem sent_all_of_definite {a a' : Amplifier} {l l' : Ledger}
    {reads unsent reads' unsent' : List Int}
    {outcome : Except Fault Outcome} (tracks : a.Tracks start l reads unsent)
    (ended : a.machine.core.ending a.machine.inputs = some outcome)
    (definite : outcome ≠ .ok .awaitingInput) (all : a.machine.core.Due → unsent = [])
    (tracks' : a'.Tracks start l' reads' unsent') (agree : Agree l'.taken l.taken) :
    l'.sent <+: l.sent := by
  obtain ⟨r, o, p, run, inside, due, sent⟩ := tracks'.flushed
  have agree' := agree.mono_left inside
  rw [tracks.taken] at agree'
  obtain ⟨r', o', read, written, later⟩ :=
    tracks.run.confined_of_definite ended definite run agree'
  rcases due with due | silent
  · -- The outputs were sent at a point that the first amplifier has passed, or where it stands.
    apply sent.trans
    by_cases passed : p.steps < a.machine.core.steps
    · refine tracks.settled r o p run ?_ due passed
      exact (read ▸ List.prefix_append r r').trans tracks.reads_isPrefix
    · obtain ⟨-, rfl, rfl⟩ := later.stay_of_steps (by omega)
      rw [all due, List.append_nil, List.append_nil] at written
      exact written ▸ List.prefix_rfl
  · subst silent
    exact List.prefix_nil.mp sent ▸ List.nil_prefix

/-- In a schedule that is over, a sender that was never refused has sent everything that any
other schedule has sent there. -/
theorem Coherent.sent_all (one : Coherent .chain start phases signal moves n)
    (finished : isOver n = true) (other : Coherent .chain start phases signal moves' n')
    (within : k ≤ phases.length) (accepted : (traffic moves k).refused = false) :
    (traffic moves' k).sent <+: (traffic moves k).sent := by
  induction k with
  | zero => exact other.chain_sent_head ▸ List.nil_prefix
  | succ k ih =>
    obtain ⟨a, there, -, reads, unsent, tracks, stands⟩ := one.stage within
    obtain ⟨a', -, -, reads', unsent', tracks', -⟩ := other.stage within
    obtain ⟨-, -, cause⟩ := stands.of_ended (one.stage_ended finished there)
    have agree := other.received_agree one (Nat.le_of_lt within)
      (other.sent_agree one (Nat.le_of_lt within))
    cases cause with
    | halted halts all _ _ =>
      exact sent_all_of_definite tracks (Core.ending_of_halt halts) (by simp) (fun _ => all)
        tracks' agree
    | failed fault fails all _ _ =>
      refine sent_all_of_definite tracks fails (by simp) ?_ tracks' agree
      rintro (halts | asks)
      · simp [Core.ending_of_halt halts] at fails
      · exact all asks
    | starved asks noInput all _ _ dry =>
      obtain ⟨next, acts⟩ := asks
      have ends : a.machine.core.ending [] = some (.ok .awaitingInput) :=
        Core.ending_of_starved acts
      have taken := tracks.taken
      rw [noInput, List.append_nil] at taken
      have fed := (List.prefix_append_right_inj (initially phases signal k)).mpr
        (ih (Nat.le_of_lt within) dry.accepted)
      rw [← dry.received, show (traffic moves k).received = reads from taken] at fed
      have inside : reads' <+: reads ++ [] := by
        rw [List.append_nil]
        exact tracks'.reads_isPrefix.trans
          ((other.carries k (Nat.le_of_lt within)).received_isPrefix.trans fed)
      obtain ⟨_, o, -, written, -⟩ := tracks.run.confined ends tracks'.run inside
      rw [all, List.append_nil, List.append_assoc] at written
      exact ⟨unsent' ++ o, written.symm⟩
    | refused refused _ _ => cases accepted.symm.trans refused

/-- The relay of a pipeline that is over has received everything that was sent to it, and was
sent everything that the last stage had to send. -/
theorem Coherent.chain_received (coherent : Coherent .chain start phases signal moves n)
    (finished : isOver n = true) :
    (traffic moves phases.length).received = (traffic moves phases.length).sent ∧
      (traffic moves phases.length).refused = false := by
  obtain ⟨r, there, loops, follows⟩ := coherent.relay
  have ended := coherent.relay_ended finished there
  have stands := follows.stands
  simp only [Relay.Stands, loops, reduceCtorEq, decide_false, ended] at stands
  obtain ⟨-, -, -, dry⟩ := stands
  have received := dry.received
  rw [initially_relay, List.nil_append] at received
  exact ⟨received, dry.accepted⟩

end

/-- In all schedules of a chain that are over, the relay has received the same values in the same
order, so that all of them that return a signal return the same one. -/
theorem chain_received_unique {settings : Settings} {program : Program} {phases : List Int}
    {signal : Int} {moves moves' : Moves} {n n' : Network} (nonempty : phases ≠ [])
    (one : Interleaving .chain settings program phases signal moves n) (finished : isOver n = true)
    (other : Interleaving .chain settings program phases signal moves' n')
    (finished' : isOver n' = true) :
    (traffic moves phases.length).received = (traffic moves' phases.length).received ∧
      ∀ returned returned', verdict n = .ok returned → verdict n' = .ok returned' →
        returned = returned' := by
  obtain ⟨cells, loaded, one⟩ := one
  obtain ⟨cells', loaded', other⟩ := other
  cases loaded.symm.trans loaded'
  have one := coherent_of_schedule nonempty one
  have other := coherent_of_schedule nonempty other
  obtain ⟨received, accepted⟩ := one.chain_received finished
  obtain ⟨received', accepted'⟩ := other.chain_received finished'
  have below := other.sent_all finished' one (Nat.le_refl _) accepted'
  have above := one.sent_all finished other (Nat.le_refl _) accepted
  have same : (traffic moves phases.length).received =
      (traffic moves' phases.length).received := by
    rw [received, received']
    exact below.eq_of_length_le above.length_le
  refine ⟨same, ?_⟩
  intro returned returned' success success'
  rw [one.verdict_signal success, other.verdict_signal success', same]

/-- Writes 5 and 6 at phase 0, and passes on a single value at any other phase. -/
def hastyReceiver : List Int :=
  [3, 17, 1005, 17, 10, 104, 5, 104, 6, 99, 3, 18, 4, 18, 99, 0, 0, 0, 0]

/-- The second stage may halt before the first has sent its second value, which is then refused,
or after it. The relay receives the same in both cases. -/
theorem chain_received_unique_hastyReceiver :
    ∃ moves n moves' n',
      (Interleaving .chain {} (.image hastyReceiver) [0, 1] 7 moves n ∧ isOver n = true ∧
        (traffic moves 1).refused = false) ∧
      (Interleaving .chain {} (.image hastyReceiver) [0, 1] 7 moves' n' ∧ isOver n' = true ∧
        (traffic moves' 1).refused = true) ∧
      (traffic moves 2).received = (traffic moves' 2).received := by
  have loaded : (Program.image hastyReceiver).load = .ok hastyReceiver := rfl
  have patient : (replay (.replicate 13 0 ++ .replicate 14 1 ++ .replicate 3 2) []
      (network .chain {} hastyReceiver [0, 1] 7)).map
      (fun after => (isOver after.2, (traffic after.1 1).refused)) = some (true, false) := by
    decide +kernel
  have hasty : (replay (.replicate 2 2 ++ .replicate 7 1 ++ .replicate 10 0 ++ .replicate 6 1 ++
      .replicate 2 2 ++ .replicate 2 1 ++ [2] ++ .replicate 3 0) []
      (network .chain {} hastyReceiver [0, 1] 7)).map
      (fun after => (isOver after.2, (traffic after.1 1).refused)) = some (true, true) := by
    decide +kernel
  obtain ⟨moves, n, one, seen⟩ := Interleaving.of_replay loaded patient
  obtain ⟨moves', n', other, seen'⟩ := Interleaving.of_replay loaded hasty
  simp only [Prod.mk.injEq] at seen seen'
  exact ⟨moves, n, moves', n', ⟨one, seen⟩, ⟨other, seen'⟩,
    (chain_received_unique (by simp) one seen.1 other seen'.1).1⟩

end Intcode.Pipeline
