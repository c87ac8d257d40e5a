import Mathlib.Algebra.Order.BigOperators.Group.Finset
import Intcode.Proofs.Pipeline.Solution

/-!
# Schedules of a pipeline with a solution are bounded

If a pipeline has a solution, each of its stages can execute only so many instructions and
receive and send only so many values. `Agent.effort` weighs what an agent has still to do; every
move but one lowers it. The one that does not is a look at an empty channel. It sends the agent to
sleep, and only the move of another agent can wake it. So the effort of all agents together,
weighed against the number of those that do not sleep, goes down with every move.
-/
namespace Intcode

/-- How far the activity of an amplifier is from its end. -/
def Amplifier.rank (a : Amplifier) : Nat :=
  match a.activity with
  | .unstarted => 8
  | .starting => 7
  | .executing => 6
  | .hangingUp => 5
  | .sending .. => 4
  | .receiving => 3
  | .closingInbound => 2
  | .closingOutbound => 1
  | .ended => 0

def Relay.rank (r : Relay) : Nat :=
  match r.activity with
  | .closingHead => if r.loops then 1 else 3
  | .receiving => 2
  | .forwarding _ => 4
  | .ended => 0

namespace Agent

def rank : Agent → Nat
  | amplifier a => a.rank
  | listener _ => 0
  | relay r => r.rank

def steps : Agent → Nat
  | amplifier a => a.machine.steps
  | listener _ | relay _ => 0

/-- What an agent has still to do, if it executes no more than `limit` instructions, receives no
more than `given` values and sends no more than `room`. A value received counts four times,
because it may lead back from `receiving` to `executing`. -/
def effort (agent : Agent) (limit given room : Nat) (l : Ledger) : Nat :=
  (limit - agent.steps) + (room - l.sent.length) + 4 * (given - l.taken.length) + agent.rank

theorem rank_afterSending (a : Amplifier) (values : List Int) (halted : Bool) :
    { a with activity := Amplifier.afterSending values halted : Amplifier }.rank ≤ 4 := by
  cases values <;> cases halted <;> simp [Amplifier.afterSending, Amplifier.rank]

variable {agent next : Agent} {deed : Deed} {limit given room : Nat} {l : Ledger}

/-- Every move but a look at an empty channel leaves less to do. -/
theorem Moves.effort_lt (moves : agent.Moves deed next) (busy : ∀ k, deed ≠ .foundNothing k)
    (executed : next.steps ≤ limit) (sent : (l.note deed).sent.length ≤ room)
    (taken : (l.note deed).taken.length ≤ given) :
    next.effort limit given room (l.note deed) < agent.effort limit given room l := by
  cases moves with
  | @amplifier a next deed moves =>
    simp only [effort, steps, rank] at executed ⊢
    cases moves with
    | start now => simp [Ledger.note, Amplifier.rank, now]
    | run now stepped =>
      have counted := Machine.steps_of_running stepped
      dsimp only at executed
      simp only [Ledger.note, Amplifier.rank, now]
      omega
    | halt now stepped =>
      obtain ⟨-, rfl⟩ := Machine.halt_of_step stepped
      simp [Ledger.note, Amplifier.rank, now]
    | @flush stepped now starved =>
      obtain ⟨-, -, rfl⟩ := Machine.starved_of_step starved
      have lower := rank_afterSending
        { a with machine := { a.machine with last := some .awaitingInput }.drained }
        a.machine.outputs.toList false
      have before : a.rank = 6 := by simp [Amplifier.rank, now]
      simp only [Ledger.note, Machine.drained] at lower ⊢
      omega
    | fault now stepped =>
      obtain rfl := Machine.unchanged_of_step stepped
      simp [Ledger.note, Amplifier.rank, now]
    | hangUp now =>
      have lower := rank_afterSending { a with machine := a.machine.drained }
        a.machine.outputs.toList true
      have before : a.rank = 5 := by simp [Amplifier.rank, now]
      simp only [Ledger.note, Machine.drained] at lower ⊢
      omega
    | @skip halted now =>
      cases halted <;> simp [Ledger.note, Amplifier.rank, Amplifier.afterSending, now]
    | @send value rest halted now =>
      have lower := rank_afterSending a rest halted
      have before : a.rank = 4 := by simp [Amplifier.rank, now]
      simp only [Ledger.note, List.length_append, List.length_singleton] at sent ⊢
      omega
    | refuse now => simp [Ledger.note, Amplifier.rank, now]
    | receive now =>
      simp only [Ledger.note, Amplifier.rank, now, Machine.feed, List.length_append,
        List.length_singleton] at taken ⊢
      omega
    | starve now => simp [Ledger.note, Amplifier.rank, now]
    | sleep now => exact absurd rfl (busy _)
    | closeInbound now => simp [Ledger.note, Amplifier.rank, now]
    | closeOutbound now => simp [Ledger.note, Amplifier.rank, now]
  | @relay r next deed moves =>
    simp only [effort, steps, rank]
    cases moves with
    | close now => cases loops : r.loops <;> simp [Ledger.note, Relay.rank, now, loops]
    | receive now =>
      simp only [Ledger.note, List.length_append, List.length_singleton] at taken ⊢
      cases r.loops <;> simp only [Relay.rank, now, Bool.false_eq_true, ↓reduceIte] <;> omega
    | finish now => cases loops : r.loops <;> simp [Ledger.note, Relay.rank, now]
    | sleep now => exact absurd rfl (busy _)
    | forward now =>
      simp only [Ledger.note, Relay.rank, now, List.length_append, List.length_singleton] at sent ⊢
      omega
    | refuse now =>
      cases loops : r.loops <;> simp [Ledger.note, Relay.rank, now]

end Agent

namespace Pipeline

open Network

/-- One for a channel on which nobody sleeps. -/
def awake (n : Network) (k : Nat) : Nat :=
  if (n.channels.nth k).sleepers = [] then 1 else 0

/-- A look at an empty channel sends its receiver to sleep, and nobody else. -/
theorem awake_of_foundNothing {n after : Network} {i : Nat}
    (acts : (Deed.foundNothing i).Acts i n.channels after.channels)
    (none : (n.channels.nth i).sleepers = []) (inside : i < n.channels.size) :
    awake after i < awake n i ∧ ∀ k, k ≠ i → awake after k = awake n k := by
  obtain ⟨-, -, became⟩ := acts
  constructor
  · simp [awake, became, none, Channels.nth_put_self inside, Channel.sleep]
  · intro k apart
    simp only [awake, became, Channels.nth_put_other apart]

namespace Solution

variable {wiring : Wiring} {settings : Settings} {cells phases : List Int} {signal : Int}
  {moves : Moves} {n : Network} {k : Nat}
  (s : Solution wiring (startCore settings cells) phases signal)

def effort (moves : Moves) (n : Network) (k : Nat) : Nat :=
  match n.agents[k]? with
  | none => 0
  | some agent =>
    agent.effort (s.final k).steps (initially phases signal k ++ s.stream k).length
      (s.stream (outlet phases.length k)).length (ledger moves k (outlet phases.length k))

/-- What a pipeline has still to do. -/
def potential (moves : Moves) (n : Network) : Nat :=
  (phases.length + 2) * ∑ k ∈ Finset.range (phases.length + 1), s.effort moves n k +
    ∑ k ∈ Finset.range (phases.length + 1), awake n k

theorem steps_le (nonempty : phases ≠ [])
    (schedule : (network wiring settings cells phases signal).Schedule moves n) {agent : Agent}
    (there : n.agents[k]? = some agent) : agent.steps ≤ (s.final k).steps := by
  have coherent := coherent_of_schedule nonempty schedule
  cases agent with
  | listener l => exact Nat.zero_le _
  | relay r => exact Nat.zero_le _
  | amplifier a =>
    have within : k < phases.length := (coherent.serves k _ there).role.1
    obtain ⟨b, there', -, reads, unsent, tracks, -⟩ := coherent.stage within
    cases there.symm.trans there'
    have inside := s.received_isPrefix nonempty schedule (Nat.le_of_lt within)
    exact (s.confines within tracks.run (tracks.reads_isPrefix.trans inside)).2

/-- A move other than a look at an empty channel leaves less to do for the agent that makes it,
and as much as before for the others. -/
theorem effort_step (nonempty : phases ≠ [])
    (schedule : (network wiring settings cells phases signal).Schedule moves n) {i : Nat}
    (able : n.enabled i = true) :
    ((∀ k, (n.advance i).deed ≠ .foundNothing k) →
        s.effort (moves ++ [(i, (n.advance i).deed)]) (n.advance i).network i <
          s.effort moves n i) ∧
      ((n.advance i).deed = .foundNothing i →
        s.effort (moves ++ [(i, (n.advance i).deed)]) (n.advance i).network i =
          s.effort moves n i) ∧
      ∀ k, k ≠ i → s.effort (moves ++ [(i, (n.advance i).deed)]) (n.advance i).network k =
        s.effort moves n k := by
  have coherent := coherent_of_schedule nonempty schedule
  obtain ⟨agent, there, -, made, -, between⟩ := coherent.moved able
  have place := coherent.place there
  have later := schedule.move able
  have own : ledger (moves ++ [(i, (n.advance i).deed)]) i (outlet phases.length i) =
      (ledger moves i (outlet phases.length i)).note (n.advance i).deed :=
    ledger_own between (outlet_ne coherent.nonempty)
  refine ⟨?_, ?_, ?_⟩
  · intro busy
    simp only [effort, advance_agents there, ↓reduceIte, there]
    have sent := (s.sent_isPrefix nonempty later _ (outlet_le place)).length_le
    have taken := (s.received_isPrefix nonempty later place).length_le
    have executed := s.steps_le nonempty later (k := i)
      (by rw [advance_agents there, if_pos rfl])
    rw [own]
    refine made.effort_lt busy executed ?_ ?_
    · rw [← own]
      exact sent
    · rw [← own]
      exact taken
  · intro nothing
    simp only [effort, advance_agents there, ↓reduceIte, there]
    rw [own]
    rw [nothing] at made ⊢
    rw [made.awaits.1]
    rfl
  · intro k apart
    simp only [effort, advance_agents there, if_neg apart]
    rw [ledger_other between apart (outlet_inj apart)]

/-- Every move lowers what a pipeline has still to do. -/
theorem potential_step (nonempty : phases ≠ [])
    (schedule : (network wiring settings cells phases signal).Schedule moves n) {i : Nat}
    (able : n.enabled i = true) :
    s.potential (moves ++ [(i, (n.advance i).deed)]) (n.advance i).network <
      s.potential moves n := by
  have coherent := coherent_of_schedule nonempty schedule
  obtain ⟨agent, there, none, -, acts, between⟩ := coherent.moved able
  have place := coherent.place there
  obtain ⟨less, same, others⟩ := s.effort_step nonempty schedule able
  have member : i ∈ Finset.range (phases.length + 1) := Finset.mem_range.mpr (by omega)
  unfold potential
  by_cases nap : (n.advance i).deed = .foundNothing i
  · have unchanged : ∀ k, s.effort (moves ++ [(i, (n.advance i).deed)]) (n.advance i).network k =
        s.effort moves n k := by
      intro k
      by_cases own : k = i
      · exact own ▸ same nap
      · exact others k own
    rw [Finset.sum_congr rfl fun k _ => unchanged k]
    rw [nap] at acts
    obtain ⟨asleep, frame⟩ := awake_of_foundNothing acts none
      (by have := coherent.channels; omega)
    refine Nat.add_lt_add_left (Finset.sum_lt_sum ?_ ⟨i, member, asleep⟩) _
    intro k _
    by_cases own : k = i
    · rw [own]
      exact Nat.le_of_lt asleep
    · exact Nat.le_of_eq (frame k own)
  · have busy : ∀ k, (n.advance i).deed ≠ .foundNothing k := by
      intro k found
      rw [found] at between nap
      exact nap (between ▸ rfl)
    have lower : ∑ k ∈ Finset.range (phases.length + 1),
          s.effort (moves ++ [(i, (n.advance i).deed)]) (n.advance i).network k <
        ∑ k ∈ Finset.range (phases.length + 1), s.effort moves n k := by
      refine Finset.sum_lt_sum ?_ ⟨i, member, less busy⟩
      intro k _
      by_cases own : k = i
      · rw [own]
        exact Nat.le_of_lt (less busy)
      · exact Nat.le_of_eq (others k own)
    have few : ∑ k ∈ Finset.range (phases.length + 1), awake (n.advance i).network k ≤
        phases.length + 1 := by
      refine (Finset.sum_le_card_nsmul _ _ 1 ?_).trans (by simp)
      intro k _
      unfold awake
      split <;> omega
    have := Nat.mul_le_mul_left (phases.length + 2) lower
    rw [Nat.succ_eq_add_one, Nat.mul_add, Nat.mul_one] at this
    omega

include s in
/-- A pipeline with a solution makes only so many moves, in whatever order. -/
theorem schedule_bounded (nonempty : phases ≠ []) :
    ∃ bound, ∀ moves n, (network wiring settings cells phases signal).Schedule moves n →
      moves.length ≤ bound := by
  refine ⟨s.potential [] (network wiring settings cells phases signal), ?_⟩
  intro moves n schedule
  have paid : moves.length + s.potential moves n ≤
      s.potential [] (network wiring settings cells phases signal) := by
    induction schedule with
    | rest => exact Nat.le_of_eq (Nat.zero_add _)
    | @move moves now i before able ih =>
      have := s.potential_step nonempty before able
      rw [List.length_append, List.length_singleton]
      omega
  omega

include s in
/-- A pipeline with a solution always reports what all its schedules report at rest. -/
theorem always_reports (nonempty : phases ≠ []) {program : Program}
    (loaded : program.load = .ok cells) {result : Except Fault (Option Int)}
    (reports : ∀ moves n, (network wiring settings cells phases signal).Schedule moves n →
      n.AtRest → (conclude wiring phases n).result = some result) :
    AlwaysReports wiring settings program phases signal result := by
  constructor
  · obtain ⟨bound, bounded⟩ := s.schedule_bounded nonempty
    refine ⟨bound, ?_⟩
    rintro moves n ⟨cells', loaded', schedule⟩
    cases loaded.symm.trans loaded'
    exact bounded moves n schedule
  · rintro moves n ⟨cells', loaded', schedule⟩ rest
    cases loaded.symm.trans loaded'
    exact reports moves n schedule rest

end Solution

end Pipeline

end Intcode
