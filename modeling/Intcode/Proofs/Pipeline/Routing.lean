import Intcode.Proofs.Network.Conservation
import Intcode.Proofs.Pipeline.Chain

/-!
# What the stages of a pipeline receive

Each stage of a pipeline receives its own phase setting, then whatever the stage before it has sent,
and the first stage the signal and whatever the relay has sent. At any time a part of that has been
received, a part may have been dropped by a stage that hung up, and the rest is still in the
channel: nothing else gets in, and nothing is lost or comes out of order (`interleaving_routes`).
What an agent has done is counted from its own moves (`history`); that nobody else works on its ends
of the channels is a result here. A stage that is spawned late is one that moves late, so every
order of spawning is among the interleavings.
-/
namespace Intcode

namespace Network

/-- What an agent has done itself, on whatever channels. -/
def history (moves : Moves) (i : Nat) : Ledger :=
  (ownMoves moves i).foldl (fun l move => l.note move.2) {}

def droppedBy (moves : Moves) (i : Nat) : List Int :=
  (ownMoves moves i).flatMap fun move =>
    match move.2 with
    | .hungUp _ values => values
    | _ => []

end Network

namespace Pipeline

open Network

/-- Every agent keeps to its own ends of the channels. -/
def Apart (stages : Nat) (moves : Moves) : Prop :=
  ∀ i deed, (i, deed) ∈ moves → deed.Between i (outlet stages i)

section Apart

variable {stages k : Nat} {moves : Moves}

/-- So what a schedule says about an agent's ends of the channels is what it has done itself. -/
theorem Apart.history_eq (apart : Apart stages moves) (nonempty : 0 < stages) :
    history moves k = ledger moves k (outlet stages k) := by
  induction moves using List.reverseRecOn with
  | nil => rfl
  | append_singleton moves move ih =>
    obtain ⟨i, deed⟩ := move
    have before := ih fun j other member => apart j other (List.mem_append_left _ member)
    have between : deed.Between i (outlet stages i) := apart i deed (by simp)
    by_cases own : i = k
    · subst own
      rw [ledger_own between (outlet_ne nonempty), ← before]
      simp [history, ownMoves_append_own]
    · rw [ledger_other between (Ne.symm own) (outlet_inj (Ne.symm own)), ← before]
      simp [history, ownMoves_append_other own]

theorem Apart.droppedBy_eq (apart : Apart stages moves) :
    droppedBy moves k = (traffic moves k).dropped := by
  induction moves using List.reverseRecOn with
  | nil => rfl
  | append_singleton moves move ih =>
    obtain ⟨i, deed⟩ := move
    have before := ih fun j other member => apart j other (List.mem_append_left _ member)
    have between : deed.Between i (outlet stages i) := apart i deed (by simp)
    rw [traffic_append]
    by_cases own : i = k
    · subst own
      simp only [droppedBy, ownMoves_append_own, List.flatMap_append, List.flatMap_singleton]
      rw [← droppedBy, before]
      cases deed <;> simp only [Deed.Between] at between <;> grind [Traffic.note]
    · rw [between.dropped_frame (Ne.symm own), ← before, droppedBy, droppedBy,
        ownMoves_append_other own]

end Apart

theorem apart_of_schedule {wiring : Wiring} {settings : Settings} {cells phases : List Int}
    {signal : Int} {moves : Moves} {n : Network} (nonempty : phases ≠ [])
    (schedule : (network wiring settings cells phases signal).Schedule moves n) :
    Apart phases.length moves := by
  induction schedule with
  | rest => simp [Apart]
  | move before able ih =>
    intro i deed member
    rcases List.mem_append.mp member with earlier | last
    · exact ih i deed earlier
    · cases List.mem_singleton.mp last
      obtain ⟨-, -, -, -, -, between⟩ := (coherent_of_schedule nonempty before).moved able
      exact between

section Routes

variable {wiring : Wiring} {start : Core} {phases : List Int} {signal phase : Int} {moves : Moves}
  {n : Network} {k : Nat}

/-- What has been sent on the channel of a stage is what the stage before it has sent, and on that
of the first stage what the relay has sent. -/
theorem Apart.sent_eq (apart : Apart phases.length moves) (within : k ≤ phases.length)
    (nonempty : 0 < phases.length) :
    (traffic moves k).sent =
      if k = 0 then (history moves phases.length).sent else (history moves (k - 1)).sent := by
  rw [apart.history_eq nonempty, apart.history_eq nonempty]
  by_cases first : k = 0
  · simp [ledger, outlet, first]
  · have before : outlet phases.length (k - 1) = k := by
      unfold outlet
      split <;> omega
    simp [ledger, before, first]

/-- Received, dropped and buffered values together are all that a stage was given. -/
theorem Coherent.stage_routes (coherent : Coherent wiring start phases signal moves n)
    (apart : Apart phases.length moves) (there : phases[k]? = some phase) :
    (history moves k).taken ++ droppedBy moves k ++ (n.channels.nth k).buffer =
      phase :: if k = 0 then signal :: (history moves phases.length).sent
        else (history moves (k - 1)).sent := by
  have within : k ≤ phases.length := Nat.le_of_lt (List.getElem?_eq_some_iff.mp there).1
  have conserved := (coherent.carries k within).conserved
  rw [apart.sent_eq within coherent.nonempty] at conserved
  rw [apart.history_eq coherent.nonempty, apart.droppedBy_eq]
  refine conserved.symm.trans ?_
  simp only [initially, there, primed]
  by_cases first : k = 0 <;> simp [first]

/-- The relay drops nothing. -/
theorem Coherent.relay_routes (coherent : Coherent wiring start phases signal moves n)
    (apart : Apart phases.length moves) :
    (history moves phases.length).taken ++ (n.channels.nth phases.length).buffer =
      (history moves (phases.length - 1)).sent := by
  obtain ⟨r, -, -, follows⟩ := coherent.relay
  have received := (coherent.carries phases.length (Nat.le_refl _)).received_buffer
    follows.listening
  rw [initially_relay, List.nil_append, apart.sent_eq (Nat.le_refl _) coherent.nonempty,
    if_neg (Nat.ne_of_gt coherent.nonempty)] at received
  rw [received, apart.history_eq coherent.nonempty]
  rfl

end Routes

/-- In a pipeline, in whatever order its stages and its relay move: what a stage has received, what
it has dropped and what its channel holds are together its phase setting and all that the stage
before it has sent; in the first stage the signal and all that the relay has sent. The first value
that a stage receives is its phase setting. The relay receives what the last stage sends. In a chain
it sends nothing; in a loop it sends on what it receives, each value once and in order, and is at
most one value behind. -/
theorem interleaving_routes {wiring : Wiring} {settings : Settings} {program : Program}
    {phases : List Int} {signal : Int} {moves : Moves} {n : Network} (nonempty : phases ≠ [])
    (interleaving : Interleaving wiring settings program phases signal moves n) :
    (∀ k phase, phases[k]? = some phase →
      ∃ a, n.agents[k]? = some (.amplifier a) ∧ a.name = stageName k ∧
        ((history moves k).taken ++ droppedBy moves k ++ (n.channels.nth a.inbound).buffer =
          phase :: if k = 0 then signal :: (history moves phases.length).sent
            else (history moves (k - 1)).sent) ∧
        ∀ first, (history moves k).taken.head? = some first → first = phase) ∧
    (history moves phases.length).taken ++ (n.channels.nth phases.length).buffer =
      (history moves (phases.length - 1)).sent ∧
    (history moves phases.length).sent <+: (history moves (phases.length - 1)).sent ∧
    (wiring = .chain → (history moves phases.length).sent = []) ∧
    (wiring = .loop → ∃ held, held.length ≤ 1 ∧
      (history moves phases.length).taken = (history moves phases.length).sent ++ held) := by
  obtain ⟨cells, -, schedule⟩ := interleaving
  have coherent := coherent_of_schedule nonempty schedule
  have apart := apart_of_schedule nonempty schedule
  have relayed := coherent.relay_routes apart
  obtain ⟨r, -, loops, follows⟩ := coherent.relay
  have own : history moves phases.length = ledger moves phases.length 0 := by
    simpa [outlet] using apart.history_eq coherent.nonempty (k := phases.length)
  rw [← own] at follows
  have forwarded := follows.stands.sent_isPrefix
  refine ⟨?_, relayed, ?_, ?_, ?_⟩
  · intro k phase there
    have within := (List.getElem?_eq_some_iff.mp there).1
    obtain ⟨a, found, name, -⟩ := coherent.stage within
    have inbound : a.inbound = k := (coherent.serves k _ found).inbound
    have routes := coherent.stage_routes apart there
    refine ⟨a, found, name, inbound.symm ▸ routes, ?_⟩
    intro first head
    rw [List.append_assoc] at routes
    cases taken : (history moves k).taken with
    | nil => simp [taken] at head
    | cons value rest =>
      rw [taken] at head routes
      cases head
      exact (List.cons.inj routes).1
  · rw [← relayed]
    cases wiring with
    | chain =>
      rw [loops, if_neg (by simp)] at forwarded
      exact List.prefix_nil.mp forwarded ▸ List.nil_prefix
    | loop =>
      rw [loops, if_pos (by simp)] at forwarded
      exact forwarded.trans (List.prefix_append _ _)
  · rintro rfl
    rw [loops, if_neg (by simp)] at forwarded
    exact List.prefix_nil.mp forwarded
  · rintro rfl
    exact follows.stands.held (by simpa using loops)

/-- At phase 0 writes a value once, at any other phase twice; then reads another one and halts. -/
def doubler : List Int :=
  [3, 14, 3, 15, 4, 15, 1006, 14, 11, 4, 15, 3, 15, 99, 0, 0]

/-- The relay sends back two values, of which the first stage drops the second. -/
theorem interleaving_routes_doubler :
    ∃ moves n, Interleaving .loop {} (.image doubler) [0, 1] 7 moves n ∧
      (history moves 2).sent = [7, 7] ∧ droppedBy moves 0 = [7] ∧
      ∃ a, n.agents[0]? = some (.amplifier a) ∧
        (history moves 0).taken ++ droppedBy moves 0 ++ (n.channels.nth a.inbound).buffer =
          0 :: 7 :: (history moves 2).sent := by
  have loaded : (Program.image doubler).load = .ok doubler := rfl
  have replayed : (replay
      (.replicate 11 0 ++ .replicate 13 1 ++ .replicate 4 2 ++ .replicate 4 0) []
      (network .loop {} doubler [0, 1] 7)).map
      (fun after => ((history after.1 2).sent, droppedBy after.1 0)) = some ([7, 7], [7]) := by
    decide +kernel
  obtain ⟨moves, n, interleaving, seen⟩ := Interleaving.of_replay loaded replayed
  obtain ⟨forwarded, dropped⟩ := Prod.mk.inj seen
  obtain ⟨a, there, -, routes, -⟩ := (interleaving_routes (by simp) interleaving).1 0 0 rfl
  exact ⟨moves, n, interleaving, forwarded, dropped, a, there, routes⟩

end Pipeline

end Intcode
