import Intcode.Proofs.Machine.Requests
import Intcode.Proofs.Machine.Resumption
import Intcode.Proofs.Pipeline.Rest
import Intcode.Proofs.Pipeline.Termination
import Intcode.Proofs.Solo.Session

/-!
# What an amplifier delivers

An amplifier that is given its inputs one by one, as they come, is compared with a batch run that
has all of them from the start. Once the producer has closed and nobody is able to move, both have
come to the same end (`Coherent.concludes`). If the batch run returns, the listener has received
what it returns. If the batch run fails, the listener has received what was written before the
machine asked for an input for the last time: the outputs after that were never sent.
-/
namespace Intcode

open Intcode.Core in
/-- The outputs that an amplifier has sent when its machine fails are those written before the last
request for an input. -/
theorem Amplifier.Tracks.sent_of_failed {a : Amplifier} {start : Core} {l : Ledger}
    {reads unsent : List Int} {fault : Fault} {m : Machine} {found : Option Machine}
    (tracks : a.Tracks start l reads unsent)
    (fails : a.machine.core.ending a.machine.inputs = some (.error fault))
    (all : a.machine.core.AsksInput → unsent = []) (same : m.core = start)
    (given : l.taken <+: m.inputs) (fresh : m.outputs = #[]) (latest : m.Latest found) :
    l.sent = (found.map fun request => request.outputs.toList).getD [] := by
  subst same
  -- No point of the run at which the machine halts comes before a failure.
  have confined : ∀ {r o p}, m.core.Runs r o p → r <+: m.inputs →
      ∃ r' o', reads = r ++ r' ∧ l.sent ++ unsent = o ++ o' ∧ p.Runs r' o' a.machine.core := by
    intro r o p run inside
    refine tracks.run.confined_of_definite fails (by simp) run (.of_isPrefix inside ?_)
    rw [← tracks.taken]
    exact given
  obtain ⟨r, o, p, run, inside, due, sent⟩ := tracks.flushed
  have asks : p.AsksInput ∨ o = [] := by
    rcases due with (halts | asks) | empty
    · obtain ⟨r', o', -, -, onward⟩ := confined run (inside.trans given)
      obtain ⟨-, -, rfl⟩ := onward.stay_of_ending (ending_of_halt halts) List.prefix_rfl
      rw [ending_of_halt halts] at fails
      cases fails
    · exact Or.inl asks
    · exact Or.inr empty
  cases found with
  | none =>
    rcases asks with asks | rfl
    · exact absurd asks (latest r o p run (inside.trans given))
    · exact List.prefix_nil.mp sent
  | some request =>
    obtain ⟨requests, ⟨reads', outputs, fed, written, path⟩, farthest⟩ := latest
    rw [fresh, List.nil_append] at written
    rw [Option.map_some, Option.getD_some, written]
    have within : reads' <+: m.inputs := ⟨_, fed.symm⟩
    obtain ⟨r', o', before, passed, onward⟩ := confined path within
    refine List.IsPrefix.eq_of_length_le ?_ (List.IsPrefix.length_le ?_)
    · rcases asks with asks | rfl
      · obtain ⟨-, o'', -, rfl, -⟩ := run.part_of_steps_le path
          (.of_isPrefix (inside.trans given) within) (farthest r o p run (inside.trans given) asks)
        exact sent.trans (List.prefix_append _ _)
      · exact List.prefix_nil.mp sent ▸ List.nil_prefix
    · by_cases earlier : request.core.steps < a.machine.core.steps
      · refine tracks.settled reads' outputs request.core path ?_ (Or.inr requests) earlier
        rw [tracks.taken, before, List.append_assoc]
        exact List.prefix_append _ _
      · obtain ⟨-, rfl, here⟩ := onward.stay_of_steps (by omega)
        rw [all (here ▸ requests), List.append_nil, List.append_nil] at passed
        exact passed ▸ List.prefix_rfl

namespace Solo

open Network Pipeline

section Rest

variable {start : Core} {inputs : List Int} {moves : Moves} {n : Network}

/-- Once the producer has closed and nobody is able to move, the amplifier has ended, and the
listener has received all that it sent and found the end of the stream. -/
theorem Coherent.finished (coherent : Coherent start inputs moves none n) (rest : n.AtRest) :
    ∃ a l, n.agents[0]? = some (.amplifier a) ∧ n.agents[1]? = some (.listener l) ∧
      Plays start moves a ∧ a.activity = .ended ∧ l.activity = .finished ∧
      l.values = (traffic moves 1).sent ∧ (traffic moves 1).refused = false := by
  obtain ⟨a, amplifier, plays⟩ := coherent.amplifier
  obtain ⟨l, listener, hears⟩ := coherent.listener
  obtain ⟨reads, unsent, tracks, stands⟩ := plays.follows
  have ended : a.activity = .ended := by
    rcases (coherent.rests 0 (by decide)).blocked (rest 0) amplifier
      (fun channel looks => (Amplifier.awaits_iff.mp looks).2.symm.trans plays.inbound) with
      finished | ⟨-, -, opened⟩
    · simp only [Agent.isAlive, Amplifier.isAlive, Bool.and_eq_false_iff,
        bne_eq_false_iff_eq] at finished
      refine finished.resolve_left fun unstarted => ?_
      simp [Amplifier.Stands, unstarted] at stands
    · have unclosed := ((coherent.carries 0 (by decide)).open_iff.mp opened).1
      rw [coherent.producer.closed] at unclosed
      cases unclosed
  have finished : l.activity = .finished ∧ Dry [] (traffic moves 1) := by
    refine hears.stands.resolve_left fun listening => ?_
    have alive : (Agent.listener l).isAlive = true := by
      simp [Agent.isAlive, Listener.isAlive, listening]
    have own : ∀ channel, (Agent.listener l).awaits = some channel → channel = 1 := by
      intro channel looks
      simp only [Agent.awaits, Listener.awaits] at looks
      split at looks
      · exact (Option.some.inj looks).symm.trans hears.channel
      · cases looks
    rcases (coherent.rests 1 (by decide)).blocked (rest 1) listener own with dead | ⟨-, -, opened⟩
    · cases alive.symm.trans dead
    · have unclosed := ((coherent.carries 1 (by decide)).open_iff.mp opened).1
      rw [show (traffic moves 1).closed = true from stands.ended_iff.mpr ended] at unclosed
      cases unclosed
  obtain ⟨finished, dry⟩ := finished
  exact ⟨a, l, amplifier, listener, plays, ended, finished, hears.values.trans dry.received,
    dry.accepted⟩

/-- The inputs that the amplifier has taken are a part of those that the producer sends. -/
theorem Coherent.taken_isPrefix {left : Option (List Int)}
    (coherent : Coherent start inputs moves left n) :
    (ledger moves 0 1).taken <+: inputs :=
  (coherent.carries 0 (by decide)).received_isPrefix.trans coherent.producer.sent

/-- What an amplifier that has come to such an end has to show for it. -/
def Accounts (a : Amplifier) (unsent : List Int) : Except Fault Outcome → Prop
  | .ok outcome => unsent = [] ∧ a.error = none ∧ (a.machine.core.act = .halt ↔ outcome = .halted)
  | .error fault =>
    a.error = Amplifier.keptFault fault ∧ (a.machine.core.AsksInput → unsent = [])

/-- An amplifier whose outputs were all accepted has ended because its machine has; for want of an
input only after it has taken all of them. -/
theorem Coherent.stopped {a : Amplifier} (coherent : Coherent start inputs moves none n)
    (plays : Plays start moves a) (ended : a.activity = .ended)
    (accepted : (traffic moves 1).refused = false) :
    ∃ reads unsent outcome, a.Tracks start (ledger moves 0 1) reads unsent ∧
      a.machine.core.ending a.machine.inputs = some outcome ∧
      (outcome = .ok .awaitingInput → (ledger moves 0 1).taken = inputs) ∧
      Accounts a unsent outcome := by
  obtain ⟨reads, unsent, tracks, stands⟩ := plays.follows
  obtain ⟨-, -, cause⟩ := stands.of_ended ended
  cases cause with
  | halted halts all _ clean =>
    exact ⟨reads, unsent, .ok .halted, tracks, Core.ending_of_halt halts, by simp, all, clean,
      fun _ => rfl, fun _ => halts⟩
  | starved asks noInput all _ clean dry =>
    obtain ⟨next, asks⟩ := asks
    refine ⟨reads, unsent, .ok .awaitingInput, tracks, ?_, ?_, all, clean, by simp [asks], nofun⟩
    · rw [noInput]
      exact Core.ending_of_starved asks
    · intro _
      have sent := coherent.producer.others dry.accepted
      rw [Option.getD_none, List.append_nil] at sent
      exact dry.received.trans sent
  | failed fault fails all _ kept =>
    exact ⟨reads, unsent, .error fault, tracks, fails, by simp, kept, all⟩
  | refused refused => cases accepted.symm.trans refused

variable {reads outputs left : List Int} {final : Core}

/-- The amplifier comes to the same end as a run that is given the same inputs. -/
theorem Coherent.concludes {a : Amplifier} {outcome : Except Fault Outcome}
    (coherent : Coherent start inputs moves none n) (plays : Plays start moves a)
    (ended : a.activity = .ended) (accepted : (traffic moves 1).refused = false)
    (path : start.Runs reads outputs final) (given : inputs = reads ++ left)
    (ends : final.ending left = some outcome) :
    ∃ reads unsent, a.Tracks start (ledger moves 0 1) reads unsent ∧
      a.machine.core.ending a.machine.inputs = some outcome ∧
      (traffic moves 1).sent ++ unsent = outputs ∧ Accounts a unsent outcome := by
  obtain ⟨reads', unsent, outcome', tracks, ends', fed, accounts⟩ :=
    coherent.stopped plays ended accepted
  have taken := tracks.taken
  obtain ⟨-, -, written, rfl⟩ := path.ending_unique ends tracks.run ends'
    (by rw [← taken, ← given]; exact coherent.taken_isPrefix)
    (by rw [← taken, ← given]; exact fed)
  exact ⟨reads', unsent, tracks, ends', written, accounts⟩

/-- If a run on the same inputs returns, the listener has received what it has written. -/
theorem Coherent.returned {outcome : Outcome} (coherent : Coherent start inputs moves none n)
    (rest : n.AtRest) (path : start.Runs reads outputs final) (given : inputs = reads ++ left)
    (ends : final.ending left = some (.ok outcome)) :
    ∃ a l, n.agents[0]? = some (.amplifier a) ∧ n.agents[1]? = some (.listener l) ∧
      a.activity = .ended ∧ l.activity = .finished ∧ l.values = outputs ∧ a.error = none ∧
      (a.machine.last = some .halted ↔ outcome = .halted) := by
  obtain ⟨a, l, amplifier, listener, plays, ended, finished, values, accepted⟩ :=
    coherent.finished rest
  obtain ⟨-, unsent, -, -, written, rfl, clean, halts⟩ :=
    coherent.concludes plays ended accepted path given ends
  have remembers := plays.remembers
  rw [Amplifier.Remembers, if_neg (by simp [ended])] at remembers
  rw [List.append_nil] at written
  exact ⟨a, l, amplifier, listener, ended, finished, values.trans written, clean,
    remembers.trans halts⟩

/-- If a run on the same inputs fails, the listener has received what was written before the last
request for an input. -/
theorem Coherent.failed {m : Machine} {found : Option Machine} {fault : Fault}
    (coherent : Coherent m.core m.inputs moves none n) (rest : n.AtRest)
    (path : m.core.Runs reads outputs final) (given : m.inputs = reads ++ left)
    (ends : final.ending left = some (.error fault)) (fresh : m.outputs = #[])
    (latest : m.Latest found) :
    ∃ a l, n.agents[0]? = some (.amplifier a) ∧ n.agents[1]? = some (.listener l) ∧
      a.activity = .ended ∧ l.activity = .finished ∧
      l.values = (found.map fun request => request.outputs.toList).getD [] ∧
      a.error = Amplifier.keptFault fault := by
  obtain ⟨a, l, amplifier, listener, plays, ended, finished, values, accepted⟩ :=
    coherent.finished rest
  obtain ⟨reads', unsent, tracks, fails, -, kept, all⟩ :=
    coherent.concludes plays ended accepted path given ends
  have sent := tracks.sent_of_failed fails all rfl coherent.taken_isPrefix fresh latest
  exact ⟨a, l, amplifier, listener, ended, finished, values.trans sent, kept⟩

end Rest

/-! ## Sessions are bounded -/

section Bounds

variable {start : Core} {inputs reads outputs left : List Int} {final : Core}
  {outcome : Except Fault Outcome} {moves : Moves} {remaining : Option (List Int)} {n : Network}

/-- What the amplifier has still to do, if a run on the same inputs comes to such an end. -/
def amplifierEffort (limit given room : Nat) (moves : Moves) (n : Network) : Nat :=
  match n.agents[0]? with
  | none => 0
  | some agent => agent.effort limit given room (ledger moves 0 1)

/-- What the listener has still to do, if it receives no more than `room` values. -/
def listenerEffort (room : Nat) (n : Network) : Nat :=
  match n.agents[1]? with
  | some (Agent.listener l) => room - l.values.length + if l.activity = .listening then 1 else 0
  | _ => 0

def producerEffort : Option (List Int) → Nat
  | none => 0
  | some rest => rest.length + 1

def effort (limit given room : Nat) (moves : Moves) (left : Option (List Int)) (n : Network) :
    Nat :=
  amplifierEffort limit given room moves n + listenerEffort room n + producerEffort left

/-- What is still to do, weighed against the number of those that do not sleep. -/
def potential (limit given room : Nat) (moves : Moves) (left : Option (List Int)) (n : Network) :
    Nat :=
  3 * effort limit given room moves left n + awake n 0 + awake n 1

theorem awake_le (n : Network) (k : Nat) : awake n k ≤ 1 := by
  unfold awake
  split <;> omega

theorem potential_lt_of_effort {limit given room : Nat} {moves' : Moves}
    {remaining' : Option (List Int)} {n' : Network}
    (less : effort limit given room moves' remaining' n' <
      effort limit given room moves remaining n) :
    potential limit given room moves' remaining' n' <
      potential limit given room moves remaining n := by
  have first := awake_le n' 0
  have second := awake_le n' 1
  unfold potential
  omega

/-- A look at an empty channel leaves as much to do, for one that is awake less. -/
theorem potential_lt_of_nap {limit given room i : Nat} {moves' : Moves} {n' : Network}
    (same : effort limit given room moves' remaining n' =
      effort limit given room moves remaining n)
    (within : i < 2) (size : n.channels.size = 2) (none : (n.channels.nth i).sleepers = [])
    (acts : (Deed.foundNothing i).Acts i n.channels n'.channels) :
    potential limit given room moves' remaining n' <
      potential limit given room moves remaining n := by
  obtain ⟨asleep, others⟩ := awake_of_foundNothing acts none (by omega)
  unfold potential
  obtain rfl | rfl : i = 0 ∨ i = 1 := by omega
  · have other := others 1 (by decide)
    omega
  · have other := others 0 (by decide)
    omega

variable (path : start.Runs reads outputs final) (given : inputs = reads ++ left)
  (ends : final.ending left = some outcome)

include path given ends

/-- The amplifier executes, receives and sends no more than a run on the same inputs. -/
theorem Coherent.bounds (coherent : Coherent start inputs moves remaining n) {a : Amplifier}
    (there : n.agents[0]? = some (.amplifier a)) :
    a.machine.steps ≤ final.steps ∧ (ledger moves 0 1).taken.length ≤ inputs.length ∧
      (ledger moves 0 1).sent.length ≤ outputs.length := by
  obtain ⟨b, amplifier, plays⟩ := coherent.amplifier
  cases there.symm.trans amplifier
  obtain ⟨reads', unsent, tracks, -⟩ := plays.follows
  have inside : reads' <+: reads ++ left := by
    rw [← given]
    exact tracks.reads_isPrefix.trans coherent.taken_isPrefix
  obtain ⟨r, o, -, written, onward⟩ := path.confined ends tracks.run inside
  refine ⟨onward.steps_le, coherent.taken_isPrefix.length_le, ?_⟩
  rw [written, List.append_assoc, List.length_append]
  exact Nat.le_add_right _ _

/-- The listener receives no more than a run on the same inputs writes. -/
theorem Coherent.received_le (coherent : Coherent start inputs moves remaining n) :
    (traffic moves 1).received.length ≤ outputs.length := by
  obtain ⟨a, amplifier, -⟩ := coherent.amplifier
  have sent : (traffic moves 1).sent.length ≤ outputs.length :=
    (coherent.bounds path given ends amplifier).2.2
  exact (coherent.carries 1 (by decide)).received_isPrefix.length_le.trans sent

variable {deed : Deed} {n' : Network}

theorem Coherent.potential_amplifier {a next : Amplifier}
    (coherent : Coherent start inputs moves remaining n)
    (after : Coherent start inputs (moves ++ [(0, deed)]) remaining n')
    (there : n.agents[0]? = some (.amplifier a)) (plays : Plays start moves a)
    (made : a.Moves deed next) (none : (n.channels.nth 0).sleepers = [])
    (acts : deed.Acts 0 n.channels n'.channels)
    (agents : ∀ j, n'.agents[j]? = if j = 0 then some (.amplifier next) else n.agents[j]?) :
    potential final.steps inputs.length outputs.length (moves ++ [(0, deed)]) remaining n' <
      potential final.steps inputs.length outputs.length moves remaining n := by
  have there' : n'.agents[0]? = some (.amplifier next) := (agents 0).trans (if_pos rfl)
  have between := made.between
  rw [plays.inbound, plays.outbound] at between
  have own : ledger (moves ++ [(0, deed)]) 0 1 = (ledger moves 0 1).note deed :=
    ledger_own between (by decide)
  have listener : listenerEffort outputs.length n' = listenerEffort outputs.length n := by
    simp only [listenerEffort, agents, if_neg (show (1 : Nat) ≠ 0 by decide)]
  by_cases nap : deed = .foundNothing 0
  · subst nap
    obtain ⟨same, -⟩ := (Agent.Moves.amplifier made).awaits
    refine potential_lt_of_nap ?_ (by decide) coherent.channels none acts
    simp only [effort, amplifierEffort, there, there', listener, own, same]
    rfl
  · have busy : ∀ k, deed ≠ .foundNothing k := by
      rintro k rfl
      exact nap (congrArg Deed.foundNothing between)
    obtain ⟨executed, taken, sent⟩ := after.bounds path given ends there'
    rw [own] at taken sent
    apply potential_lt_of_effort
    have less := (Agent.Moves.amplifier made).effort_lt busy executed sent taken
    simp only [effort, amplifierEffort, there, there', listener, own]
    omega

theorem Coherent.potential_listener {l next : Listener}
    (coherent : Coherent start inputs moves remaining n)
    (after : Coherent start inputs (moves ++ [(1, deed)]) remaining n')
    (there : n.agents[1]? = some (.listener l)) (hears : Hears (traffic moves 1) l)
    (listening : l.activity = .listening) (made : l.Moves deed next)
    (none : (n.channels.nth 1).sleepers = []) (acts : deed.Acts 1 n.channels n'.channels)
    (agents : ∀ j, n'.agents[j]? = if j = 1 then some (.listener next) else n.agents[j]?) :
    potential final.steps inputs.length outputs.length (moves ++ [(1, deed)]) remaining n' <
      potential final.steps inputs.length outputs.length moves remaining n := by
  have there' : n'.agents[1]? = some (.listener next) := (agents 1).trans (if_pos rfl)
  have between := made.between 3
  rw [hears.channel] at between
  have other : ledger (moves ++ [(1, deed)]) 0 1 = ledger moves 0 1 :=
    ledger_other between (by decide) (by decide)
  have amplifier : amplifierEffort final.steps inputs.length outputs.length
      (moves ++ [(1, deed)]) n' =
        amplifierEffort final.steps inputs.length outputs.length moves n := by
    simp only [amplifierEffort, agents, if_neg (show (0 : Nat) ≠ 1 by decide), other]
  cases made with
  | sleep =>
    rw [hears.channel] at acts
    refine potential_lt_of_nap ?_ (by decide) coherent.channels none acts
    simp only [effort, listenerEffort, there, there', amplifier]
  | finish =>
    apply potential_lt_of_effort
    simp [effort, listenerEffort, there, there', amplifier, listening]
  | @receive value =>
    obtain ⟨l', listener, hears'⟩ := after.listener
    cases there'.symm.trans listener
    have room := after.received_le path given ends
    rw [← hears'.values, List.length_append, List.length_singleton] at room
    apply potential_lt_of_effort
    simp only [effort, listenerEffort, there, there', amplifier, listening, ↓reduceIte,
      List.length_append, List.length_singleton]
    omega

/-- Every move of an agent lowers what is still to do. -/
theorem Coherent.potential_moved {i : Nat} (coherent : Coherent start inputs moves remaining n)
    (able : n.enabled i = true) :
    potential final.steps inputs.length outputs.length (moves ++ [(i, (n.advance i).deed)])
        remaining (n.advance i).network <
      potential final.steps inputs.length outputs.length moves remaining n := by
  have after := coherent.moved able
  rcases coherent.able_cases able with ⟨rfl, a, next, there, plays, made, none, acts, agents⟩ |
    ⟨rfl, l, next, there, hears, listening, made, none, acts, agents⟩
  · exact coherent.potential_amplifier path given ends after there plays made none acts agents
  · exact coherent.potential_listener path given ends after there hears listening made none acts
      agents

omit path given ends in
/-- Whatever the producer does leaves less to do. -/
theorem potential_produced {limit received room : Nat} {remaining' : Option (List Int)}
    (between : deed.Between 2 0) (same : n'.agents = n.agents)
    (less : producerEffort remaining' < producerEffort remaining) :
    potential limit received room (moves ++ [(2, deed)]) remaining' n' <
      potential limit received room moves remaining n := by
  have other : ledger (moves ++ [(2, deed)]) 0 1 = ledger moves 0 1 :=
    ledger_other between (by decide) (by decide)
  apply potential_lt_of_effort
  simp only [effort, amplifierEffort, listenerEffort, same, other]
  omega

end Bounds

theorem send_between (n : Network) (value : Int) : (n.send 0 value).2.deed.Between 2 0 := by
  rcases n.channels.send_cases 2 0 value with ⟨-, deed, -⟩ | ⟨-, -, deed, -⟩
  · rw [show (n.send 0 value).2.deed = .sent 0 value from deed]
    rfl
  · rw [show (n.send 0 value).2.deed = .refused 0 value from deed]
    rfl

section Session

variable {settings : Settings} {cells : List Int} {name : String} {budget : Option Int}
  {inputs reads outputs left : List Int} {final : Core} {outcome : Except Fault Outcome}

/-- If a run on the inputs comes to an end, a session with them has only so many moves. -/
theorem session_bounded
    (path : (Machine.ofCells settings cells { budget }).core.Runs reads outputs final)
    (given : inputs = reads ++ left) (ends : final.ending left = some outcome) :
    ∃ bound, ∀ moves remaining n,
      Session (network settings cells name budget) inputs moves remaining n →
        moves.length ≤ bound := by
  refine ⟨potential final.steps inputs.length outputs.length [] (some inputs)
    (network settings cells name budget), ?_⟩
  have charge : ∀ {moves : Moves} {move : Nat × Deed} {before after bound : Nat},
      after < before → moves.length + before ≤ bound →
        (moves ++ [move]).length + after ≤ bound := by
    intro moves move before after bound less within
    rw [List.length_append, List.length_singleton]
    omega
  intro moves remaining n session
  have paid : moves.length +
      potential final.steps inputs.length outputs.length moves remaining n ≤
        potential final.steps inputs.length outputs.length [] (some inputs)
          (network settings cells name budget) := by
    induction session with
    | rest => exact Nat.le_of_eq (Nat.zero_add _)
    | move before able ih =>
      exact charge ((coherent_of_session before).potential_moved path given ends able) ih
    | @offer moves value rest now before ih =>
      refine charge (potential_produced (send_between now value) ?_ ?_) ih
      · rfl
      · simp [producerEffort]
    | @giveUp moves value rest now before refused ih =>
      refine charge (potential_produced (send_between now value) ?_ ?_) ih
      · rfl
      · simp [producerEffort]
    | @close moves now before ih =>
      refine charge (potential_produced ?_ ?_ ?_) ih
      · rfl
      · rfl
      · simp [producerEffort]
  omega

end Session

/-- A session that can have only so many moves can be brought to its end. -/
theorem exists_complete {n₀ : Network} {inputs : List Int} {bound : Nat}
    (bounded : ∀ moves remaining n, Session n₀ inputs moves remaining n → moves.length ≤ bound) :
    ∃ moves n, Session n₀ inputs moves none n ∧ n.AtRest := by
  have longer : ∀ length, (∃ moves n, Session n₀ inputs moves none n ∧ n.AtRest) ∨
      ∃ moves remaining n, Session n₀ inputs moves remaining n ∧ moves.length = length := by
    intro length
    induction length with
    | zero => exact Or.inr ⟨[], some inputs, n₀, .rest, rfl⟩
    | succ length ih =>
      rcases ih with found | ⟨moves, remaining, n, session, counted⟩
      · exact Or.inl found
      · match remaining with
        | some (value :: rest) => exact Or.inr ⟨_, _, _, session.offer, by simp [counted]⟩
        | some [] => exact Or.inr ⟨_, _, _, session.close, by simp [counted]⟩
        | none =>
          by_cases able : ∃ i, n.enabled i = true
          · obtain ⟨i, able⟩ := able
            exact Or.inr ⟨_, _, _, session.move able, by simp [counted]⟩
          · refine Or.inl ⟨moves, n, session, ?_⟩
            intro i
            exact Bool.eq_false_iff.mpr fun moves => able ⟨i, moves⟩
  rcases longer (bound + 1) with found | ⟨moves, remaining, n, session, counted⟩
  · exact found
  · have := bounded moves remaining n session
    omega

/-- The listed moves are an interleaving of an amplifier that runs the given program, a producer
that sends it the inputs and a listener, and lead to the given network. -/
def Served (settings : Settings) (program : Program) (name : String) (budget : Option Int)
    (inputs : List Int) (moves : Moves) (remaining : Option (List Int)) (n : Network) : Prop :=
  ∃ start, setUp settings program name budget = .ok start ∧
    Session start inputs moves remaining n

/-- In whatever order the three of them move, they make only so many moves. Once the producer has
closed and nobody is able to move, the amplifier has ended, the listener has found the end of the
stream, and both are as described. -/
def AlwaysEnds (settings : Settings) (program : Program) (name : String) (budget : Option Int)
    (inputs : List Int) (described : Amplifier → Listener → Prop) : Prop :=
  (∃ bound, ∀ moves remaining n, Served settings program name budget inputs moves remaining n →
    moves.length ≤ bound) ∧
  ∀ moves n, Served settings program name budget inputs moves none n → n.AtRest →
    ∃ a l, n.agents[0]? = some (.amplifier a) ∧ n.agents[1]? = some (.listener l) ∧
      a.activity = .ended ∧ l.activity = .finished ∧ described a l

theorem alwaysEnds_of_loaded {settings : Settings} {program : Program} {name : String}
    {budget : Option Int} {inputs cells : List Int} {described : Amplifier → Listener → Prop}
    (loaded : program.load = .ok cells)
    (bounded : ∃ bound, ∀ moves remaining n,
      Session (network settings cells name budget) inputs moves remaining n →
        moves.length ≤ bound)
    (reached : ∀ moves n, Session (network settings cells name budget) inputs moves none n →
      n.AtRest → ∃ a l, n.agents[0]? = some (.amplifier a) ∧ n.agents[1]? = some (.listener l) ∧
        a.activity = .ended ∧ l.activity = .finished ∧ described a l) :
    AlwaysEnds settings program name budget inputs described := by
  obtain ⟨bound, bounded⟩ := bounded
  refine ⟨⟨bound, ?_⟩, ?_⟩
  · rintro moves remaining n ⟨start, ready, session⟩
    cases (setUp_of_load name budget loaded).symm.trans ready
    exact bounded moves remaining n session
  · rintro moves n ⟨start, ready, session⟩ rest
    cases (setUp_of_load name budget loaded).symm.trans ready
    exact reached moves n session rest

/-- An amplifier delivers what a batch run gives on the same inputs. If the batch run returns, the
listener receives what it returns, the amplifier has no fault, and its machine has halted if and
only if that of the batch run has, which is to say that the run came out as halted. If the batch run
fails with a fault of the interpreter, the amplifier has the same fault, and the listener receives
what was written before the machine arrived for the last time at an instruction that asks for an
input. A program that cannot be read makes no amplifier. -/
theorem delivers_of_batch (settings : Settings) (fuel : Nat) (program : Program) (name : String)
    (inputs : List Int) (budget : Option Int) :
    (∀ outputs, (Batch.run settings fuel program inputs budget).result = some (.ok outputs) →
      ∃ fresh outcome final, Machine.load settings program { inputs, budget } = .ok fresh ∧
        fresh.run fuel = (some (.ok outcome), final) ∧
        AlwaysEnds settings program name budget inputs fun a l =>
          l.values = outputs ∧ a.error = none ∧ a.machine.halted = final.halted ∧
            (a.machine.halted = true ↔ outcome = .halted)) ∧
    ∀ fault, (Batch.run settings fuel program inputs budget).result = some (.error fault) →
      fault.isInterpreterFault = true →
      AlwaysEnds settings program name budget inputs fun a l =>
        a.error = some fault ∧
        ∃ fresh, Machine.load settings program { inputs, budget } = .ok fresh ∧
          l.values =
            ((fresh.lastRequest fuel).map fun request => request.outputs.toList).getD [] := by
  constructor
  · intro outputs returned
    obtain ⟨cells, outcome, final, loaded, ran, rfl⟩ := Batch.run_of_ok returned
    obtain ⟨reads, outputs, given, path, written, ends, last⟩ := Machine.run_spec ran
    refine ⟨_, outcome, final, by simp only [Machine.load, loaded], ran,
      alwaysEnds_of_loaded loaded (session_bounded path given ends) ?_⟩
    intro moves n session rest
    obtain ⟨a, l, amplifier, listener, ended, finished, values, clean, halts⟩ :=
      (coherent_of_session session).returned rest path given ends
    refine ⟨a, l, amplifier, listener, ended, finished, values.trans written.symm, clean, ?_, ?_⟩
    · simp only [Machine.halted, last outcome rfl, Option.some.injEq, halts]
    · rw [Machine.halted, decide_eq_true_iff, halts]
  · intro fault failed kept
    cases loaded : program.load with
    | error cause =>
      have unready : setUp settings program name budget = .error cause := by
        rw [setUp_eq, loaded]
        rfl
      refine ⟨⟨0, ?_⟩, ?_⟩
      · rintro moves remaining n ⟨start, ready, -⟩
        cases unready.symm.trans ready
      · rintro moves n ⟨start, ready, -⟩
        cases unready.symm.trans ready
    | ok cells =>
      obtain ⟨final, ran⟩ := Batch.run_of_error loaded failed
      obtain ⟨reads, outputs, given, path, -, ends, -⟩ := Machine.run_spec ran
      refine alwaysEnds_of_loaded loaded (session_bounded path given ends) ?_
      intro moves n session rest
      obtain ⟨a, l, amplifier, listener, ended, finished, values, error⟩ :=
        (coherent_of_session session).failed rest path given ends rfl
          (Machine.lastRequest_latest ran)
      rw [Amplifier.keptFault, if_pos kept] at error
      exact ⟨a, l, amplifier, listener, ended, finished, error, _,
        by simp only [Machine.load, loaded], values⟩

/-- What always ends does end. -/
theorem AlwaysEnds.ends {settings : Settings} {program : Program} {name : String}
    {budget : Option Int} {inputs cells : List Int} {described : Amplifier → Listener → Prop}
    (always : AlwaysEnds settings program name budget inputs described)
    (loaded : program.load = .ok cells) :
    ∃ moves n a l, Served settings program name budget inputs moves none n ∧ n.AtRest ∧
      n.agents[0]? = some (.amplifier a) ∧ n.agents[1]? = some (.listener l) ∧ described a l := by
  obtain ⟨⟨bound, bounded⟩, reached⟩ := always
  have ready : setUp settings program name budget = .ok (network settings cells name budget) :=
    setUp_of_load name budget loaded
  obtain ⟨moves, n, session, rest⟩ := exists_complete
    fun moves remaining n session => bounded moves remaining n ⟨_, ready, session⟩
  obtain ⟨a, l, amplifier, listener, -, -, described⟩ := reached moves n ⟨_, ready, session⟩ rest
  exact ⟨moves, n, a, l, ⟨_, ready, session⟩, rest, amplifier, listener, described⟩

/-- Reads a value and gives it out, reads another one, and then gives out 9 and fails. -/
def halfway : List Int :=
  [3, 0, 4, 0, 3, 0, 104, 9, 42]

/-- Reads a value, gives it out and halts. -/
def forwarding : List Int :=
  [3, 0, 4, 0, 99]

/-- With one input the first program waits for another. With two inputs it fails, and the 9 is never
sent. The second program halts. -/
theorem delivers_of_batch_halfway :
    (∃ moves n a l, Served {} (.image halfway) "A" none [5] moves none n ∧ n.AtRest ∧
      n.agents[0]? = some (.amplifier a) ∧ n.agents[1]? = some (.listener l) ∧
      l.values = [5] ∧ a.error = none ∧ a.machine.halted = false) ∧
    (∃ moves n a l, Served {} (.image halfway) "A" none [5, 6] moves none n ∧ n.AtRest ∧
      n.agents[0]? = some (.amplifier a) ∧ n.agents[1]? = some (.listener l) ∧
      l.values = [5] ∧ a.error = some (.unknownOpcode 42 8)) ∧
    ∃ moves n a l, Served {} (.image forwarding) "A" none [5] moves none n ∧ n.AtRest ∧
      n.agents[0]? = some (.amplifier a) ∧ n.agents[1]? = some (.listener l) ∧
      l.values = [5] ∧ a.error = none ∧ a.machine.halted = true := by
  have waits : (Batch.run {} 9 (.image halfway) [5] none).result = some (.ok [5]) := rfl
  have fails : (Batch.run {} 9 (.image halfway) [5, 6] none).result =
    some (.error (.unknownOpcode 42 8)) := rfl
  have halts : (Batch.run {} 9 (.image forwarding) [5] none).result = some (.ok [5]) := rfl
  refine ⟨?_, ?_, ?_⟩
  · obtain ⟨fresh, outcome, final, made, ran, always⟩ :=
      (delivers_of_batch {} 9 (.image halfway) "A" [5] none).1 [5] waits
    obtain ⟨moves, n, a, l, served, rest, amplifier, listener, values, clean, same, -⟩ :=
      always.ends rfl
    cases made
    cases ran
    exact ⟨moves, n, a, l, served, rest, amplifier, listener, values, clean, same⟩
  · obtain ⟨moves, n, a, l, served, rest, amplifier, listener, error, fresh, made, values⟩ :=
      ((delivers_of_batch {} 9 (.image halfway) "A" [5, 6] none).2 _ fails rfl).ends rfl
    cases made
    exact ⟨moves, n, a, l, served, rest, amplifier, listener, values, error⟩
  · obtain ⟨fresh, outcome, final, made, ran, always⟩ :=
      (delivers_of_batch {} 9 (.image forwarding) "A" [5] none).1 [5] halts
    obtain ⟨moves, n, a, l, served, rest, amplifier, listener, values, clean, -, halted⟩ :=
      always.ends rfl
    cases made
    cases ran
    exact ⟨moves, n, a, l, served, rest, amplifier, listener, values, clean, halted.mpr rfl⟩

end Solo

end Intcode
