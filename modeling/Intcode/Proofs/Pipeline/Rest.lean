import Intcode.Proofs.Pipeline.Invariant

/-!
# Pipelines at rest

When no agent of a pipeline is able to move, each has ended or sleeps on its own channel, which
is open and empty. An agent that has ended has closed its outbound channel, so the next one
cannot sleep and has ended too. In a chain the relay closes the channel of the first stage at
once, and so a chain at rest is over (`Coherent.chain_over`). A loop at rest is over, or else all
of its agents sleep (`Coherent.loop_rest`). Last come the verdicts on a pipeline that is over.
-/
namespace Intcode

namespace Pipeline

open Network

/-- The agent looks for a value on its own channel, which is open and has none. -/
structure Blocked (n : Network) (k : Nat) (agent : Agent) : Prop where
  awaits : agent.awaits = some k
  empty : (n.channels.nth k).buffer = []
  opened : (n.channels.nth k).isOpen = true

def Ended (n : Network) (k : Nat) : Prop :=
  ∀ agent, n.agents[k]? = some agent → agent.isAlive = false

theorem atRest_of_isOver {n : Network} (finished : isOver n = true) : n.AtRest := by
  intro i
  unfold enabled
  cases there : n.agents[i]? with
  | none => rfl
  | some agent =>
    obtain ⟨bound, rfl⟩ := Array.getElem?_eq_some_iff.mp there
    have ended := Array.all_eq_true.mp finished i bound
    simp only [Bool.not_eq_true'] at ended
    simp [ended]

/-- An agent that looks at no other channel than its own, and is not able to move, has ended or is
blocked. -/
theorem Rests.blocked {n : Network} {k : Nat} {agent : Agent} (rests : Rests n k)
    (unable : n.enabled k = false) (there : n.agents[k]? = some agent)
    (own : ∀ channel, agent.awaits = some channel → channel = k) :
    agent.isAlive = false ∨ Blocked n k agent := by
  simp only [enabled, there] at unable
  cases alive : agent.isAlive with
  | false => exact Or.inl rfl
  | true =>
    simp only [alive, Bool.true_and, Bool.or_eq_false_iff, Bool.not_eq_false'] at unable
    obtain ⟨-, asleep⟩ := unable
    cases looks : agent.awaits with
    | none => simp [isAsleep, looks] at asleep
    | some channel =>
      obtain rfl := own channel looks
      simp only [isAsleep, looks] at asleep
      rcases rests with none | ⟨-, empty, opened, -⟩
      · simp [none] at asleep
      · exact Or.inr ⟨looks, empty, opened⟩

section AtRest

variable {wiring : Wiring} {start : Core} {phases : List Int} {signal : Int} {moves : Moves}
  {n : Network} {k : Nat} {agent : Agent}

/-- An agent that is not able to move has ended or is blocked. -/
theorem Coherent.at_rest (coherent : Coherent wiring start phases signal moves n)
    (rest : n.AtRest) (there : n.agents[k]? = some agent) :
    agent.isAlive = false ∨ Blocked n k agent := by
  obtain ⟨inbound, -⟩ := coherent.serves k agent there
  refine (coherent.rests k (coherent.place there)).blocked (rest k) there ?_
  intro channel looks
  exact (Agent.awaits_eq looks).trans inbound

/-- An agent that has ended has closed its outbound channel. -/
theorem Coherent.closed_of_ended (coherent : Coherent wiring start phases signal moves n)
    (within : k ≤ phases.length) (ended : Ended n k) :
    (traffic moves (outlet phases.length k)).closed = true := by
  unfold outlet
  split
  case isTrue last =>
    subst last
    obtain ⟨r, there, -, follows⟩ := coherent.relay
    have finished := ended _ there
    simp only [Agent.isAlive, Relay.isAlive, bne_eq_false_iff_eq] at finished
    exact follows.stands.closed_of_ended finished
  case isFalse stage =>
    obtain ⟨a, there, -, reads, unsent, -, stands⟩ := coherent.stage (by omega : k < phases.length)
    have finished := ended _ there
    simp only [Agent.isAlive, Amplifier.isAlive, Bool.and_eq_false_iff,
      bne_eq_false_iff_eq] at finished
    rcases finished with unstarted | finished
    · simp [Amplifier.Stands, unstarted] at stands
    · exact stands.ended_iff.mpr finished

/-- At rest, no agent sleeps on a channel that is closed. -/
theorem Coherent.ended_of_closed (coherent : Coherent wiring start phases signal moves n)
    (rest : n.AtRest) (within : k ≤ phases.length) (closed : (traffic moves k).closed = true) :
    Ended n k := by
  intro agent there
  rcases coherent.at_rest rest there with ended | ⟨-, -, opened⟩
  · exact ended
  · have := (coherent.carries k within).open_iff.mp opened
    simp [closed] at this

theorem Coherent.ended_next (coherent : Coherent wiring start phases signal moves n)
    (rest : n.AtRest) (within : k ≤ phases.length) (ended : Ended n k) :
    Ended n (outlet phases.length k) :=
  coherent.ended_of_closed rest (outlet_le within) (coherent.closed_of_ended within ended)

/-- At rest, once an agent has ended, so have all that come after it. -/
theorem Coherent.ended_after (coherent : Coherent wiring start phases signal moves n)
    (rest : n.AtRest) {j : Nat} (ended : Ended n j) (after : j ≤ k) (within : k ≤ phases.length) :
    Ended n k := by
  induction after with
  | refl => exact ended
  | @step k after ih =>
    have next := coherent.ended_next rest (Nat.le_of_lt within) (ih (Nat.le_of_lt within))
    rwa [outlet, if_neg (by omega)] at next

theorem Coherent.isOver_iff (coherent : Coherent wiring start phases signal moves n) :
    isOver n = true ↔ ∀ k ≤ phases.length, Ended n k := by
  simp only [isOver, Array.all_eq_true, Bool.not_eq_true']
  constructor
  · intro finished k within agent there
    obtain ⟨bound, rfl⟩ := Array.getElem?_eq_some_iff.mp there
    exact finished k bound
  · intro ended k bound
    have := coherent.agents
    exact ended k (by omega) _ (Array.getElem?_eq_getElem bound)

theorem Coherent.stage_ended (coherent : Coherent wiring start phases signal moves n)
    (finished : isOver n = true) {a : Amplifier} (there : n.agents[k]? = some (.amplifier a)) :
    a.activity = .ended := by
  have within : k < phases.length := (coherent.serves k _ there).role.1
  have closed := coherent.closed_of_ended (Nat.le_of_lt within)
    (coherent.isOver_iff.mp finished k (Nat.le_of_lt within))
  rw [outlet, if_neg (Nat.ne_of_lt within)] at closed
  obtain ⟨b, there', -, reads, unsent, -, stands⟩ := coherent.stage within
  cases there.symm.trans there'
  exact stands.ended_iff.mp closed

theorem Coherent.relay_ended (coherent : Coherent wiring start phases signal moves n)
    (finished : isOver n = true) {r : Relay} (there : n.agents[k]? = some (.relay r)) :
    r.activity = .ended := by
  have ended := coherent.isOver_iff.mp finished k (coherent.place there) _ there
  simpa only [Agent.isAlive, Relay.isAlive, bne_eq_false_iff_eq] using ended

/-- A chain at rest is over. -/
theorem Coherent.chain_over (coherent : Coherent .chain start phases signal moves n)
    (rest : n.AtRest) : isOver n = true := by
  obtain ⟨r, there, loops, follows⟩ := coherent.relay
  have stands := follows.stands
  have closed : (traffic moves 0).closed = true := by
    rcases coherent.at_rest rest there with ended | blocked
    · simp only [Agent.isAlive, Relay.isAlive, bne_eq_false_iff_eq] at ended
      exact stands.closed_of_ended ended
    · have now := (Relay.awaits_iff.mp blocked.awaits).1
      simp only [Relay.Stands, loops, reduceCtorEq, decide_false, now] at stands
      exact stands.1
  have first := coherent.ended_of_closed rest (Nat.zero_le _) closed
  exact coherent.isOver_iff.mpr fun k within =>
    coherent.ended_after rest first (Nat.zero_le k) within

/-- A loop at rest is over, or all of its agents are blocked. -/
theorem Coherent.loop_rest (coherent : Coherent wiring start phases signal moves n)
    (rest : n.AtRest) :
    isOver n = true ∨ ∀ k agent, n.agents[k]? = some agent → agent.isAlive = true ∧
      Blocked n k agent := by
  by_cases some : ∃ k ≤ phases.length, Ended n k
  · obtain ⟨k, within, ended⟩ := some
    have last := coherent.ended_after rest ended within (Nat.le_refl _)
    have first := coherent.ended_next rest (Nat.le_refl _) last
    rw [outlet, if_pos rfl] at first
    exact Or.inl (coherent.isOver_iff.mpr fun k within =>
      coherent.ended_after rest first (Nat.zero_le k) within)
  · apply Or.inr
    intro k agent there
    have alive : agent.isAlive = true := by
      cases alive : agent.isAlive with
      | true => rfl
      | false =>
        refine absurd ⟨k, coherent.place there, ?_⟩ some
        intro other same
        cases there.symm.trans same
        exact alive
    refine ⟨alive, ?_⟩
    rcases coherent.at_rest rest there with ended | blocked
    · cases alive.symm.trans ended
    · exact blocked

end AtRest

/-! ## Verdicts -/

theorem findSome?_of_first {α β : Type} {f : α → Option β} {xs : List α} {k : Nat} {x : α} {y : β}
    (there : xs[k]? = some x) (found : f x = some y)
    (before : ∀ j < k, ∀ z, xs[j]? = some z → f z = none) : xs.findSome? f = some y := by
  induction xs generalizing k with
  | nil => simp at there
  | cons first rest ih =>
    cases k with
    | zero =>
      cases Option.some.inj there
      simp [found]
    | succ k =>
      rw [List.findSome?_cons, before 0 (Nat.zero_lt_succ k) first rfl]
      exact ih there fun j earlier z found => before (j + 1) (Nat.succ_lt_succ earlier) z found

section Verdict

variable {wiring : Wiring} {start : Core} {phases : List Int} {signal : Int} {moves : Moves}
  {n : Network} {k : Nat}

theorem Coherent.relayed (coherent : Coherent wiring start phases signal moves n) :
    n.agents.toList.findSome? relayed? = (traffic moves phases.length).received.getLast? := by
  obtain ⟨r, there, -, follows⟩ := coherent.relay
  rw [show (traffic moves phases.length).received.getLast? = r.last from follows.last.symm]
  have others : ∀ j agent, n.agents[j]? = some agent → j ≠ phases.length →
      relayed? agent = none := by
    intro j agent found apart
    have role := (coherent.serves j agent found).role
    cases agent with
    | relay other => exact absurd role.1 apart
    | _ => rfl
  cases last : r.last with
  | some value =>
    refine findSome?_of_first (k := phases.length) (x := Agent.relay r) (by simpa using there)
      last ?_
    intro j earlier agent found
    exact others j agent (by simpa using found) (Nat.ne_of_lt earlier)
  | none =>
    rw [List.findSome?_eq_none_iff]
    intro agent member
    obtain ⟨j, found⟩ := List.mem_iff_getElem?.mp member
    rw [Array.getElem?_toList] at found
    by_cases own : j = phases.length
    · subst own
      cases there.symm.trans found
      exact last
    · exact others j agent found own

/-- A pipeline none of whose stages failed returns the last value that its relay received. -/
theorem Coherent.verdict_ok (coherent : Coherent wiring start phases signal moves n)
    (blameless : ∀ (k : Nat) (a : Amplifier), n.agents[k]? = some (.amplifier a) →
      stageFailure? (.amplifier a) = none) :
    verdict n = .ok (traffic moves phases.length).received.getLast? := by
  have none : n.agents.toList.findSome? stageFailure? = none := by
    rw [List.findSome?_eq_none_iff]
    intro agent member
    obtain ⟨j, found⟩ := List.mem_iff_getElem?.mp member
    rw [Array.getElem?_toList] at found
    cases agent with
    | amplifier a => exact blameless j a found
    | _ => rfl
  rw [verdict, none, coherent.relayed]

theorem Coherent.verdict_signal (coherent : Coherent wiring start phases signal moves n)
    {returned : Option Int} (success : verdict n = .ok returned) :
    returned = (traffic moves phases.length).received.getLast? := by
  unfold verdict at success
  split at success
  · cases success
  · rw [coherent.relayed] at success
    exact (Except.ok.inj success).symm

/-- The first stage that failed is the one that a pipeline names. -/
theorem Coherent.verdict_error (coherent : Coherent wiring start phases signal moves n)
    {a : Amplifier} {fault : Fault} (there : n.agents[k]? = some (.amplifier a))
    (failed : a.error = some fault) (own : fault.isChannelClosed = false)
    (before : ∀ j < k, ∀ b, n.agents[j]? = some (.amplifier b) →
      stageFailure? (.amplifier b) = none) :
    verdict n = .error (.stageFailed (stageName k) fault) := by
  have name : a.name = stageName k := (coherent.serves k _ there).role.2
  have blamed : n.agents.toList.findSome? stageFailure? =
      some (.stageFailed (stageName k) fault) := by
    refine findSome?_of_first (k := k) (by simpa using there) ?_ ?_
    · simp [stageFailure?, failed, own, name]
    · intro j earlier agent found
      cases agent with
      | amplifier b => exact before j earlier b (by simpa using found)
      | _ => rfl
  rw [verdict, blamed]

end Verdict

end Pipeline

end Intcode
