import Intcode.Proofs.Network.Waking

/-!
# Networks at rest, whatever was done to them

A network is built and used from outside while it runs: `Event` lists what can happen to it, and
`play` lets events happen in any order. Channels may be shared by any number of agents. A blocking
receive from outside is a listener that wants one value; a timed one may give up. `Kept` is what
every event preserves. So when nobody moves any more, except perhaps to give up a sleep, all who are
left wait for a value on channels that are open and empty, and an amplifier that has ended has
closed both of its channel ends (`play_still`).

Not claimed is that a network comes to rest: its amplifiers may run for ever.
-/
namespace Intcode

/-- What is closed before is closed after. -/
def Channels.StayClosed (before after : Channels) : Prop :=
  ∀ k < before.size,
    ((before.nth k).senderClosed = true → (after.nth k).senderClosed = true) ∧
      ((before.nth k).receiverClosed = true → (after.nth k).receiverClosed = true)

theorem Deed.Happens.stayClosed {self : Nat} {before after : Channels} {deed : Deed}
    (happens : deed.Happens self before after) : before.StayClosed after := by
  intro k inside
  by_cases here : deed.channel? = some k
  · cases happens with
    | look _ _ same => simp [same]
    | acts acts =>
      cases deed <;> simp only [Acts] at acts <;> cases here <;>
        grind [Channels.nth_put_self, Channel.sleep, Channel.rouse, Channel.close,
          Channel.closeReceiver]
  · simp [happens.elsewhere here]

namespace Amplifier

/-- What an amplifier on its way out has closed: first its inbound channel, then its outbound. -/
structure Leaves (a : Amplifier) (channels : Channels) : Prop where
  inbound : a.activity = .closingOutbound ∨ a.activity = .ended →
    (channels.nth a.inbound).receiverClosed = true
  outbound : a.activity = .ended → (channels.nth a.outbound).senderClosed = true

variable {a next : Amplifier} {channels after : Channels} {self : Nat} {deed : Deed}

theorem Leaves.of_going (going : a.activity ≠ .closingOutbound ∧ a.activity ≠ .ended) :
    a.Leaves channels :=
  ⟨fun leaving => absurd leaving (by simp [going]), fun ended => absurd ended going.2⟩

theorem Leaves.mono (leaves : a.Leaves channels) (stay : channels.StayClosed after)
    (inside : a.inbound < channels.size ∧ a.outbound < channels.size) : a.Leaves after := by
  refine ⟨fun leaving => ?_, fun ended => ?_⟩
  · exact (stay a.inbound inside.1).2 (leaves.inbound leaving)
  · exact (stay a.outbound inside.2).1 (leaves.outbound ended)

theorem afterSending_going (values : List Int) (halted : Bool) :
    afterSending values halted ≠ .closingOutbound ∧ afterSending values halted ≠ .ended := by
  cases values <;> cases halted <;> simp [afterSending]

/-- An amplifier closes its channels one after the other before it ends. -/
theorem Leaves.moved (leaves : a.Leaves channels) (moves : a.Moves deed next)
    (acts : deed.Acts self channels after)
    (inside : a.inbound < channels.size ∧ a.outbound < channels.size) : next.Leaves after := by
  cases moves with
  | closeInbound now =>
    refine ⟨fun _ => ?_, fun ended => by cases ended⟩
    rw [acts.2, Channels.nth_put_self inside.1]
    rfl
  | closeOutbound now =>
    refine ⟨fun _ => ?_, fun _ => ?_⟩
    · have stay := Deed.Happens.stayClosed (.acts acts)
      exact (stay a.inbound inside.1).2 (leaves.inbound (Or.inl now))
    · rw [show _ = _ from acts, Channels.nth_put_self inside.2]
      rfl
  | sleep now => exact .of_going (by simp [now])
  | flush => exact .of_going (afterSending_going _ _)
  | hangUp => exact .of_going (afterSending_going _ _)
  | skip => exact .of_going (afterSending_going _ _)
  | send => exact .of_going (afterSending_going _ _)
  | _ => exact .of_going (by simp)

end Amplifier

namespace Agent

/-- Whether an agent is as it is made, between channels of which there are so many. -/
def isFresh (size : Nat) : Agent → Bool
  | amplifier a => a.activity = .unstarted && a.inbound < size && a.outbound < size
  | listener l => l.activity = .listening && l.channel < size
  | relay r =>
    (r = .ofChain r.tail r.head || r = .ofLoop r.tail r.head) && r.tail < size && r.head < size

/-- An amplifier among the agents that has ended has closed what it should. -/
def Leaves (channels : Channels) : Agent → Prop
  | amplifier a => a.Leaves channels
  | _ => True

variable {agent : Agent} {channels after : Channels} {self : Nat}

theorem inside_of_isFresh (fresh : agent.isFresh channels.size = true) :
    agent.inbound < channels.size ∧ agent.outbound < channels.size := by
  cases agent with
  | amplifier a =>
    simp only [isFresh, Bool.and_eq_true, decide_eq_true_eq] at fresh
    exact ⟨fresh.1.2, fresh.2⟩
  | listener l =>
    simp only [isFresh, Bool.and_eq_true, decide_eq_true_eq] at fresh
    exact ⟨fresh.2, fresh.2⟩
  | relay r =>
    simp only [isFresh, Bool.and_eq_true, decide_eq_true_eq] at fresh
    exact ⟨fresh.1.2, fresh.2⟩

theorem leaves_of_isFresh {size : Nat} (fresh : agent.isFresh size = true) :
    agent.Leaves channels := by
  cases agent with
  | amplifier a =>
    simp only [isFresh, Bool.and_eq_true, decide_eq_true_eq] at fresh
    exact Amplifier.Leaves.of_going (by simp [fresh.1.1])
  | listener l => trivial
  | relay r => trivial

theorem Leaves.mono (leaves : agent.Leaves channels) (stay : channels.StayClosed after)
    (inside : agent.inbound < channels.size ∧ agent.outbound < channels.size) :
    agent.Leaves after := by
  cases agent with
  | amplifier a => exact Amplifier.Leaves.mono leaves stay inside
  | listener l => trivial
  | relay r => trivial

theorem Leaves.moved (leaves : agent.Leaves channels) (alive : agent.isAlive = true)
    (inside : agent.inbound < channels.size ∧ agent.outbound < channels.size) :
    (agent.move self channels).1.Leaves (agent.move self channels).2.channels := by
  cases agent with
  | amplifier a =>
    obtain ⟨moves, acts⟩ := Amplifier.move_moves self channels alive
    exact Amplifier.Leaves.moved leaves moves acts inside
  | listener l => trivial
  | relay r => trivial

/-- An agent stays between its channels. -/
theorem move_keeps (agent : Agent) (self : Nat) (channels : Channels)
    (alive : agent.isAlive = true) :
    (agent.move self channels).1.inbound = agent.inbound ∧
      (agent.move self channels).1.outbound = agent.outbound := by
  cases agent with
  | amplifier a => exact (Amplifier.move_moves self channels alive).1.keeps.2
  | listener l =>
    have keeps : (l.move self channels).1.channel = l.channel := by
      unfold Listener.move Listener.look Listener.lookOnce
      grind [Listener.keep]
    exact ⟨keeps, keeps⟩
  | relay r =>
    have keeps := (Relay.move_moves self channels alive).1.keeps
    exact ⟨keeps.1, keeps.2.1⟩

end Agent

namespace Network

/-- What can happen to a network. -/
inductive Event where
  | addChannel (name : String)
  /-- An amplifier, a listener or a relay is added, on channels that are there. -/
  | addAgent (agent : Agent)
  | start (i : Nat)
  | send (number : Nat) (value : Int)
  /-- Somebody outside looks at a channel and takes the next value, without waiting for one. -/
  | receive (number : Nat)
  | close (number : Nat)
  | closeReceiver (number : Nat)
  /-- An agent moves that is able to. -/
  | move (i : Nat)
  deriving DecidableEq, Repr

/-- The network after an event, if it can happen. -/
def react (n : Network) : Event → Option Network
  | .addChannel name => some (n.addChannel { name })
  | .addAgent agent => if agent.isFresh n.channels.size then some (n.addAgent agent) else none
  | .start i => (n.start i).toOption.map Transition.network
  | .send number value => some (n.send number value).2.network
  | .receive number => some (n.receive number).2.network
  | .close number => some (n.close number).network
  | .closeReceiver number => some (n.closeReceiver number).network
  | .move i => if n.enabled i then some (n.advance i).network else none

/-- The network after the listed events, in order, if they can happen. -/
def play (n : Network) : List Event → Option Network
  | [] => some n
  | event :: rest => (n.react event).bind fun next => next.play rest

/-- Nobody is able to move, except that a timed listener may give up its sleep. -/
def Still (n : Network) : Prop :=
  ∀ i : Fin n.agents.size, n.enabled i = true → n.isAsleep i n.agents[i] = true

instance (n : Network) : Decidable n.Still :=
  inferInstanceAs (Decidable (∀ _ : Fin n.agents.size, _ → _))

/-- What holds in a network, whatever happens to it. -/
structure Kept (n : Network) : Prop where
  heeded : ∀ k < n.channels.size, n.Heeded k
  inside : ∀ (i : Nat) (agent : Agent), n.agents[i]? = some agent →
    agent.inbound < n.channels.size ∧ agent.outbound < n.channels.size
  leaves : ∀ (i : Nat) (agent : Agent), n.agents[i]? = some agent → agent.Leaves n.channels

variable {n : Network}

theorem kept_empty : ({} : Network).Kept :=
  ⟨by simp, by simp, by simp⟩

theorem start_cases {i : Nat} {t : Transition} (started : n.start i = .ok t) :
    ∃ a, n.agents[i]? = some (.amplifier a) ∧ a.activity = .unstarted ∧
      t.network = { n with
        agents := n.agents.setIfInBounds i (.amplifier { a with activity := .starting }) } := by
  unfold Network.start amplifier? at started
  split at started
  next => cases started
  next a found =>
    split at found
    next there =>
      cases found
      split at started
      · cases started
        exact ⟨a, there, ‹_›, rfl⟩
      · cases started
    next => cases found

namespace Kept

theorem addChannel (kept : n.Kept) (name : String) : (n.addChannel { name }).Kept := by
  have same : ∀ k < n.channels.size, (n.addChannel { name }).channels.nth k = n.channels.nth k := by
    intro k inside
    simp [Network.addChannel, Channels.nth, Array.getD_eq_getD_getElem?, Array.getElem?_push,
      Nat.ne_of_lt inside]
  have new : (n.addChannel { name }).channels.nth n.channels.size = { name } := by
    simp [Network.addChannel, Channels.nth, Array.getD_eq_getD_getElem?]
  have size : (n.addChannel { name }).channels.size = n.channels.size + 1 := by
    simp [Network.addChannel]
  refine ⟨?_, ?_, ?_⟩
  · intro k inside
    rcases Nat.lt_succ_iff_lt_or_eq.mp (size ▸ inside) with old | rfl
    · exact (kept.heeded k old).mono (same k old) (fun _ looks => looks)
        (kept.heeded k old).sleeping
    · exact .of_awake (by rw [new])
  · intro i agent there
    have := kept.inside i agent there
    omega
  · intro i agent there
    refine (kept.leaves i agent there).mono (fun k inside => ?_) (kept.inside i agent there)
    simp [same k inside]

theorem addAgent (kept : n.Kept) {agent : Agent} (fresh : agent.isFresh n.channels.size = true) :
    (n.addAgent agent).Kept := by
  have place : ∀ i, (n.addAgent agent).agents[i]? =
      if i = n.agents.size then some agent else n.agents[i]? := by
    intro i
    simp [Network.addAgent, Array.getElem?_push]
  have old : ∀ i found, n.agents[i]? = some found → i ≠ n.agents.size := by
    intro i found there
    exact Nat.ne_of_lt (Array.getElem?_eq_some_iff.mp there).1
  refine ⟨?_, ?_, ?_⟩
  · intro k inside
    refine (kept.heeded k inside).mono rfl ?_ ?_
    · intro j looks
      obtain ⟨found, there, looks⟩ := Option.bind_eq_some_iff.mp looks
      exact Option.bind_eq_some_iff.mpr
        ⟨found, (place j).trans ((if_neg (old j found there)).trans there), looks⟩
    · intro j asleep
      obtain ⟨found, there, sleeps⟩ :=
        Option.bind_eq_some_iff.mp ((kept.heeded k inside).sleeping j asleep)
      exact Option.bind_eq_some_iff.mpr
        ⟨found, (place j).trans ((if_neg (old j found there)).trans there), sleeps⟩
  · intro i found there
    rw [place] at there
    split at there
    · cases there
      exact Agent.inside_of_isFresh fresh
    · exact kept.inside i found there
  · intro i found there
    rw [place] at there
    split at there
    · cases there
      exact Agent.leaves_of_isFresh fresh
    · exact kept.leaves i found there

/-- Whoever does something from outside looks at nothing and sleeps nowhere. -/
theorem affected (kept : n.Kept) {effect : Effect}
    (happens : effect.deed.Happens n.agents.size n.channels effect.channels)
    (sleepless : ∀ k, effect.deed = .foundNothing k → effect.channels = n.channels) :
    (n.affected effect).network.Kept := by
  refine ⟨?_, ?_, ?_⟩
  · intro k inside
    have inside : k < n.channels.size := happens.size_eq ▸ inside
    have heeding :
        Heeding n (n.affected effect).network n.agents.size k effect.deed := by
      refine ⟨happens, fun _ _ => ⟨rfl, rfl⟩, ?_, fun found => Or.inr (sleepless k found), ?_⟩
      · simp [lookingAt]
      · intro asleep
        have sleeps := (kept.heeded k inside).sleeping _ asleep
        simp [sleepingOn] at sleeps
    exact heeding.heeded (kept.heeded k inside) inside
  · intro i agent there
    rw [show (n.affected effect).network.channels.size = n.channels.size from happens.size_eq]
    exact kept.inside i agent there
  · intro i agent there
    exact (kept.leaves i agent there).mono happens.stayClosed (kept.inside i agent there)

theorem send (kept : n.Kept) (number : Nat) (value : Int) :
    (n.send number value).2.network.Kept := by
  refine kept.affected (n.channels.access_happens _ (.send number value)) ?_
  intro k found
  rcases n.channels.send_cases 0 number value with ⟨-, deed, -⟩ | ⟨-, -, deed, -⟩
  · cases deed.symm.trans found
  · cases deed.symm.trans found

theorem receive (kept : n.Kept) (number : Nat) : (n.receive number).2.network.Kept := by
  have polled : (n.receive number).2 = n.affected (n.channels.poll number).2 := by
    unfold Network.receive
    rcases n.channels.poll number with ⟨_ | _ | _, effect⟩ <;> rfl
  rw [polled]
  refine kept.affected (n.channels.access_happens _ (.look number)) ?_
  intro k found
  rcases n.channels.poll_cases 0 number with
    ⟨_, -, deed, -⟩ | ⟨-, deed, -⟩ | ⟨-, -, -, -, same⟩
  · cases deed.symm.trans found
  · cases deed.symm.trans found
  · exact same

/-- An agent that moves heeds the channel that it looks at and closes what it should. -/
theorem moved (kept : n.Kept) {next : Network} {i : Nat} {agent agent' : Agent} {deed : Deed}
    (there : n.agents[i]? = some agent)
    (placed : ∀ j, next.agents[j]? = if j = i then some agent' else n.agents[j]?)
    (heeds : Agent.Heeds i agent agent' n.channels next.channels deed)
    (keeps : agent'.inbound = agent.inbound ∧ agent'.outbound = agent.outbound)
    (leaves : agent'.Leaves next.channels) : next.Kept := by
  have size := heeds.happens.size_eq
  have own : next.agents[i]? = some agent' := (placed i).trans (if_pos rfl)
  have other : ∀ j, j ≠ i → next.agents[j]? = n.agents[j]? := fun j apart =>
    (placed j).trans (if_neg apart)
  refine ⟨?_, ?_, ?_⟩
  · intro k inside
    have inside : k < n.channels.size := size ▸ inside
    have heeding : Heeding n next i k deed := by
      refine ⟨heeds.happens, ?_, ?_, ?_, ?_⟩
      · intro j apart
        simp [lookingAt, sleepingOn, other j apart]
      · simpa [lookingAt, own, there] using heeds.leaves k
      · simpa [sleepingOn, own] using heeds.sleeps k
      · intro asleep
        have sleeps := (kept.heeded k inside).sleeping i asleep
        exact heeds.wakes k (by simpa [sleepingOn, there] using sleeps) asleep
    exact heeding.heeded (kept.heeded k inside) inside
  · intro j found stands
    rw [size]
    by_cases same : j = i
    · subst same
      cases own.symm.trans stands
      rw [keeps.1, keeps.2]
      exact kept.inside j agent there
    · exact kept.inside j found ((other j same).symm.trans stands)
  · intro j found stands
    by_cases same : j = i
    · subst same
      cases own.symm.trans stands
      exact leaves
    · have before := (other j same).symm.trans stands
      exact (kept.leaves j found before).mono heeds.happens.stayClosed (kept.inside j found before)

theorem advance (kept : n.Kept) {i : Nat} (able : n.enabled i = true) :
    (n.advance i).network.Kept := by
  simp only [enabled] at able
  split at able
  · cases able
  next agent there =>
    obtain ⟨alive, timed⟩ := Bool.and_eq_true_iff.mp able
    have awake : agent.isTimed = false →
        ∀ k, agent.sleepsOn = some k → i ∉ (n.channels.nth k).sleepers := by
      intro untimed k sleeps
      simpa [untimed, isAsleep, Agent.awaits_of_sleepsOn sleeps] using timed
    have heeds := Agent.move_heeds alive awake
    rw [← advance_channels there] at heeds
    refine kept.moved there (advance_agents there) heeds (agent.move_keeps i n.channels alive) ?_
    rw [advance_channels there]
    exact (kept.leaves i agent there).moved alive (kept.inside i agent there)

/-- An amplifier that is started has looked at nothing before. -/
theorem start (kept : n.Kept) {i : Nat} {t : Transition} (started : n.start i = .ok t) :
    t.network.Kept := by
  obtain ⟨a, there, fresh, started⟩ := start_cases started
  rw [started]
  have bound := (Array.getElem?_eq_some_iff.mp there).1
  have heeds : Agent.Heeds i (.amplifier a) (.amplifier { a with activity := .starting })
      n.channels n.channels .internal := by
    refine ⟨.acts rfl, ?_, by simp, ?_⟩
    · simp [Agent.awaits, Amplifier.awaits, fresh]
    · simp [Agent.sleepsOn, Amplifier.awaits, fresh]
  refine kept.moved there ?_ heeds ⟨rfl, rfl⟩ (Amplifier.Leaves.of_going (by simp))
  intro j
  by_cases same : j = i
  · subst same
    simp [bound]
  · simp [same, Ne.symm same]

/-- Every event keeps it all. -/
theorem react (kept : n.Kept) {event : Event} {next : Network}
    (reacts : n.react event = some next) : next.Kept := by
  cases event with
  | addChannel name =>
    cases reacts
    exact kept.addChannel name
  | addAgent agent =>
    simp only [Network.react] at reacts
    split at reacts
    · cases reacts
      exact kept.addAgent ‹_›
    · cases reacts
  | start i =>
    simp only [Network.react] at reacts
    cases started : n.start i with
    | error fault => simp [started, Except.toOption] at reacts
    | ok t =>
      simp only [started, Except.toOption, Option.map_some, Option.some.injEq] at reacts
      exact reacts ▸ kept.start started
  | send number value =>
    cases reacts
    exact kept.send number value
  | receive number =>
    cases reacts
    exact kept.receive number
  | close number =>
    cases reacts
    exact kept.affected (n.channels.access_happens _ (.close number)) (by simp [Channels.close])
  | closeReceiver number =>
    cases reacts
    exact kept.affected (n.channels.access_happens _ (.closeReceiver number))
      (by simp [Channels.closeReceiver])
  | move i =>
    simp only [Network.react] at reacts
    split at reacts
    · cases reacts
      exact kept.advance ‹_›
    · cases reacts

theorem play (kept : n.Kept) {events : List Event} {last : Network}
    (played : n.play events = some last) : last.Kept := by
  induction events generalizing n with
  | nil =>
    cases played
    exact kept
  | cons event rest ih =>
    obtain ⟨next, reacts, played⟩ := Option.bind_eq_some_iff.mp played
    exact ih (kept.react reacts) played

/-- In a still network, whoever is left sleeps on a channel that is open and empty. -/
theorem blocked (kept : n.Kept) (still : n.Still) {i : Nat} {agent : Agent}
    (there : n.agents[i]? = some agent) (alive : agent.isAlive = true) :
    ∃ k, agent.awaits = some k ∧ i ∈ (n.channels.nth k).sleepers ∧
      (n.channels.nth k).buffer = [] ∧ (n.channels.nth k).isOpen = true := by
  have asleep : ∀ (j : Nat) (found : Agent), n.agents[j]? = some found → found.isAlive = true →
      n.isAsleep j found = true := by
    intro j found stands alive
    obtain ⟨bound, rfl⟩ := Array.getElem?_eq_some_iff.mp stands
    by_contra awake
    refine awake (still ⟨j, bound⟩ ?_)
    simpa [enabled, stands, alive] using Or.inr (Bool.eq_false_iff.mpr awake)
  have sleeps := asleep i agent there alive
  cases looks : agent.awaits with
  | none => simp [isAsleep, looks] at sleeps
  | some k =>
    have member : i ∈ (n.channels.nth k).sleepers := by simpa [isAsleep, looks] using sleeps
    have inside : k < n.channels.size := Agent.awaits_eq looks ▸ (kept.inside i agent there).1
    have heeded := kept.heeded k inside
    have some := List.ne_nil_of_mem member
    have all : (n.watchers k).card ≤ (n.channels.nth k).sleepers.length := by
      refine (Finset.card_le_card ?_).trans (List.toFinset_card_le _)
      intro j watches
      obtain ⟨found, stands, looks⟩ := Option.bind_eq_some_iff.mp (mem_watchers.mp watches)
      have sleeps := asleep j found stands (Agent.isAlive_of_awaits looks)
      simpa [isAsleep, looks] using sleeps
    have attended := heeded.attended some
    exact ⟨k, rfl, member, List.length_eq_zero_iff.mp (by omega), heeded.opened some⟩

end Kept

/-- However a network was built and used, and in whatever order its agents moved: an amplifier that
has ended has closed the receiver's side of its inbound channel and the sender's side of its
outbound one. And when nobody moves any more, except to give up a sleep, everybody who has not ended
waits for a value on a channel that has none and is open on both sides. -/
theorem play_still {events : List Event} {n : Network}
    (played : ({} : Network).play events = some n) :
    (∀ (i : Nat) (a : Amplifier), n.agents[i]? = some (.amplifier a) → a.activity = .ended →
      (n.channels.nth a.inbound).receiverClosed = true ∧
        (n.channels.nth a.outbound).senderClosed = true) ∧
    (n.Still → ∀ (i : Nat) (agent : Agent), n.agents[i]? = some agent → agent.isAlive = true →
      ∃ k, agent.awaits = some k ∧ i ∈ (n.channels.nth k).sleepers ∧
        (n.channels.nth k).buffer = [] ∧ (n.channels.nth k).senderClosed = false ∧
        (n.channels.nth k).receiverClosed = false) := by
  have kept := kept_empty.play played
  refine ⟨?_, ?_⟩
  · intro i a there ended
    have leaves := kept.leaves i _ there
    exact ⟨leaves.inbound (Or.inr ended), leaves.outbound ended⟩
  · intro still i agent there alive
    obtain ⟨k, looks, asleep, empty, opened⟩ := kept.blocked still there alive
    simp only [Channel.isOpen, Bool.and_eq_true, Bool.not_eq_true'] at opened
    exact ⟨k, looks, asleep, empty, opened.1, opened.2⟩

/-- Three listeners sleep on one channel. The value that wakes the first is taken away from outside,
and the next one, which wakes the second, by the third, whose time is up. Both go to sleep again,
and another timed one joins them. Elsewhere an amplifier runs to its end. -/
def stolenValues : List Event :=
  [.addChannel "shared", .addChannel "in", .addChannel "out",
    .addAgent (.listener { channel := 0 }), .addAgent (.listener { channel := 0 }),
    .addAgent (.listener { channel := 0, timed := true }),
    .move 0, .move 1, .move 2, .send 0 7, .receive 0, .move 0,
    .send 0 8, .move 2, .move 2, .move 1,
    .addAgent (.listener { channel := 0, extent := .all, timed := true }), .move 3,
    .addAgent (.amplifier
      { name := "A", machine := { memory := { cells := #[99] } }, inbound := 1, outbound := 2 }),
    .start 4, .move 4, .move 4, .move 4, .move 4, .move 4]

/-- Nobody has slept through a value, and the amplifier has closed its channels. -/
theorem play_still_stolenValues :
    ∃ n, ({} : Network).play stolenValues = some n ∧ n.Still ∧
      (∀ i ∈ [0, 1, 3], ∃ agent k, n.agents[i]? = some agent ∧ agent.awaits = some k ∧
        (n.channels.nth k).buffer = [] ∧ (n.channels.nth k).senderClosed = false ∧
        (n.channels.nth k).receiverClosed = false) ∧
      ∃ a, n.agents[4]? = some (.amplifier a) ∧
        (n.channels.nth a.inbound).receiverClosed = true ∧
        (n.channels.nth a.outbound).senderClosed = true := by
  have seen : (({} : Network).play stolenValues).map (fun n =>
      decide (n.Still ∧ (∀ i ∈ [0, 1, 3], n.agents[i]?.map Agent.isAlive = some true) ∧
        (n.amplifier? 4).map (·.activity) = some .ended)) = some true := by
    decide +kernel
  obtain ⟨n, played, view⟩ := Option.map_eq_some_iff.mp seen
  obtain ⟨still, alive, ended⟩ := of_decide_eq_true view
  obtain ⟨closed, blocked⟩ := play_still played
  refine ⟨n, played, still, ?_, ?_⟩
  · intro i member
    obtain ⟨agent, there, alive⟩ := Option.map_eq_some_iff.mp (alive i member)
    obtain ⟨k, looks, -, open_empty⟩ := blocked still i agent there alive
    exact ⟨agent, k, there, looks, open_empty⟩
  · obtain ⟨a, found, ended⟩ := Option.map_eq_some_iff.mp ended
    simp only [amplifier?] at found
    split at found
    next there =>
      cases found
      exact ⟨a, there, closed 4 a there ended⟩
    next => cases found

end Network

end Intcode
