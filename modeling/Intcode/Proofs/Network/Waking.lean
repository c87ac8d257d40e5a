import Mathlib.Data.Finset.Card
import Intcode.Proofs.Network.Agents
import Intcode.Proofs.Network.Conservation

/-!
# No receiver sleeps through a value

A value that is sent wakes only one of those who sleep on the channel, and before that one looks
again, the value may have been taken by somebody else. `Network.Heeded` is what makes up for it: as
long as somebody sleeps on a channel, it is open, and for each buffered value there is an agent that
looks at the channel and does not sleep. `Agent.Heeds` says once how the move of an agent bears on
the channel that it looks at, and `Network.Heeding.heeded` that all that is done in this way, or
from outside, keeps every channel heeded, however many agents share it.
-/
namespace Intcode

namespace Agent

/-- The channel on which an agent may sleep. A listener whose time is up still looks at its channel,
but sleeps no more. -/
def sleepsOn : Agent → Option Nat
  | amplifier a => a.awaits
  | listener l => if l.activity = .listening then some l.channel else none
  | relay r => r.awaits

variable {agent : Agent} {k : Nat}

theorem awaits_of_sleepsOn (sleeps : agent.sleepsOn = some k) : agent.awaits = some k := by
  cases agent with
  | amplifier a => exact sleeps
  | listener l =>
    by_cases listening : l.activity = .listening
    · simpa [sleepsOn, awaits, Listener.awaits, Listener.isAlive, listening] using sleeps
    · simp [sleepsOn, listening] at sleeps
  | relay r => exact sleeps

theorem isAlive_of_awaits (looks : agent.awaits = some k) : agent.isAlive = true := by
  cases agent with
  | amplifier a =>
    have now := (Amplifier.awaits_iff.mp looks).1
    simp [isAlive, Amplifier.isAlive, now]
  | listener l =>
    simp only [awaits, Listener.awaits] at looks
    split at looks
    · assumption
    · cases looks
  | relay r =>
    have now := (Relay.awaits_iff.mp looks).1
    simp [isAlive, Relay.isAlive, now]

/-- How the move of an agent bears on the channel that it looks at. It turns away from it only when
it has received a value, found the end of the stream, or found nothing and does not wait. It sleeps
where it looks, and moves in its sleep only to give it up. -/
structure Heeds (number : Nat) (agent next : Agent) (before after : Channels) (deed : Deed) :
    Prop where
  happens : deed.Happens number before after
  leaves : ∀ k, agent.awaits = some k → next.awaits = some k ∨
    (∃ value, deed = .received k value) ∨ deed = .foundEnd k ∨
    deed = .foundNothing k ∧ after = before
  sleeps : ∀ k, deed = .foundNothing k → next.sleepsOn = some k ∨ after = before
  wakes : ∀ k, agent.sleepsOn = some k → number ∈ (before.nth k).sleepers → deed = .roused k

/-- An amplifier or a relay that is awake heeds its channel. -/
theorem Moves.heeds {agent next : Agent} {deed : Deed} {self : Nat} {before after : Channels}
    (moves : agent.Moves deed next) (acts : deed.Acts self before after)
    (awake : ∀ k, agent.sleepsOn = some k → self ∉ (before.nth k).sleepers) :
    Heeds self agent next before after deed := by
  refine ⟨.acts acts, ?_, ?_, fun k looks asleep => absurd asleep (awake k looks)⟩
  · intro k looks
    cases moves with
    | amplifier moves =>
      obtain ⟨receiving, rfl⟩ := Amplifier.awaits_iff.mp looks
      cases moves with
      | receive now => exact Or.inr (Or.inl ⟨_, rfl⟩)
      | starve now => exact Or.inr (Or.inr (Or.inl rfl))
      | sleep now => exact Or.inl looks
      | _ now => simp [receiving] at now
    | relay moves =>
      obtain ⟨receiving, rfl⟩ := Relay.awaits_iff.mp looks
      cases moves with
      | receive now => exact Or.inr (Or.inl ⟨_, rfl⟩)
      | finish now => exact Or.inr (Or.inr (Or.inl rfl))
      | sleep now => exact Or.inl looks
      | _ now => simp [receiving] at now
  · rintro k rfl
    obtain rfl : k = agent.inbound := moves.between
    obtain ⟨rfl, looks⟩ := moves.awaits
    cases moves <;> exact Or.inl looks

end Agent

namespace Listener

theorem lookOnce_effect (l : Listener) (channels : Channels) :
    (l.lookOnce channels).2 = (channels.poll l.channel).2 := by
  unfold lookOnce
  rcases channels.poll l.channel with ⟨_ | _ | _, effect⟩ <;> rfl

theorem look_effect (self : Nat) (l : Listener) (channels : Channels) :
    (l.look self channels).2 = (channels.receive self l.channel).2 := by
  unfold look
  rcases channels.receive self l.channel with ⟨_ | _ | _, effect⟩ <;> rfl

theorem look_of_nothing {self : Nat} {l : Listener} {channels : Channels}
    (found : (channels.receive self l.channel).1 = .nothing) : (l.look self channels).1 = l := by
  unfold look
  rcases result : channels.receive self l.channel with ⟨receipt, effect⟩
  rw [result] at found
  cases found
  rfl

section Heeds

variable {self : Nat} {l : Listener} {channels : Channels}

/-- A last look ends with a value, at the end of the stream, or with nothing for the listener. -/
theorem lookOnce_heeds (expired : l.activity = .expired) :
    Agent.Heeds self (.listener l) (.listener (l.lookOnce channels).1) channels
      (l.lookOnce channels).2.channels (l.lookOnce channels).2.deed := by
  simp only [lookOnce_effect]
  refine ⟨channels.access_happens self (.look l.channel), ?_, ?_, by simp [Agent.sleepsOn, expired]⟩
  · intro k looks
    obtain rfl : k = l.channel := Agent.awaits_eq looks
    rw [Channels.poll_deed]
    cases found : (channels.poll l.channel).1 with
    | value value => exact Or.inr (Or.inl ⟨value, rfl⟩)
    | endOfStream => exact Or.inr (Or.inr (Or.inl rfl))
    | nothing => exact Or.inr (Or.inr (Or.inr ⟨rfl, channels.poll_nothing _ found⟩))
  · intro k deed
    rw [Channels.poll_deed] at deed
    cases found : (channels.poll l.channel).1 with
    | nothing => exact Or.inr (channels.poll_nothing _ found)
    | _ => simp [found, Channels.receiptDeed] at deed

theorem giveUp_heeds :
    Agent.Heeds self (.listener l) (.listener { l with activity := .expired }) channels
      (channels.rouse self l.channel).channels (.roused l.channel) := by
  refine ⟨.acts rfl, ?_, by simp, ?_⟩
  · intro k looks
    obtain rfl : k = l.channel := Agent.awaits_eq looks
    exact Or.inl rfl
  · intro k sleeps _
    obtain rfl : k = l.channel := Agent.awaits_eq (Agent.awaits_of_sleepsOn sleeps)
    rfl

theorem look_heeds (listening : l.activity = .listening)
    (awake : self ∉ (channels.nth l.channel).sleepers) :
    Agent.Heeds self (.listener l) (.listener (l.look self channels).1) channels
      (l.look self channels).2.channels (l.look self channels).2.deed := by
  obtain ⟨answer, deed⟩ := channels.receive_answer self l.channel
  rw [Channels.poll_deed, ← answer] at deed
  simp only [look_effect]
  refine ⟨channels.access_happens self (.wait l.channel), ?_, ?_, ?_⟩
  · intro k looks
    obtain rfl : k = l.channel := Agent.awaits_eq looks
    rw [deed]
    cases found : (channels.receive self l.channel).1 with
    | value value => exact Or.inr (Or.inl ⟨value, rfl⟩)
    | endOfStream => exact Or.inr (Or.inr (Or.inl rfl))
    | nothing =>
      rw [look_of_nothing found]
      exact Or.inl looks
  · intro k nothing
    rw [deed] at nothing
    cases found : (channels.receive self l.channel).1 with
    | nothing =>
      rw [found] at nothing
      cases nothing
      rw [look_of_nothing found]
      exact Or.inl (by simp [Agent.sleepsOn, listening])
    | _ => simp [found, Channels.receiptDeed] at nothing
  · intro k sleeps asleep
    obtain rfl : k = l.channel := Agent.awaits_eq (Agent.awaits_of_sleepsOn sleeps)
    exact absurd asleep awake

/-- A listener heeds its channel, awake or not. -/
theorem move_heeds (alive : l.isAlive = true) :
    Agent.Heeds self (.listener l) (.listener (l.move self channels).1) channels
      (l.move self channels).2.channels (l.move self channels).2.deed := by
  unfold move
  cases now : l.activity with
  | finished => simp [isAlive, now] at alive
  | timedOut => simp [isAlive, now] at alive
  | expired => exact lookOnce_heeds now
  | listening =>
    dsimp only
    split
    · exact giveUp_heeds
    next awake => exact look_heeds now (by simpa using awake)

end Heeds

end Listener

namespace Agent

/-- Whoever is able to move heeds the channel that it looks at. -/
theorem move_heeds {agent : Agent} {self : Nat} {channels : Channels} (alive : agent.isAlive = true)
    (awake : agent.isTimed = false →
      ∀ k, agent.sleepsOn = some k → self ∉ (channels.nth k).sleepers) :
    Heeds self agent (agent.move self channels).1 channels (agent.move self channels).2.channels
      (agent.move self channels).2.deed := by
  cases agent with
  | amplifier a =>
    obtain ⟨moves, acts⟩ := Amplifier.move_moves self channels alive
    exact Moves.heeds (.amplifier moves) acts (awake rfl)
  | listener l => exact Listener.move_heeds alive
  | relay r =>
    obtain ⟨moves, acts⟩ := Relay.move_moves self channels alive
    exact Moves.heeds (.relay moves) acts (awake rfl)

end Agent

namespace Network

def lookingAt (n : Network) (i : Nat) : Option Nat :=
  n.agents[i]?.bind Agent.awaits

def sleepingOn (n : Network) (i : Nat) : Option Nat :=
  n.agents[i]?.bind Agent.sleepsOn

/-- The agents that look at a channel, asleep or not. -/
def watchers (n : Network) (k : Nat) : Finset Nat :=
  {i ∈ Finset.range n.agents.size | n.lookingAt i = some k}

/-- As long as somebody sleeps on a channel, it is open, and at least as many of those who look at
it are awake as there are values. -/
structure Heeded (n : Network) (k : Nat) : Prop where
  nodup : (n.channels.nth k).sleepers.Nodup
  sleeping : ∀ i ∈ (n.channels.nth k).sleepers, n.sleepingOn i = some k
  opened : (n.channels.nth k).sleepers ≠ [] → (n.channels.nth k).isOpen = true
  attended : (n.channels.nth k).sleepers ≠ [] →
    (n.channels.nth k).buffer.length + (n.channels.nth k).sleepers.length ≤ (n.watchers k).card

section Heeded

variable {n n' : Network} {i k : Nat} {deed : Deed}

theorem mem_watchers : i ∈ n.watchers k ↔ n.lookingAt i = some k := by
  simp only [watchers, Finset.mem_filter, Finset.mem_range, and_iff_right_iff_imp]
  intro looks
  obtain ⟨agent, there, -⟩ := Option.bind_eq_some_iff.mp looks
  exact (Array.getElem?_eq_some_iff.mp there).1

theorem lookingAt_of_sleepingOn (sleeps : n.sleepingOn i = some k) : n.lookingAt i = some k := by
  obtain ⟨agent, there, sleeps⟩ := Option.bind_eq_some_iff.mp sleeps
  exact Option.bind_eq_some_iff.mpr ⟨agent, there, Agent.awaits_of_sleepsOn sleeps⟩

/-- Different agents that may sleep on a channel are among those who look at it. -/
theorem length_le_watchers {sleepers : List Nat} (nodup : sleepers.Nodup)
    (sleeping : ∀ j ∈ sleepers, n.sleepingOn j = some k) :
    sleepers.length ≤ (n.watchers k).card := by
  rw [← List.toFinset_card_of_nodup nodup]
  apply Finset.card_le_card
  intro j member
  exact mem_watchers.mpr (lookingAt_of_sleepingOn (sleeping j (List.mem_toFinset.mp member)))

theorem Heeded.of_awake (none : (n.channels.nth k).sleepers = []) : n.Heeded k := by
  refine ⟨?_, ?_, ?_, ?_⟩ <;> simp [none]

/-- More agents that look do no harm. -/
theorem Heeded.mono (heeded : n.Heeded k) (same : n'.channels.nth k = n.channels.nth k)
    (looking : ∀ j, n.lookingAt j = some k → n'.lookingAt j = some k)
    (sleeping : ∀ j ∈ (n.channels.nth k).sleepers, n'.sleepingOn j = some k) : n'.Heeded k := by
  refine ⟨same ▸ heeded.nodup, same ▸ sleeping, same ▸ heeded.opened, ?_⟩
  rw [same]
  intro asleep
  refine (heeded.attended asleep).trans (Finset.card_le_card ?_)
  intro j member
  exact mem_watchers.mpr (looking j (mem_watchers.mp member))

/-- What a deed of the agent `i` means for those who look at a channel: `Agent.Heeds`, seen from
the network. Somebody from outside looks at nothing and sleeps nowhere. -/
structure Heeding (n n' : Network) (i k : Nat) (deed : Deed) : Prop where
  happens : deed.Happens i n.channels n'.channels
  others : ∀ j, j ≠ i → n'.lookingAt j = n.lookingAt j ∧ n'.sleepingOn j = n.sleepingOn j
  leaves : n.lookingAt i = some k → n'.lookingAt i = some k ∨
    (∃ value, deed = .received k value) ∨ deed = .foundEnd k ∨
    deed = .foundNothing k ∧ n'.channels = n.channels
  sleeps : deed = .foundNothing k → n'.sleepingOn i = some k ∨ n'.channels = n.channels
  wakes : i ∈ (n.channels.nth k).sleepers → deed = .roused k

namespace Heeding

/-- Only whoever gives up its sleep stops sleeping of its own accord. -/
theorem sleeping (heeding : Heeding n n' i k deed) (heeded : n.Heeded k)
    (other : deed ≠ .roused k) : ∀ j ∈ (n.channels.nth k).sleepers, n'.sleepingOn j = some k := by
  intro j member
  have apart : j ≠ i := by
    rintro rfl
    exact other (heeding.wakes member)
  exact (heeding.others j apart).2.trans (heeded.sleeping j member)

theorem looking (heeding : Heeding n n' i k deed)
    (stays : n.lookingAt i = some k → n'.lookingAt i = some k) (j : Nat)
    (looks : n.lookingAt j = some k) : n'.lookingAt j = some k := by
  by_cases self : j = i
  · subst self
    exact stays looks
  · exact (heeding.others j self).1.trans looks

theorem watchers_le (heeding : Heeding n n' i k deed)
    (stays : n.lookingAt i = some k → n'.lookingAt i = some k) :
    (n.watchers k).card ≤ (n'.watchers k).card := by
  apply Finset.card_le_card
  intro j member
  exact mem_watchers.mpr (heeding.looking stays j (mem_watchers.mp member))

/-- At most one agent turns away from the channel. -/
theorem watchers_le_succ (heeding : Heeding n n' i k deed) :
    (n.watchers k).card ≤ (n'.watchers k).card + 1 := by
  have most : (n.watchers k).erase i ⊆ n'.watchers k := by
    intro j member
    obtain ⟨apart, watches⟩ := Finset.mem_erase.mp member
    exact mem_watchers.mpr ((heeding.others j apart).1.trans (mem_watchers.mp watches))
  have kept := Finset.card_le_card most
  have erased := Finset.pred_card_le_card_erase (s := n.watchers k) (a := i)
  omega

/-- A value that is sent wakes one sleeper, who is awake for it. -/
theorem sent {value : Int} (heeding : Heeding n n' i k (.sent k value)) (heeded : n.Heeded k)
    (opened : (n.channels.nth k).isOpen = true)
    (now : n'.channels.nth k = { n.channels.nth k with
      buffer := (n.channels.nth k).buffer ++ [value]
      sleepers := (n.channels.nth k).sleepers.drop 1 }) : n'.Heeded k := by
  have more := heeding.watchers_le fun looks => by simpa using heeding.leaves looks
  refine ⟨?_, ?_, ?_, ?_⟩ <;> rw [now]
  · exact heeded.nodup.sublist (List.drop_sublist 1 _)
  · intro j member
    exact heeding.sleeping heeded (by simp) j (List.mem_of_mem_drop member)
  · exact fun _ => opened
  · intro asleep
    have slept : (n.channels.nth k).sleepers ≠ [] := fun none => by simp [none] at asleep
    have attended := heeded.attended slept
    have woken := List.length_pos_iff.mpr slept
    simp only [List.length_append, List.length_singleton, List.length_drop]
    omega

/-- A value that is taken away costs one agent that was awake. -/
theorem received {value : Int} {rest : List Int} (heeding : Heeding n n' i k (.received k value))
    (heeded : n.Heeded k) (held : (n.channels.nth k).buffer = value :: rest)
    (now : n'.channels.nth k = { n.channels.nth k with buffer := rest }) : n'.Heeded k := by
  have fewer := heeding.watchers_le_succ
  refine ⟨?_, ?_, ?_, ?_⟩ <;> rw [now]
  · exact heeded.nodup
  · exact heeding.sleeping heeded (by simp)
  · exact heeded.opened
  · intro asleep
    have attended := heeded.attended asleep
    rw [held, List.length_cons] at attended
    dsimp only
    omega

/-- Nobody falls asleep on a channel that holds a value or is closed. -/
theorem slept (heeding : Heeding n n' i k (.foundNothing k)) (heeded : n.Heeded k)
    (empty : (n.channels.nth k).buffer = []) (opened : (n.channels.nth k).isOpen = true)
    (now : n'.channels.nth k = (n.channels.nth k).sleep i) : n'.Heeded k := by
  have awake : i ∉ (n.channels.nth k).sleepers := fun asleep => by
    simpa using heeding.wakes asleep
  have asleep : n'.sleepingOn i = some k := by
    refine (heeding.sleeps rfl).resolve_right fun same => ?_
    rw [same] at now
    simpa [Channel.sleep] using congrArg Channel.sleepers now
  have nodup : ((n.channels.nth k).sleep i).sleepers.Nodup := by
    simpa [Channel.sleep, List.nodup_append] using
      ⟨heeded.nodup, fun j member => ne_of_mem_of_not_mem member awake⟩
  have all : ∀ j ∈ ((n.channels.nth k).sleep i).sleepers, n'.sleepingOn j = some k := by
    intro j member
    rcases List.mem_append.mp member with earlier | new
    · exact heeding.sleeping heeded (by simp) j earlier
    · exact List.mem_singleton.mp new ▸ asleep
  refine ⟨?_, ?_, ?_, ?_⟩ <;> rw [now]
  · exact nodup
  · exact all
  · exact fun _ => opened
  · intro _
    rw [show ((n.channels.nth k).sleep i).buffer = [] from empty, List.length_nil, Nat.zero_add]
    exact length_le_watchers nodup all

/-- Whoever looks at a channel in vain and does not wait may turn away: no value needs it. -/
theorem looked (heeding : Heeding n n' i k (.foundNothing k)) (heeded : n.Heeded k)
    (empty : (n.channels.nth k).buffer = []) (same : n'.channels.nth k = n.channels.nth k) :
    n'.Heeded k := by
  have all := heeding.sleeping heeded (by simp)
  refine ⟨?_, ?_, ?_, ?_⟩ <;> rw [same]
  · exact heeded.nodup
  · exact all
  · exact heeded.opened
  · intro _
    rw [empty, List.length_nil, Nat.zero_add]
    exact length_le_watchers heeded.nodup all

/-- Whoever gives up its sleep still looks at the channel. -/
theorem roused (heeding : Heeding n n' i k (.roused k)) (heeded : n.Heeded k)
    (now : n'.channels.nth k = (n.channels.nth k).rouse i) : n'.Heeded k := by
  have more := heeding.watchers_le fun looks => by simpa using heeding.leaves looks
  have slept : ((n.channels.nth k).rouse i).sleepers ≠ [] → (n.channels.nth k).sleepers ≠ [] := by
    rintro left none
    simp [Channel.rouse, none] at left
  refine ⟨?_, ?_, ?_, ?_⟩ <;> rw [now]
  · exact heeded.nodup.sublist List.filter_sublist
  · intro j member
    obtain ⟨earlier, apart⟩ := List.mem_filter.mp member
    exact (heeding.others j (by simpa using apart)).2.trans (heeded.sleeping j earlier)
  · exact fun asleep => heeded.opened (slept asleep)
  · intro asleep
    have attended := heeded.attended (slept asleep)
    have fewer := List.length_filter_le (· != i) (n.channels.nth k).sleepers
    simp only [Channel.rouse]
    omega

/-- Whatever somebody does that heeds a channel, nobody sleeps through a value there. -/
theorem heeded (heeding : Heeding n n' i k deed) (heeded : n.Heeded k)
    (inside : k < n.channels.size) : n'.Heeded k := by
  by_cases here : deed.channel? = some k
  · cases heeding.happens with
    | look empty _ same =>
      cases here
      exact heeding.looked heeded empty (by rw [same])
    | acts acts =>
      cases deed with
      | internal => cases here
      | sent j value =>
        cases here
        exact heeding.sent heeded acts.1 (by rw [acts.2, Channels.nth_put_self inside])
      | refused j value =>
        cases here
        refine heeded.mono (by rw [acts.2]) (heeding.looking fun looks => ?_)
          (heeding.sleeping heeded (by simp))
        simpa using heeding.leaves looks
      | received j value =>
        cases here
        obtain ⟨rest, held, after⟩ := acts
        exact heeding.received heeded held (by rw [after, Channels.nth_put_self inside])
      | foundEnd j =>
        cases here
        obtain ⟨-, shut, same⟩ := acts
        refine .of_awake ?_
        rw [same]
        by_contra asleep
        simp [heeded.opened asleep] at shut
      | foundNothing j =>
        cases here
        obtain ⟨empty, opened, after⟩ := acts
        exact heeding.slept heeded empty opened (by rw [after, Channels.nth_put_self inside])
      | roused j =>
        cases here
        exact heeding.roused heeded (by rw [show _ = _ from acts, Channels.nth_put_self inside])
      | closed j =>
        cases here
        exact .of_awake (by rw [show _ = _ from acts, Channels.nth_put_self inside]; rfl)
      | hungUp j values =>
        cases here
        exact .of_awake (by rw [acts.2, Channels.nth_put_self inside]; rfl)
  · refine heeded.mono (heeding.happens.elsewhere here) (heeding.looking fun looks => ?_)
      (heeding.sleeping heeded ?_)
    · rcases heeding.leaves looks with stays | ⟨value, rfl⟩ | rfl | ⟨rfl, -⟩
      · exact stays
      · exact absurd rfl here
      · exact absurd rfl here
      · exact absurd rfl here
    · rintro rfl
      exact here rfl

end Heeding

end Heeded

end Network

end Intcode
