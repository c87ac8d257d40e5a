import Intcode.Network

/-!
# Schedules and the traffic on channels

A schedule of a network is any interleaving of moves, each made by an agent that is able to; it
is written down as who moved and what was done. The traffic on a channel is what a schedule says
about it: the values sent, received and dropped, and whether an end was closed or a value
refused. `Channel.Carries` ties the traffic to the channel itself, and holds in every network.
-/
namespace Intcode

namespace Network

/-- The moves of a schedule: the number of the agent that moved, and what it did. -/
abbrev Moves := List (Nat × Deed)

/-- The network comes from the given one by the listed moves, in order, each made by an agent
that was able to move. -/
inductive Schedule (n : Network) : Moves → Network → Prop where
  | rest : Schedule n [] n
  | move {moves : Moves} {now : Network} {i : Nat} (before : Schedule n moves now)
      (able : now.enabled i = true) :
      Schedule n (moves ++ [(i, (now.advance i).deed)]) (now.advance i).network

def AtRest (n : Network) : Prop :=
  ∀ i, n.enabled i = false

/-- A network that can make only so many moves comes to rest. -/
theorem exists_atRest {n : Network} {bound : Nat}
    (bounded : ∀ moves now, n.Schedule moves now → moves.length ≤ bound) :
    ∃ moves now, n.Schedule moves now ∧ now.AtRest := by
  have longer : ∀ length, (∃ moves now, n.Schedule moves now ∧ now.AtRest) ∨
      ∃ moves now, n.Schedule moves now ∧ moves.length = length := by
    intro length
    induction length with
    | zero => exact Or.inr ⟨[], n, .rest, rfl⟩
    | succ length ih =>
      rcases ih with found | ⟨moves, now, schedule, counted⟩
      · exact Or.inl found
      · by_cases able : ∃ i, now.enabled i = true
        · obtain ⟨i, able⟩ := able
          exact Or.inr ⟨_, _, schedule.move able, by simp [counted]⟩
        · refine Or.inl ⟨moves, now, schedule, ?_⟩
          intro i
          exact Bool.eq_false_iff.mpr fun moves => able ⟨i, moves⟩
  rcases longer (bound + 1) with found | ⟨moves, now, schedule, counted⟩
  · exact found
  · have := bounded moves now schedule
    omega

/-- Let the listed agents move in turn, after the given moves; `none` if one of them is not able
to. -/
def replay : List Nat → Moves → Network → Option (Moves × Network)
  | [], moves, n => some (moves, n)
  | i :: rest, moves, n =>
    if n.enabled i then replay rest (moves ++ [(i, (n.advance i).deed)]) (n.advance i).network
    else none

theorem replay_schedule {n₀ n n' : Network} {order : List Nat} {moves moves' : Moves}
    (before : Schedule n₀ moves n) (replayed : replay order moves n = some (moves', n')) :
    Schedule n₀ moves' n' := by
  induction order generalizing moves n with
  | nil =>
    cases replayed
    exact before
  | cons i rest ih =>
    simp only [replay] at replayed
    split at replayed
    · exact ih (before.move ‹_›) replayed
    · cases replayed

theorem advance_deed {n : Network} {i : Nat} {agent : Agent} (there : n.agents[i]? = some agent) :
    (n.advance i).deed = (agent.move i n.channels).2.deed := by
  obtain ⟨bound, rfl⟩ := Array.getElem?_eq_some_iff.mp there
  simp only [advance, bound, ↓reduceDIte]

theorem advance_channels {n : Network} {i : Nat} {agent : Agent}
    (there : n.agents[i]? = some agent) :
    (n.advance i).network.channels = (agent.move i n.channels).2.channels := by
  obtain ⟨bound, rfl⟩ := Array.getElem?_eq_some_iff.mp there
  simp only [advance, bound, ↓reduceDIte]

theorem advance_agents {n : Network} {i : Nat} {agent : Agent}
    (there : n.agents[i]? = some agent) (j : Nat) :
    (n.advance i).network.agents[j]? =
      if j = i then some (agent.move i n.channels).1 else n.agents[j]? := by
  obtain ⟨bound, rfl⟩ := Array.getElem?_eq_some_iff.mp there
  simp only [advance, bound, ↓reduceDIte]
  by_cases same : j = i
  · subst same
    simp [bound]
  · simp [same, Ne.symm same]

end Network

namespace Channels

variable {channels : Channels} {k j : Nat} {c : Channel}

theorem nth_put_self (inside : k < channels.size) : (channels.put k c).nth k = c := by
  simp [nth, put, Array.getD_eq_getD_getElem?, inside]

theorem nth_put_other (apart : j ≠ k) : (channels.put k c).nth j = channels.nth j := by
  simp [nth, put, Array.getD_eq_getD_getElem?, Ne.symm apart]

@[simp] theorem size_put : (channels.put k c).size = channels.size := by
  simp [put]

end Channels

/-- What a schedule says about one channel. -/
structure Traffic where
  sent : List Int := []
  received : List Int := []
  dropped : List Int := []
  /-- A value was refused. -/
  refused : Bool := false
  /-- The sender's side was closed. -/
  closed : Bool := false
  /-- The receiver's side was closed. -/
  hungUp : Bool := false

namespace Traffic

/-- Take note of what was done, if it was done on the channel with the given number. -/
def note (t : Traffic) (number : Nat) : Deed → Traffic
  | .sent channel value =>
    if channel = number then { t with sent := t.sent ++ [value] } else t
  | .refused channel _ => if channel = number then { t with refused := true } else t
  | .received channel value =>
    if channel = number then { t with received := t.received ++ [value] } else t
  | .closed channel => if channel = number then { t with closed := true } else t
  | .hungUp channel values =>
    if channel = number then { t with dropped := t.dropped ++ values, hungUp := true } else t
  | .internal | .foundEnd _ | .foundNothing _ | .roused _ => t

end Traffic

namespace Network

def traffic (moves : Moves) (number : Nat) : Traffic :=
  moves.foldl (fun t move => t.note number move.2) {}

@[simp] theorem traffic_nil (number : Nat) : traffic [] number = {} := rfl

@[simp] theorem traffic_append (moves : Moves) (move : Nat × Deed) (number : Nat) :
    traffic (moves ++ [move]) number = (traffic moves number).note number move.2 := by
  simp [traffic]

end Network

namespace Deed

/-- What is done on the channels by the agent with a number, and what has to hold for it. -/
def Acts (self : Nat) (before after : Channels) : Deed → Prop
  | internal => after = before
  | sent k value =>
    (before.nth k).isOpen = true ∧
      after = before.put k { before.nth k with
        buffer := (before.nth k).buffer ++ [value]
        sleepers := (before.nth k).sleepers.drop 1 }
  | refused k _ => (before.nth k).isOpen = false ∧ after = before
  | received k value =>
    ∃ rest, (before.nth k).buffer = value :: rest ∧
      after = before.put k { before.nth k with buffer := rest }
  | foundEnd k =>
    (before.nth k).buffer = [] ∧ (before.nth k).isOpen = false ∧ after = before
  | foundNothing k =>
    (before.nth k).buffer = [] ∧ (before.nth k).isOpen = true ∧
      after = before.put k ((before.nth k).sleep self)
  | roused k => after = before.put k ((before.nth k).rouse self)
  | closed k => after = before.put k (before.nth k).close
  | hungUp k values =>
    values = (before.nth k).buffer ∧ after = before.put k (before.nth k).closeReceiver

def channel? : Deed → Option Nat
  | internal => none
  | sent k _ | refused k _ | received k _ | foundEnd k | foundNothing k | roused k | closed k
  | hungUp k _ => some k

/-- What an agent can do that receives from one channel and sends on another. -/
def Between (inbound outbound : Nat) : Deed → Prop
  | internal => True
  | sent k _ | refused k _ | closed k => k = outbound
  | received k _ | foundEnd k | foundNothing k | hungUp k _ => k = inbound
  | roused _ => False

variable {self inbound outbound k : Nat} {before after : Channels} {deed : Deed} {t : Traffic}

theorem Acts.size_eq (acts : deed.Acts self before after) : after.size = before.size := by
  cases deed <;> simp only [Acts] at acts <;> grind [Channels.size_put]

/-- Nothing is received or hung up on a channel other than the inbound one. -/
theorem Between.receiving_frame (between : deed.Between inbound outbound) (apart : k ≠ inbound) :
    (t.note k deed).received = t.received ∧ (t.note k deed).hungUp = t.hungUp := by
  cases deed <;> simp only [Between] at between <;> grind [Traffic.note]

theorem Between.dropped_frame (between : deed.Between inbound outbound) (apart : k ≠ inbound) :
    (t.note k deed).dropped = t.dropped := by
  cases deed <;> simp only [Between] at between <;> grind [Traffic.note]

/-- Nothing is sent, refused or closed on a channel other than the outbound one. -/
theorem Between.sending_frame (between : deed.Between inbound outbound) (apart : k ≠ outbound) :
    (t.note k deed).sent = t.sent ∧ (t.note k deed).closed = t.closed ∧
      (t.note k deed).refused = t.refused := by
  cases deed <;> simp only [Between] at between <;> grind [Traffic.note]

/-- A channel on which nothing is done stays as it is. -/
theorem Acts.elsewhere (acts : deed.Acts self before after) (apart : deed.channel? ≠ some k) :
    after.nth k = before.nth k := by
  cases deed <;> simp only [Acts] at acts <;> simp only [channel?] at apart <;>
    grind [Channels.nth_put_other]

/-- A channel on which nothing is done has no more traffic. -/
theorem note_elsewhere (apart : deed.channel? ≠ some k) : t.note k deed = t := by
  cases deed <;> simp only [channel?] at apart <;> grind [Traffic.note]

end Deed

/-- What an agent has done itself, that receives from one channel and sends on another. -/
structure Ledger where
  taken : List Int := []
  sent : List Int := []
  hungUp : Bool := false
  closed : Bool := false
  refused : Bool := false

/-- Take note of what the agent did. -/
def Ledger.note (l : Ledger) : Deed → Ledger
  | .sent _ value => { l with sent := l.sent ++ [value] }
  | .refused .. => { l with refused := true }
  | .received _ value => { l with taken := l.taken ++ [value] }
  | .closed _ => { l with closed := true }
  | .hungUp .. => { l with hungUp := true }
  | .internal | .foundEnd _ | .foundNothing _ | .roused _ => l

namespace Network

/-- What a schedule says about the agent between two channels, if no other agent receives from
the one or sends on the other. -/
def ledger (moves : Moves) (inbound outbound : Nat) : Ledger where
  taken := (traffic moves inbound).received
  sent := (traffic moves outbound).sent
  hungUp := (traffic moves inbound).hungUp
  closed := (traffic moves outbound).closed
  refused := (traffic moves outbound).refused

variable {moves : Moves} {inbound outbound : Nat} {move : Nat × Deed}

theorem ledger_own (between : move.2.Between inbound outbound) (apart : inbound ≠ outbound) :
    ledger (moves ++ [move]) inbound outbound = (ledger moves inbound outbound).note move.2 := by
  obtain ⟨i, deed⟩ := move
  cases deed <;> simp only [Deed.Between] at between <;>
    simp_all [ledger, Traffic.note, Ledger.note, Ne.symm apart]

theorem ledger_other {inbound' outbound' : Nat} (between : move.2.Between inbound' outbound')
    (notIn : inbound ≠ inbound') (notOut : outbound ≠ outbound') :
    ledger (moves ++ [move]) inbound outbound = ledger moves inbound outbound := by
  have received := between.receiving_frame (t := traffic moves inbound) notIn
  have sent := between.sending_frame (t := traffic moves outbound) notOut
  simp only [ledger, traffic_append, received, sent]

end Network

/-- A channel that held the given values before any move, and carries the given traffic. -/
structure Channel.Carries (initial : List Int) (t : Traffic) (c : Channel) : Prop where
  conserved : initial ++ t.sent = t.received ++ t.dropped ++ c.buffer
  kept : t.hungUp = false → t.dropped = []
  emptied : t.hungUp = true → c.buffer = []
  senderClosed : c.senderClosed = t.closed
  receiverClosed : c.receiverClosed = t.hungUp
  whyRefused : t.refused = true → t.closed = true ∨ t.hungUp = true

namespace Channel

variable {initial : List Int} {t : Traffic} {self k : Nat} {before after : Channels}
  {deed : Deed}

theorem Carries.open_iff {c : Channel} (carries : c.Carries initial t) :
    c.isOpen = true ↔ t.closed = false ∧ t.hungUp = false := by
  simp [isOpen, carries.senderClosed, carries.receiverClosed]

theorem Carries.shut_iff {c : Channel} (carries : c.Carries initial t) :
    c.isOpen = false ↔ t.closed = true ∨ t.hungUp = true := by
  simp only [isOpen, carries.senderClosed, carries.receiverClosed]
  cases t.closed <;> cases t.hungUp <;> decide

/-- What was received is a part of what was there and what was sent. -/
theorem Carries.received_isPrefix {c : Channel} (carries : c.Carries initial t) :
    t.received <+: initial ++ t.sent := by
  rw [carries.conserved, List.append_assoc]
  exact List.prefix_append _ _

/-- Before the receiver hangs up, what was not received is still there. -/
theorem Carries.received_buffer {c : Channel} (carries : c.Carries initial t)
    (listening : t.hungUp = false) : initial ++ t.sent = t.received ++ c.buffer := by
  rw [carries.conserved, carries.kept listening, List.append_nil]

/-- Who sleeps on a channel is no part of its traffic. -/
theorem Carries.of_same {c c' : Channel} (carries : c.Carries initial t)
    (buffer : c'.buffer = c.buffer) (sender : c'.senderClosed = c.senderClosed)
    (receiver : c'.receiverClosed = c.receiverClosed) : c'.Carries initial t :=
  ⟨buffer ▸ carries.conserved, carries.kept, buffer ▸ carries.emptied,
    sender.trans carries.senderClosed, receiver.trans carries.receiverClosed, carries.whyRefused⟩

/-- Whatever is done on the channels of a network, each of them keeps carrying its traffic: no
value is lost, duplicated or reordered. -/
theorem Carries.preserved (carries : (before.nth k).Carries initial t)
    (acts : deed.Acts self before after) (inside : k < before.size) :
    (after.nth k).Carries initial (t.note k deed) := by
  by_cases here : deed.channel? = some k
  · cases deed with
    | internal => cases here
    | sent j value =>
      cases here
      obtain ⟨opened, rfl⟩ := acts
      obtain ⟨unclosed, listening⟩ := carries.open_iff.mp opened
      rw [Channels.nth_put_self inside]
      simp only [Traffic.note, ↓reduceIte]
      refine ⟨?_, carries.kept, ?_, carries.senderClosed, carries.receiverClosed,
        carries.whyRefused⟩
      · rw [← List.append_assoc, carries.conserved, List.append_assoc _ _ [value]]
      · intro hungUp
        simp [listening] at hungUp
    | refused j value =>
      cases here
      obtain ⟨shut, rfl⟩ := acts
      simp only [Traffic.note, ↓reduceIte]
      exact ⟨carries.conserved, carries.kept, carries.emptied, carries.senderClosed,
        carries.receiverClosed, fun _ => carries.shut_iff.mp shut⟩
    | received j value =>
      cases here
      obtain ⟨rest, held, rfl⟩ := acts
      have listening : t.hungUp = false := by
        cases hungUp : t.hungUp with
        | false => rfl
        | true => simp [carries.emptied hungUp] at held
      rw [Channels.nth_put_self inside]
      simp only [Traffic.note, ↓reduceIte]
      refine ⟨?_, carries.kept, ?_, carries.senderClosed, carries.receiverClosed,
        carries.whyRefused⟩
      · rw [carries.received_buffer listening, held, carries.kept listening]
        simp
      · intro hungUp
        simp [listening] at hungUp
    | foundEnd j =>
      obtain ⟨-, -, rfl⟩ := acts
      exact carries
    | foundNothing j =>
      cases here
      obtain ⟨-, -, rfl⟩ := acts
      rw [Channels.nth_put_self inside]
      exact carries.of_same rfl rfl rfl
    | roused j =>
      cases here
      subst acts
      rw [Channels.nth_put_self inside]
      exact carries.of_same rfl rfl rfl
    | closed j =>
      cases here
      subst acts
      rw [Channels.nth_put_self inside]
      simp only [Traffic.note, ↓reduceIte]
      exact ⟨carries.conserved, carries.kept, carries.emptied, rfl, carries.receiverClosed,
        fun _ => Or.inl rfl⟩
    | hungUp j values =>
      cases here
      obtain ⟨rfl, rfl⟩ := acts
      rw [Channels.nth_put_self inside]
      simp only [Traffic.note, ↓reduceIte]
      refine ⟨?_, ?_, fun _ => rfl, carries.senderClosed, rfl, fun _ => Or.inr rfl⟩
      · rw [carries.conserved]
        simp [closeReceiver]
      · intro listening
        cases listening
  · rw [acts.elsewhere here, Deed.note_elsewhere here]
    exact carries

end Channel

end Intcode
