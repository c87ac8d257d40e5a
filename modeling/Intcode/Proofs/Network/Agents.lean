import Intcode.Proofs.Network.Amplifier

/-!
# What a relay does, and any agent of a pipeline

`Relay.Moves` and `Relay.Follows` are for relays what `Amplifier.Moves` and `Amplifier.Follows`
are for amplifiers. Relays and amplifiers both receive from one channel and send on another, and
`Agent.Moves` and `Agent.Follows` put them together, so that a pipeline need not tell them apart.
-/
namespace Intcode

namespace Relay

/-- One move of a relay: what it does on the channels, and what becomes of it. -/
inductive Moves (r : Relay) : Deed → Relay → Prop where
  | close (now : r.activity = .closingHead) :
      Moves r (.closed r.head) { r with activity := if r.loops then .ended else .receiving }
  | receive {value : Int} (now : r.activity = .receiving) :
      Moves r (.received r.tail value)
        { r with
          activity := if r.loops then .forwarding value else .receiving
          last := some value }
  | finish (now : r.activity = .receiving) :
      Moves r (.foundEnd r.tail) { r with activity := if r.loops then .closingHead else .ended }
  | sleep (now : r.activity = .receiving) : Moves r (.foundNothing r.tail) r
  | forward {value : Int} (now : r.activity = .forwarding value) :
      Moves r (.sent r.head value) { r with activity := .receiving }
  | refuse {value : Int} (now : r.activity = .forwarding value) :
      Moves r (.refused r.head value) { r with activity := .closingHead }

/-- A relay that is alive makes one of the listed moves. -/
theorem move_moves {r : Relay} (self : Nat) (channels : Channels) (alive : r.isAlive = true) :
    r.Moves (r.move self channels).2.deed (r.move self channels).1 ∧
      (r.move self channels).2.deed.Acts self channels (r.move self channels).2.channels := by
  unfold move
  cases now : r.activity with
  | closingHead => exact ⟨.close now, rfl⟩
  | receiving =>
    simp only [receive]
    rcases channels.receive_cases self r.tail with
      ⟨value, found, deed, acts⟩ | ⟨found, deed, acts⟩ | ⟨found, deed, acts⟩
    · rcases result : channels.receive self r.tail with ⟨receipt, effect⟩
      rw [result] at found deed acts
      cases found
      dsimp only at deed ⊢
      rw [deed]
      exact ⟨.receive now, acts⟩
    · rcases result : channels.receive self r.tail with ⟨receipt, effect⟩
      rw [result] at found deed acts
      cases found
      dsimp only at deed ⊢
      rw [deed]
      exact ⟨.finish now, acts⟩
    · rcases result : channels.receive self r.tail with ⟨receipt, effect⟩
      rw [result] at found deed acts
      cases found
      dsimp only at deed ⊢
      rw [deed]
      exact ⟨.sleep now, acts⟩
  | forwarding value =>
    simp only [forward]
    rcases channels.send_cases self r.head value with
      ⟨accepted, deed, acts⟩ | ⟨channel, refused, deed, acts⟩
    · rcases result : channels.send r.head value with ⟨fault, effect⟩
      rw [result] at accepted deed acts
      cases accepted
      dsimp only at deed ⊢
      rw [deed]
      exact ⟨.forward now, acts⟩
    · rcases result : channels.send r.head value with ⟨fault, effect⟩
      rw [result] at refused deed acts
      cases refused
      dsimp only [Effect.write] at deed ⊢
      rw [deed]
      exact ⟨.refuse now, acts⟩
  | ended => simp [isAlive, now] at alive

/-- Why the relay of a loop is done. `dry` says that the last stage will send nothing more. -/
inductive Cause (l : Ledger) (dry : Prop) : Prop where
  | finished (atEnd : dry) (accepted : l.refused = false) (all : l.sent = l.taken)
  | refused (value : Int) (refused : l.refused = true) (held : l.taken = l.sent ++ [value])

/-- What the activity of a relay says about its ledger. -/
def Stands (r : Relay) (l : Ledger) (dry : Prop) : Prop :=
  match r.loops, r.activity with
  | true, .receiving => l.closed = false ∧ l.refused = false ∧ l.sent = l.taken
  | true, .forwarding value =>
    l.closed = false ∧ l.refused = false ∧ l.taken = l.sent ++ [value]
  | true, .closingHead => l.closed = false ∧ Cause l dry
  | true, .ended => l.closed = true ∧ Cause l dry
  | false, .closingHead => l.closed = false ∧ l.refused = false ∧ l.sent = []
  | false, .receiving => l.closed = true ∧ l.refused = false ∧ l.sent = []
  | false, .forwarding _ => False
  | false, .ended => l.closed = true ∧ l.refused = false ∧ l.sent = [] ∧ dry

/-- The relay does what it should: it never hangs up, remembers the last value, and its activity
and its ledger fit together. -/
structure Follows (r : Relay) (l : Ledger) (dry : Prop) : Prop where
  listening : l.hungUp = false
  last : r.last = l.taken.getLast?
  stands : r.Stands l dry

variable {r next : Relay} {deed : Deed} {l : Ledger} {dry dry' : Prop}

theorem Cause.mono (cause : Cause l dry) (later : dry → dry') : Cause l dry' := by
  cases cause with
  | finished atEnd accepted all => exact .finished (later atEnd) accepted all
  | refused value refused held => exact .refused value refused held

theorem Stands.mono (stands : r.Stands l dry) (later : dry → dry') : r.Stands l dry' := by
  unfold Stands at stands ⊢
  cases loops : r.loops <;> cases now : r.activity <;> simp only [loops, now] at stands ⊢
  case false.ended => exact ⟨stands.1, stands.2.1, stands.2.2.1, later stands.2.2.2⟩
  case true.closingHead => exact ⟨stands.1, stands.2.mono later⟩
  case true.ended => exact ⟨stands.1, stands.2.mono later⟩
  all_goals exact stands

theorem Follows.mono (follows : r.Follows l dry) (later : dry → dry') : r.Follows l dry' :=
  ⟨follows.listening, follows.last, follows.stands.mono later⟩

/-- Every move of a relay keeps its activity and its ledger together. -/
theorem Follows.preserved (follows : r.Follows l dry) (moves : r.Moves deed next)
    (later : dry → dry') (found : deed = .foundEnd r.tail → dry') :
    next.Follows (l.note deed) dry' := by
  obtain ⟨listening, last, stands⟩ := follows.mono later
  cases loops : r.loops with
  | false =>
    cases moves with
    | close now =>
      simp only [Stands, loops, now] at stands
      refine ⟨listening, last, ?_⟩
      simpa [Stands, loops, Ledger.note] using stands.2
    | receive now =>
      simp only [Stands, loops, now] at stands
      refine ⟨listening, by simp [Ledger.note], ?_⟩
      simpa [Stands, loops, Ledger.note] using stands
    | finish now =>
      simp only [Stands, loops, now] at stands
      refine ⟨listening, last, ?_⟩
      simpa [Stands, loops, Ledger.note, found rfl] using stands
    | sleep now => exact ⟨listening, last, stands⟩
    | forward now => simp [Stands, loops, now] at stands
    | refuse now => simp [Stands, loops, now] at stands
  | true =>
    cases moves with
    | close now =>
      simp only [Stands, loops, now] at stands
      refine ⟨listening, last, ?_⟩
      simp only [Stands, loops, ↓reduceIte]
      refine ⟨rfl, ?_⟩
      cases stands.2 with
      | finished atEnd accepted all => exact .finished atEnd accepted all
      | refused value refused held => exact .refused value refused held
    | @receive value now =>
      simp only [Stands, loops, now] at stands
      obtain ⟨unclosed, accepted, all⟩ := stands
      refine ⟨listening, by simp [Ledger.note], ?_⟩
      simp only [Stands, loops, ↓reduceIte]
      exact ⟨unclosed, accepted, by simp only [Ledger.note, all]⟩
    | finish now =>
      simp only [Stands, loops, now] at stands
      obtain ⟨unclosed, accepted, all⟩ := stands
      refine ⟨listening, last, ?_⟩
      simp only [Stands, loops, ↓reduceIte]
      exact ⟨unclosed, .finished (found rfl) accepted all⟩
    | sleep now => exact ⟨listening, last, stands⟩
    | forward now =>
      simp only [Stands, loops, now] at stands
      obtain ⟨unclosed, accepted, held⟩ := stands
      refine ⟨listening, last, ?_⟩
      simp only [Stands, loops]
      exact ⟨unclosed, accepted, held.symm⟩
    | @refuse value now =>
      simp only [Stands, loops, now] at stands
      obtain ⟨unclosed, accepted, held⟩ := stands
      refine ⟨listening, last, ?_⟩
      simp only [Stands, loops]
      exact ⟨unclosed, .refused value rfl held⟩

/-- The relay of a loop has sent what it has received, except perhaps the last value. -/
theorem Stands.held (stands : r.Stands l dry) (loops : r.loops = true) :
    ∃ held, held.length ≤ 1 ∧ l.taken = l.sent ++ held := by
  have ofCause : Cause l dry → ∃ held, held.length ≤ 1 ∧ l.taken = l.sent ++ held := by
    rintro (⟨-, -, all⟩ | ⟨value, -, held⟩)
    · exact ⟨[], by simp, by simp [all]⟩
    · exact ⟨[value], by simp, held⟩
  unfold Stands at stands
  cases now : r.activity <;> simp only [loops, now] at stands
  · exact ofCause stands.2
  · exact ⟨[], by simp, by simp [stands.2.2]⟩
  · exact ⟨[_], by simp, stands.2.2⟩
  · exact ofCause stands.2

/-- What the relay of a loop has sent, it has received; the relay of a chain sends nothing. -/
theorem Stands.sent_isPrefix (stands : r.Stands l dry) :
    l.sent <+: if r.loops then l.taken else [] := by
  cases loops : r.loops with
  | false =>
    unfold Stands at stands
    cases now : r.activity <;> simp only [loops, now] at stands
    · exact stands.2.2 ▸ List.prefix_rfl
    · exact stands.2.2 ▸ List.prefix_rfl
    · exact stands.2.2.1 ▸ List.prefix_rfl
  | true =>
    obtain ⟨held, -, taken⟩ := stands.held loops
    exact taken ▸ List.prefix_append _ _

/-- The relay of a loop closes the channel of the first stage at its very end. -/
theorem Stands.cause_of_closed (stands : r.Stands l dry) (loops : r.loops = true)
    (closed : l.closed = true) : Cause l dry := by
  unfold Stands at stands
  cases now : r.activity <;> simp only [loops, now] at stands
  · exact stands.2
  · simp [closed] at stands
  · simp [closed] at stands
  · exact stands.2

theorem Stands.closed_of_ended (stands : r.Stands l dry) (now : r.activity = .ended) :
    l.closed = true := by
  unfold Stands at stands
  cases loops : r.loops <;> simp only [loops, now] at stands
  · exact stands.1
  · exact stands.1

/-- A relay receives from the last stage and sends to the first one. -/
theorem Moves.between (moves : r.Moves deed next) : deed.Between r.tail r.head := by
  cases moves <;> simp [Deed.Between]

theorem Moves.keeps (moves : r.Moves deed next) :
    next.tail = r.tail ∧ next.head = r.head ∧ next.loops = r.loops := by
  cases moves <;> exact ⟨rfl, rfl, rfl⟩

end Relay

theorem Amplifier.awaits_iff {a : Amplifier} {k : Nat} :
    a.awaits = some k ↔ a.activity = .receiving ∧ a.inbound = k := by
  cases now : a.activity <;> simp [awaits, now]

theorem Relay.awaits_iff {r : Relay} {k : Nat} :
    r.awaits = some k ↔ r.activity = .receiving ∧ r.tail = k := by
  cases now : r.activity <;> simp [awaits, now]

/-- Whether an agent with this ledger does such a thing: it sends only before it has closed its
outbound channel, and receives only before it has hung up on its inbound one. -/
def Ledger.Permits (l : Ledger) : Deed → Prop
  | .sent .. | .refused .. => l.closed = false
  | .received .. | .foundEnd _ | .foundNothing _ => l.hungUp = false
  | .internal | .roused _ | .closed _ | .hungUp .. => True

theorem Amplifier.Follows.permits {a next : Amplifier} {start : Core} {l : Ledger} {dry : Prop}
    {deed : Deed} (follows : a.Follows start l dry) (moves : a.Moves deed next) :
    l.Permits deed := by
  obtain ⟨reads, unsent, -, stands⟩ := follows
  cases moves with
  | @send value rest halted now =>
    cases halted <;> simp only [Stands, now] at stands
    · exact stands.1.unclosed
    · exact stands.2.1
  | @refuse value rest halted channel now =>
    cases halted <;> simp only [Stands, now] at stands
    · exact stands.1.unclosed
    · exact stands.2.1
  | receive now =>
    simp only [Stands, now] at stands
    exact stands.1.listening
  | starve now =>
    simp only [Stands, now] at stands
    exact stands.1.listening
  | sleep now =>
    simp only [Stands, now] at stands
    exact stands.1.listening
  | _ => trivial

theorem Relay.Follows.permits {r next : Relay} {l : Ledger} {dry : Prop} {deed : Deed}
    (follows : r.Follows l dry) (moves : r.Moves deed next) : l.Permits deed := by
  have stands := follows.stands
  cases moves with
  | forward now =>
    cases loops : r.loops <;> simp only [Stands, loops, now] at stands
    exact stands.1
  | refuse now =>
    cases loops : r.loops <;> simp only [Stands, loops, now] at stands
    exact stands.1
  | receive now => exact follows.listening
  | finish now => exact follows.listening
  | sleep now => exact follows.listening
  | close now => trivial

namespace Agent

def inbound : Agent → Nat
  | amplifier a => a.inbound
  | listener l => l.channel
  | relay r => r.tail

def outbound : Agent → Nat
  | amplifier a => a.outbound
  | listener l => l.channel
  | relay r => r.head

/-- An agent looks at no other channel than its own. -/
theorem awaits_eq {agent : Agent} {k : Nat} (awaits : agent.awaits = some k) :
    k = agent.inbound := by
  cases agent with
  | amplifier a => exact (Amplifier.awaits_iff.mp awaits).2.symm
  | listener l =>
    simp only [Agent.awaits, Listener.awaits] at awaits
    split at awaits
    · exact (Option.some.inj awaits).symm
    · cases awaits
  | relay r => exact (Relay.awaits_iff.mp awaits).2.symm

/-- One move of an amplifier or of a relay. -/
inductive Moves : Agent → Deed → Agent → Prop where
  | amplifier {a next : Amplifier} {deed : Deed} (moves : a.Moves deed next) :
      Moves (.amplifier a) deed (.amplifier next)
  | relay {r next : Relay} {deed : Deed} (moves : r.Moves deed next) :
      Moves (.relay r) deed (.relay next)

/-- The agent is an amplifier or a relay that does what it should. -/
def Follows (start : Core) (l : Ledger) (dry : Prop) : Agent → Prop
  | amplifier a => a.Follows start l dry
  | listener _ => False
  | relay r => r.Follows l dry

variable {agent next : Agent} {deed : Deed} {start : Core} {l : Ledger} {dry dry' : Prop}

theorem Follows.move_moves (follows : agent.Follows start l dry) (alive : agent.isAlive = true)
    (self : Nat) (channels : Channels) :
    agent.Moves (agent.move self channels).2.deed (agent.move self channels).1 ∧
      (agent.move self channels).2.deed.Acts self channels
        (agent.move self channels).2.channels := by
  cases agent with
  | amplifier a =>
    obtain ⟨moves, acts⟩ := Amplifier.move_moves self channels alive
    exact ⟨.amplifier moves, acts⟩
  | listener l => exact absurd follows id
  | relay r =>
    obtain ⟨moves, acts⟩ := Relay.move_moves self channels alive
    exact ⟨.relay moves, acts⟩

theorem Moves.between (moves : agent.Moves deed next) :
    deed.Between agent.inbound agent.outbound := by
  cases moves with
  | amplifier moves => exact moves.between
  | relay moves => exact moves.between

theorem Moves.keeps (moves : agent.Moves deed next) :
    next.inbound = agent.inbound ∧ next.outbound = agent.outbound := by
  cases moves with
  | amplifier moves => exact moves.keeps.2
  | relay moves => exact ⟨moves.keeps.1, moves.keeps.2.1⟩

theorem Follows.mono (follows : agent.Follows start l dry) (later : dry → dry') :
    agent.Follows start l dry' := by
  cases agent with
  | amplifier a => exact Amplifier.Follows.mono follows later
  | listener l => exact follows
  | relay r => exact Relay.Follows.mono follows later

theorem Follows.preserved (follows : agent.Follows start l dry) (moves : agent.Moves deed next)
    (later : dry → dry') (found : deed = .foundEnd agent.inbound → dry') :
    next.Follows start (l.note deed) dry' := by
  cases moves with
  | amplifier moves => exact Amplifier.Follows.preserved follows moves later found
  | relay moves => exact Relay.Follows.preserved follows moves later found

theorem Follows.permits (follows : agent.Follows start l dry) (moves : agent.Moves deed next) :
    l.Permits deed := by
  cases moves with
  | amplifier moves => exact Amplifier.Follows.permits follows moves
  | relay moves => exact Relay.Follows.permits follows moves

/-- An agent that finds nothing stays as it is, and goes on looking. -/
theorem Moves.awaits {k : Nat} (moves : agent.Moves (.foundNothing k) next) :
    next = agent ∧ agent.awaits = some agent.inbound := by
  cases moves with
  | amplifier moves =>
    cases moves with
    | sleep now => exact ⟨rfl, by simp [Agent.awaits, Amplifier.awaits, now, inbound]⟩
  | relay moves =>
    cases moves with
    | sleep now => exact ⟨rfl, by simp [Agent.awaits, Relay.awaits, now, inbound]⟩

end Agent

end Intcode
