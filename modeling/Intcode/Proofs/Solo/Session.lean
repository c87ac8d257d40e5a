import Intcode.Network.Bench
import Intcode.Proofs.Pipeline.Invariant

/-!
# An amplifier between a producer and a listener

A single amplifier is served from outside: a producer sends it values and then closes its inbound
channel, and a listener receives all that comes out of it and never hangs up. A session is any
interleaving of the three, in which the producer may go on or give up once a value is refused.
`Coherent` collects what holds at all times, whatever the program does. The producer sends on
channel 0 and the listener receives from channel 1; so that their moves can be told apart from those
of the amplifier, the one is taken to receive from a channel 2 and the other to send on a channel 3,
which are not there.

This is `spawn` with a caller of `send` and `close` on the one side and an iteration over the
outbound channel on the other.
-/
namespace Intcode

namespace Listener

/-- One move of a listener that wants all values: what it does on the channels, and what becomes of
it. -/
inductive Moves (l : Listener) : Deed → Listener → Prop where
  | receive {value : Int} :
      Moves l (.received l.channel value) { l with values := l.values ++ [value] }
  | finish : Moves l (.foundEnd l.channel) { l with activity := .finished }
  | sleep : Moves l (.foundNothing l.channel) l

/-- A listener that wants all values, and does not sleep, makes one of the listed moves. -/
theorem move_moves {l : Listener} {channels : Channels} (self : Nat)
    (listening : l.activity = .listening) (wants : l.extent = .all)
    (awake : (channels.nth l.channel).sleepers = []) :
    l.Moves (l.move self channels).2.deed (l.move self channels).1 ∧
      (l.move self channels).2.deed.Acts self channels (l.move self channels).2.channels := by
  have kept : ∀ value, l.keep value = { l with values := l.values ++ [value] } := by
    intro value
    simp [keep, wants, listening]
  simp only [move, listening, awake, List.contains_nil, Bool.false_eq_true, ↓reduceIte, look]
  rcases channels.receive_cases self l.channel with
    ⟨value, found, deed, acts⟩ | ⟨found, deed, acts⟩ | ⟨found, deed, acts⟩
  · rcases result : channels.receive self l.channel with ⟨receipt, effect⟩
    rw [result] at found deed acts
    cases found
    dsimp only at deed ⊢
    rw [deed, kept]
    exact ⟨.receive, acts⟩
  · rcases result : channels.receive self l.channel with ⟨receipt, effect⟩
    rw [result] at found deed acts
    cases found
    dsimp only at deed ⊢
    rw [deed]
    exact ⟨.finish, acts⟩
  · rcases result : channels.receive self l.channel with ⟨receipt, effect⟩
    rw [result] at found deed acts
    cases found
    dsimp only at deed ⊢
    rw [deed]
    exact ⟨.sleep, acts⟩

variable {l next : Listener} {deed : Deed}

theorem Moves.between (moves : l.Moves deed next) (outbound : Nat) :
    deed.Between l.channel outbound := by
  cases moves <;> rfl

end Listener

theorem Machine.last_of_running {m next : Machine} (running : m.step = (.ok .running, next)) :
    next.last = some .running := by
  rw [step_eq_respond] at running
  unfold respond at running
  grind [resume]

namespace Amplifier

/-- What an amplifier's machine remembers of its last step: that it has halted, just in case it is
at its end and the amplifier has noticed. -/
def Remembers (a : Amplifier) : Prop :=
  if a.activity = .starting ∨ a.activity = .executing then a.machine.last ≠ some .halted
  else a.machine.last = some .halted ↔ a.machine.core.act = .halt

variable {a next : Amplifier} {deed : Deed}

theorem afterSending_settled (values : List Int) (halted : Bool) :
    ¬(afterSending values halted = .starting ∨ afterSending values halted = .executing) := by
  cases values <;> cases halted <;> simp [afterSending]

theorem Remembers.preserved {start : Core} {l : Ledger} {dry : Prop} (remembers : a.Remembers)
    (follows : a.Follows start l dry) (moves : a.Moves deed next) : next.Remembers := by
  unfold Remembers at remembers ⊢
  cases moves with
  | start now =>
    simpa [now] using remembers
  | run now stepped =>
    simp [Machine.last_of_running stepped]
  | halt now stepped =>
    obtain ⟨halts, rfl⟩ := Machine.halt_of_step stepped
    rw [if_neg (by simp)]
    exact ⟨fun _ => halts, fun _ => rfl⟩
  | flush now stepped =>
    obtain ⟨⟨wants, asks⟩, -, rfl⟩ := Machine.starved_of_step stepped
    have other : a.machine.core.act ≠ .halt := by simp [asks]
    rw [if_neg (afterSending_settled _ _)]
    exact ⟨nofun, fun halts => absurd halts other⟩
  | fault now stepped =>
    have same := Machine.unchanged_of_step stepped
    subst same
    have other : a.machine.core.act ≠ .halt := by
      intro halts
      simp [Machine.step_of_halt halts] at stepped
    simpa [now, other] using remembers
  | hangUp now =>
    rw [if_neg (by simp [now])] at remembers
    rw [if_neg (afterSending_settled _ _)]
    exact remembers
  | skip now =>
    rw [if_neg (afterSending_settled _ _)]
    simpa [now] using remembers
  | send now =>
    rw [if_neg (afterSending_settled _ _)]
    simpa [now] using remembers
  | receive now =>
    obtain ⟨reads, unsent, -, stands⟩ := follows
    simp only [Stands, now] at stands
    obtain ⟨wants, asks⟩ := stands.2.2.2.1
    simpa [now, asks, Machine.feed] using remembers
  | sleep now => exact remembers
  | refuse now => simpa [now] using remembers
  | starve now => simpa [now] using remembers
  | closeInbound now => simpa [now] using remembers
  | closeOutbound now => simpa [now] using remembers

end Amplifier

namespace Solo

open Network Pipeline

/-- Put an amplifier on an empty bench, start it, and listen to all that comes out of it. -/
def setUp (settings : Settings) (program : Program) (name : String) (budget : Option Int) :
    Except Fault Network := do
  let bench ← ({} : Bench).addAmplifier settings name program { budget }
  let started ← bench.network.start 0
  return ({ bench with network := started.network }.addListener name 1 .all).2.network

def network (settings : Settings) (cells : List Int) (name : String) (budget : Option Int) :
    Network where
  channels := #[{ name := name ++ ".in" }, { name := name ++ ".out" }]
  agents := #[
    .amplifier {
      name
      machine := Machine.ofCells settings cells { name, budget }
      inbound := 0
      outbound := 1
      activity := .starting },
    .listener { channel := 1, extent := .all }]

/-- The bench can be set up if the program can be read. -/
theorem setUp_eq (settings : Settings) (program : Program) (name : String)
    (budget : Option Int) :
    setUp settings program name budget =
      program.load.map fun cells => network settings cells name budget := by
  cases loaded : program.load with
  | error fault =>
    have unmade : Machine.load settings program { name, budget } = .error fault := by
      simp only [Machine.load, loaded]
    simp only [setUp, Bench.addAmplifier, unmade]
    rfl
  | ok cells =>
    have made : Machine.load settings program { name, budget } =
        .ok (Machine.ofCells settings cells { name, budget }) := by
      simp only [Machine.load, loaded]
    simp only [setUp, Bench.addAmplifier, made]
    rfl

theorem setUp_of_load {settings : Settings} {program : Program} {cells : List Int} (name : String)
    (budget : Option Int) (loaded : program.load = .ok cells) :
    setUp settings program name budget = .ok (network settings cells name budget) := by
  rw [setUp_eq, loaded]
  rfl

/-- The network comes from the given one by the listed moves: those of agents that were able to
move, and those of a producer that sends the given inputs and then closes. What it has still to
send stands beside them, `none` once it has closed. A producer that has a value refused goes on with
the next one or gives up. -/
inductive Session (n : Network) (inputs : List Int) :
    Moves → Option (List Int) → Network → Prop where
  | rest : Session n inputs [] (some inputs) n
  | move {moves : Moves} {left : Option (List Int)} {now : Network} {i : Nat}
      (before : Session n inputs moves left now) (able : now.enabled i = true) :
      Session n inputs (moves ++ [(i, (now.advance i).deed)]) left (now.advance i).network
  | offer {moves : Moves} {value : Int} {left : List Int} {now : Network}
      (before : Session n inputs moves (some (value :: left)) now) :
      Session n inputs (moves ++ [(2, (now.send 0 value).2.deed)]) (some left)
        (now.send 0 value).2.network
  | giveUp {moves : Moves} {value : Int} {left : List Int} {now : Network}
      (before : Session n inputs moves (some (value :: left)) now)
      (refused : (now.send 0 value).1 ≠ none) :
      Session n inputs (moves ++ [(2, (now.send 0 value).2.deed)]) (some [])
        (now.send 0 value).2.network
  | close {moves : Moves} {now : Network} (before : Session n inputs moves (some []) now) :
      Session n inputs (moves ++ [(2, (now.close 0).deed)]) none (now.close 0).network

/-- The amplifier does what it should. -/
structure Plays (start : Core) (moves : Moves) (a : Amplifier) : Prop where
  inbound : a.inbound = 0
  outbound : a.outbound = 1
  follows : a.Follows start (ledger moves 0 1) (Dry [] (traffic moves 0))
  remembers : a.Remembers

/-- The listener has all the values that it has received, and ends at the end of the stream. -/
structure Hears (t : Traffic) (l : Listener) : Prop where
  channel : l.channel = 1
  wants : l.extent = .all
  untimed : l.timed = false
  listening : t.hungUp = false
  values : l.values = t.received
  stands : l.activity = .listening ∨ l.activity = .finished ∧ Dry [] t

/-- The producer has sent a part of the inputs, and unless one was refused, the others are left. -/
structure Feeds (inputs : List Int) (left : Option (List Int)) (t : Traffic) : Prop where
  sent : t.sent <+: inputs
  others : t.refused = false → t.sent ++ left.getD [] = inputs
  closed : t.closed = left.isNone

/-- Both channels carry their traffic, and nobody sleeps on them but their receivers. -/
structure Flows (moves : Moves) (n : Network) : Prop where
  channels : n.channels.size = 2
  agents : n.agents.size = 2
  carries : ∀ k < 2, (n.channels.nth k).Carries [] (traffic moves k)
  refusals : ∀ k < 2, (traffic moves k).refused = true → (traffic moves k).hungUp = true
  rests : ∀ k < 2, Rests n k

structure Coherent (start : Core) (inputs : List Int) (moves : Moves) (left : Option (List Int))
    (n : Network) : Prop extends Flows moves n where
  amplifier : ∃ a, n.agents[0]? = some (.amplifier a) ∧ Plays start moves a
  listener : ∃ l, n.agents[1]? = some (.listener l) ∧ Hears (traffic moves 1) l
  producer : Feeds inputs left (traffic moves 0)

section Step

variable {start : Core} {inputs : List Int} {moves : Moves} {left left' : Option (List Int)}
  {n n' : Network} {i outbound : Nat} {deed : Deed}

/-- Whoever acts between two channels of its own keeps the channels as they should be. -/
theorem Flows.after (flows : Flows moves n) (awake : (n.channels.nth i).sleepers = [])
    (acts : deed.Acts i n.channels n'.channels) (between : deed.Between i outbound)
    (permits : (ledger moves i outbound).Permits deed) (size : n'.agents.size = n.agents.size)
    (others : ∀ j, j ≠ i → n'.agents[j]? = n.agents[j]?)
    (sleeps : deed = .foundNothing i → ∃ agent, n'.agents[i]? = some agent ∧
      agent.awaits = some i) :
    Flows (moves ++ [(i, deed)]) n' := by
  have inside : ∀ k < 2, k < n.channels.size := by
    intro k within
    rw [flows.channels]
    exact within
  refine ⟨acts.size_eq.trans flows.channels, size.trans flows.agents, ?_, ?_, ?_⟩
  · intro k within
    rw [traffic_append]
    exact (flows.carries k within).preserved acts (inside k within)
  · intro k within
    rw [traffic_append]
    exact refusals_note (flows.carries k within) acts between permits (flows.refusals k within)
  · intro k within
    exact (flows.rests k within).of_acts awake acts between (inside k within) others sleeps

/-- A channel that has run dry stays so. -/
theorem Flows.stays (flows : Flows moves n) (acts : deed.Acts i n.channels n'.channels)
    (between : deed.Between i outbound) (permits : (ledger moves i outbound).Permits deed)
    {k : Nat} (within : k < 2) (dry : Dry [] (traffic moves k)) :
    Dry [] (traffic (moves ++ [(i, deed)]) k) := by
  rw [traffic_append]
  exact dry.preserved (flows.carries k within) acts between permits

theorem Plays.elsewhere {a : Amplifier} (plays : Plays start moves a)
    (between : deed.Between i outbound) (notIn : i ≠ 0) (notOut : outbound ≠ 1)
    (stays : Dry [] (traffic moves 0) → Dry [] (traffic (moves ++ [(i, deed)]) 0)) :
    Plays start (moves ++ [(i, deed)]) a := by
  refine ⟨plays.inbound, plays.outbound, ?_, plays.remembers⟩
  rw [ledger_other between (Ne.symm notIn) (Ne.symm notOut)]
  exact plays.follows.mono stays

theorem Hears.elsewhere {l : Listener} (hears : Hears (traffic moves 1) l)
    (between : deed.Between i outbound) (notIn : i ≠ 1)
    (stays : Dry [] (traffic moves 1) → Dry [] (traffic (moves ++ [(i, deed)]) 1)) :
    Hears (traffic (moves ++ [(i, deed)]) 1) l := by
  obtain ⟨received, hungUp⟩ :=
    between.receiving_frame (t := traffic moves 1) (Ne.symm notIn)
  refine ⟨hears.channel, hears.wants, hears.untimed, ?_, ?_, ?_⟩
  · rw [traffic_append, hungUp]
    exact hears.listening
  · rw [traffic_append, received]
    exact hears.values
  · exact hears.stands.imp id fun finished => ⟨finished.1, stays finished.2⟩

theorem Feeds.elsewhere (feeds : Feeds inputs left (traffic moves 0))
    (between : deed.Between i outbound) (notOut : outbound ≠ 0) :
    Feeds inputs left (traffic (moves ++ [(i, deed)]) 0) := by
  obtain ⟨sent, closed, refused⟩ :=
    between.sending_frame (t := traffic moves 0) (Ne.symm notOut)
  rw [traffic_append]
  exact ⟨sent ▸ feeds.sent, sent ▸ refused ▸ feeds.others, closed ▸ feeds.closed⟩

/-- A move of the amplifier keeps everything coherent. -/
theorem Coherent.amplifier_moved (coherent : Coherent start inputs moves left n)
    {a next : Amplifier} (plays : Plays start moves a) (made : a.Moves deed next)
    (awake : (n.channels.nth 0).sleepers = []) (acts : deed.Acts 0 n.channels n'.channels)
    (size : n'.agents.size = n.agents.size)
    (moved : ∀ j, n'.agents[j]? = if j = 0 then some (.amplifier next) else n.agents[j]?) :
    Coherent start inputs (moves ++ [(0, deed)]) left n' := by
  have between := made.between
  rw [plays.inbound, plays.outbound] at between
  have permits := plays.follows.permits made
  have stays := fun {k} => coherent.stays (k := k) acts between permits
  have there : n'.agents[0]? = some (.amplifier next) := (moved 0).trans (if_pos rfl)
  have others : ∀ j, j ≠ 0 → n'.agents[j]? = n.agents[j]? :=
    fun j apart => (moved j).trans (if_neg apart)
  obtain ⟨l, listener, hears⟩ := coherent.listener
  refine ⟨coherent.after awake acts between permits size others ?_, ⟨next, there, ?_⟩,
    ⟨l, (others 1 (by decide)).trans listener,
      hears.elsewhere between (by decide) (stays (by decide))⟩,
    coherent.producer.elsewhere between (by decide)⟩
  · rintro rfl
    obtain ⟨same, awaits⟩ := (Agent.Moves.amplifier made).awaits
    refine ⟨_, there, ?_⟩
    rw [same, awaits]
    exact congrArg some plays.inbound
  · refine ⟨made.keeps.2.1.trans plays.inbound, made.keeps.2.2.trans plays.outbound, ?_,
      plays.remembers.preserved plays.follows made⟩
    rw [ledger_own between (by decide)]
    refine plays.follows.preserved made (stays (by decide)) ?_
    rintro rfl
    rw [plays.inbound] at acts permits ⊢
    rw [traffic_append]
    exact dry_of_foundEnd (coherent.carries 0 (by decide)) acts.1 acts.2.1 permits
      (coherent.refusals 0 (by decide))

/-- A move of the listener keeps everything coherent. -/
theorem Coherent.listener_moved (coherent : Coherent start inputs moves left n)
    {l next : Listener} (hears : Hears (traffic moves 1) l) (listening : l.activity = .listening)
    (made : l.Moves deed next) (awake : (n.channels.nth 1).sleepers = [])
    (acts : deed.Acts 1 n.channels n'.channels) (size : n'.agents.size = n.agents.size)
    (moved : ∀ j, n'.agents[j]? = if j = 1 then some (.listener next) else n.agents[j]?) :
    Coherent start inputs (moves ++ [(1, deed)]) left n' := by
  have between := made.between 3
  rw [hears.channel] at between
  have permits : (ledger moves 1 3).Permits deed := by
    cases made <;> exact hears.listening
  have stays := fun {k} => coherent.stays (k := k) acts between permits
  have there : n'.agents[1]? = some (.listener next) := (moved 1).trans (if_pos rfl)
  have others : ∀ j, j ≠ 1 → n'.agents[j]? = n.agents[j]? :=
    fun j apart => (moved j).trans (if_neg apart)
  obtain ⟨a, amplifier, plays⟩ := coherent.amplifier
  refine ⟨coherent.after awake acts between permits size others ?_,
    ⟨a, (others 0 (by decide)).trans amplifier,
      plays.elsewhere between (by decide) (by decide) (stays (by decide))⟩,
    ⟨next, there, ?_⟩, coherent.producer.elsewhere between (by decide)⟩
  · intro nothing
    refine ⟨_, there, ?_⟩
    cases made with
    | sleep => simp [Agent.awaits, Listener.awaits, Listener.isAlive, listening, hears.channel]
    | _ => cases nothing
  · obtain ⟨channel, wants, untimed, hearing, values, -⟩ := hears
    rw [traffic_append]
    cases made with
    | @receive value =>
      refine ⟨channel, wants, untimed, ?_, ?_, Or.inl listening⟩
      · simpa [Traffic.note, channel] using hearing
      · simp [Traffic.note, channel, values]
    | finish =>
      rw [channel] at acts
      have dry := dry_of_foundEnd (coherent.carries 1 (by decide)) acts.1 acts.2.1 hearing
        (coherent.refusals 1 (by decide))
      exact ⟨channel, wants, untimed, hearing, values, Or.inr ⟨rfl, dry⟩⟩
    | sleep => exact ⟨channel, wants, untimed, hearing, values, Or.inl listening⟩

/-- What the producer does keeps everything coherent, as long as it has not closed before. -/
theorem Coherent.producer_moved (coherent : Coherent start inputs moves left n)
    (between : deed.Between 2 0) (permits : (ledger moves 2 0).Permits deed)
    (acts : deed.Acts 2 n.channels n'.channels) (same : n'.agents = n.agents)
    (busy : deed ≠ .foundNothing 2)
    (feeds : Feeds inputs left' ((traffic moves 0).note 0 deed)) :
    Coherent start inputs (moves ++ [(2, deed)]) left' n' := by
  have awake : (n.channels.nth 2).sleepers = [] := by
    have absent : n.channels[2]? = none := Array.getElem?_eq_none (Nat.le_of_eq coherent.channels)
    rw [Channels.nth, Array.getD_eq_getD_getElem?, absent]
    rfl
  have stays := fun {k} => coherent.stays (k := k) acts between permits
  obtain ⟨a, amplifier, plays⟩ := coherent.amplifier
  obtain ⟨l, listener, hears⟩ := coherent.listener
  refine ⟨coherent.after awake acts between permits (by rw [same]) (fun j _ => by rw [same])
      (fun nothing => absurd nothing busy),
    ⟨a, same ▸ amplifier, plays.elsewhere between (by decide) (by decide) (stays (by decide))⟩,
    ⟨l, same ▸ listener, hears.elsewhere between (by decide) (stays (by decide))⟩, ?_⟩
  rw [traffic_append]
  exact feeds

end Step

section Session

variable {settings : Settings} {cells : List Int} {name : String} {budget : Option Int}
  {start : Core} {inputs : List Int} {moves : Moves} {left : Option (List Int)} {n : Network}

/-- An agent that is able to move is the amplifier or the listener, and does not sleep. -/
theorem Coherent.able_cases {i : Nat} (coherent : Coherent start inputs moves left n)
    (able : n.enabled i = true) :
    (i = 0 ∧ ∃ a next, n.agents[0]? = some (.amplifier a) ∧ Plays start moves a ∧
      a.Moves (n.advance 0).deed next ∧ (n.channels.nth 0).sleepers = [] ∧
      (n.advance 0).deed.Acts 0 n.channels (n.advance 0).network.channels ∧
      ∀ j, (n.advance 0).network.agents[j]? =
        if j = 0 then some (.amplifier next) else n.agents[j]?) ∨
    (i = 1 ∧ ∃ l next, n.agents[1]? = some (.listener l) ∧ Hears (traffic moves 1) l ∧
      l.activity = .listening ∧ l.Moves (n.advance 1).deed next ∧
      (n.channels.nth 1).sleepers = [] ∧
      (n.advance 1).deed.Acts 1 n.channels (n.advance 1).network.channels ∧
      ∀ j, (n.advance 1).network.agents[j]? =
        if j = 1 then some (.listener next) else n.agents[j]?) := by
  obtain ⟨agent, there⟩ := agent_of_enabled able
  obtain ⟨bound, -⟩ := Array.getElem?_eq_some_iff.mp there
  have within : i < 2 := coherent.agents ▸ bound
  obtain rfl | rfl : i = 0 ∨ i = 1 := by omega
  · obtain ⟨a, amplifier, plays⟩ := coherent.amplifier
    obtain ⟨alive, awake⟩ := (coherent.rests 0 within).awake able amplifier rfl
    obtain ⟨made, acts⟩ := Amplifier.move_moves 0 n.channels alive
    rw [advance_deed amplifier, advance_channels amplifier]
    exact Or.inl ⟨rfl, a, _, amplifier, plays, made, awake, acts, advance_agents amplifier⟩
  · obtain ⟨l, listener, hears⟩ := coherent.listener
    obtain ⟨alive, awake⟩ := (coherent.rests 1 within).awake able listener hears.untimed
    have listening : l.activity = .listening := by
      rcases hears.stands with listening | ⟨finished, -⟩
      · exact listening
      · simp [Agent.isAlive, Listener.isAlive, finished] at alive
    obtain ⟨made, acts⟩ := Listener.move_moves 1 listening hears.wants
      (by rw [hears.channel]; exact awake)
    rw [advance_deed listener, advance_channels listener]
    exact Or.inr ⟨rfl, l, _, listener, hears, listening, made, awake, acts,
      advance_agents listener⟩

/-- A move of an agent keeps everything coherent. -/
theorem Coherent.moved {i : Nat} (coherent : Coherent start inputs moves left n)
    (able : n.enabled i = true) :
    Coherent start inputs (moves ++ [(i, (n.advance i).deed)]) left (n.advance i).network := by
  rcases coherent.able_cases able with ⟨rfl, a, next, -, plays, made, awake, acts, agents⟩ |
    ⟨rfl, l, next, -, hears, listening, made, awake, acts, agents⟩
  · exact coherent.amplifier_moved plays made awake acts (advance_size n 0) agents
  · exact coherent.listener_moved hears listening made awake acts (advance_size n 1) agents

/-- A value that the producer sends, or has refused, keeps everything coherent. -/
theorem Coherent.offered {value : Int} {rest rest' : List Int}
    (coherent : Coherent start inputs moves (some (value :: rest)) n)
    (onward : (n.send 0 value).1 = none → rest' = rest) :
    Coherent start inputs (moves ++ [(2, (n.send 0 value).2.deed)]) (some rest')
      (n.send 0 value).2.network := by
  obtain ⟨sent, others, closed⟩ := coherent.producer
  have permits : (traffic moves 0).closed = false := closed
  rcases n.channels.send_cases 2 0 value with
    ⟨accepted, deed, acts⟩ | ⟨channel, refused, deed, acts⟩
  · have opened := (coherent.carries 0 (by decide)).open_iff.mp acts.1
    have unrefused : (traffic moves 0).refused = false := by
      cases refused : (traffic moves 0).refused with
      | false => rfl
      | true => simp [coherent.refusals 0 (by decide) refused] at opened
    have whole := others unrefused
    rw [Option.getD_some] at whole
    rw [onward accepted, show (n.send 0 value).2.deed = .sent 0 value from deed]
    refine coherent.producer_moved rfl permits acts rfl (by simp) ⟨?_, ?_, ?_⟩
    · rw [← whole, List.append_cons]
      exact List.prefix_append _ _
    · intro _
      simpa [Traffic.note] using whole
    · simpa [Traffic.note] using permits
  · rw [show (n.send 0 value).2.deed = .refused 0 value from deed]
    refine coherent.producer_moved rfl permits acts rfl (by simp) ⟨sent, ?_, permits⟩
    simp [Traffic.note]

theorem Coherent.closed (coherent : Coherent start inputs moves (some []) n) :
    Coherent start inputs (moves ++ [(2, (n.close 0).deed)]) none (n.close 0).network := by
  obtain ⟨sent, others, -⟩ := coherent.producer
  exact coherent.producer_moved rfl trivial rfl rfl (by simp [close, affected, Channels.close])
    ⟨sent, others, rfl⟩

theorem Coherent.init (settings : Settings) (cells : List Int) (name : String)
    (budget : Option Int) (inputs : List Int) :
    Coherent (Machine.ofCells settings cells { budget }).core inputs [] (some inputs)
      (network settings cells name budget) where
  channels := rfl
  agents := rfl
  carries := by
    intro k within
    obtain rfl | rfl : k = 0 ∨ k = 1 := by omega
    · exact ⟨rfl, fun _ => rfl, nofun, rfl, rfl, nofun⟩
    · exact ⟨rfl, fun _ => rfl, nofun, rfl, rfl, nofun⟩
  refusals := nofun
  rests := by
    intro k within
    obtain rfl | rfl : k = 0 ∨ k = 1 := by omega
    · exact Or.inl rfl
    · exact Or.inl rfl
  amplifier :=
    ⟨_, rfl, rfl, rfl, Amplifier.follows_of_starting rfl rfl rfl rfl rfl, nofun⟩
  listener := ⟨_, rfl, rfl, rfl, rfl, rfl, rfl, Or.inl rfl⟩
  producer := ⟨List.nil_prefix, fun _ => rfl, rfl⟩

/-- Everything is coherent throughout a session. -/
theorem coherent_of_session
    (session : Session (network settings cells name budget) inputs moves left n) :
    Coherent (Machine.ofCells settings cells { budget }).core inputs moves left n := by
  induction session with
  | rest => exact .init settings cells name budget inputs
  | move _ able ih => exact ih.moved able
  | offer _ ih => exact ih.offered fun _ => rfl
  | giveUp _ refused ih => exact ih.offered fun accepted => absurd accepted refused
  | close _ ih => exact ih.closed

end Session

end Solo

end Intcode
