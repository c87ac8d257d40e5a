import Intcode.Pipeline.Concurrent
import Intcode.Proofs.Network.Agents

/-!
# What holds at all times in a pipeline

The agent with number `k` of a pipeline receives from channel `k` and sends on the next one, and
the relay, which is the last agent, sends on the first. No two agents share an end of a channel,
so what a schedule says about a channel is what its receiver and its sender have done themselves.
`Coherent` collects what holds of every agent and every channel at all times, whatever the
program does: `Coherent.step` says that every move keeps it, and `coherent_of_schedule` that it
holds throughout.
-/
namespace Intcode

theorem Network.advance_size (n : Network) (i : Nat) :
    (n.advance i).network.agents.size = n.agents.size := by
  obtain ⟨channels, agents, log⟩ := n
  unfold advance
  by_cases bound : i < agents.size <;> simp [bound]

namespace Pipeline

open Network

/-- The core that every stage of a pipeline starts from. -/
def startCore (settings : Settings) (cells : List Int) : Core :=
  (Machine.ofCells settings cells {}).core

/-- The values that the channel with a number holds before anything moves. -/
def initially (phases : List Int) (signal : Int) (k : Nat) : List Int :=
  match phases[k]? with
  | some phase => primed signal k phase
  | none => []

theorem initially_relay (phases : List Int) (signal : Int) :
    initially phases signal phases.length = [] := by
  simp [initially]

def outlet (stages k : Nat) : Nat :=
  if k = stages then 0 else k + 1

theorem outlet_inj {stages i j : Nat} (apart : i ≠ j) : outlet stages i ≠ outlet stages j := by
  unfold outlet
  split <;> split <;> omega

theorem outlet_ne {stages i : Nat} (nonempty : 0 < stages) : i ≠ outlet stages i := by
  unfold outlet
  split <;> omega

theorem outlet_le {stages i : Nat} (within : i ≤ stages) : outlet stages i ≤ stages := by
  unfold outlet
  split <;> omega

/-- Every value that was there or was sent has been received, and nothing more will come. -/
structure Dry (initial : List Int) (t : Traffic) : Prop where
  closed : t.closed = true
  accepted : t.refused = false
  received : t.received = initial ++ t.sent

/-- What stands at a place of a pipeline: a stage, or the relay at the end. -/
def Role (wiring : Wiring) (stages k : Nat) : Agent → Prop
  | .amplifier a => k < stages ∧ a.name = stageName k
  | .listener _ => False
  | .relay r => k = stages ∧ r.loops = decide (wiring = .loop)

/-- A channel has no sleeper, or else its only receiver sleeps on it, with nothing there. -/
def Rests (n : Network) (k : Nat) : Prop :=
  (n.channels.nth k).sleepers = [] ∨
    (n.channels.nth k).sleepers = [k] ∧ (n.channels.nth k).buffer = [] ∧
      (n.channels.nth k).isOpen = true ∧
      ∃ agent, n.agents[k]? = some agent ∧ agent.awaits = some k

theorem agent_of_enabled {n : Network} {i : Nat} (able : n.enabled i = true) :
    ∃ agent, n.agents[i]? = some agent := by
  unfold enabled at able
  cases there : n.agents[i]? with
  | none => simp [there] at able
  | some agent => exact ⟨agent, rfl⟩

/-- An agent without a time limit that is able to move does not sleep. -/
theorem Rests.awake {n : Network} {i : Nat} {agent : Agent} (rests : Rests n i)
    (able : n.enabled i = true) (there : n.agents[i]? = some agent)
    (untimed : agent.isTimed = false) :
    agent.isAlive = true ∧ (n.channels.nth i).sleepers = [] := by
  simp only [enabled, there, untimed, Bool.false_or, Bool.and_eq_true, Bool.not_eq_true'] at able
  refine ⟨able.1, ?_⟩
  rcases rests with none | ⟨sleeps, -, -, _, same, awaits⟩
  · exact none
  · cases there.symm.trans same
    simp [isAsleep, awaits, sleeps] at able

/-- What holds of the agent at a place of a pipeline. -/
structure Serves (wiring : Wiring) (start : Core) (phases : List Int) (signal : Int)
    (moves : Moves) (k : Nat) (agent : Agent) : Prop where
  inbound : agent.inbound = k
  outbound : agent.outbound = outlet phases.length k
  role : Role wiring phases.length k agent
  follows : agent.Follows start (ledger moves k (outlet phases.length k))
    (Dry (initially phases signal k) (traffic moves k))

/-- What holds of a pipeline after the given moves. -/
structure Coherent (wiring : Wiring) (start : Core) (phases : List Int) (signal : Int)
    (moves : Moves) (n : Network) : Prop where
  nonempty : 0 < phases.length
  channels : n.channels.size = phases.length + 1
  agents : n.agents.size = phases.length + 1
  carries : ∀ k ≤ phases.length,
    (n.channels.nth k).Carries (initially phases signal k) (traffic moves k)
  refusals : ∀ k ≤ phases.length,
    (traffic moves k).refused = true → (traffic moves k).hungUp = true
  serves : ∀ k agent, n.agents[k]? = some agent →
    Serves wiring start phases signal moves k agent
  rests : ∀ k ≤ phases.length, Rests n k

section Step

variable {wiring : Wiring} {start : Core} {phases : List Int} {signal : Int} {moves : Moves}
  {n : Network} {i : Nat}

theorem Coherent.place (coherent : Coherent wiring start phases signal moves n) {k : Nat}
    {agent : Agent} (there : n.agents[k]? = some agent) : k ≤ phases.length := by
  obtain ⟨bound, -⟩ := Array.getElem?_eq_some_iff.mp there
  have := coherent.agents
  omega

theorem Coherent.agent (coherent : Coherent wiring start phases signal moves n) {k : Nat}
    (within : k ≤ phases.length) : ∃ agent, n.agents[k]? = some agent := by
  have := coherent.agents
  exact ⟨_, Array.getElem?_eq_getElem (by omega : k < n.agents.size)⟩

/-- An agent that is able to move does not sleep. -/
theorem Coherent.awake (coherent : Coherent wiring start phases signal moves n)
    (able : n.enabled i = true) :
    ∃ agent, n.agents[i]? = some agent ∧ agent.isAlive = true ∧
      (n.channels.nth i).sleepers = [] := by
  obtain ⟨agent, there⟩ := agent_of_enabled able
  have role := (coherent.serves i agent there).role
  have untimed : agent.isTimed = false := by
    cases agent with
    | listener l => exact absurd role id
    | _ => rfl
  exact ⟨agent, there, (coherent.rests i (coherent.place there)).awake able there untimed⟩

/-- The move of an agent that is able to is one of its moves, on its own two channels. -/
theorem Coherent.moved (coherent : Coherent wiring start phases signal moves n)
    (able : n.enabled i = true) :
    ∃ agent, n.agents[i]? = some agent ∧ (n.channels.nth i).sleepers = [] ∧
      agent.Moves (n.advance i).deed (agent.move i n.channels).1 ∧
      (n.advance i).deed.Acts i n.channels (n.advance i).network.channels ∧
      (n.advance i).deed.Between i (outlet phases.length i) := by
  obtain ⟨agent, there, alive, awake⟩ := coherent.awake able
  obtain ⟨inbound, outbound, -, follows⟩ := coherent.serves i agent there
  obtain ⟨made, acts⟩ := follows.move_moves alive i n.channels
  have between := made.between
  rw [outbound, inbound] at between
  rw [advance_deed there, advance_channels there]
  exact ⟨agent, there, awake, made, acts, between⟩

/-- The amplifier of a stage. -/
theorem Coherent.stage (coherent : Coherent wiring start phases signal moves n) {k : Nat}
    (within : k < phases.length) :
    ∃ a, n.agents[k]? = some (.amplifier a) ∧ a.name = stageName k ∧
      a.Follows start (ledger moves k (k + 1))
        (Dry (initially phases signal k) (traffic moves k)) := by
  obtain ⟨agent, there⟩ := coherent.agent (Nat.le_of_lt within)
  obtain ⟨-, -, role, follows⟩ := coherent.serves k agent there
  rw [outlet, if_neg (Nat.ne_of_lt within)] at follows
  cases agent with
  | amplifier a => exact ⟨a, there, role.2, follows⟩
  | listener l => exact absurd role id
  | relay r => exact absurd role.1 (Nat.ne_of_lt within)

/-- The relay. -/
theorem Coherent.relay (coherent : Coherent wiring start phases signal moves n) :
    ∃ r, n.agents[phases.length]? = some (.relay r) ∧ r.loops = decide (wiring = .loop) ∧
      r.Follows (ledger moves phases.length 0)
        (Dry (initially phases signal phases.length) (traffic moves phases.length)) := by
  obtain ⟨agent, there⟩ := coherent.agent (Nat.le_refl phases.length)
  obtain ⟨-, -, role, follows⟩ := coherent.serves phases.length agent there
  rw [outlet, if_pos rfl] at follows
  cases agent with
  | amplifier a => exact absurd role.1 (Nat.lt_irrefl _)
  | listener l => exact absurd role id
  | relay r => exact ⟨r, there, role.2, follows⟩

end Step

/-- A channel that is dry stays so, whatever an agent does that keeps to its ledger. -/
theorem Dry.preserved {initial : List Int} {moves : Moves} {k self inbound outbound : Nat}
    {before after : Channels} {deed : Deed} (dry : Dry initial (traffic moves k))
    (carries : (before.nth k).Carries initial (traffic moves k))
    (acts : deed.Acts self before after) (between : deed.Between inbound outbound)
    (permits : (ledger moves inbound outbound).Permits deed) :
    Dry initial ((traffic moves k).note k deed) := by
  obtain ⟨closed, accepted, received⟩ := dry
  have nothing : (before.nth k).buffer = [] := by
    have conserved := carries.conserved
    rw [received, List.append_assoc] at conserved
    exact (List.append_eq_nil_iff.mp (List.self_eq_append_right.mp conserved)).2
  by_cases here : deed.channel? = some k
  · cases deed with
    | sent j value =>
      cases here
      cases between
      simp [Ledger.Permits, ledger, closed] at permits
    | refused j value =>
      cases here
      cases between
      simp [Ledger.Permits, ledger, closed] at permits
    | received j value =>
      cases here
      obtain ⟨rest, held, -⟩ := acts
      simp [nothing] at held
    | closed j =>
      cases here
      simp only [Traffic.note, ↓reduceIte]
      exact ⟨rfl, accepted, received⟩
    | hungUp j values =>
      cases here
      simp only [Traffic.note, ↓reduceIte]
      exact ⟨closed, accepted, received⟩
    | _ => exact ⟨closed, accepted, received⟩
  · rw [Deed.note_elsewhere here]
    exact ⟨closed, accepted, received⟩

/-- An end of the stream that is found where nobody has hung up means that the channel is dry. -/
theorem dry_of_foundEnd {initial : List Int} {t : Traffic} {c : Channel}
    (carries : c.Carries initial t) (empty : c.buffer = []) (shut : c.isOpen = false)
    (listening : t.hungUp = false) (refusals : t.refused = true → t.hungUp = true) :
    Dry initial t := by
  refine ⟨?_, ?_, ?_⟩
  · simpa [listening] using carries.shut_iff.mp shut
  · cases refused : t.refused with
    | false => rfl
    | true => simp [refusals refused] at listening
  · rw [carries.received_buffer listening, empty, List.append_nil]

/-- A value is refused only where the receiver has hung up: its sender has not closed. -/
theorem refusals_note {initial : List Int} {moves : Moves} {k self inbound outbound : Nat}
    {before after : Channels} {deed : Deed}
    (carries : (before.nth k).Carries initial (traffic moves k))
    (acts : deed.Acts self before after) (between : deed.Between inbound outbound)
    (permits : (ledger moves inbound outbound).Permits deed)
    (refusals : (traffic moves k).refused = true → (traffic moves k).hungUp = true) :
    ((traffic moves k).note k deed).refused = true →
      ((traffic moves k).note k deed).hungUp = true := by
  by_cases here : deed.channel? = some k
  · cases deed with
    | refused j value =>
      cases here
      cases between
      obtain ⟨shut, -⟩ := acts
      have unclosed : (traffic moves k).closed = false := permits
      intro _
      simpa [Traffic.note, unclosed] using carries.shut_iff.mp shut
    | hungUp j values =>
      cases here
      simp [Traffic.note]
    | sent j value =>
      cases here
      simpa [Traffic.note] using refusals
    | received j value =>
      cases here
      simpa [Traffic.note] using refusals
    | closed j =>
      cases here
      simpa [Traffic.note] using refusals
    | _ => exact refusals
  · rw [Deed.note_elsewhere here]
    exact refusals

/-- What is done by the only receiver of a channel, or by anyone else, leaves the channel with no
sleeper but that receiver. -/
theorem Rests.of_acts {n n' : Network} {i outbound k : Nat} {deed : Deed} (rests : Rests n k)
    (awake : (n.channels.nth i).sleepers = []) (acts : deed.Acts i n.channels n'.channels)
    (between : deed.Between i outbound) (inside : k < n.channels.size)
    (others : ∀ j, j ≠ i → n'.agents[j]? = n.agents[j]?)
    (sleeps : deed = .foundNothing i → ∃ agent, n'.agents[i]? = some agent ∧
      agent.awaits = some i) :
    Rests n' k := by
  -- Where the channel is as before, the sleeper is not the one that has acted.
  have unchanged : n'.channels.nth k = n.channels.nth k → Rests n' k := by
    intro same
    unfold Rests
    rw [same]
    by_cases own : k = i
    · exact Or.inl (own ▸ awake)
    · rw [others k own]
      exact rests
  have short : (n.channels.nth k).sleepers.drop 1 = [] := by
    rcases rests with none | ⟨one, -⟩
    · simp [none]
    · simp [one]
  by_cases here : deed.channel? = some k
  · cases deed with
    | internal => cases here
    | refused j value => exact unchanged (by rw [acts.2])
    | foundEnd j => exact unchanged (by rw [acts.2.2])
    | roused j => exact absurd between id
    | sent j value =>
      cases here
      apply Or.inl
      rw [acts.2, Channels.nth_put_self inside]
      exact short
    | received j value =>
      cases here
      obtain ⟨rest, -, after⟩ := acts
      obtain rfl : k = i := between
      apply Or.inl
      rw [after, Channels.nth_put_self inside]
      exact awake
    | foundNothing j =>
      cases here
      obtain ⟨empty, opened, after⟩ := acts
      obtain rfl : k = i := between
      apply Or.inr
      rw [after, Channels.nth_put_self inside]
      exact ⟨by simp [Channel.sleep, awake], empty, opened, sleeps rfl⟩
    | closed j =>
      cases here
      apply Or.inl
      rw [show _ = _ from acts, Channels.nth_put_self inside]
      rfl
    | hungUp j values =>
      cases here
      apply Or.inl
      rw [acts.2, Channels.nth_put_self inside]
      rfl
  · exact unchanged (acts.elsewhere here)

/-- A move of an agent leaves every channel with no sleeper but its receiver. -/
theorem Rests.preserved {n : Network} {i k : Nat} {agent next : Agent} {deed : Deed}
    (rests : Rests n k) (there : n.agents[i]? = some agent)
    (awake : (n.channels.nth i).sleepers = []) (moves : agent.Moves deed next)
    (place : agent.inbound = i) (acts : deed.Acts i n.channels (n.advance i).network.channels)
    (became : (agent.move i n.channels).1 = next) (inside : k < n.channels.size) :
    Rests (n.advance i).network k := by
  have between := moves.between
  rw [place] at between
  refine rests.of_acts awake acts between inside ?_ ?_
  · intro j apart
    rw [advance_agents there, if_neg apart]
  · rintro rfl
    obtain ⟨stays, awaits⟩ := moves.awaits
    exact ⟨agent, by rw [advance_agents there, if_pos rfl, became, stays], by rw [awaits, place]⟩

theorem Role.preserved {wiring : Wiring} {stages k : Nat} {agent next : Agent} {deed : Deed}
    (role : Role wiring stages k agent) (moves : agent.Moves deed next) :
    Role wiring stages k next := by
  cases moves with
  | amplifier moves => exact ⟨role.1, moves.keeps.1.trans role.2⟩
  | relay moves => exact ⟨role.1, moves.keeps.2.2.trans role.2⟩

/-- Every move of an agent that is able to move keeps a pipeline coherent. -/
theorem Coherent.step {wiring : Wiring} {start : Core} {phases : List Int} {signal : Int}
    {moves : Moves} {n : Network} {i : Nat}
    (coherent : Coherent wiring start phases signal moves n) (able : n.enabled i = true) :
    Coherent wiring start phases signal (moves ++ [(i, (n.advance i).deed)])
      (n.advance i).network := by
  obtain ⟨agent, there, awake, made, acts, between⟩ := coherent.moved able
  have place := coherent.place there
  obtain ⟨inbound, outbound, role, follows⟩ := coherent.serves i agent there
  have permits := follows.permits made
  have inside : ∀ k ≤ phases.length, k < n.channels.size := by
    intro k within
    have := coherent.channels
    omega
  have stays : ∀ k ≤ phases.length, Dry (initially phases signal k) (traffic moves k) →
      Dry (initially phases signal k) (traffic (moves ++ [(i, (n.advance i).deed)]) k) := by
    intro k within dry
    rw [traffic_append]
    exact dry.preserved (coherent.carries k within) acts between permits
  refine ⟨coherent.nonempty, ?_, ?_, ?_, ?_, ?_, ?_⟩
  · rw [acts.size_eq, coherent.channels]
  · rw [advance_size, coherent.agents]
  · intro k within
    rw [traffic_append]
    exact (coherent.carries k within).preserved acts (inside k within)
  · intro k within
    rw [traffic_append]
    exact refusals_note (coherent.carries k within) acts between permits
      (coherent.refusals k within)
  · intro k other found
    rw [advance_agents there] at found
    by_cases own : k = i
    · subst own
      simp only [↓reduceIte, Option.some.injEq] at found
      subst found
      refine ⟨made.keeps.1.trans inbound, made.keeps.2.trans outbound, role.preserved made, ?_⟩
      rw [ledger_own between (outlet_ne coherent.nonempty)]
      apply follows.preserved made (stays k place)
      intro atEnd
      rw [inbound] at atEnd
      rw [atEnd] at acts permits ⊢
      rw [traffic_append]
      exact dry_of_foundEnd (coherent.carries k place) acts.1 acts.2.1 permits
        (coherent.refusals k place)
    · rw [if_neg own] at found
      obtain ⟨inbound', outbound', role', follows'⟩ := coherent.serves k other found
      refine ⟨inbound', outbound', role', ?_⟩
      rw [ledger_other between own (outlet_inj own)]
      exact follows'.mono (stays k (coherent.place found))
  · intro k within
    exact (coherent.rests k within).preserved there awake made inbound acts rfl (inside k within)

/-! ## Before anything moves -/

theorem stageChannels_getElem? (signal : Int) (index : Nat) (phases : List Int) (k : Nat) :
    (stageChannels signal index phases)[k]? =
      phases[k]?.map fun phase =>
        { name := "->" ++ stageName (index + k), buffer := primed signal (index + k) phase } := by
  induction phases generalizing index k with
  | nil => simp [stageChannels]
  | cons phase rest ih =>
    cases k with
    | zero => simp [stageChannels]
    | succ k =>
      simp only [stageChannels, List.getElem?_cons_succ, ih]
      rw [show index + 1 + k = index + (k + 1) by omega]

theorem stageChannels_length (signal : Int) (index : Nat) (phases : List Int) :
    (stageChannels signal index phases).length = phases.length := by
  induction phases generalizing index with
  | nil => rfl
  | cons phase rest ih => simp [stageChannels, ih]

/-- Before anything moves, every channel is open and holds its first values. -/
theorem network_nth (wiring : Wiring) (settings : Settings) (cells phases : List Int)
    (signal : Int) (k : Nat) :
    ∃ name, (network wiring settings cells phases signal).channels.nth k =
      { name, buffer := initially phases signal k } := by
  simp only [network, Channels.nth, Array.getD_eq_getD_getElem?, List.getElem?_toArray]
  by_cases within : k < phases.length
  · rw [List.getElem?_append_left (by rw [stageChannels_length]; exact within),
      stageChannels_getElem?, List.getElem?_eq_getElem within]
    simp [initially, List.getElem?_eq_getElem within]
  · have absent : phases[k]? = none := List.getElem?_eq_none (by omega)
    rw [List.getElem?_append_right (by rw [stageChannels_length]; omega), stageChannels_length]
    simp only [initially, absent]
    cases k - phases.length with
    | zero => exact ⟨_, rfl⟩
    | succ _ => exact ⟨_, rfl⟩

theorem stageAmplifier_follows (settings : Settings) (cells : List Int) (k : Nat)
    {dry : Prop} : (stageAmplifier settings cells k).Follows (startCore settings cells) {} dry :=
  Amplifier.follows_of_starting rfl rfl rfl rfl rfl

theorem relay_follows (wiring : Wiring) (stages : Nat) {dry : Prop} :
    (wiring.relay stages).Follows {} dry := by
  cases wiring <;> exact ⟨rfl, rfl, rfl, rfl, rfl⟩

theorem Coherent.init (wiring : Wiring) (settings : Settings) (cells phases : List Int)
    (signal : Int) (nonempty : phases ≠ []) :
    Coherent wiring (startCore settings cells) phases signal []
      (network wiring settings cells phases signal) := by
  refine ⟨List.length_pos_iff.mpr nonempty, ?_, ?_, ?_, ?_, ?_, ?_⟩
  · simp [network, stageChannels_length]
  · simp [network]
  · intro k _
    obtain ⟨name, start⟩ := network_nth wiring settings cells phases signal k
    rw [start]
    exact ⟨by simp, fun _ => rfl, by simp, rfl, rfl, by simp⟩
  · simp
  · intro k agent there
    simp only [network, List.getElem?_toArray] at there
    by_cases within : k < phases.length
    · rw [List.getElem?_append_left (by simpa using within)] at there
      simp only [List.getElem?_map, List.getElem?_range within, Option.map_some,
        Option.some.injEq] at there
      subst there
      refine ⟨rfl, by simp [outlet, Agent.outbound, stageAmplifier]; omega, ⟨within, rfl⟩, ?_⟩
      exact stageAmplifier_follows settings cells k
    · rw [List.getElem?_append_right (by simpa using within)] at there
      obtain ⟨past, rfl⟩ : k - phases.length = 0 ∧ .relay (wiring.relay phases.length) = agent := by
        simpa [List.getElem?_singleton] using there
      obtain rfl : k = phases.length := by omega
      refine ⟨?_, ?_, ⟨rfl, ?_⟩, relay_follows wiring phases.length⟩
      · cases wiring <;> rfl
      · cases wiring <;> simp [outlet, Agent.outbound, Wiring.relay, Relay.ofChain, Relay.ofLoop]
      · cases wiring <;> rfl
  · intro k _
    obtain ⟨name, start⟩ := network_nth wiring settings cells phases signal k
    exact Or.inl (by rw [start])

/-- A pipeline is coherent throughout, in whatever order its agents move. -/
theorem coherent_of_schedule {wiring : Wiring} {settings : Settings} {cells phases : List Int}
    {signal : Int} {moves : Moves} {n : Network} (nonempty : phases ≠ [])
    (schedule : (network wiring settings cells phases signal).Schedule moves n) :
    Coherent wiring (startCore settings cells) phases signal moves n := by
  induction schedule with
  | rest => exact Coherent.init wiring settings cells phases signal nonempty
  | move _ able ih => exact ih.step able

/-- The listed moves are an interleaving of the stages and the relay of a pipeline that runs the
given program at every stage, and lead to the given network. -/
def Interleaving (wiring : Wiring) (settings : Settings) (program : Program) (phases : List Int)
    (signal : Int) (moves : Moves) (n : Network) : Prop :=
  ∃ cells, program.load = .ok cells ∧
    (network wiring settings cells phases signal).Schedule moves n

/-- In whatever order the stages and the relay of a pipeline move, they make only so many moves,
and once they are at rest, the pipeline reports the given result. -/
def AlwaysReports (wiring : Wiring) (settings : Settings) (program : Program) (phases : List Int)
    (signal : Int) (result : Except Fault (Option Int)) : Prop :=
  (∃ bound, ∀ moves n, Interleaving wiring settings program phases signal moves n →
    moves.length ≤ bound) ∧
  ∀ moves n, Interleaving wiring settings program phases signal moves n → n.AtRest →
    (conclude wiring phases n).result = some result

theorem conclude_result {wiring : Wiring} {phases : List Int} {n : Network}
    {result : Except Fault (Option Int)} (finished : isOver n = true)
    (reached : verdict n = result) :
    (conclude wiring phases n).result = some result := by
  subst reached
  simp only [conclude, finished, Bool.not_true, Bool.false_eq_true, ↓reduceIte]
  split
  next failed => rw [failed]; rfl
  next returned => rw [returned]; rfl

/-- A replay from the start gives an interleaving, with everything that it was seen to do. -/
theorem Interleaving.of_replay {α : Type} {wiring : Wiring} {settings : Settings}
    {program : Program} {cells phases : List Int} {signal : Int} {order : List Nat}
    {view : Moves × Network → α} {seen : α} (loaded : program.load = .ok cells)
    (replayed : (replay order [] (network wiring settings cells phases signal)).map view =
      some seen) :
    ∃ moves n, Interleaving wiring settings program phases signal moves n ∧
      view (moves, n) = seen := by
  obtain ⟨⟨moves, n⟩, found, viewed⟩ := Option.map_eq_some_iff.mp replayed
  exact ⟨moves, n, ⟨cells, loaded, replay_schedule .rest found⟩, viewed⟩

end Pipeline

end Intcode
