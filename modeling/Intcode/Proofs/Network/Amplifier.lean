import Intcode.Proofs.Machine.Runs
import Intcode.Proofs.Network.Schedule

/-!
# What an amplifier does

`Amplifier.Moves` lists what an amplifier can do in one move, whatever the state of its channels
is, and `move_moves` says that there is nothing else. `Amplifier.Follows` relates an amplifier to
what its own moves have done on its two channels: it is on a run of its core that has read the
values received and written the values sent and those still to be sent. It is kept by every move
(`Follows.preserved`), and says in the end why the amplifier has stopped.
-/
namespace Intcode

namespace Amplifier

/-- What is done after some outputs have been sent: send the others, or else go on. -/
def afterSending (values : List Int) (halted : Bool) : Activity :=
  match values, halted with
  | value :: rest, halted => .sending (value :: rest) halted
  | [], true => .closingInbound
  | [], false => .receiving

def keptFault (fault : Fault) : Option Fault :=
  if fault.isInterpreterFault then some fault else none

/-- One move of an amplifier: what it does on the channels, and what becomes of it. -/
inductive Moves (a : Amplifier) : Deed → Amplifier → Prop where
  | start (now : a.activity = .starting) : Moves a .internal { a with activity := .executing }
  | run {next : Machine} (now : a.activity = .executing)
      (stepped : a.machine.step = (.ok .running, next)) :
      Moves a .internal { a with machine := next, activity := .executing }
  | halt {next : Machine} (now : a.activity = .executing)
      (stepped : a.machine.step = (.ok .halted, next)) :
      Moves a .internal { a with machine := next, activity := .hangingUp }
  | flush {next : Machine} (now : a.activity = .executing)
      (stepped : a.machine.step = (.ok .awaitingInput, next)) :
      Moves a .internal
        { a with machine := next.drained, activity := afterSending next.outputs.toList false }
  | fault {next : Machine} {fault : Fault} (now : a.activity = .executing)
      (stepped : a.machine.step = (.error fault, next)) :
      Moves a .internal
        { a with
          machine := next
          activity := .closingInbound
          error := (keptFault fault).or a.error }
  | hangUp {dropped : List Int} (now : a.activity = .hangingUp) :
      Moves a (.hungUp a.inbound dropped)
        { a with
          machine := a.machine.drained
          activity := afterSending a.machine.outputs.toList true }
  | skip {halted : Bool} (now : a.activity = .sending [] halted) :
      Moves a .internal { a with activity := afterSending [] halted }
  | send {value : Int} {rest : List Int} {halted : Bool}
      (now : a.activity = .sending (value :: rest) halted) :
      Moves a (.sent a.outbound value) { a with activity := afterSending rest halted }
  | refuse {value : Int} {rest : List Int} {halted : Bool} {channel : String}
      (now : a.activity = .sending (value :: rest) halted) :
      Moves a (.refused a.outbound value)
        { a with activity := .closingInbound, error := some (.channelClosed channel value) }
  | receive {value : Int} (now : a.activity = .receiving) :
      Moves a (.received a.inbound value)
        { a with machine := a.machine.feed [value], activity := .executing }
  | starve (now : a.activity = .receiving) :
      Moves a (.foundEnd a.inbound) { a with activity := .closingInbound }
  | sleep (now : a.activity = .receiving) : Moves a (.foundNothing a.inbound) a
  | closeInbound {dropped : List Int} (now : a.activity = .closingInbound) :
      Moves a (.hungUp a.inbound dropped) { a with activity := .closingOutbound }
  | closeOutbound (now : a.activity = .closingOutbound) :
      Moves a (.closed a.outbound) { a with activity := .ended }

theorem sendRest_eq (a : Amplifier) (values : List Int) (halted : Bool) (effect : Effect) :
    (a.sendRest values halted effect).1 = { a with activity := afterSending values halted } ∧
      (a.sendRest values halted effect).2.deed = effect.deed ∧
      (a.sendRest values halted effect).2.channels = effect.channels := by
  cases values <;> cases halted <;> exact ⟨rfl, rfl, rfl⟩

theorem fail_eq (a : Amplifier) (fault : Fault) (effect : Effect) :
    (a.fail fault effect).1 =
        { a with activity := .closingInbound, error := (keptFault fault).or a.error } ∧
      (a.fail fault effect).2.deed = effect.deed ∧
      (a.fail fault effect).2.channels = effect.channels := by
  unfold fail keptFault
  split <;> exact ⟨rfl, rfl, rfl⟩

end Amplifier

namespace Channels

variable (channels : Channels) (self k : Nat)

/-- Sending succeeds on an open channel and is refused on any other. -/
theorem send_cases (value : Int) :
    ((channels.send k value).1 = none ∧ (channels.send k value).2.deed = .sent k value ∧
      (Deed.sent k value).Acts self channels (channels.send k value).2.channels) ∨
    (∃ channel, (channels.send k value).1 = some (.channelClosed channel value) ∧
      (channels.send k value).2.deed = .refused k value ∧
      (Deed.refused k value).Acts self channels (channels.send k value).2.channels) := by
  unfold send Channel.send
  cases opened : (channels.nth k).isOpen with
  | true => exact Or.inl ⟨by simp [opened], by simp [opened], opened, by simp [opened]⟩
  | false => exact Or.inr ⟨_, by simp [opened]; rfl, by simp [opened], opened, by simp [opened]⟩

/-- Receiving takes a value, finds the end of the stream, or goes to sleep. -/
theorem receive_cases :
    (∃ value, (channels.receive self k).1 = .value value ∧
      (channels.receive self k).2.deed = .received k value ∧
      (Deed.received k value).Acts self channels (channels.receive self k).2.channels) ∨
    ((channels.receive self k).1 = .endOfStream ∧
      (channels.receive self k).2.deed = .foundEnd k ∧
      (Deed.foundEnd k).Acts self channels (channels.receive self k).2.channels) ∨
    ((channels.receive self k).1 = .nothing ∧
      (channels.receive self k).2.deed = .foundNothing k ∧
      (Deed.foundNothing k).Acts self channels (channels.receive self k).2.channels) := by
  unfold receive poll Channel.take
  cases held : (channels.nth k).buffer with
  | cons value rest => exact Or.inl ⟨value, rfl, rfl, rest, held, rfl⟩
  | nil =>
    cases opened : (channels.nth k).isOpen with
    | true => exact Or.inr (Or.inr ⟨rfl, rfl, held, opened, rfl⟩)
    | false => exact Or.inr (Or.inl ⟨rfl, rfl, held, opened, rfl⟩)

end Channels

namespace Amplifier

theorem execute_moves {a : Amplifier} (channels : Channels) (now : a.activity = .executing) :
    (a.execute channels).2.deed = .internal ∧ (a.execute channels).2.channels = channels ∧
      a.Moves .internal (a.execute channels).1 := by
  obtain ⟨name, machine, inbound, outbound, activity, error⟩ := a
  cases now
  unfold execute
  rcases stepped : machine.step with ⟨fault | outcome, next⟩
  · have failed := fail_eq ⟨name, next, inbound, outbound, .executing, error⟩ fault
      ((Effect.none channels).write (Log.note #[] machine.traceLine?))
    simp only [stepped]
    rw [failed.1, failed.2.1, failed.2.2]
    exact ⟨rfl, rfl, .fault rfl stepped⟩
  · cases outcome with
    | running =>
      simp only [stepped]
      exact ⟨rfl, rfl, .run rfl stepped⟩
    | halted =>
      simp only [stepped]
      exact ⟨rfl, rfl, .halt rfl stepped⟩
    | awaitingInput =>
      have flushed := sendRest_eq ⟨name, next.drained, inbound, outbound, .executing, error⟩
        next.outputs.toList false ((Effect.none channels).write (Log.note #[] machine.traceLine?))
      simp only [stepped, flush]
      rw [flushed.1, flushed.2.1, flushed.2.2]
      exact ⟨rfl, rfl, .flush rfl stepped⟩

/-- An amplifier that is alive makes one of the listed moves. -/
theorem move_moves {a : Amplifier} (self : Nat) (channels : Channels) (alive : a.isAlive = true) :
    a.Moves (a.move self channels).2.deed (a.move self channels).1 ∧
      (a.move self channels).2.deed.Acts self channels (a.move self channels).2.channels := by
  unfold move
  cases now : a.activity with
  | unstarted => simp [isAlive, now] at alive
  | ended => simp [isAlive, now] at alive
  | starting => exact ⟨.start now, rfl⟩
  | executing =>
    obtain ⟨deed, same, moves⟩ := execute_moves channels now
    simp only [deed, same]
    exact ⟨moves, rfl⟩
  | hangingUp =>
    have flushed := sendRest_eq { a with machine := a.machine.drained } a.machine.outputs.toList
      true (channels.closeReceiver a.inbound)
    simp only [flush]
    rw [flushed.1, flushed.2.1, flushed.2.2]
    exact ⟨.hangUp now, rfl, rfl⟩
  | sending values halted =>
    cases values with
    | nil =>
      have skipped := sendRest_eq a [] halted (.none channels)
      simp only
      rw [skipped.1, skipped.2.1, skipped.2.2]
      exact ⟨.skip now, rfl⟩
    | cons value rest =>
      simp only [send]
      rcases channels.send_cases self a.outbound value with
        ⟨accepted, deed, acts⟩ | ⟨channel, refused, deed, acts⟩
      · rcases result : channels.send a.outbound value with ⟨fault, effect⟩
        rw [result] at accepted deed acts
        cases accepted
        have sent := sendRest_eq a rest halted effect
        rw [sent.1, sent.2.1, sent.2.2, deed]
        exact ⟨.send now, acts⟩
      · rcases result : channels.send a.outbound value with ⟨fault, effect⟩
        rw [result] at refused deed acts
        cases refused
        have failed := fail_eq a (.channelClosed channel value) effect
        rw [failed.1, failed.2.1, failed.2.2, deed]
        exact ⟨.refuse now, acts⟩
  | receiving =>
    simp only [receive]
    rcases channels.receive_cases self a.inbound with
      ⟨value, found, deed, acts⟩ | ⟨found, deed, acts⟩ | ⟨found, deed, acts⟩
    · rcases result : channels.receive self a.inbound with ⟨receipt, effect⟩
      rw [result] at found deed acts
      cases found
      dsimp only at deed ⊢
      rw [deed]
      exact ⟨.receive now, acts⟩
    · rcases result : channels.receive self a.inbound with ⟨receipt, effect⟩
      rw [result] at found deed acts
      cases found
      dsimp only [Effect.write] at deed ⊢
      rw [deed]
      exact ⟨.starve now, acts⟩
    · rcases result : channels.receive self a.inbound with ⟨receipt, effect⟩
      rw [result] at found deed acts
      cases found
      dsimp only at deed ⊢
      rw [deed]
      exact ⟨.sleep now, acts⟩
  | closingInbound => exact ⟨.closeInbound now, rfl, rfl⟩
  | closingOutbound => exact ⟨.closeOutbound now, rfl⟩

variable {a next : Amplifier} {deed : Deed}

/-- An amplifier receives from its inbound channel and sends on its outbound one. -/
theorem Moves.between (moves : a.Moves deed next) : deed.Between a.inbound a.outbound := by
  cases moves <;> simp [Deed.Between]

theorem Moves.keeps (moves : a.Moves deed next) :
    next.name = a.name ∧ next.inbound = a.inbound ∧ next.outbound = a.outbound := by
  cases moves <;> exact ⟨rfl, rfl, rfl⟩

/-- Why an amplifier has stopped, with the outputs that it has not sent. `dry` says that its
inbound channel will bring nothing more. -/
inductive Cause (a : Amplifier) (l : Ledger) (dry : Prop) (unsent : List Int) : Prop where
  | halted (halts : a.machine.core.act = .halt) (all : unsent = []) (accepted : l.refused = false)
      (clean : a.error = none)
  | starved (asks : a.machine.core.AsksInput) (noInput : a.machine.inputs = []) (all : unsent = [])
      (accepted : l.refused = false) (clean : a.error = none) (atEnd : dry)
  | failed (fault : Fault) (fails : a.machine.core.ending a.machine.inputs = some (.error fault))
      (all : a.machine.core.AsksInput → unsent = []) (accepted : l.refused = false)
      (kept : a.error = keptFault fault)
  | refused (refused : l.refused = true) (held : unsent ≠ [])
      (kept : ∃ channel value, a.error = some (.channelClosed channel value))

/-- Nothing has been closed or gone wrong yet. -/
structure Free (error : Option Fault) (l : Ledger) : Prop where
  listening : l.hungUp = false
  unclosed : l.closed = false
  accepted : l.refused = false
  clean : error = none

/-- What an amplifier's activity says about its machine and its ledger. -/
def Stands (a : Amplifier) (l : Ledger) (dry : Prop) (unsent : List Int) : Prop :=
  match a.activity with
  | .unstarted => False
  | .starting | .executing =>
    Free a.error l ∧ unsent = a.machine.outputs.toList ∧
      (a.machine.inputs = [] ∨
        (∃ value, a.machine.inputs = [value]) ∧ a.machine.core.AsksInput ∧ unsent = [])
  | .hangingUp =>
    Free a.error l ∧ unsent = a.machine.outputs.toList ∧ a.machine.core.act = .halt
  | .sending values true =>
    l.hungUp = true ∧ l.closed = false ∧ l.refused = false ∧ a.error = none ∧ unsent = values ∧
      a.machine.core.act = .halt
  | .sending values false =>
    Free a.error l ∧ a.machine.outputs = #[] ∧ unsent = values ∧ a.machine.core.AsksInput ∧
      a.machine.inputs = []
  | .receiving =>
    Free a.error l ∧ a.machine.outputs = #[] ∧ unsent = [] ∧ a.machine.core.AsksInput ∧
      a.machine.inputs = []
  | .closingInbound => l.closed = false ∧ a.Cause l dry unsent
  | .closingOutbound => l.hungUp = true ∧ l.closed = false ∧ a.Cause l dry unsent
  | .ended => l.hungUp = true ∧ l.closed = true ∧ a.Cause l dry unsent

/-- An amplifier is on a run from the given core that has read `reads` and has written what was
sent and `unsent`. Outputs are sent only when the machine asks for an input or halts, and at every
earlier such point all outputs so far were sent. -/
structure Tracks (start : Core) (l : Ledger) (a : Amplifier) (reads unsent : List Int) : Prop where
  taken : l.taken = reads ++ a.machine.inputs
  run : start.Runs reads (l.sent ++ unsent) a.machine.core
  flushed : ∃ r o p, start.Runs r o p ∧ r <+: l.taken ∧ (p.Due ∨ o = []) ∧ l.sent <+: o
  settled : ∀ r o p, start.Runs r o p → r <+: l.taken → p.Due →
    p.steps < a.machine.core.steps → o <+: l.sent

/-- The amplifier does what it should: its machine, its activity and its ledger fit together. -/
def Follows (a : Amplifier) (start : Core) (l : Ledger) (dry : Prop) : Prop :=
  ∃ reads unsent, a.Tracks start l reads unsent ∧ a.Stands l dry unsent

section Preservation

variable {start : Core} {l l' : Ledger} {dry dry' : Prop} {reads unsent : List Int}

theorem Cause.mono (cause : a.Cause l dry unsent) (later : dry → dry') :
    a.Cause l dry' unsent := by
  cases cause with
  | halted halts all accepted clean => exact .halted halts all accepted clean
  | starved asks noInput all accepted clean atEnd =>
    exact .starved asks noInput all accepted clean (later atEnd)
  | failed fault fails all accepted kept => exact .failed fault fails all accepted kept
  | refused refused held kept => exact .refused refused held kept

theorem Stands.mono (stands : a.Stands l dry unsent) (later : dry → dry') :
    a.Stands l dry' unsent := by
  unfold Stands at stands ⊢
  cases now : a.activity with
  | unstarted => simp only [now] at stands
  | sending values halted => cases halted <;> simpa only [now] using stands
  | closingInbound =>
    simp only [now] at stands ⊢
    exact ⟨stands.1, stands.2.mono later⟩
  | closingOutbound =>
    simp only [now] at stands ⊢
    exact ⟨stands.1, stands.2.1, stands.2.2.mono later⟩
  | ended =>
    simp only [now] at stands ⊢
    exact ⟨stands.1, stands.2.1, stands.2.2.mono later⟩
  | _ => simpa only [now] using stands

theorem Tracks.reads_isPrefix (tracks : a.Tracks start l reads unsent) : reads <+: l.taken :=
  ⟨_, tracks.taken.symm⟩

theorem Tracks.of_same (tracks : a.Tracks start l reads unsent)
    (core : next.machine.core = a.machine.core) (inputs : next.machine.inputs = a.machine.inputs)
    (taken : l'.taken = l.taken) (sent : l'.sent = l.sent) :
    next.Tracks start l' reads unsent := by
  obtain ⟨consumed, run, flushed, settled⟩ := tracks
  refine ⟨?_, ?_, ?_, ?_⟩
  · rw [taken, inputs, consumed]
  · rw [core, sent]
    exact run
  · rw [taken, sent]
    exact flushed
  · rw [core, taken, sent]
    exact settled

/-- Sending the first of the outputs that are due. -/
theorem Tracks.send {value : Int} {rest : List Int}
    (tracks : a.Tracks start l reads (value :: rest)) (due : a.machine.core.Due)
    {activity : Activity} :
    { a with activity }.Tracks start { l with sent := l.sent ++ [value] } reads rest := by
  have written : l.sent ++ value :: rest = (l.sent ++ [value]) ++ rest := by simp
  refine ⟨tracks.taken, ?_, ?_, ?_⟩
  · have run := tracks.run
    rw [written] at run
    exact run
  · refine ⟨reads, _, a.machine.core, tracks.run, tracks.reads_isPrefix, Or.inl due, ?_⟩
    rw [written]
    exact List.prefix_append _ _
  · intro r o p run inside due earlier
    exact (tracks.settled r o p run inside due earlier).trans (List.prefix_append _ _)

/-- Receiving a value when no other input is left. The points that the run has left behind are
still the same: none of them can have read the new value. -/
theorem Tracks.receive (tracks : a.Tracks start l reads unsent) (noInput : a.machine.inputs = [])
    (value : Int) {activity : Activity} :
    { a with machine := a.machine.feed [value], activity }.Tracks start
      { l with taken := l.taken ++ [value] } reads unsent := by
  have consumed : l.taken = reads := by rw [tracks.taken, noInput, List.append_nil]
  refine ⟨?_, tracks.run, ?_, ?_⟩
  · simp [Machine.feed, consumed, noInput]
  · obtain ⟨r, o, p, run, inside, due, sent⟩ := tracks.flushed
    exact ⟨r, o, p, run, inside.trans (List.prefix_append _ _), due, sent⟩
  · intro r o p run inside due earlier
    have before : reads <+: l.taken ++ [value] :=
      tracks.reads_isPrefix.trans (List.prefix_append _ _)
    obtain ⟨r', -, whole, -⟩ :=
      run.part_of_steps_le tracks.run (.of_isPrefix inside before) (Nat.le_of_lt earlier)
    refine tracks.settled r o p run ?_ due earlier
    rw [consumed, whole]
    exact List.prefix_append _ _

/-- The points that a further instruction leaves behind were settled before, or are the one that
the machine has just left; there everything was sent. -/
theorem Tracks.settled_next (tracks : a.Tracks start l reads unsent)
    (silent : a.machine.core.Due → unsent = []) {c : Core}
    (counted : c.steps = a.machine.core.steps + 1) (r o : List Int) (p : Core)
    (run : start.Runs r o p) (inside : r <+: l.taken) (due : p.Due)
    (earlier : p.steps < c.steps) : o <+: l.sent := by
  by_cases before : p.steps < a.machine.core.steps
  · exact tracks.settled r o p run inside due before
  · obtain ⟨r', o', -, written, rest⟩ :=
      run.part_of_steps_le tracks.run (.of_isPrefix inside tracks.reads_isPrefix) (by omega)
    obtain ⟨-, rfl, rfl⟩ := rest.stay_of_steps (by omega)
    rw [silent due, List.append_nil, List.append_nil] at written
    exact written ▸ List.prefix_rfl

/-- Executing an instruction stays on the run. -/
theorem Follows.run {stepped : Machine} (follows : a.Follows start l dry)
    (now : a.activity = .executing) (running : a.machine.step = (.ok .running, stepped)) :
    { a with machine := stepped, activity := .executing : Amplifier }.Follows start l dry := by
  obtain ⟨reads, unsent, tracks, stands⟩ := follows
  simp only [Stands, now] at stands
  obtain ⟨free, rfl, fed⟩ := stands
  cases acts : a.machine.core.act with
  | fail fault => simp [Machine.step_of_fail acts] at running
  | halt => simp [Machine.step_of_halt acts] at running
  | go c =>
    rw [Machine.step_of_go acts] at running
    cases running
    have waiting : a.machine.inputs = [] :=
      fed.resolve_right fun ⟨_, ⟨_, asks⟩, _⟩ => by simp [acts] at asks
    refine ⟨reads, _, ⟨tracks.taken, tracks.run.then_go acts, tracks.flushed, ?_⟩, free, rfl,
      Or.inl waiting⟩
    exact tracks.settled_next (by rintro (halts | ⟨_, asks⟩) <;> simp [acts] at *)
      (Core.steps_of_go acts)
  | write value c =>
    rw [Machine.step_of_write acts] at running
    cases running
    have waiting : a.machine.inputs = [] :=
      fed.resolve_right fun ⟨_, ⟨_, asks⟩, _⟩ => by simp [acts] at asks
    refine ⟨reads, _, ⟨tracks.taken, ?_, tracks.flushed, ?_⟩, free, rfl, Or.inl waiting⟩
    · simpa using tracks.run.then_write acts
    · exact tracks.settled_next (by rintro (halts | ⟨_, asks⟩) <;> simp [acts] at *)
        (Core.steps_of_write acts)
  | read next =>
    rcases fed with noInput | ⟨⟨value, given⟩, -, sent⟩
    · simp [Machine.step_of_starved acts noInput] at running
    · cases taken : next value with
      | error fault => simp [Machine.step_of_read_error acts given taken] at running
      | ok c =>
        rw [Machine.step_of_read acts given taken] at running
        cases running
        refine ⟨reads ++ [value], _, ⟨?_, ?_, tracks.flushed, ?_⟩, free, rfl, Or.inl rfl⟩
        · simp [tracks.taken, given]
        · exact tracks.run.then_read acts taken
        · exact tracks.settled_next (fun _ => sent) (Core.steps_of_read acts taken)

theorem Cause.of_same (cause : a.Cause l dry unsent) (machine : next.machine = a.machine)
    (error : next.error = a.error) (refused : l'.refused = l.refused) :
    next.Cause l' dry unsent := by
  cases cause with
  | halted halts all accepted clean =>
    exact .halted (machine ▸ halts) all (refused ▸ accepted) (error ▸ clean)
  | starved asks noInput all accepted clean atEnd =>
    exact .starved (machine ▸ asks) (machine ▸ noInput) all (refused ▸ accepted) (error ▸ clean)
      atEnd
  | failed fault fails all accepted kept =>
    exact .failed fault (machine ▸ fails) (machine ▸ all) (refused ▸ accepted) (error ▸ kept)
  | refused refused' held kept => exact .refused (refused ▸ refused') held (error ▸ kept)

/-- Sending what is left goes on in the same way. -/
theorem stands_afterSending_true (values : List Int) (hungUp : l.hungUp = true)
    (unclosed : l.closed = false) (accepted : l.refused = false) (clean : a.error = none)
    (halts : a.machine.core.act = .halt) :
    { a with activity := afterSending values true : Amplifier }.Stands l dry values := by
  cases values with
  | nil => exact ⟨unclosed, .halted halts rfl accepted clean⟩
  | cons value rest => exact ⟨hungUp, unclosed, accepted, clean, rfl, halts⟩

theorem stands_afterSending_false (values : List Int) (free : Free a.error l)
    (empty : a.machine.outputs = #[]) (asks : a.machine.core.AsksInput)
    (noInput : a.machine.inputs = []) :
    { a with activity := afterSending values false : Amplifier }.Stands l dry values := by
  cases values with
  | nil => exact ⟨free, empty, rfl, asks, noInput⟩
  | cons value rest => exact ⟨free, empty, rfl, asks, noInput⟩

theorem Follows.mono (follows : a.Follows start l dry) (later : dry → dry') :
    a.Follows start l dry' := by
  obtain ⟨reads, unsent, tracks, stands⟩ := follows
  exact ⟨reads, unsent, tracks, stands.mono later⟩

theorem Follows.fault {stepped : Machine} {fault : Fault} (follows : a.Follows start l dry)
    (now : a.activity = .executing) (failed : a.machine.step = (.error fault, stepped)) :
    { a with
      machine := stepped
      activity := .closingInbound
      error := (keptFault fault).or a.error : Amplifier }.Follows start l dry := by
  obtain ⟨reads, unsent, tracks, stands⟩ := follows
  simp only [Stands, now] at stands
  obtain ⟨free, -, fed⟩ := stands
  have kept : (keptFault fault).or a.error = keptFault fault := by rw [free.clean, Option.or_none]
  cases acts : a.machine.core.act with
  | fail cause =>
    rw [Machine.step_of_fail acts] at failed
    cases failed
    refine ⟨reads, unsent, tracks.of_same rfl rfl rfl rfl, free.unclosed,
      .failed fault (Core.ending_of_fail acts) ?_ free.accepted kept⟩
    rintro ⟨_, asks⟩
    simp [acts] at asks
  | halt => simp [Machine.step_of_halt acts] at failed
  | go c => simp [Machine.step_of_go acts] at failed
  | write value c => simp [Machine.step_of_write acts] at failed
  | read next =>
    rcases fed with noInput | ⟨⟨value, given⟩, -, sent⟩
    · simp [Machine.step_of_starved acts noInput] at failed
    · cases taken : next value with
      | ok c => simp [Machine.step_of_read acts given taken] at failed
      | error cause =>
        rw [Machine.step_of_read_error acts given taken] at failed
        cases failed
        have ends : a.machine.core.ending a.machine.inputs = some (.error fault) := by
          rw [given]
          exact Core.ending_of_read_error acts taken
        exact ⟨reads, unsent, tracks.of_same rfl rfl rfl rfl, free.unclosed,
          .failed fault ends (fun _ => sent) free.accepted kept⟩

theorem Follows.halt {stepped : Machine} (follows : a.Follows start l dry)
    (now : a.activity = .executing) (halted : a.machine.step = (.ok .halted, stepped)) :
    { a with machine := stepped, activity := .hangingUp : Amplifier }.Follows start l dry := by
  obtain ⟨reads, unsent, tracks, stands⟩ := follows
  simp only [Stands, now] at stands
  obtain ⟨free, rfl, -⟩ := stands
  obtain ⟨halts, rfl⟩ := Machine.halt_of_step halted
  exact ⟨reads, _, tracks.of_same rfl rfl rfl rfl, free, rfl, halts⟩

theorem Follows.flush {stepped : Machine} (follows : a.Follows start l dry)
    (now : a.activity = .executing) (starved : a.machine.step = (.ok .awaitingInput, stepped)) :
    { a with
      machine := stepped.drained
      activity := afterSending stepped.outputs.toList false : Amplifier }.Follows start l dry := by
  obtain ⟨reads, unsent, tracks, stands⟩ := follows
  simp only [Stands, now] at stands
  obtain ⟨free, rfl, -⟩ := stands
  obtain ⟨asks, noInput, rfl⟩ := Machine.starved_of_step starved
  refine ⟨reads, a.machine.outputs.toList, tracks.of_same rfl rfl rfl rfl, ?_⟩
  let flushed := { a.machine with last := some .awaitingInput }.drained
  exact stands_afterSending_false (a := { a with machine := flushed }) a.machine.outputs.toList
    free rfl asks noInput

/-- A new amplifier that has been started does what it should. -/
theorem follows_of_starting (starting : a.activity = .starting) (clean : a.error = none)
    (noInput : a.machine.inputs = []) (noOutput : a.machine.outputs = #[])
    (fresh : a.machine.steps = 0) : a.Follows a.machine.core {} dry := by
  refine ⟨[], [], ⟨noInput.symm, .stay _, ?_, ?_⟩, ?_⟩
  · exact ⟨[], [], _, .stay _, List.prefix_rfl, Or.inr rfl, List.prefix_rfl⟩
  · intro r o p _ _ _ earlier
    rw [show a.machine.core.steps = 0 from fresh] at earlier
    exact absurd earlier (Nat.not_lt_zero _)
  · simp only [Stands, starting]
    exact ⟨⟨rfl, rfl, rfl, clean⟩, by rw [noOutput], Or.inl noInput⟩

/-- Every move of an amplifier keeps its machine, its activity and its ledger together. -/
theorem Follows.preserved (follows : a.Follows start l dry) (moves : a.Moves deed next)
    (later : dry → dry') (found : deed = .foundEnd a.inbound → dry') :
    next.Follows start (l.note deed) dry' := by
  cases moves with
  | start now =>
    obtain ⟨reads, unsent, tracks, stands⟩ := follows
    simp only [Stands, now] at stands
    exact ⟨reads, unsent, tracks.of_same rfl rfl rfl rfl, stands⟩
  | run now stepped => exact (follows.run now stepped).mono later
  | halt now stepped => exact (follows.halt now stepped).mono later
  | flush now stepped => exact (follows.flush now stepped).mono later
  | fault now stepped => exact (follows.fault now stepped).mono later
  | hangUp now =>
    obtain ⟨reads, unsent, tracks, stands⟩ := follows
    simp only [Stands, now] at stands
    obtain ⟨free, rfl, halts⟩ := stands
    refine ⟨reads, a.machine.outputs.toList, tracks.of_same rfl rfl rfl rfl, ?_⟩
    exact stands_afterSending_true (a := { a with machine := a.machine.drained })
      (l := { l with hungUp := true }) a.machine.outputs.toList rfl free.unclosed free.accepted
      free.clean halts
  | @skip halted now =>
    obtain ⟨reads, unsent, tracks, stands⟩ := follows
    cases halted with
    | true =>
      simp only [Stands, now] at stands
      obtain ⟨hungUp, unclosed, accepted, clean, rfl, halts⟩ := stands
      exact ⟨reads, [], tracks.of_same rfl rfl rfl rfl,
        stands_afterSending_true [] hungUp unclosed accepted clean halts⟩
    | false =>
      simp only [Stands, now] at stands
      obtain ⟨free, empty, rfl, asks, noInput⟩ := stands
      exact ⟨reads, [], tracks.of_same rfl rfl rfl rfl,
        stands_afterSending_false [] free empty asks noInput⟩
  | @send value rest halted now =>
    obtain ⟨reads, unsent, tracks, stands⟩ := follows
    -- The machine stands at a point where outputs are due, and they are what is being sent.
    have due : a.machine.core.Due ∧ unsent = value :: rest := by
      cases halted <;> simp only [Stands, now] at stands
      · exact ⟨Or.inr stands.2.2.2.1, stands.2.2.1⟩
      · exact ⟨Or.inl stands.2.2.2.2.2, stands.2.2.2.2.1⟩
    obtain ⟨due, rfl⟩ := due
    refine ⟨reads, rest, tracks.send due, ?_⟩
    cases halted with
    | true =>
      simp only [Stands, now] at stands
      obtain ⟨hungUp, unclosed, accepted, clean, -, halts⟩ := stands
      exact stands_afterSending_true rest hungUp unclosed accepted clean halts
    | false =>
      simp only [Stands, now] at stands
      obtain ⟨⟨listening, unclosed, accepted, clean⟩, empty, -, asks, noInput⟩ := stands
      exact stands_afterSending_false rest ⟨listening, unclosed, accepted, clean⟩ empty asks
        noInput
  | @refuse value rest halted channel now =>
    obtain ⟨reads, unsent, tracks, stands⟩ := follows
    have held : l.closed = false ∧ unsent = value :: rest := by
      cases halted <;> simp only [Stands, now] at stands
      · exact ⟨stands.1.unclosed, stands.2.2.1⟩
      · exact ⟨stands.2.1, stands.2.2.2.2.1⟩
    obtain ⟨unclosed, rfl⟩ := held
    exact ⟨reads, _, tracks.of_same rfl rfl rfl rfl, unclosed,
      .refused rfl (by simp) ⟨channel, value, rfl⟩⟩
  | @receive value now =>
    obtain ⟨reads, unsent, tracks, stands⟩ := follows
    simp only [Stands, now] at stands
    obtain ⟨⟨listening, unclosed, accepted, clean⟩, empty, rfl, asks, noInput⟩ := stands
    refine ⟨reads, [], tracks.receive noInput value, ⟨listening, unclosed, accepted, clean⟩, ?_,
      Or.inr ⟨⟨value, ?_⟩, asks, rfl⟩⟩
    · simp [Machine.feed, empty]
    · simp [Machine.feed, noInput]
  | starve now =>
    obtain ⟨reads, unsent, tracks, stands⟩ := follows
    simp only [Stands, now] at stands
    obtain ⟨free, -, rfl, asks, noInput⟩ := stands
    exact ⟨reads, [], tracks.of_same rfl rfl rfl rfl, free.unclosed,
      .starved asks noInput rfl free.accepted free.clean (found rfl)⟩
  | sleep now => exact follows.mono later
  | closeInbound now =>
    obtain ⟨reads, unsent, tracks, stands⟩ := follows.mono later
    simp only [Stands, now] at stands
    exact ⟨reads, unsent, tracks.of_same rfl rfl rfl rfl, rfl, stands.1,
      stands.2.of_same rfl rfl rfl⟩
  | closeOutbound now =>
    obtain ⟨reads, unsent, tracks, stands⟩ := follows.mono later
    simp only [Stands, now] at stands
    exact ⟨reads, unsent, tracks.of_same rfl rfl rfl rfl, stands.1, rfl,
      stands.2.2.of_same rfl rfl rfl⟩

end Preservation

section Stopping

variable {l : Ledger} {dry : Prop} {unsent : List Int}

/-- An amplifier that has closed or hung up has halted, or there is another cause. -/
theorem Stands.cases (stands : a.Stands l dry unsent) :
    (l.hungUp = false ∧ l.closed = false) ∨ a.machine.core.act = .halt ∨
      a.Cause l dry unsent := by
  unfold Stands at stands
  cases now : a.activity with
  | unstarted => simp only [now] at stands
  | sending values halted =>
    cases halted <;> simp only [now] at stands
    · exact Or.inl ⟨stands.1.listening, stands.1.unclosed⟩
    · exact Or.inr (Or.inl stands.2.2.2.2.2)
  | closingInbound =>
    simp only [now] at stands
    exact Or.inr (Or.inr stands.2)
  | closingOutbound =>
    simp only [now] at stands
    exact Or.inr (Or.inr stands.2.2)
  | ended =>
    simp only [now] at stands
    exact Or.inr (Or.inr stands.2.2)
  | _ =>
    simp only [now] at stands
    exact Or.inl ⟨stands.1.listening, stands.1.unclosed⟩

/-- An amplifier closes its outbound channel at its very end. -/
theorem Stands.ended_iff (stands : a.Stands l dry unsent) :
    l.closed = true ↔ a.activity = .ended := by
  unfold Stands at stands
  cases now : a.activity with
  | unstarted => simp only [now] at stands
  | sending values halted =>
    cases halted <;> simp only [now] at stands
    · simp [stands.1.unclosed]
    · simp [stands.2.1]
  | closingInbound =>
    simp only [now] at stands
    simp [stands.1]
  | closingOutbound =>
    simp only [now] at stands
    simp [stands.2.1]
  | ended =>
    simp only [now] at stands
    simp [stands.2.1]
  | _ =>
    simp only [now] at stands
    simp [stands.1.unclosed]

theorem Stands.of_ended (stands : a.Stands l dry unsent) (now : a.activity = .ended) :
    l.hungUp = true ∧ l.closed = true ∧ a.Cause l dry unsent := by
  simpa only [Stands, now] using stands

end Stopping

end Amplifier

end Intcode
