import Mathlib.Data.List.Induction
import Intcode.Proofs.Network.Amplifier

/-!
# What becomes of the values on a channel

Channels are accessed by any number of users, in any order. What was accepted on a new channel is,
in this order, what was received, what was dropped when the receiver's side was closed, and what is
still buffered. Nothing is accepted once a side is closed, and the end of the stream is found just
in case nothing is buffered and a side is closed; from then on nothing else happens on the channel.
So a receiver that reads to the end of the stream, and shares it with nobody, has received all that
was sent (`accessAll_new`).

Accesses are `send`, `receive` with and without a time limit, `close` and `close_receiver`, each of
which holds the lock of the channel from beginning to end.
-/
namespace Intcode

namespace Deed

/-- What is done on the channels by the user with a number, and what has to hold for it. A user that
finds nothing goes to sleep, or leaves it at that. -/
inductive Happens (self : Nat) (before after : Channels) : Deed → Prop where
  | acts {deed : Deed} (acts : deed.Acts self before after) : Happens self before after deed
  | look {k : Nat} (empty : (before.nth k).buffer = []) (opened : (before.nth k).isOpen = true)
      (same : after = before) : Happens self before after (.foundNothing k)

variable {self k : Nat} {before after : Channels} {deed : Deed}

theorem Happens.size_eq (happens : deed.Happens self before after) : after.size = before.size := by
  cases happens with
  | acts acts => exact acts.size_eq
  | look _ _ same => rw [same]

/-- A channel on which nothing is done stays as it is. -/
theorem Happens.elsewhere (happens : deed.Happens self before after)
    (apart : deed.channel? ≠ some k) : after.nth k = before.nth k := by
  cases happens with
  | acts acts => exact acts.elsewhere apart
  | look _ _ same => rw [same]

/-- Whatever is done, each channel keeps carrying its traffic. -/
theorem Happens.carries {initial : List Int} {t : Traffic}
    (happens : deed.Happens self before after) (inside : k < before.size)
    (carries : (before.nth k).Carries initial t) :
    (after.nth k).Carries initial (t.note k deed) := by
  cases happens with
  | acts acts => exact carries.preserved acts inside
  | look _ _ same =>
    rw [same]
    exact carries

theorem Happens.name_eq (happens : deed.Happens self before after) (inside : k < before.size) :
    (after.nth k).name = (before.nth k).name := by
  by_cases here : deed.channel? = some k
  · cases happens with
    | look _ _ same => rw [same]
    | acts acts =>
      cases deed <;> simp only [Acts] at acts <;> cases here <;>
        grind [Channels.nth_put_self, Channel.sleep, Channel.rouse, Channel.close,
          Channel.closeReceiver]
  · rw [happens.elsewhere here]

/-- On a channel that is empty and closed on a side, nothing changes any more. -/
theorem Happens.exhausted (happens : deed.Happens self before after) (inside : k < before.size)
    (empty : (before.nth k).buffer = []) (shut : (before.nth k).isOpen = false) :
    (after.nth k).buffer = [] ∧ (after.nth k).isOpen = false := by
  by_cases here : deed.channel? = some k
  · cases happens with
    | look _ _ same =>
      rw [same]
      exact ⟨empty, shut⟩
    | acts acts =>
      cases deed with
      | internal => cases here
      | sent j value =>
        cases here
        cases shut.symm.trans acts.1
      | refused j value => exact acts.2 ▸ ⟨empty, shut⟩
      | received j value =>
        cases here
        obtain ⟨rest, held, -⟩ := acts
        simp [empty] at held
      | foundEnd j => exact acts.2.2 ▸ ⟨empty, shut⟩
      | foundNothing j =>
        cases here
        cases shut.symm.trans acts.2.1
      | roused j =>
        cases here
        rw [show _ = _ from acts, Channels.nth_put_self inside]
        exact ⟨empty, shut⟩
      | closed j =>
        cases here
        rw [show _ = _ from acts, Channels.nth_put_self inside]
        exact ⟨empty, rfl⟩
      | hungUp j values =>
        cases here
        rw [acts.2, Channels.nth_put_self inside]
        exact ⟨rfl, by simp [Channel.isOpen, Channel.closeReceiver]⟩
  · rw [happens.elsewhere here]
    exact ⟨empty, shut⟩

end Deed

namespace Network

def ownMoves (moves : Moves) (self : Nat) : Moves :=
  moves.filter fun move => move.1 = self

theorem ownMoves_append_own (moves : Moves) (self : Nat) (deed : Deed) :
    ownMoves (moves ++ [(self, deed)]) self = ownMoves moves self ++ [(self, deed)] := by
  simp [ownMoves]

theorem ownMoves_append_other {moves : Moves} {self i : Nat} {deed : Deed} (apart : i ≠ self) :
    ownMoves (moves ++ [(i, deed)]) self = ownMoves moves self := by
  simp [ownMoves, apart]

/-- Who is the only one to receive from a channel has received all that was received there. -/
theorem received_ownMoves {moves : Moves} {self k : Nat}
    (sole : ∀ other value, (other, .received k value) ∈ moves → other = self) :
    (traffic (ownMoves moves self) k).received = (traffic moves k).received := by
  induction moves using List.reverseRecOn with
  | nil => rfl
  | append_singleton moves move ih =>
    obtain ⟨i, deed⟩ := move
    have before := ih fun other value member => sole other value (List.mem_append_left _ member)
    by_cases own : i = self
    · subst own
      rw [ownMoves_append_own, traffic_append, traffic_append]
      cases deed <;> simp only [Traffic.note] <;> grind
    · rw [ownMoves_append_other own, traffic_append, before]
      cases deed with
      | received j value =>
        have elsewhere : j ≠ k := by
          rintro rfl
          exact own (sole i value (by simp))
        simp [Traffic.note, elsewhere]
      | _ => simp only [Traffic.note] <;> grind

end Network

namespace Channels

open Network

/-- Looking without going to sleep takes a value, or changes nothing. -/
theorem poll_cases (channels : Channels) (self k : Nat) :
    (∃ value, (channels.poll k).1 = .value value ∧
      (channels.poll k).2.deed = .received k value ∧
      (Deed.received k value).Acts self channels (channels.poll k).2.channels) ∨
    ((channels.poll k).1 = .endOfStream ∧ (channels.poll k).2.deed = .foundEnd k ∧
      (Deed.foundEnd k).Acts self channels (channels.poll k).2.channels) ∨
    ((channels.poll k).1 = .nothing ∧ (channels.poll k).2.deed = .foundNothing k ∧
      (channels.nth k).buffer = [] ∧ (channels.nth k).isOpen = true ∧
      (channels.poll k).2.channels = channels) := by
  unfold poll Channel.take
  cases held : (channels.nth k).buffer with
  | cons value rest => exact Or.inl ⟨value, rfl, rfl, rest, held, rfl⟩
  | nil =>
    cases opened : (channels.nth k).isOpen with
    | true => exact Or.inr (Or.inr ⟨rfl, rfl, rfl, rfl, rfl⟩)
    | false => exact Or.inr (Or.inl ⟨rfl, rfl, held, opened, rfl⟩)

/-- One access to the channel with a number. Who looks takes the next value, if there is one. Who
waits goes to sleep if there is none yet, and may give up later. -/
inductive Access where
  | send (number : Nat) (value : Int)
  | look (number : Nat)
  | wait (number : Nat)
  | giveUp (number : Nat)
  | close (number : Nat)
  | closeReceiver (number : Nat)
  deriving DecidableEq, Repr

/-- The effect of an access by the user with a number. -/
def access (channels : Channels) (self : Nat) : Access → Effect
  | .send number value => (channels.send number value).2
  | .look number => (channels.poll number).2
  | .wait number => (channels.receive self number).2
  | .giveUp number => channels.rouse self number
  | .close number => channels.close number
  | .closeReceiver number => channels.closeReceiver number

/-- What is done by the listed accesses, in order, each by the user whose number stands beside it,
and the channels afterwards. -/
def accessAll (channels : Channels) (accesses : List (Nat × Access)) : Moves × Channels :=
  accesses.foldl
    (fun sofar step =>
      let effect := sofar.2.access step.1 step.2
      (sofar.1 ++ [(step.1, effect.deed)], effect.channels))
    ([], channels)

theorem accessAll_append (channels : Channels) (accesses : List (Nat × Access)) (self : Nat)
    (next : Access) :
    channels.accessAll (accesses ++ [(self, next)]) =
      ((channels.accessAll accesses).1 ++
          [(self, ((channels.accessAll accesses).2.access self next).deed)],
        ((channels.accessAll accesses).2.access self next).channels) := by
  simp [accessAll]

theorem access_happens (channels : Channels) (self : Nat) (next : Access) :
    (channels.access self next).deed.Happens self channels
      (channels.access self next).channels := by
  cases next with
  | send k value =>
    rcases channels.send_cases self k value with ⟨-, deed, acts⟩ | ⟨-, -, deed, acts⟩
    · exact .acts (deed ▸ acts)
    · exact .acts (deed ▸ acts)
  | look k =>
    rcases channels.poll_cases self k with
      ⟨value, -, deed, acts⟩ | ⟨-, deed, acts⟩ | ⟨-, deed, empty, opened, same⟩
    · exact .acts (deed ▸ acts)
    · exact .acts (deed ▸ acts)
    · exact deed ▸ .look empty opened same
  | wait k =>
    rcases channels.receive_cases self k with
      ⟨value, -, deed, acts⟩ | ⟨-, deed, acts⟩ | ⟨-, deed, acts⟩
    · exact .acts (deed ▸ acts)
    · exact .acts (deed ▸ acts)
    · exact .acts (deed ▸ acts)
  | giveUp k => exact .acts rfl
  | close k => exact .acts rfl
  | closeReceiver k => exact .acts ⟨rfl, rfl⟩

/-- The sides of a channel are noted as closed when they are closed. -/
theorem note_access (channels : Channels) (self k : Nat) (next : Access) (t : Traffic) :
    ((t.note k (channels.access self next).deed).closed = true ↔
        t.closed = true ∨ next = .close k) ∧
      ((t.note k (channels.access self next).deed).hungUp = true ↔
        t.hungUp = true ∨ next = .closeReceiver k) := by
  cases next with
  | send j value =>
    rcases channels.send_cases self j value with ⟨-, deed, -⟩ | ⟨-, -, deed, -⟩ <;>
      simp only [access, deed, Traffic.note] <;> grind
  | look j =>
    rcases channels.poll_cases self j with ⟨value, -, deed, -⟩ | ⟨-, deed, -⟩ | ⟨-, deed, -⟩ <;>
      simp only [access, deed, Traffic.note] <;> grind
  | wait j =>
    rcases channels.receive_cases self j with ⟨value, -, deed, -⟩ | ⟨-, deed, -⟩ | ⟨-, deed, -⟩ <;>
      simp only [access, deed, Traffic.note] <;> grind
  | giveUp j => simp [access, rouse, Traffic.note]
  | close j =>
    simp only [access, close, Traffic.note]
    grind
  | closeReceiver j =>
    simp only [access, closeReceiver, Traffic.note]
    grind

def HungUp (accesses : List (Nat × Access)) (k : Nat) : Prop :=
  ∃ self, (self, .closeReceiver k) ∈ accesses

def Shut (accesses : List (Nat × Access)) (k : Nat) : Prop :=
  (∃ self, (self, .close k) ∈ accesses) ∨ HungUp accesses k

/-- What the channel with a number shows of the accesses to it, which was new before them. -/
structure Records (name : String) (k : Nat) (accesses : List (Nat × Access))
    (history : Moves × Channels) : Prop where
  inside : k < history.2.size
  name : (history.2.nth k).name = name
  carries : (history.2.nth k).Carries [] (traffic history.1 k)
  closed : (traffic history.1 k).closed = true ↔ ∃ self, (self, .close k) ∈ accesses
  hungUp : (traffic history.1 k).hungUp = true ↔ HungUp accesses k
  exhausted : ∀ self, (self, .foundEnd k) ∈ history.1 →
    (history.2.nth k).buffer = [] ∧ (history.2.nth k).isOpen = false

section Records

variable {name : String} {k : Nat} {accesses : List (Nat × Access)} {history : Moves × Channels}

theorem exists_mem_append (accesses : List (Nat × Access)) (self : Nat) (next sought : Access) :
    (∃ other, (other, sought) ∈ accesses ++ [(self, next)]) ↔
      (∃ other, (other, sought) ∈ accesses) ∨ next = sought := by
  simp only [List.mem_append, List.mem_singleton, Prod.mk.injEq, exists_or, exists_eq_left]
  rw [eq_comm]

theorem Records.shut_iff (records : Records name k accesses history) :
    (history.2.nth k).isOpen = false ↔ Shut accesses k := by
  rw [records.carries.shut_iff, records.closed, records.hungUp, Shut]

/-- Every access is shown by the channel. -/
theorem Records.step (records : Records name k accesses history) (self : Nat) (next : Access) :
    Records name k (accesses ++ [(self, next)])
      (history.1 ++ [(self, (history.2.access self next).deed)],
        (history.2.access self next).channels) := by
  have happens := history.2.access_happens self next
  obtain ⟨noteClosed, noteHungUp⟩ := history.2.note_access self k next (traffic history.1 k)
  refine ⟨?_, ?_, ?_, ?_, ?_, ?_⟩
  · rw [happens.size_eq]
    exact records.inside
  · rw [happens.name_eq records.inside, records.name]
  · rw [traffic_append]
    exact happens.carries records.inside records.carries
  · rw [traffic_append, noteClosed, records.closed, exists_mem_append]
  · rw [traffic_append, noteHungUp, records.hungUp, HungUp, HungUp, exists_mem_append]
  · intro other member
    rcases List.mem_append.mp member with earlier | now
    · obtain ⟨empty, shut⟩ := records.exhausted other earlier
      exact happens.exhausted records.inside empty shut
    · obtain ⟨rfl, found⟩ := Prod.mk.inj (List.mem_singleton.mp now)
      rw [← found] at happens
      cases happens with
      | acts acts =>
        obtain ⟨empty, shut, same⟩ := acts
        rw [same]
        exact ⟨empty, shut⟩

end Records

theorem records_accessAll (channels : Channels) (name : String)
    (accesses : List (Nat × Access)) :
    Records name channels.size accesses (accessAll (channels.push { name }) accesses) := by
  induction accesses using List.reverseRecOn with
  | nil =>
    have new : nth (channels.push { name }) channels.size = { name } := by
      simp [nth, Array.getD_eq_getD_getElem?]
    refine ⟨by simp [accessAll], ?_, ?_, by simp [accessAll], by simp [accessAll, HungUp],
      by simp [accessAll]⟩
    · simp [accessAll, new]
    · simp only [accessAll, List.foldl_nil, new]
      exact ⟨rfl, fun _ => rfl, fun _ => rfl, rfl, rfl, by simp⟩
  | append_singleton accesses step ih =>
    rw [accessAll_append]
    exact ih.step step.1 step.2

/-- Who sleeps apart, the channels are the same. -/
def SameContents (before after : Channels) : Prop :=
  ∀ j, (after.nth j).buffer = (before.nth j).buffer ∧
    (after.nth j).senderClosed = (before.nth j).senderClosed ∧
    (after.nth j).receiverClosed = (before.nth j).receiverClosed

/-- What is said about a receipt on the channel with a number. -/
def receiptDeed (k : Nat) : Channel.Receipt → Deed
  | .value value => .received k value
  | .endOfStream => .foundEnd k
  | .nothing => .foundNothing k

section Answers

variable (channels : Channels) (self k : Nat)

/-- Who waits is answered like who only looks. -/
theorem receive_answer :
    (channels.receive self k).1 = (channels.poll k).1 ∧
      (channels.receive self k).2.deed = (channels.poll k).2.deed := by
  unfold receive
  split
  next nothing => simp [nothing]
  · exact ⟨rfl, rfl⟩

theorem poll_deed : (channels.poll k).2.deed = receiptDeed k (channels.poll k).1 := by
  rcases channels.poll_cases 0 k with
    ⟨value, found, deed, -⟩ | ⟨found, deed, -⟩ | ⟨found, deed, -⟩ <;>
    rw [found, deed] <;> rfl

theorem poll_endOfStream_iff :
    (channels.poll k).1 = .endOfStream ↔
      (channels.nth k).buffer = [] ∧ (channels.nth k).isOpen = false := by
  unfold poll Channel.take
  cases (channels.nth k).buffer <;> cases (channels.nth k).isOpen <;> simp

theorem poll_nothing (found : (channels.poll k).1 = .nothing) :
    (channels.poll k).2.channels = channels := by
  rcases channels.poll_cases 0 k with
    ⟨value, other, -⟩ | ⟨other, -⟩ | ⟨-, -, -, -, same⟩
  · cases found.symm.trans other
  · cases found.symm.trans other
  · exact same

theorem put_of_size_le {c : Channel} (outside : channels.size ≤ k) :
    channels.put k c = channels :=
  Array.setIfInBounds_eq_of_size_le outside

theorem put_put_nth {c : Channel} : (channels.put k c).put k (channels.nth k) = channels := by
  by_cases inside : k < channels.size
  · simp [put, nth, Array.getD_eq_getD_getElem?, Array.setIfInBounds, inside]
  · rw [put_of_size_le channels k (by omega), put_of_size_le channels k (by omega)]

theorem sameContents_put {c : Channel} (buffer : c.buffer = (channels.nth k).buffer)
    (sender : c.senderClosed = (channels.nth k).senderClosed)
    (receiver : c.receiverClosed = (channels.nth k).receiverClosed) :
    SameContents channels (channels.put k c) := by
  intro j
  by_cases here : j = k
  · subst here
    by_cases inside : j < channels.size
    · rw [nth_put_self inside]
      exact ⟨buffer, sender, receiver⟩
    · rw [put_of_size_le channels j (by omega)]
      exact ⟨rfl, rfl, rfl⟩
  · rw [nth_put_other here]
    exact ⟨rfl, rfl, rfl⟩

theorem sameContents_receive (found : (channels.receive self k).1 = .nothing) :
    SameContents channels (channels.receive self k).2.channels := by
  rcases channels.receive_cases self k with
    ⟨value, other, -⟩ | ⟨other, -⟩ | ⟨-, -, -, -, same⟩
  · cases found.symm.trans other
  · cases found.symm.trans other
  · rw [same]
    exact channels.sameContents_put k rfl rfl rfl

theorem sameContents_rouse : SameContents channels (channels.rouse self k).channels :=
  channels.sameContents_put k rfl rfl rfl

/-- Who gives up a sleep in which nothing has happened leaves the channels as they were. -/
theorem rouse_receive (awake : self ∉ (channels.nth k).sleepers)
    (found : (channels.receive self k).1 = .nothing) :
    ((channels.receive self k).2.channels.rouse self k).channels = channels := by
  rcases channels.receive_cases self k with
    ⟨value, other, -⟩ | ⟨other, -⟩ | ⟨-, -, -, -, same⟩
  · cases found.symm.trans other
  · cases found.symm.trans other
  · have back : ((channels.nth k).sleep self).rouse self = channels.nth k := by
      have others : (channels.nth k).sleepers.filter (· != self) = (channels.nth k).sleepers :=
        List.filter_eq_self.mpr fun other member => by
          simpa using ne_of_mem_of_not_mem member awake
      simp [Channel.sleep, Channel.rouse, List.filter_append, others]
    rw [same]
    by_cases inside : k < channels.size
    · simp only [rouse, nth_put_self inside, back, put_put_nth]
    · have outside : channels.size ≤ k := by omega
      simp only [rouse, put_of_size_le channels k outside]

theorem send_of_open (value : Int) (opened : (channels.nth k).isOpen = true) :
    (channels.send k value).1 = none ∧ (channels.send k value).2.deed = .sent k value := by
  simp [send, Channel.send, opened]

theorem send_of_shut (value : Int) (shut : (channels.nth k).isOpen = false) :
    (channels.send k value).1 = some (.channelClosed (channels.nth k).name value) ∧
      (channels.send k value).2.deed = .refused k value ∧
      (channels.send k value).2.channels = channels := by
  simp [send, Channel.send, shut]

end Answers

/-- Let a channel be new, and let it and others be accessed by anyone in any order.

What was accepted on it is what was received, what was dropped and what is still buffered, one after
the other. Values are dropped only if its receiver's side was closed, and then none are buffered.

A value is refused just in case a side was closed, with a fault that names the channel, and then
nothing changes. Else it is accepted.

A receiver finds the end of the stream just in case nothing is buffered and a side was closed. One
that finds nothing and does not wait changes nothing, and one that waits and gives up changes
nothing but who sleeps; with nothing done in between, not even that.

Once the end of the stream has been found, every value is refused and every receiver finds the end
again. If the receiver's side was not closed, all values that were accepted have then been received:
by a single receiver, if it has shared the channel with no other. -/
theorem accessAll_new (channels : Channels) (name : String) (accesses : List (Nat × Access)) :
    let k := channels.size
    let moves := (accessAll (channels.push { name }) accesses).1
    let after := (accessAll (channels.push { name }) accesses).2
    ((traffic moves k).sent =
        (traffic moves k).received ++ (traffic moves k).dropped ++ (after.nth k).buffer ∧
      ((traffic moves k).dropped ≠ [] → HungUp accesses k) ∧
      (HungUp accesses k → (after.nth k).buffer = [])) ∧
    (∀ value,
      (Shut accesses k → (after.send k value).1 = some (.channelClosed name value) ∧
        (after.send k value).2.deed = .refused k value ∧
        (after.send k value).2.channels = after) ∧
      (¬Shut accesses k → (after.send k value).1 = none ∧
        (after.send k value).2.deed = .sent k value)) ∧
    (((after.poll k).1 = .endOfStream ↔ (after.nth k).buffer = [] ∧ Shut accesses k) ∧
      (after.poll k).2.deed = receiptDeed k (after.poll k).1 ∧
      ((after.poll k).1 = .nothing → (after.poll k).2.channels = after) ∧
      ∀ self, (after.receive self k).1 = (after.poll k).1 ∧
        (after.receive self k).2.deed = (after.poll k).2.deed ∧
        ((after.receive self k).1 = .nothing →
          SameContents after (after.receive self k).2.channels ∧
          (self ∉ (after.nth k).sleepers →
            ((after.receive self k).2.channels.rouse self k).channels = after)) ∧
        SameContents after (after.rouse self k).channels) ∧
    (∀ self, (self, .foundEnd k) ∈ moves →
      ((∀ value, (after.send k value).1 ≠ none) ∧ (after.poll k).1 = .endOfStream) ∧
      (¬HungUp accesses k →
        (traffic moves k).received = (traffic moves k).sent ∧
        ((∀ other value, (other, .received k value) ∈ moves → other = self) →
          (traffic (ownMoves moves self) k).received = (traffic moves k).sent))) := by
  intro k moves after
  have records : Records name k accesses (moves, after) :=
    records_accessAll channels name accesses
  have carries := records.carries
  refine ⟨⟨carries.conserved, ?_, ?_⟩, ?_, ⟨?_, ?_, ?_, ?_⟩, ?_⟩
  · intro dropped
    rw [← records.hungUp]
    by_contra listening
    exact dropped (carries.kept (by simpa using listening))
  · intro hungUp
    exact carries.emptied (records.hungUp.mpr hungUp)
  · intro value
    rw [← records.shut_iff, ← records.name]
    constructor
    · exact after.send_of_shut k value
    · intro opened
      exact after.send_of_open k value (by simpa using opened)
  · rw [poll_endOfStream_iff, ← records.shut_iff]
  · exact after.poll_deed k
  · exact after.poll_nothing k
  · intro self
    obtain ⟨answer, deed⟩ := after.receive_answer self k
    refine ⟨answer, deed, ?_, after.sameContents_rouse self k⟩
    intro nothing
    exact ⟨after.sameContents_receive self k nothing, fun awake =>
      after.rouse_receive self k awake nothing⟩
  · intro self found
    obtain ⟨empty, shut⟩ := records.exhausted self found
    refine ⟨⟨?_, ?_⟩, ?_⟩
    · intro value
      simp [(after.send_of_shut k value shut).1]
    · exact (after.poll_endOfStream_iff k).mpr ⟨empty, shut⟩
    · intro listening
      have heard : (traffic moves k).hungUp = false := by
        by_contra hungUp
        exact listening (records.hungUp.mp (by simpa using hungUp))
      have all : (traffic moves k).received = (traffic moves k).sent := by
        rw [← List.nil_append (traffic moves k).sent, carries.received_buffer heard, empty,
          List.append_nil]
      exact ⟨all, fun sole => (received_ownMoves sole).trans all⟩

/-- User 0 reads to the end of the stream, sleeps in between, and gives up once; users 1 and 2 send,
the last time after the channel was closed. -/
def twoSenders : List (Nat × Access) :=
  [(0, .wait 0), (1, .send 0 5), (0, .giveUp 0), (2, .send 0 6), (0, .look 0), (0, .wait 0),
    (0, .wait 0), (1, .close 0), (2, .send 0 7), (0, .wait 0)]

theorem accessAll_new_twoSenders :
    ∃ moves, moves = (accessAll #[{ name := "c" }] twoSenders).1 ∧ (2, .refused 0 7) ∈ moves ∧
      (0, .foundEnd 0) ∈ moves ∧ (traffic moves 0).sent = [5, 6] ∧
      (traffic (ownMoves moves 0) 0).received = (traffic moves 0).sent := by
  have done : (accessAll #[{ name := "c" }] twoSenders).1 =
      [(0, .foundNothing 0), (1, .sent 0 5), (0, .roused 0), (2, .sent 0 6), (0, .received 0 5),
        (0, .received 0 6), (0, .foundNothing 0), (1, .closed 0), (2, .refused 0 7),
        (0, .foundEnd 0)] := by
    decide
  have found : (0, .foundEnd 0) ∈ (accessAll #[{ name := "c" }] twoSenders).1 := by simp [done]
  have listening : ¬HungUp twoSenders 0 := by simp [HungUp, twoSenders]
  refine ⟨_, rfl, by simp [done], found, by rw [done]; rfl, ?_⟩
  apply (((accessAll_new #[] "c" twoSenders).2.2.2 0 found).2 listening).2
  intro other value member
  rw [show (accessAll ((#[] : Channels).push { name := "c" }) twoSenders).1 = _ from done]
    at member
  simp at member
  omega

end Channels

end Intcode
