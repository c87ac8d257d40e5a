import Intcode.Network.Settle
import Intcode.Proofs.Network.Waking

/-!
# A network that is left to itself comes to rest

`Network.settle` lets the agents in a queue move in turn. It works on one of the many schedules of
the network, and it stops only at rest: an agent that is able to move stands in the queue at all
times, because whoever wakes an agent also names it (`Effect.Wakes`). If all schedules of a network
are bounded, there is enough fuel for it to stop (`exists_settle`).
-/
namespace Intcode

/-- Everybody who slept before an operation sleeps after it or is named as woken, apart from the one
who acts. -/
def Effect.Wakes (self : Nat) (before : Channels) (effect : Effect) : Prop :=
  ∀ k j, j ≠ self → j ∈ (before.nth k).sleepers →
    j ∈ (effect.channels.nth k).sleepers ∨ j ∈ effect.woken

namespace Channels

variable {self k : Nat}

theorem wakes_same (channels : Channels) (deed : Deed) (woken : List Nat) (lines : Log) :
    Effect.Wakes self channels ⟨channels, deed, woken, lines⟩ :=
  fun _ _ _ asleep => Or.inl asleep

/-- It is enough to look at the channel that is changed. -/
theorem wakes_put {channels : Channels} {c : Channel} {deed : Deed} {woken : List Nat} {lines : Log}
    (here : ∀ j, j ≠ self → j ∈ (channels.nth k).sleepers → j ∈ c.sleepers ∨ j ∈ woken) :
    Effect.Wakes self channels ⟨channels.put k c, deed, woken, lines⟩ := by
  intro i j apart asleep
  by_cases same : i = k
  · subst same
    by_cases inside : i < channels.size
    · rw [nth_put_self inside]
      exact here j apart asleep
    · rw [put_of_size_le channels i (Nat.not_lt.mp inside)]
      exact Or.inl asleep
  · rw [nth_put_other same]
    exact Or.inl asleep

theorem wakes_send (channels : Channels) (value : Int) :
    (channels.send k value).2.Wakes self channels := by
  unfold send Channel.send
  by_cases opened : (channels.nth k).isOpen = true
  · simp only [opened, ↓reduceIte]
    refine wakes_put fun j _ asleep => ?_
    rw [← List.take_append_drop 1 (channels.nth k).sleepers] at asleep
    exact (List.mem_append.mp asleep).symm
  · simp only [opened, Bool.false_eq_true, ↓reduceIte]
    exact wakes_same _ _ _ _

theorem wakes_poll (channels : Channels) : (channels.poll k).2.Wakes self channels := by
  unfold poll Channel.take
  cases (channels.nth k).buffer with
  | cons value rest => exact wakes_put fun _ _ asleep => Or.inl asleep
  | nil =>
    by_cases opened : (channels.nth k).isOpen = true
    · simp only [opened, ↓reduceIte]
      exact wakes_same _ _ _ _
    · simp only [opened, Bool.false_eq_true, ↓reduceIte]
      exact wakes_same _ _ _ _

theorem wakes_receive (channels : Channels) : (channels.receive self k).2.Wakes self channels := by
  unfold receive
  split
  · exact wakes_put fun _ _ asleep => Or.inl (List.mem_append_left _ asleep)
  · exact channels.wakes_poll

theorem wakes_rouse (channels : Channels) : (channels.rouse self k).Wakes self channels :=
  wakes_put fun _ apart asleep => Or.inl (List.mem_filter.mpr ⟨asleep, by simpa using apart⟩)

theorem wakes_close (channels : Channels) : (channels.close k).Wakes self channels :=
  wakes_put fun _ _ asleep => Or.inr asleep

theorem wakes_closeReceiver (channels : Channels) :
    (channels.closeReceiver k).Wakes self channels :=
  wakes_put fun _ _ asleep => Or.inr asleep

end Channels

namespace Amplifier

variable {self : Nat} {before : Channels} {effect : Effect}

theorem wakes_sendRest (a : Amplifier) (values : List Int) (halted : Bool)
    (wakes : effect.Wakes self before) : (a.sendRest values halted effect).2.Wakes self before := by
  cases values <;> cases halted <;> exact wakes

theorem wakes_fail (a : Amplifier) (fault : Fault) (wakes : effect.Wakes self before) :
    (a.fail fault effect).2.Wakes self before := by
  unfold fail
  split <;> exact wakes

theorem wakes_move (self : Nat) (a : Amplifier) (channels : Channels) :
    (a.move self channels).2.Wakes self channels := by
  have nothing : (Effect.none channels).Wakes self channels := channels.wakes_same _ _ _
  unfold move
  split
  · exact nothing
  · exact nothing
  · exact nothing
  · unfold execute
    dsimp only
    split
    · exact nothing
    · exact nothing
    · exact wakes_sendRest _ _ _ nothing
    · exact wakes_fail _ _ nothing
  · exact wakes_sendRest _ _ _ channels.wakes_closeReceiver
  · exact wakes_sendRest _ _ _ nothing
  next value rest halted _ =>
    have wakes : (channels.send a.outbound value).2.Wakes self channels := channels.wakes_send value
    unfold send
    split
    next sent => rw [sent] at wakes; exact wakes_sendRest _ _ _ wakes
    next refused => rw [refused] at wakes; exact wakes_fail _ _ wakes
  · have wakes : (channels.receive self a.inbound).2.Wakes self channels := channels.wakes_receive
    unfold receive
    split
    next found => rw [found] at wakes; exact wakes
    next found => rw [found] at wakes; exact wakes
    next found => rw [found] at wakes; exact wakes
  · exact channels.wakes_closeReceiver
  · exact channels.wakes_close

end Amplifier

theorem Listener.wakes_move (self : Nat) (l : Listener) (channels : Channels) :
    (l.move self channels).2.Wakes self channels := by
  unfold move
  split
  · exact channels.wakes_same _ _ _
  · exact channels.wakes_same _ _ _
  · rw [lookOnce_effect]
    exact channels.wakes_poll
  · split
    · exact channels.wakes_rouse
    · rw [look_effect]
      exact channels.wakes_receive

theorem Relay.wakes_move (self : Nat) (r : Relay) (channels : Channels) :
    (r.move self channels).2.Wakes self channels := by
  unfold move
  split
  · exact channels.wakes_close
  · have wakes : (channels.receive self r.tail).2.Wakes self channels := channels.wakes_receive
    unfold receive
    split
    next found => rw [found] at wakes; exact wakes
    next found => rw [found] at wakes; exact wakes
    next found => rw [found] at wakes; exact wakes
  next value _ =>
    have wakes : (channels.send r.head value).2.Wakes self channels := channels.wakes_send value
    unfold forward
    split
    next sent => rw [sent] at wakes; exact wakes
    next refused => rw [refused] at wakes; exact wakes
  · exact channels.wakes_same _ _ _

theorem Agent.wakes_move (self : Nat) (agent : Agent) (channels : Channels) :
    (agent.move self channels).2.Wakes self channels := by
  cases agent with
  | amplifier a => exact a.wakes_move self channels
  | listener l => exact l.wakes_move self channels
  | relay r => exact r.wakes_move self channels

namespace Network

variable {n n₀ last : Network} {i j fuel : Nat} {queue : List Nat} {moves : Moves}

theorem advance_woken {agent : Agent} (there : n.agents[i]? = some agent) :
    (n.advance i).woken = (agent.move i n.channels).2.woken := by
  obtain ⟨bound, rfl⟩ := Array.getElem?_eq_some_iff.mp there
  simp only [advance, bound, ↓reduceDIte]

/-- Whoever is able to move after another agent has moved was so before, or is named as woken. -/
theorem enabled_advance (apart : j ≠ i) (able : (n.advance i).network.enabled j = true) :
    n.enabled j = true ∨ j ∈ (n.advance i).woken := by
  cases there : n.agents[i]? with
  | none =>
    have outside : ¬ i < n.agents.size := by simpa using there
    simp only [advance, outside, ↓reduceDIte] at able
    exact Or.inl able
  | some agent =>
    have wakes := agent.wakes_move i n.channels
    rw [advance_woken there]
    simp only [enabled, advance_agents there, if_neg apart] at able ⊢
    cases other : n.agents[j]? with
    | none => simp [other] at able
    | some found =>
      simp only [other, Bool.and_eq_true, Bool.or_eq_true, Bool.not_eq_true'] at able ⊢
      obtain ⟨alive, timed | awake⟩ := able
      · exact Or.inl ⟨alive, Or.inl timed⟩
      · cases asleep : n.isAsleep j found with
        | false => exact Or.inl ⟨alive, Or.inr rfl⟩
        | true =>
          cases looks : found.awaits with
          | none => simp [isAsleep, looks] at asleep
          | some k =>
            simp only [isAsleep, looks, List.contains_eq_mem, decide_eq_true_eq,
              decide_eq_false_iff_not, advance_channels there] at asleep awake
            exact Or.inr ((wakes k j apart asleep).resolve_left awake)

/-- If everybody who is able to move stands in the queue, the network settles at the end of one of
its schedules, where nobody is able to move. -/
theorem settle_atRest (before : n₀.Schedule moves n) (queued : ∀ j, n.enabled j = true → j ∈ queue)
    (settled : settle fuel queue n = some last) :
    ∃ moves, n₀.Schedule moves last ∧ last.AtRest := by
  fun_induction settle fuel queue n generalizing moves with
  | case1 fuel n =>
    cases settled
    exact ⟨moves, before, fun j => Bool.eq_false_iff.mpr fun able => by simpa using queued j able⟩
  | case2 => cases settled
  | case3 fuel i rest n able next deed woken advanced ih =>
    have now : next = (n.advance i).network := by rw [advanced]
    have names : woken = (n.advance i).woken := by rw [advanced]
    subst now names
    refine ih (before.move able) ?_ settled
    intro j later
    by_cases own : j = i
    · subst own
      simp [joining, later]
    · rcases enabled_advance own later with earlier | woken
      · exact List.mem_append_left _ (List.mem_of_ne_of_mem own (queued j earlier))
      · refine List.mem_append_right _ ?_
        unfold joining
        split
        · exact List.mem_cons_of_mem _ woken
        · exact woken
  | case4 fuel i rest n unable ih =>
    refine ih before ?_ settled
    intro j able
    refine List.mem_of_ne_of_mem ?_ (queued j able)
    rintro rfl
    exact unable able

/-- A network all of whose schedules are bounded settles. -/
theorem exists_settle {bound : Nat}
    (bounded : ∀ moves now, n₀.Schedule moves now → moves.length ≤ bound)
    (before : n₀.Schedule moves n) (queue : List Nat) :
    ∃ fuel last, settle fuel queue n = some last := by
  -- Each turn uses up a move or shortens the queue.
  generalize left : bound - moves.length = budget
  induction budget using Nat.strong_induction_on generalizing queue n moves with
  | _ budget later =>
    induction queue with
    | nil => exact ⟨0, n, rfl⟩
    | cons i rest ih =>
      by_cases able : n.enabled i = true
      · have longer := bounded _ _ (before.move able)
        rw [List.length_append, List.length_singleton] at longer
        obtain ⟨fuel, last, settled⟩ := later (bound - (moves.length + 1)) (by omega)
          (before.move able) (rest ++ (n.advance i).network.joining i (n.advance i).woken) (by simp)
        exact ⟨fuel + 1, last, by simpa [settle, able] using settled⟩
      · obtain ⟨fuel, last, settled⟩ := ih
        exact ⟨fuel + 1, last, by simpa [settle, able] using settled⟩

end Network

end Intcode
