import Intcode.Proofs.Machine.Script

/-!
# No access outside memory

A script is `Guarded` on a machine if each of its accesses is inside memory as it is at that moment:
the address is not negative, and there is a cell with this number. Four checks see to it that an
instruction is carried out like this. It is fetched from inside memory, it ends inside memory, its
operands do not refer to negative addresses, and memory grows to cover the largest of them before
the first one is looked up. That an operand which is written is not immediate is a matter of its
type, `Target`.
-/
namespace Intcode

/-- There is a cell with this number, and it is not found by counting from the end. -/
def Memory.Access.Inside (access : Memory.Access) : Prop :=
  0 ≤ access.index ∧ access.index < access.size

namespace Script

variable {α β : Type} {m : Machine} {i : Instruction Mode Target}

def Guarded (script : Script α) (m : Machine) : Prop :=
  ∀ access ∈ script.accesses m, access.Inside

/-! ## Scripts one after the other -/

theorem guarded_of_accesses {script : Script α} (none : script.accesses m = []) :
    script.Guarded m := by
  intro access member
  rw [none] at member
  cases member

theorem guarded_inspect (use : Registers → Nat → Script α) (m : Machine) :
    (inspect use).Guarded m ↔ (use m.registers m.memory.size).Guarded m :=
  Iff.rfl

/-- A sequence of scripts is guarded if each of them is, on the machine that it meets. -/
theorem guarded_bind {script : Script α} {next : α → Script β} (first : script.Guarded m)
    (rest : ∀ value changed, script.run m = (.ok value, changed) →
      (next value).Guarded changed) :
    (script >>= next).Guarded m := by
  unfold Guarded accesses run at *
  rw [carryOut_bind]
  rcases carried : script.carryOut m with ⟨⟨fault | value, changed⟩, earlier⟩
  · rw [carried] at first
    exact first
  · rw [carried] at first rest
    intro access member
    rcases List.mem_append.mp member with member | member
    · exact first access member
    · exact rest value changed rfl access member

/-! ## Instructions -/

theorem guarded_lookUp {address : Int} (positive : 0 ≤ address)
    (inside : address < m.memory.size) : (lookUp address).Guarded m := by
  intro access member
  simp only [accesses, lookUp, carryOut, Action.locate?_of_inside positive inside, noted,
    List.mem_singleton] at member
  subst member
  exact ⟨positive, inside⟩

theorem guarded_assign {address value : Int} (positive : 0 ≤ address)
    (inside : address < m.memory.size) : (assign address value).Guarded m := by
  intro access member
  simp only [accesses, assign, carryOut, Action.locate?_of_inside positive inside, noted,
    List.mem_singleton] at member
  subst member
  exact ⟨positive, inside⟩

theorem guarded_fetch (m : Machine) : fetch.Guarded m := by
  simp only [fetch, guarded_inspect]
  split
  · exact guarded_of_accesses rfl
  next inside =>
    refine guarded_bind (guarded_lookUp (by omega) (by omega)) fun word changed _ => ?_
    cases Instruction.decode word m.ip <;> exact guarded_of_accesses rfl

theorem guarded_addressOf {k : Nat} (mode : Mode) (positive : 0 ≤ m.ip)
    (inside : m.ip + k < m.memory.size) : (addressOf k mode).Guarded m := by
  have accepted : ∀ (address : Int) (m : Machine), (accept address).Guarded m := by
    intro address m
    simp only [accept, guarded_inspect]
    split <;> exact guarded_of_accesses rfl
  simp only [addressOf, guarded_inspect]
  refine guarded_bind (guarded_lookUp (by omega) inside) fun raw m _ => ?_
  cases mode with
  | position => exact accepted raw m
  | immediate => exact guarded_of_accesses rfl
  | relative => exact accepted _ m

theorem unchanged_of_addressOf {k : Nat} {mode : Mode} {answer : Except Fault (Option Int)}
    {changed : Machine} (positive : 0 ≤ m.ip) (inside : m.ip + k < m.memory.size)
    (found : (addressOf k mode).run m = (answer, changed)) : changed = m := by
  rw [run_addressOf, Action.addressOf_eq mode positive inside] at found
  split at found <;> cases found <;> rfl

theorem guarded_addressesFrom {k : Nat} (modes : List Mode) (positive : 0 ≤ m.ip)
    (inside : m.ip + k + modes.length ≤ m.memory.size) : (addressesFrom k modes).Guarded m := by
  induction modes generalizing k with
  | nil => exact guarded_of_accesses rfl
  | cons mode rest ih =>
    rw [List.length_cons] at inside
    have within : m.ip + k < m.memory.size := by omega
    refine guarded_bind (guarded_addressOf mode positive within) fun address changed found => ?_
    cases unchanged_of_addressOf positive within found
    exact guarded_bind (ih (by omega)) fun _ _ _ => guarded_of_accesses rfl

theorem guarded_resolve (i : Instruction Mode Target) (positive : 0 ≤ m.ip) :
    (resolve i).Guarded m := by
  simp only [resolve, guarded_inspect]
  split
  · exact guarded_of_accesses rfl
  next within =>
    have inside : m.ip + (1 : Nat) + i.modes.length ≤ m.memory.size := by
      rw [i.length_modes]
      rw [Instruction.width] at within
      omega
    refine guarded_bind (guarded_addressesFrom i.modes positive inside) fun addresses m _ => ?_
    refine guarded_bind ?_ fun _ _ _ => guarded_of_accesses rfl
    -- To grow is no access to a cell.
    refine guarded_of_accesses ?_
    unfold cover accesses
    split
    · rfl
    · rw [carryOut]
      split <;> rfl

/-- An operand is looked up inside the memory that has grown, and nothing has changed when the
script goes on. -/
theorem guarded_valueOf {k : Nat} {mode : Mode} {next : Int → Script β} (positive : 0 ≤ m.ip)
    (inside : m.ip + k < m.memory.size) (sound : m.ideal.negative? i = none)
    (found : (m.ideal.addresses i)[k - 1]? = some (m.ideal.address? k mode))
    (rest : ∀ value, (next value).Guarded (m.cover (m.ideal.located i))) :
    (valueOf (m.ideal.addresses i) k >>= next).Guarded (m.cover (m.ideal.located i)) := by
  have pointer := m.ip_cover (m.ideal.located i)
  have grown := m.size_le_cover (m.ideal.located i)
  refine guarded_bind ?_ fun value changed read => ?_
  · simp only [valueOf, guarded_inspect, found]
    cases mode with
    | position =>
      obtain ⟨low, high⟩ := Action.inside_cover sound (List.mem_of_getElem? found)
      exact guarded_lookUp low high
    | immediate => exact guarded_lookUp (by omega) (by omega)
    | relative =>
      obtain ⟨low, high⟩ := Action.inside_cover sound (List.mem_of_getElem? found)
      exact guarded_lookUp low high
  · rw [run_valueOf, Action.valueOf_eq positive inside sound found] at read
    cases read
    exact rest _

/-- An operand that is written has an address, and the cell is there. -/
theorem guarded_store {addresses : List (Option Int)} {k : Nat} {address value width : Int}
    (aimed : ∀ m, (Action.targetOf addresses k).run m = (.ok address, m)) (positive : 0 ≤ address)
    (inside : address < m.memory.size) :
    (do
      let target ← targetOf addresses k
      assign target value
      advance width).Guarded m := by
  refine guarded_bind ?_ fun target changed chosen => ?_
  · refine guarded_of_accesses ?_
    unfold targetOf
    split <;> rfl
  · rw [run_targetOf, aimed] at chosen
    cases chosen
    exact guarded_bind (guarded_assign positive inside) fun _ _ _ => guarded_of_accesses rfl

theorem guarded_takeInput (m : Machine) : takeInput.Guarded m := by
  simp only [takeInput, guarded_inspect]
  cases m.inputs <;> exact guarded_of_accesses rfl

theorem memory_of_takeInput {answer : Except Fault Int} {changed : Machine}
    (taken : takeInput.run m = (answer, changed)) : changed.memory = m.memory := by
  simp only [takeInput, run_inspect] at taken
  split at taken <;> cases taken <;> rfl

theorem guarded_perform (positive : 0 ≤ m.ip) (inside : m.ip + i.arity < m.memory.size)
    (sound : m.ideal.negative? i = none) :
    (perform (m.ideal.addresses i) i).Guarded (m.cover (m.ideal.located i)) := by
  have operand : ∀ k mode (next : Int → Script Unit), k ≤ i.arity →
      (m.ideal.addresses i)[k - 1]? = some (m.ideal.address? k mode) →
      (∀ value, (next value).Guarded (m.cover (m.ideal.located i))) →
      (valueOf (m.ideal.addresses i) k >>= next).Guarded (m.cover (m.ideal.located i)) :=
    fun k mode next within found => guarded_valueOf positive (by omega) sound found
  cases i with
  | compute operation left right target =>
    obtain ⟨address, aimed, -, low, high⟩ := Action.targetOf_eq 3 target sound rfl
    refine operand 1 left _ (by simp [Instruction.arity]) rfl fun a => ?_
    refine operand 2 right _ (by simp [Instruction.arity]) rfl fun b => ?_
    exact guarded_store aimed low high
  | input target =>
    obtain ⟨address, aimed, -, low, high⟩ := Action.targetOf_eq 1 target sound rfl
    refine guarded_bind (guarded_takeInput _) fun value changed taken => ?_
    rw [← memory_of_takeInput taken] at high
    exact guarded_store aimed low high
  | output value =>
    refine operand 1 value _ (by simp [Instruction.arity]) rfl fun a => ?_
    exact guarded_of_accesses rfl
  | jump sense condition destination =>
    refine operand 1 condition _ (by simp [Instruction.arity]) rfl fun a => ?_
    split
    · refine operand 2 destination _ (by simp [Instruction.arity]) rfl fun b => ?_
      exact guarded_of_accesses rfl
    · exact guarded_of_accesses rfl
  | adjustBase amount =>
    refine operand 1 amount _ (by simp [Instruction.arity]) rfl fun a => ?_
    exact guarded_of_accesses rfl
  | halt => exact guarded_of_accesses rfl

theorem guarded_execute (m : Machine) : execute.Guarded m := by
  refine guarded_bind (guarded_fetch m) fun i changed fetched => ?_
  rw [run_fetch, Action.fetch_eq, Prod.mk.injEq] at fetched
  obtain ⟨found, rfl⟩ := fetched
  simp only [guarded_inspect]
  split
  · exact guarded_of_accesses rfl
  · split
    · exact guarded_of_accesses rfl
    · have positive := Machine.ip_nonneg_of_fetch found
      refine guarded_bind (guarded_resolve i positive) fun addresses grown resolved => ?_
      rw [run_resolve, Action.resolve_eq i positive] at resolved
      split at resolved
      · cases resolved
      next located =>
        obtain ⟨inside, sound, rfl⟩ := Action.sound_of_resolve located
        cases resolved
        refine guarded_bind (guarded_perform positive inside sound) fun _ _ _ => ?_
        exact guarded_of_accesses rfl

end Script

/-! ## Addresses and pointers -/

/-- These are the addresses of the operands of an instruction, and memory has grown to cover
them. -/
structure Resolved (i : Instruction Mode Target) (addresses : List (Option Int))
    (grown : Machine) : Prop where
  count : addresses.length = i.arity
  inside : ∀ address, some address ∈ addresses →
    (⟨address, grown.memory.size⟩ : Memory.Access).Inside
  /-- An operand that is written has an address: it is the third one of an operation on two
  operands, and the only one of an instruction that takes an input. -/
  result : i.opcode ∈ [1, 2, 7, 8] → ∃ address, addresses[2]? = some (some address)
  input : i.opcode = 3 → ∃ address, addresses[0]? = some (some address)

namespace Ideal

variable {s : Ideal} {i : Instruction Mode Target}

def Jumps (s : Ideal) (i : Instruction Mode Target) : Prop :=
  i.opcode = 5 ∧ s.value i 1 ≠ 0 ∨ i.opcode = 6 ∧ s.value i 1 = 0

instance (s : Ideal) (i : Instruction Mode Target) : Decidable (s.Jumps i) :=
  inferInstanceAs (Decidable (_ ∨ _))

theorem next_of_jumps (jumps : s.Jumps i) : s.next i = s.value i 2 := by
  unfold next
  rcases jumps with ⟨five, nonzero⟩ | ⟨six, zero⟩
  · rw [if_pos ⟨five, nonzero⟩]
  · rw [if_neg (by simp [six]), if_pos ⟨six, zero⟩]

/-- Where the pointer goes otherwise is told by the number of operands. -/
theorem next_of_not_jumps (executed : i.opcode ≠ 99) (stays : ¬s.Jumps i) :
    s.next i = s.ip + i.width := by
  simp only [Jumps, not_or] at stays
  unfold next
  rw [if_neg stays.1, if_neg stays.2]
  cases i with
  | compute operation left right target => cases operation <;> rfl
  | input target => rfl
  | output value => rfl
  | jump sense condition destination => cases sense <;> rfl
  | adjustBase amount => rfl
  | halt => exact absurd rfl executed

theorem resolved_addresses {m : Machine} (sound : m.ideal.negative? i = none) :
    Resolved i (m.ideal.addresses i) (m.cover (m.ideal.located i)) where
  count := by cases i <;> rfl
  inside := fun address referred => Action.inside_cover sound referred
  result := by
    intro listed
    cases i with
    | compute operation left right target => cases target <;> exact ⟨_, rfl⟩
    | jump sense condition destination => cases sense <;> simp [Instruction.opcode] at listed
    | _ => simp [Instruction.opcode] at listed
  input := by
    intro three
    obtain ⟨target, rfl⟩ := Instruction.opcode_eq_three.mp three
    cases target <;> exact ⟨_, rfl⟩

end Ideal

namespace Machine

variable {m next : Machine} {i : Instruction Mode Target}

theorem ip_of_execute (fetched : m.fetch = .ok i) (executed : m.execute = (.ok .running, next)) :
    next.ip = m.ideal.next i ∧ i.opcode ≠ 99 := by
  simp only [execute, fetched] at executed
  split at executed
  next stalled =>
    cases executed
    exact absurd stalled (m.stall?_ne_running i)
  next free =>
    split at executed
    · cases executed
    next located =>
      obtain ⟨-, -, rfl⟩ := Action.sound_of_resolve located
      cases executed
      refine ⟨congrArg Ideal.ip (m.ideal_perform i free), ?_⟩
      intro halts
      rw [← ideal_stall?, Ideal.stall?, if_pos halts] at free
      cases free

theorem isExecutionFault_of_execute {fault : Fault} {left : Machine}
    (failed : m.execute = (.error fault, left)) : fault.isExecutionFault := by
  unfold execute at failed
  split at failed
  next unfetched =>
    cases failed
    exact fetch_error unfetched
  · split at failed
    · cases failed
    · split at failed
      next unresolved =>
        cases failed
        exact resolve_error unresolved
      · cases failed

/-- Whatever the state of a machine, no access to memory goes wrong. The scripts come to the same
as `fetch`, `resolve` and `execute`, and none of their accesses is outside memory as it is at that
moment. Where the operands of the instruction at the pointer can be resolved, one that is written
has an address, and all addresses are covered. An executed instruction that does not jump moves the
pointer on by its width. What a step fails with is a fault of the interpreter or of the allocator,
or one of the interpreter could not be worded. So it is never the lack of a cell, of an address or
of an input. -/
theorem accesses_inside (m : Machine) :
    Script.fetch.run m = (m.fetch, m) ∧ Script.fetch.Guarded m ∧
    Script.execute.run m = m.execute ∧ Script.execute.Guarded m ∧
    (∀ i, m.fetch = .ok i →
      (Script.resolve i).Guarded m ∧
      (∀ fault, m.resolve i = .error fault → (Script.resolve i).run m = (.error fault, m)) ∧
      (∀ j, m.resolve i = .ok j → ∃ addresses,
        (Script.resolve i).run m = (.ok addresses, m.cover j) ∧
        j.addresses = addresses.map (Option.map Int.toNat) ∧ Resolved i addresses (m.cover j)) ∧
      ∀ next, m.execute = (.ok .running, next) →
        (m.ideal.Jumps i → next.ip = m.ideal.value i 2) ∧
        (¬m.ideal.Jumps i → next.ip = m.ip + i.width)) ∧
    ∀ fault left, m.execute = (.error fault, left) ∨ m.step = (.error fault, left) →
      fault.family = .interpreter ∨ fault.family = .allocation ∨
        ∃ cause, fault = .unworded cause ∧ cause.family = .interpreter ∧
          cause.isWordable = false := by
  refine ⟨(Script.run_fetch m).trans (Action.fetch_eq m), Script.guarded_fetch m,
    Script.run_execute m, Script.guarded_execute m, ?_, ?_⟩
  · intro i fetched
    have positive := ip_nonneg_of_fetch fetched
    have resolved := (Script.run_resolve i m).trans (Action.resolve_eq i positive)
    refine ⟨Script.guarded_resolve i positive, ?_, ?_, ?_⟩
    · intro fault unresolved
      rw [resolved, unresolved]
    · intro j located
      obtain ⟨-, sound, rfl⟩ := Action.sound_of_resolve located
      rw [located] at resolved
      exact ⟨_, resolved, m.ideal.addresses_located i, Ideal.resolved_addresses sound⟩
    · intro next executed
      obtain ⟨moved, executed⟩ := ip_of_execute fetched executed
      rw [moved]
      exact ⟨Ideal.next_of_jumps, Ideal.next_of_not_jumps executed⟩
  · rintro fault left (failed | failed)
    · exact Fault.family_of_isExecutionFault (isExecutionFault_of_execute failed)
    · exact Fault.family_of_isExecutionFault (step_error failed)

/-- Multiplies its last cell by one beyond it, where the result goes too. -/
def acrossEnd : List Int :=
  [2, 3, 9, 9]

/-- The instruction is read from four cells and carried out in ten. A pointer before the first cell
does not count from the end. -/
theorem accesses_inside_acrossEnd :
    (∃ next addresses grown,
      (ofCells {} acrossEnd {}).execute = (.ok .running, next) ∧ next.ip = 4 ∧
      Script.execute.accesses (ofCells {} acrossEnd {}) =
        [⟨0, 4⟩, ⟨1, 4⟩, ⟨2, 4⟩, ⟨3, 4⟩, ⟨3, 10⟩, ⟨9, 10⟩, ⟨9, 10⟩] ∧
      Script.execute.Guarded (ofCells {} acrossEnd {}) ∧
      (Script.resolve (.compute .multiply .position .position .position)).run
        (ofCells {} acrossEnd {}) = (.ok addresses, grown) ∧
      Resolved (.compute .multiply .position .position .position) addresses grown) ∧
    ∃ fault, ({ ofCells {} acrossEnd {} with ip := -1 } : Machine).execute =
        (.error fault, { ofCells {} acrossEnd {} with ip := -1 }) ∧
      (fault.family = .interpreter ∨ fault.family = .allocation ∨
        ∃ cause, fault = .unworded cause ∧ cause.family = .interpreter ∧
          cause.isWordable = false) := by
  obtain ⟨-, -, -, guarded, fetched, -⟩ := accesses_inside (ofCells {} acrossEnd {})
  obtain ⟨-, -, located, moved⟩ := fetched _ rfl
  obtain ⟨addresses, ran, -, resolved⟩ := located _ rfl
  obtain ⟨-, -, -, -, -, faults⟩ := accesses_inside { ofCells {} acrossEnd {} with ip := -1 }
  refine ⟨⟨_, addresses, _, rfl, ?_, by decide, guarded, ran, resolved⟩, _, rfl, ?_⟩
  · exact (moved _ rfl).2 (by decide)
  · exact faults _ _ (Or.inl rfl)

end Machine

end Intcode
