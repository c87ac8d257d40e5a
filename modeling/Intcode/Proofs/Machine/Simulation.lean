import Intcode.Proofs.Machine.Ideal
import Intcode.Proofs.Machine.Step
import Intcode.Proofs.Memory

/-!
# Machines beside ideal ones

Every machine has an ideal one (`Machine.ideal`): its cells, with zeros behind them for ever. The
two keep step with each other, whatever the program does to itself and to its memory, as long as
the budget and the allocator of the machine allow it (`ideal_step`).
-/
namespace Intcode

namespace Machine

/-- The machine after so many executed instructions, if it executes that many. -/
def after : (count : Nat) → Machine → Option Machine
  | 0, m => some m
  | count + 1, m =>
    match m.step with
    | (.ok .running, next) => after count next
    | _ => none

def ideal (m : Machine) : Ideal where
  cells := m.memory.read
  length := m.memory.size
  ip := m.ip
  base := m.base
  inputs := m.inputs
  outputs := m.outputs.toList

theorem ideal_stall? (m : Machine) (i : Instruction Mode Target) :
    m.ideal.stall? i = m.stall? i := by
  cases i with
  | compute operation left right target => cases operation <;> rfl
  | input target =>
    simp [stall?, Ideal.stall?, Instruction.opcode, List.isEmpty_iff, ideal]
  | output value => rfl
  | jump sense condition destination => cases sense <;> rfl
  | adjustBase amount => rfl
  | halt => rfl

theorem ip_nonneg_of_fetch {m : Machine} {i : Instruction Mode Target}
    (fetched : m.fetch = .ok i) : 0 ≤ m.ip := by
  by_contra negative
  simp [fetch, Int.not_le.mp negative] at fetched

end Machine

/-! ## Operands -/

theorem Instruction.length_modes (i : Instruction Mode Target) : i.modes.length = i.arity := by
  cases i <;> rfl

namespace Ideal

def place (s : Ideal) (k : Nat) (mode : Mode) : Place :=
  match s.address? k mode with
  | some address => .cell address.toNat
  | none => .constant (s.operand k)

def located (s : Ideal) : Instruction Mode Target → Instruction Place Nat
  | .compute operation left right target =>
    .compute operation (s.place 1 left) (s.place 2 right) (s.cell 3 target)
  | .input target => .input (s.cell 1 target)
  | .output value => .output (s.place 1 value)
  | .jump sense condition destination =>
    .jump sense (s.place 1 condition) (s.place 2 destination)
  | .adjustBase amount => .adjustBase (s.place 1 amount)
  | .halt => .halt

theorem find?_addresses_cons (first : Option Int) (rest : List (Option Int)) :
    ((first :: rest).filterMap id).find? (· < 0) =
      (first.filter (· < 0)).or ((rest.filterMap id).find? (· < 0)) := by
  cases first with
  | none => simp
  | some address => by_cases negative : address < 0 <;> simp [Option.filter, negative]

theorem addresses_located (s : Ideal) (i : Instruction Mode Target) :
    (s.located i).addresses = (s.addresses i).map (Option.map Int.toNat) := by
  have found : ∀ k mode, (s.place k mode).address? = (s.address? k mode).map Int.toNat := by
    intro k mode
    cases mode <;> rfl
  have aimed : ∀ k (target : Target),
      some (s.cell k target) = (s.address? k target.mode).map Int.toNat := by
    intro k target
    cases target <;> rfl
  cases i <;> simp [located, Instruction.addresses, addresses, Instruction.modes, found, aimed]

end Ideal

namespace Machine

theorem locateSource_eq (m : Machine) (k : Nat) (mode : Mode) :
    m.locateSource k mode =
      match (m.ideal.address? k mode).filter (· < 0) with
      | some address => .error (Fault.raised (.negativeAddress address m.ip))
      | none => .ok (m.ideal.place k mode) := by
  have checked : ∀ address : Int, (m.checkAddress address).map Place.cell =
      match (some address).filter (· < 0) with
      | some address => .error (Fault.raised (.negativeAddress address m.ip))
      | none => .ok (.cell address.toNat) := by
    intro address
    by_cases negative : address < 0 <;> simp [checkAddress, Option.filter, negative, Except.map]
  cases mode with
  | position => exact checked _
  | immediate => rfl
  | relative => exact checked _

theorem locateTarget_eq (m : Machine) (k : Nat) (target : Target) :
    m.locateTarget k target =
      match (m.ideal.address? k target.mode).filter (· < 0) with
      | some address => .error (Fault.raised (.negativeAddress address m.ip))
      | none => .ok (m.ideal.cell k target) := by
  have checked : ∀ address : Int, m.checkAddress address =
      match (some address).filter (· < 0) with
      | some address => .error (Fault.raised (.negativeAddress address m.ip))
      | none => .ok address.toNat := by
    intro address
    by_cases negative : address < 0 <;> simp [checkAddress, Option.filter, negative]
  cases target with
  | position => exact checked _
  | relative => exact checked _

/-- The operands are found where the ideal machine finds them, unless one of them refers to a
negative address; then the first such address is reported. -/
theorem traverse_locate (m : Machine) (i : Instruction Mode Target) :
    i.traverse m.locateSource m.locateTarget =
      match m.ideal.negative? i with
      | some address => .error (Fault.raised (.negativeAddress address m.ip))
      | none => .ok (m.ideal.located i) := by
  cases i with
  | compute operation left right target =>
    simp only [Instruction.traverse, Ideal.negative?, Ideal.addresses, Instruction.modes,
      List.mapIdx_cons, List.mapIdx_nil, Ideal.find?_addresses_cons, locateSource_eq,
      locateTarget_eq, Ideal.located]
    cases (m.ideal.address? 1 left).filter (· < 0) with
    | some address => rfl
    | none =>
      cases (m.ideal.address? 2 right).filter (· < 0) with
      | some address => rfl
      | none => cases (m.ideal.address? 3 target.mode).filter (· < 0) <;> rfl
  | input target =>
    simp only [Instruction.traverse, Ideal.negative?, Ideal.addresses, Instruction.modes,
      List.mapIdx_cons, List.mapIdx_nil, Ideal.find?_addresses_cons, locateTarget_eq,
      Ideal.located]
    cases (m.ideal.address? 1 target.mode).filter (· < 0) <;> rfl
  | output value =>
    simp only [Instruction.traverse, Ideal.negative?, Ideal.addresses, Instruction.modes,
      List.mapIdx_cons, List.mapIdx_nil, Ideal.find?_addresses_cons, locateSource_eq,
      Ideal.located]
    cases (m.ideal.address? 1 value).filter (· < 0) <;> rfl
  | jump sense condition destination =>
    simp only [Instruction.traverse, Ideal.negative?, Ideal.addresses, Instruction.modes,
      List.mapIdx_cons, List.mapIdx_nil, Ideal.find?_addresses_cons, locateSource_eq,
      Ideal.located]
    cases (m.ideal.address? 1 condition).filter (· < 0) with
    | some address => rfl
    | none => cases (m.ideal.address? 2 destination).filter (· < 0) <;> rfl
  | adjustBase amount =>
    simp only [Instruction.traverse, Ideal.negative?, Ideal.addresses, Instruction.modes,
      List.mapIdx_cons, List.mapIdx_nil, Ideal.find?_addresses_cons, locateSource_eq,
      Ideal.located]
    cases (m.ideal.address? 1 amount).filter (· < 0) <;> rfl
  | halt => rfl

/-! ## Growth -/

theorem max?_map_succ (xs : List Nat) (length : Nat) :
    (match xs.max? with
      | none => length
      | some highest => max length (highest + 1)) =
      (xs.map (· + 1)).foldl max length := by
  cases xs with
  | nil => rfl
  | cons x xs =>
    simp only [List.max?_cons', List.map_cons, List.foldl_cons]
    induction xs generalizing x length with
    | nil => rfl
    | cons y ys ih =>
      simp only [List.map_cons, List.foldl_cons, ih]
      congr 1
      omega

theorem highest?_located (m : Machine) (i : Instruction Mode Target) :
    (match (m.ideal.located i).highest? with
      | none => m.memory.size
      | some highest => max m.memory.size (highest + 1)) = m.ideal.reach i := by
  have found : (m.ideal.located i).addresses.filterMap id =
      ((m.ideal.addresses i).filterMap id).map Int.toNat := by
    rw [Ideal.addresses_located, List.filterMap_map, List.map_filterMap]
    rfl
  rw [Instruction.highest?, max?_map_succ, found, List.map_map]
  rfl

theorem size_cover (m : Machine) (i : Instruction Mode Target) :
    (m.cover (m.ideal.located i)).memory.size = m.ideal.reach i := by
  rw [← highest?_located]
  cases highest : (m.ideal.located i).highest? with
  | none => simp only [cover, highest]
  | some address => simp only [cover, highest, Memory.size_extend]

theorem size_le_cover (m : Machine) (j : Instruction Place Nat) :
    m.memory.size ≤ (m.cover j).memory.size := by
  unfold cover
  split
  · exact Nat.le_refl _
  · rw [Memory.size_extend]
    exact Nat.le_max_left _ _

theorem ip_cover (m : Machine) (j : Instruction Place Nat) : (m.cover j).ip = m.ip := by
  rw [cover_eq]

theorem read_cover (m : Machine) (j : Instruction Place Nat) :
    (m.cover j).memory.read = m.memory.read := by
  funext address
  unfold cover
  split
  · rfl
  · exact Memory.read_extend _ _ _

/-- What the allocator says depends on the number of missing cells alone. -/
theorem growthFault?_located (m : Machine) (i : Instruction Mode Target) :
    m.growthFault? (m.ideal.located i) = m.memory.refusal? (m.ideal.reach i - m.memory.size) := by
  rw [← highest?_located, growthFault?]
  cases (m.ideal.located i).highest? with
  | none => simp only [Nat.sub_self, Memory.refusal?_zero]
  | some address =>
    have same : max m.memory.size (address + 1) - m.memory.size = m.memory.missing address := by
      rw [Memory.missing]
      omega
    rw [same]
    rfl

/-! ## Effects -/

section Effects

variable (m : Machine) (j : Instruction Place Nat) {i : Instruction Mode Target}

/-- The value of an operand is what the ideal machine reads before memory has grown. -/
theorem value_place {k : Nat} {mode : Mode}
    (found : (m.ideal.addresses i)[k - 1]? = some (m.ideal.address? k mode)) :
    (m.cover j).value (m.ideal.place k mode) = m.ideal.value i k := by
  rw [Ideal.value, found]
  cases mode with
  | position => exact congrFun (read_cover m j) _
  | immediate => rfl
  | relative => exact congrFun (read_cover m j) _

theorem lt_size_cover {address : Nat} (referred : some address ∈ j.addresses) :
    address < (m.cover j).memory.size := by
  have member : address ∈ j.addresses.filterMap id := List.mem_filterMap.mpr ⟨_, referred, rfl⟩
  cases highest : j.highest? with
  | none =>
    rw [Instruction.highest?, List.max?_eq_none_iff] at highest
    rw [highest] at member
    cases member
  | some top =>
    have below : address ≤ top := (List.max?_eq_some_iff.mp highest).2 address member
    simp only [cover, highest, Memory.size_extend]
    omega

/-- Writing to a cell that memory has grown to cover. -/
theorem read_write_cover {address : Nat} (referred : some address ∈ j.addresses) (value : Int) :
    ((m.cover j).memory.write address value).read =
      Function.update m.ideal.cells address value := by
  funext other
  rw [Memory.read_write _ _ _ _ (lt_size_cover m j referred), read_cover]
  by_cases same : other = address
  · subst same
    simp
  · simp [same, ideal]

end Effects

theorem eval_eq_result (s : Ideal) (operation : Operation) (left right : Mode) (target : Target) :
    operation.eval (s.value (.compute operation left right target) 1)
        (s.value (.compute operation left right target) 2) =
      s.result (.compute operation left right target) := by
  cases operation <;> rfl

/-- Executing an instruction does to a machine what it does to the ideal one. -/
theorem ideal_perform (m : Machine) (i : Instruction Mode Target) (free : m.stall? i = none) :
    (((m.cover (m.ideal.located i)).perform (m.ideal.located i)).settleStep .running).ideal =
      m.ideal.perform i := by
  have size := size_cover m i
  have cells := read_cover m (m.ideal.located i)
  have operand : ∀ k mode, (m.ideal.addresses i)[k - 1]? = some (m.ideal.address? k mode) →
      (m.cover (m.ideal.located i)).value (m.ideal.place k mode) = m.ideal.value i k :=
    fun k mode => value_place m (m.ideal.located i)
  have written : ∀ address, some address ∈ (m.ideal.located i).addresses → ∀ value,
      ((m.cover (m.ideal.located i)).memory.write address value).read =
        Function.update m.ideal.cells address value :=
    fun address => read_write_cover m (m.ideal.located i)
  rw [cover_eq] at operand ⊢
  -- Memory apart, a machine is the same before and after it has grown.
  generalize (m.cover (m.ideal.located i)).memory = grown at *
  cases i with
  | compute operation left right target =>
    simp only [Ideal.located, perform, settleStep, operand 1 left rfl, operand 2 right rfl,
      eval_eq_result]
    ext1
    · rw [Ideal.perform, Ideal.target?_compute]
      exact written _ (by simp [Ideal.located, Instruction.addresses]) _
    · exact (Memory.size_write _ _ _).trans size
    all_goals cases operation <;> rfl
  | input target =>
    cases queued : m.inputs with
    | nil => simp [stall?, queued] at free
    | cons value rest =>
      have result : m.ideal.result (.input target) = value := by
        simp [Ideal.result, Instruction.opcode, ideal, queued]
      simp only [Ideal.located, perform, settleStep]
      ext1
      · rw [Ideal.perform, Ideal.target?_input, result]
        exact written _ (by simp [Ideal.located, Instruction.addresses]) _
      · exact (Memory.size_write _ _ _).trans size
      · rfl
      · rfl
      · simp [Ideal.perform, Instruction.opcode, ideal, queued]
      · rfl
  | output value =>
    simp only [Ideal.located, perform, settleStep, operand 1 value rfl]
    ext1
    · exact cells
    · exact size
    · rfl
    · rfl
    · rfl
    · exact Array.toList_push
  | jump sense condition destination =>
    simp only [Ideal.located, perform, settleStep, operand 1 condition rfl,
      operand 2 destination rfl]
    ext1
    · cases sense <;> exact cells
    · exact size
    · cases sense <;>
        simp [Ideal.perform, Ideal.next, Instruction.opcode, ideal]
    all_goals cases sense <;> rfl
  | adjustBase amount =>
    simp only [Ideal.located, perform, settleStep, operand 1 amount rfl]
    ext1
    · exact cells
    · exact size
    all_goals rfl
  | halt => simp [stall?] at free

/-! ## Steps -/

theorem resolve_eq (m : Machine) (i : Instruction Mode Target) :
    m.resolve i =
      match m.ideal.fault? i with
      | some fault => .error fault
      | none =>
        match m.growthFault? (m.ideal.located i) with
        | some fault => .error fault
        | none => .ok (m.ideal.located i) := by
  have final : m.ip + (i.width : Int) - 1 = m.ip + i.arity := by
    simp only [Instruction.width]
    omega
  simp only [resolve, final, traverse_locate, Ideal.fault?]
  by_cases outside : (m.memory.size : Int) ≤ m.ip + i.arity
  · rw [if_pos outside, if_pos (show (m.ideal.length : Int) ≤ m.ideal.ip + i.arity from outside)]
    rfl
  · rw [if_neg outside, if_neg (show ¬(m.ideal.length : Int) ≤ m.ideal.ip + i.arity from outside)]
    cases m.ideal.negative? i <;> rfl

theorem attempt_cases (m : Machine) (i : Instruction Mode Target) :
    m.attempt i = m.resolve i ∨
      ∃ budget, m.budget = some budget ∧ budget ≤ m.steps ∧
        m.attempt i = .error (Fault.raised (.stepLimit m.steps budget)) := by
  unfold attempt
  cases limited : m.budget with
  | none => exact Or.inl rfl
  | some budget =>
    by_cases spent : budget ≤ m.steps
    · exact Or.inr ⟨budget, rfl, spent, if_pos spent⟩
    · exact Or.inl (if_neg spent)

theorem ideal_settleStep (m : Machine) (outcome : Outcome) :
    (m.settleStep outcome).ideal = m.ideal := by
  cases outcome <;> rfl

/-- Why a machine cannot take a step that its ideal machine takes: the budget is spent, or memory
would have to grow by more than the allocator gives. -/
inductive Confined (m : Machine) : Fault → Prop where
  | budget {budget : Int} (limited : m.budget = some budget) (spent : budget ≤ m.steps) :
    Confined m (Fault.raised (.stepLimit m.steps budget))
  | allocation {fault : Fault} {i : Instruction Mode Target} {missing : Nat}
    (refused : fault.family = .allocation) (fetched : m.fetch = .ok i)
    (grown : m.ideal.reach i = m.memory.size + missing)
    (wide : m.memory.room < missing ∨ Word.bound ≤ missing) : Confined m fault

theorem Confined.missing {m : Machine} {fault : Fault} (confined : m.Confined fault)
    (refused : fault.family = .allocation) :
    ∃ i missing, m.fetch = .ok i ∧ m.ideal.reach i = m.memory.size + missing ∧
      (m.memory.room < missing ∨ Word.bound ≤ missing) := by
  cases confined with
  | @budget budget limited spent =>
    rcases Fault.raised_cases (.stepLimit m.steps budget) with ⟨-, same⟩ | ⟨-, same⟩ <;>
      rw [same] at refused <;> cases refused
  | allocation _ fetched grown wide => exact ⟨_, _, fetched, grown, wide⟩

/-- A step of a machine is one of its ideal machine, unless the budget or the allocator stops it.
A step that fails changes nothing. -/
theorem ideal_step (m : Machine) :
    (∃ fault, m.step = (.error fault, m) ∧ m.Confined fault) ∨
    (∃ fault, m.step = (.error fault, m) ∧ m.ideal.step = (.error fault, m.ideal)) ∨
    ∃ outcome next, m.step = (.ok outcome, next) ∧ m.ideal.step = (.ok outcome, next.ideal) := by
  cases fetched : m.fetch with
  | error fault =>
    exact Or.inr (Or.inl ⟨fault, step_of_fetch_error fetched, Ideal.step_of_fetch_error fetched⟩)
  | ok i =>
    have found : m.ideal.fetch = .ok i := fetched
    cases stalled : m.stall? i with
    | some outcome =>
      have ideally : m.ideal.step = (.ok outcome, (m.settleStep outcome).ideal) := by
        rw [ideal_settleStep]
        exact Ideal.step_of_stall found ((m.ideal_stall? i).trans stalled)
      exact Or.inr (Or.inr ⟨outcome, _, step_of_stall fetched stalled, ideally⟩)
    | none =>
      have free := (m.ideal_stall? i).trans stalled
      have stepped := step_of_attempt fetched stalled
      rcases m.attempt_cases i with tried | ⟨budget, limited, spent, tried⟩
      · rw [tried, resolve_eq] at stepped
        cases failed : m.ideal.fault? i with
        | some fault =>
          rw [failed] at stepped
          exact Or.inr (Or.inl ⟨fault, stepped, Ideal.step_of_fault found free failed⟩)
        | none =>
          rw [failed] at stepped
          cases refused : m.growthFault? (m.ideal.located i) with
          | some fault =>
            rw [refused] at stepped
            rw [growthFault?_located] at refused
            obtain ⟨family, wide⟩ := Memory.refusal?_eq_some refused
            have grown := (Nat.add_sub_cancel' (Ideal.length_le_reach m.ideal i)).symm
            exact Or.inl ⟨fault, stepped, .allocation family fetched grown wide⟩
          | none =>
            rw [refused] at stepped
            have ideally := Ideal.step_of_sound found free failed
            rw [← ideal_perform m i stalled] at ideally
            exact Or.inr (Or.inr ⟨.running, _, stepped, ideally⟩)
      · rw [tried] at stepped
        exact Or.inl ⟨_, stepped, .budget limited spent⟩

theorem ideal_step_of_ok {m next : Machine} {outcome : Outcome}
    (stepped : m.step = (.ok outcome, next)) : m.ideal.step = (.ok outcome, next.ideal) := by
  rcases m.ideal_step with ⟨fault, failed, -⟩ | ⟨fault, failed, -⟩ | ⟨_, _, same, ideally⟩
  · rw [failed] at stepped
    cases stepped
  · rw [failed] at stepped
    cases stepped
  · rw [same] at stepped
    cases stepped
    exact ideally

/-! ## Runs -/

theorem room_of_running {m next : Machine} (running : m.step = (.ok .running, next)) :
    next.memory.room = m.memory.room := by
  cases stepsTo_of_step running with
  | stalled fetched stalled => exact absurd stalled (stall?_ne_running m _)
  | @executed i j fetched free tried =>
    have grown : (m.cover j).memory.room = m.memory.room := by
      unfold cover
      split
      · rfl
      · exact Memory.room_extend _ _
    cases j with
    | input target =>
      rw [← grown]
      simp only [settleStep, perform]
      split <;> rfl
    | _ => exact grown

/-- The allocator gives as much all along. -/
theorem room_of_after {m final : Machine} {count : Nat} (ran : m.after count = some final) :
    final.memory.room = m.memory.room := by
  induction count generalizing m with
  | zero =>
    cases ran
    rfl
  | succ count ih =>
    unfold after at ran
    split at ran
    next next stepped => exact (ih ran).trans (room_of_running stepped)
    · cases ran

/-- As many instructions as a machine executes, its ideal machine executes too. -/
theorem ideal_after {m final : Machine} {count : Nat} (ran : m.after count = some final) :
    m.ideal.after count = some final.ideal := by
  induction count generalizing m with
  | zero =>
    cases ran
    rfl
  | succ count ih =>
    unfold after at ran
    split at ran
    next next stepped =>
      unfold Ideal.after
      rw [ideal_step_of_ok stepped]
      exact ih ran
    · cases ran

theorem ideal_ofCells (settings : Settings) (cells : List Int) (setup : Setup) :
    (ofCells settings cells setup).ideal = Ideal.ofCells cells setup.inputs := by
  ext1
  · funext address
    simp [ofCells, ideal, Ideal.ofCells, Memory.read, Array.getD_eq_getD_getElem?]
  all_goals rfl

/-- A machine and an ideal machine are in the same state. -/
structure Mirrors (m : Machine) (s : Ideal) : Prop where
  cells : ∀ address < s.length, m.memory.cells[address]? = some (s.cells address)
  beyond : ∀ address, s.length ≤ address → s.cells address = 0
  length : m.memory.cells.size = s.length
  ip : m.ip = s.ip
  base : m.base = s.base
  inputs : m.inputs = s.inputs
  outputs : m.outputs.toList = s.outputs

theorem mirrors_ideal (m : Machine) : m.Mirrors m.ideal where
  cells := by
    intro address inside
    have inside : address < m.memory.cells.size := inside
    simp [ideal, Memory.read, inside]
  beyond := fun address past => Memory.read_of_size_le _ _ past
  length := rfl
  ip := rfl
  base := rfl
  inputs := rfl
  outputs := rfl

/-- A machine with a program and the ideal machine with the same cells stay in the same state for
as many instructions as the former executes. From there on they take the same step again, unless
the budget or the allocator stops the machine: an executed instruction does what the table says, a
program at its end or without an input changes nothing, and a fault of the program is met by
both. How much the allocator gives is up to the settings, and stays the same: where it gives all
that is below `2 ^ 60` cells, it stops the machine only when at least that many are missing. -/
theorem mirrors_after {settings : Settings} {program : Program} {setup : Setup} {fresh : Machine}
    {count : Nat} {m : Machine} (loaded : load settings program setup = .ok fresh)
    (ran : fresh.after count = some m) :
    ∃ cells s, program.load = .ok cells ∧
      (Ideal.ofCells cells setup.inputs).after count = some s ∧ m.Mirrors s ∧
      m.memory.room = settings.room ∧
      (∀ next, m.step = (.ok .running, next) →
        ∃ s' i, s.step = (.ok .running, s') ∧ next.Mirrors s' ∧ s.fetch = .ok i ∧ s.Executes i s') ∧
      (∀ outcome next, m.step = (.ok outcome, next) → outcome ≠ .running →
        s.step = (.ok outcome, s) ∧ next.Mirrors s) ∧
      (∀ fault next, m.step = (.error fault, next) →
        next = m ∧ (s.step = (.error fault, s) ∨ m.Confined fault)) ∧
      ∀ fault, m.Confined fault → fault.family = .allocation → 2 ^ 60 ≤ settings.room + 1 →
        ∃ i missing, s.fetch = .ok i ∧ s.reach i = s.length + missing ∧ 2 ^ 60 ≤ missing := by
  obtain ⟨cells, read, rfl⟩ : ∃ cells, program.load = .ok cells ∧
      fresh = ofCells settings cells setup := by
    unfold load at loaded
    split at loaded
    · cases loaded
    next cells read =>
      cases loaded
      exact ⟨cells, read, rfl⟩
  have room : m.memory.room = settings.room := room_of_after ran
  refine ⟨cells, m.ideal, read, ?_, m.mirrors_ideal, room, ?_, ?_, ?_, ?_⟩
  · rw [← ideal_ofCells settings]
    exact ideal_after ran
  · intro next running
    have ideally := ideal_step_of_ok running
    obtain ⟨i, fetched, executes⟩ := Ideal.executes_of_running ideally
    exact ⟨next.ideal, i, ideally, next.mirrors_ideal, fetched, executes⟩
  · intro outcome next stepped stopped
    have ideally := ideal_step_of_ok stepped
    have same : next.ideal = m.ideal := Ideal.unchanged_of_not_running ideally (by simp [stopped])
    rw [same] at ideally
    exact ⟨ideally, same ▸ next.mirrors_ideal⟩
  · intro fault next failed
    rcases m.ideal_step with ⟨cause, stepped, confined⟩ | ⟨cause, stepped, ideally⟩ |
      ⟨outcome, _, stepped, -⟩
    · rw [stepped] at failed
      cases failed
      exact ⟨rfl, Or.inr confined⟩
    · rw [stepped] at failed
      cases failed
      exact ⟨rfl, Or.inl ideally⟩
    · rw [stepped] at failed
      cases failed
  · intro fault confined refused large
    obtain ⟨i, missing, fetched, grown, wide⟩ := confined.missing refused
    rw [room, Word.bound] at wide
    exact ⟨i, missing, fetched, grown, by omega⟩

/-- Writes the sum of two numbers to a cell beyond its own, and gives out what it finds there. -/
def sumBeyond : List Int :=
  [1101, 2, 3, 30, 204, 30, 99]

/-- The program makes both machines grow to the same length. -/
theorem mirrors_after_sumBeyond :
    ∃ fresh m s, load {} (.image sumBeyond) {} = .ok fresh ∧ fresh.after 2 = some m ∧
      (Ideal.ofCells sumBeyond []).after 2 = some s ∧ m.Mirrors s ∧
      s.length = 31 ∧ s.outputs = [5] := by
  have loaded : load {} (.image sumBeyond) {} = .ok (ofCells {} sumBeyond {}) := rfl
  obtain ⟨m, ran, size, outputs⟩ : ∃ m, (ofCells {} sumBeyond {}).after 2 = some m ∧
      m.memory.cells.size = 31 ∧ m.outputs.toList = [5] := ⟨_, rfl, rfl, rfl⟩
  obtain ⟨cells, s, read, ideally, mirrors, -⟩ := mirrors_after loaded ran
  cases read
  exact ⟨_, m, s, loaded, ran, ideally, mirrors, mirrors.length ▸ size,
    mirrors.outputs ▸ outputs⟩

end Machine

end Intcode
