import Intcode.Proofs.Machine.Simulation

/-!
# Instructions carried out in place

`Machine.execute` finds out whether an instruction can be executed before it computes the machine
that the instruction leaves. An `Action` goes the other way about it: it changes one machine bit by
bit, and what it has changed stays changed if it fails later on. `Action.execute` carries an
instruction out like this. It finds the addresses operand by operand, grows memory, takes an input,
assigns a cell and moves the pointer, and every access to memory is one that counts from the end
where an address is negative, and fails where there is no cell.

No such access ever goes wrong, and all that can go wrong does so before the first change. So the
action comes to the same as `execute`, machine and all (`Action.execute_eq`), and a counted step in
place to the same as `step` (`Action.step_eq`).

The order of effects is that of `fetch`, `resolve_addresses`, `ensure` and `step`, down to single
accesses to the list of cells.
-/
namespace Intcode

/-- Something that a machine does to itself. What it has changed by the time it fails stays
changed. -/
structure Action (α : Type) where
  run : Machine → Except Fault α × Machine

namespace Action

variable {α β : Type}

instance : Monad Action where
  pure value := ⟨fun m => (.ok value, m)⟩
  bind act next :=
    ⟨fun m =>
      match act.run m with
      | (.error fault, changed) => (.error fault, changed)
      | (.ok value, changed) => (next value).run changed⟩

def self : Action Machine :=
  ⟨fun m => (.ok m, m)⟩

def fail (fault : Fault) : Action α :=
  ⟨fun m => (.error fault, m)⟩

def change (update : Machine → Machine) : Action Unit :=
  ⟨fun m => (.ok (), update m)⟩

def lookUp (address : Int) : Action Int where
  run m :=
    match m.memory.locate? address with
    | some index => (.ok (m.memory.read index), m)
    | none => (.error .readOutOfRange, m)

def assign (address value : Int) : Action Unit where
  run m :=
    match m.memory.locate? address with
    | some index => (.ok (), { m with memory := m.memory.write index value })
    | none => (.error .writeOutOfRange, m)

def ensure (address : Int) : Action Unit where
  run m :=
    match m.memory.ensure address m.ip with
    | .ok memory => (.ok (), { m with memory })
    | .error fault => (.error fault, m)

def takeInput : Action Int where
  run m :=
    match m.inputs with
    | value :: rest => (.ok value, { m with inputs := rest })
    | [] => (.error .readOutOfRange, m)

def fetch : Action (Instruction Mode Target) := do
  let m ← self
  if m.ip < 0 ∨ (m.memory.size : Int) ≤ m.ip then
    fail (Fault.raised (.pointerOutOfBounds m.ip m.memory.size))
  else
    let word ← lookUp m.ip
    match Instruction.decode word m.ip with
    | .error fault => fail fault
    | .ok i => pure i

def accept (address : Int) : Action (Option Int) := do
  let m ← self
  if address < 0 then fail (Fault.raised (.negativeAddress address m.ip)) else pure (some address)

def addressOf (k : Nat) (mode : Mode) : Action (Option Int) := do
  let m ← self
  let raw ← lookUp (m.ip + k)
  match mode with
  | .position => accept raw
  | .immediate => pure none
  | .relative => accept (raw + m.base)

def addressesFrom : Nat → List Mode → Action (List (Option Int))
  | _, [] => pure []
  | k, mode :: rest => do
    let address ← addressOf k mode
    let others ← addressesFrom (k + 1) rest
    pure (address :: others)

/-- Grow memory to cover the largest of the addresses. -/
def cover (addresses : List (Option Int)) : Action Unit :=
  match (addresses.filterMap id).max? with
  | none => pure ()
  | some highest => ensure highest

def resolve (i : Instruction Mode Target) : Action (List (Option Int)) := do
  let m ← self
  let final : Int := m.ip + i.width - 1
  if (m.memory.size : Int) ≤ final then
    fail (Fault.raised (.pointerOutOfBounds final m.memory.size))
  else
    let addresses ← addressesFrom 1 i.modes
    cover addresses
    pure addresses

def valueOf (addresses : List (Option Int)) (k : Nat) : Action Int := do
  let m ← self
  match addresses[k - 1]? with
  | some (some address) => lookUp address
  | some none => lookUp (m.ip + k)
  | none => fail .readOutOfRange

def targetOf (addresses : List (Option Int)) (k : Nat) : Action Int :=
  match addresses[k - 1]? with
  | some (some address) => pure address
  | _ => fail .writeOutOfRange

def advance (width : Int) : Action Unit :=
  change fun m => { m with ip := m.ip + width }

def perform (addresses : List (Option Int)) : Instruction Mode Target → Action Unit
  | .compute operation .. => do
    let left ← valueOf addresses 1
    let right ← valueOf addresses 2
    let target ← targetOf addresses 3
    assign target (operation.eval left right)
    advance 4
  | .input _ => do
    -- From here on the input is gone, whatever becomes of it.
    let value ← takeInput
    let target ← targetOf addresses 1
    assign target value
    advance 2
  | .output _ => do
    let value ← valueOf addresses 1
    change fun m => { m with outputs := m.outputs.push value }
    advance 2
  | .jump sense .. => do
    let condition ← valueOf addresses 1
    if (condition != 0) = sense then
      let destination ← valueOf addresses 2
      change fun m => { m with ip := destination }
    else advance 3
  | .adjustBase _ => do
    let amount ← valueOf addresses 1
    change fun m => { m with base := m.base + amount }
    advance 2
  | .halt => pure ()

/-- Carry out the instruction at the pointer, whatever the budget. -/
def execute : Action Outcome := do
  let i ← fetch
  let m ← self
  match m.stall? i with
  | some outcome => pure outcome
  | none =>
    let addresses ← resolve i
    perform addresses i
    pure .running

/-- Carry out the instruction at the pointer within the budget, count it and remember what it came
to. -/
def step : Action Outcome := do
  let m ← self
  match m.budgetFault? with
  | some fault => fail fault
  | none =>
    let outcome ← execute
    change fun m => if outcome = .running then { m with steps := m.steps + 1 } else m
    change fun m => { m with last := some outcome }
    pure outcome

/-! ## Actions one after the other -/

section

variable {act : Action α} {next : α → Action β} {m changed : Machine}

theorem bind_of_ok {value : α} (done : act.run m = (.ok value, changed)) :
    (act >>= next).run m = (next value).run changed := by
  simp only [bind, done]

theorem bind_of_error {fault : Fault} (failed : act.run m = (.error fault, changed)) :
    (act >>= next).run m = (.error fault, changed) := by
  simp only [bind, failed]

@[simp] theorem bind_self (next : Machine → Action β) :
    (self >>= next).run m = (next m).run m :=
  bind_of_ok rfl

end

/-! ## Access to memory -/

section

variable {m : Machine} {address : Int}

theorem locate?_of_inside (positive : 0 ≤ address) (inside : address < m.memory.size) :
    m.memory.locate? address = some address.toNat := by
  simp only [Memory.locate?, if_neg (Int.not_lt.mpr positive)]
  rw [if_pos ⟨positive, inside⟩]

theorem lookUp_of_inside (positive : 0 ≤ address) (inside : address < m.memory.size) :
    (lookUp address).run m = (.ok (m.memory.read address.toNat), m) := by
  simp only [lookUp, locate?_of_inside positive inside]

theorem assign_of_inside (positive : 0 ≤ address) (inside : address < m.memory.size)
    (value : Int) :
    (assign address value).run m =
      (.ok (), { m with memory := m.memory.write address.toNat value }) := by
  simp only [assign, locate?_of_inside positive inside]

end

theorem fetch_eq (m : Machine) : fetch.run m = (m.fetch, m) := by
  simp only [fetch, bind_self, Machine.fetch]
  by_cases outside : m.ip < 0 ∨ (m.memory.size : Int) ≤ m.ip
  · rw [if_pos outside, if_pos outside]
    rfl
  · rw [if_neg outside, if_neg outside]
    rw [bind_of_ok (lookUp_of_inside (by omega) (by omega))]
    cases Instruction.decode (m.memory.read m.ip.toNat) m.ip <;> rfl

/-! ## Addresses -/

section

variable {m : Machine}

/-- What becomes of addresses one of which may be negative. -/
def checked (m : Machine) (addresses : List (Option Int)) : Except Fault (List (Option Int)) :=
  match (addresses.filterMap id).find? (· < 0) with
  | some address => .error (Fault.raised (.negativeAddress address m.ip))
  | none => .ok addresses

theorem accept_eq (m : Machine) (address : Int) :
    (accept address).run m =
      if address < 0 then (.error (Fault.raised (.negativeAddress address m.ip)), m)
      else (.ok (some address), m) := by
  simp only [accept, bind_self]
  split <;> rfl

theorem addressOf_eq {k : Nat} (mode : Mode) (positive : 0 ≤ m.ip)
    (inside : m.ip + k < m.memory.size) :
    (addressOf k mode).run m =
      match (m.ideal.address? k mode).filter (· < 0) with
      | some address => (.error (Fault.raised (.negativeAddress address m.ip)), m)
      | none => (.ok (m.ideal.address? k mode), m) := by
  simp only [addressOf, bind_self]
  rw [bind_of_ok (lookUp_of_inside (by omega) inside)]
  have accepted : ∀ address : Int, (accept address).run m =
      match (some address).filter (· < 0) with
      | some address => (.error (Fault.raised (.negativeAddress address m.ip)), m)
      | none => (.ok (some address), m) := by
    intro address
    rw [accept_eq]
    by_cases negative : address < 0 <;> simp [Option.filter, negative]
  cases mode with
  | position => exact accepted _
  | immediate => rfl
  | relative => exact accepted _

/-- The addresses are found as the ideal machine finds them; the first negative one is refused. -/
theorem addressesFrom_eq {k : Nat} (modes : List Mode) (positive : 0 ≤ m.ip)
    (inside : m.ip + k + modes.length ≤ m.memory.size) :
    (addressesFrom k modes).run m =
      (checked m (modes.mapIdx fun index mode => m.ideal.address? (k + index) mode), m) := by
  induction modes generalizing k with
  | nil => rfl
  | cons mode rest ih =>
    rw [List.length_cons] at inside
    have later := ih (k := k + 1) (by omega)
    simp only [addressesFrom, List.mapIdx_cons, Nat.add_zero, checked,
      Ideal.find?_addresses_cons]
    have first := addressOf_eq (k := k) mode positive (by omega)
    cases negative : (m.ideal.address? k mode).filter (· < 0) with
    | some address =>
      rw [negative] at first
      rw [bind_of_error first, Option.some_or]
    | none =>
      rw [negative] at first
      rw [bind_of_ok first, Option.none_or]
      simp only [← Nat.add_assoc, Nat.add_right_comm k _ 1]
      generalize rest.mapIdx (fun index mode => m.ideal.address? (k + 1 + index) mode) = others
        at later ⊢
      unfold checked at later
      cases found : (others.filterMap id).find? (· < 0) with
      | some address =>
        rw [found] at later
        exact bind_of_error later
      | none =>
        rw [found] at later
        exact bind_of_ok later

end

/-! ## Growth -/

theorem max?_map_toNat (xs : List Int) : (xs.map Int.toNat).max? = xs.max?.map Int.toNat := by
  cases xs with
  | nil => rfl
  | cons x xs =>
    simp only [List.map_cons, List.max?_cons', Option.map_some, List.foldl_map]
    induction xs generalizing x with
    | nil => rfl
    | cons y ys ih =>
      rw [List.foldl_cons, List.foldl_cons, show max x.toNat y.toNat = (max x y).toNat by omega]
      exact ih (max x y)

theorem highest?_located (m : Machine) (i : Instruction Mode Target) :
    (m.ideal.located i).highest? =
      ((m.ideal.addresses i).filterMap id).max?.map Int.toNat := by
  rw [← max?_map_toNat, Instruction.highest?, Ideal.addresses_located, List.filterMap_map,
    List.map_filterMap]
  rfl

theorem ensure_eq (m : Machine) {address : Int} (positive : 0 ≤ address) :
    (ensure address).run m =
      match m.memory.growthFault? address.toNat with
      | some fault => (.error fault, m)
      | none => (.ok (), { m with memory := m.memory.extend address.toNat }) := by
  simp only [ensure, Memory.ensure, if_neg (Int.not_lt.mpr positive)]
  cases m.memory.growthFault? address.toNat <;> rfl

/-- Growing in place covers the located operands, or it fails and changes nothing. -/
theorem cover_eq {m : Machine} {i : Instruction Mode Target}
    (sound : m.ideal.negative? i = none) :
    (cover (m.ideal.addresses i)).run m =
      match m.growthFault? (m.ideal.located i) with
      | some fault => (.error fault, m)
      | none => (.ok (), m.cover (m.ideal.located i)) := by
  simp only [cover, Machine.growthFault?, Machine.cover, highest?_located]
  cases highest : ((m.ideal.addresses i).filterMap id).max? with
  | none => rfl
  | some address =>
    have positive : 0 ≤ address := by
      simpa using List.find?_eq_none.mp sound address (List.max?_mem highest)
    exact ensure_eq m positive

/-- Resolving finds the addresses and grows memory, or it fails and changes nothing. -/
theorem resolve_eq {m : Machine} (i : Instruction Mode Target) (positive : 0 ≤ m.ip) :
    (resolve i).run m =
      match m.resolve i with
      | .error fault => (.error fault, m)
      | .ok _ => (.ok (m.ideal.addresses i), m.cover (m.ideal.located i)) := by
  have final : m.ip + (i.width : Int) - 1 = m.ip + i.arity := by
    simp only [Instruction.width]
    omega
  rw [Machine.resolve_eq]
  simp only [resolve, bind_self, final, Ideal.fault?]
  by_cases outside : (m.memory.size : Int) ≤ m.ip + i.arity
  · rw [if_pos outside, if_pos (show (m.ideal.length : Int) ≤ m.ideal.ip + i.arity from outside)]
    rfl
  · rw [if_neg outside, if_neg (show ¬(m.ideal.length : Int) ≤ m.ideal.ip + i.arity from outside)]
    have found := addressesFrom_eq (k := 1) i.modes positive (by rw [i.length_modes]; omega)
    simp only [Nat.add_comm 1] at found
    rw [show i.modes.mapIdx (fun index mode => m.ideal.address? (index + 1) mode) =
      m.ideal.addresses i from rfl, checked,
      show ((m.ideal.addresses i).filterMap id).find? (· < 0) = m.ideal.negative? i from rfl]
      at found
    cases sound : m.ideal.negative? i with
    | some address =>
      rw [sound] at found
      exact bind_of_error found
    | none =>
      rw [sound] at found
      rw [bind_of_ok found]
      have grown := cover_eq sound
      simp only [Option.map_none]
      cases refused : m.growthFault? (m.ideal.located i) with
      | some fault =>
        rw [refused] at grown
        exact bind_of_error grown
      | none =>
        rw [refused] at grown
        exact bind_of_ok grown

/-! ## Effects -/

section

variable {m : Machine} {i : Instruction Mode Target}

/-- An address that is referred to is covered by the memory that has grown. -/
theorem inside_cover (sound : m.ideal.negative? i = none) {address : Int}
    (referred : some address ∈ m.ideal.addresses i) :
    0 ≤ address ∧ address < (m.cover (m.ideal.located i)).memory.size := by
  have positive : 0 ≤ address := by
    simpa using List.find?_eq_none.mp sound address (List.mem_filterMap.mpr ⟨_, referred, rfl⟩)
  have located : some address.toNat ∈ (m.ideal.located i).addresses := by
    rw [Ideal.addresses_located]
    exact List.mem_map.mpr ⟨_, referred, rfl⟩
  have covered := Machine.lt_size_cover m _ located
  exact ⟨positive, by omega⟩

theorem valueOf_eq {k : Nat} {mode : Mode} (positive : 0 ≤ m.ip)
    (inside : m.ip + k < m.memory.size) (sound : m.ideal.negative? i = none)
    (found : (m.ideal.addresses i)[k - 1]? = some (m.ideal.address? k mode)) :
    (valueOf (m.ideal.addresses i) k).run (m.cover (m.ideal.located i)) =
      (.ok ((m.cover (m.ideal.located i)).value (m.ideal.place k mode)),
        m.cover (m.ideal.located i)) := by
  have pointer := m.ip_cover (m.ideal.located i)
  have grown := m.size_le_cover (m.ideal.located i)
  simp only [valueOf, bind_self, found]
  cases mode with
  | position =>
    obtain ⟨low, high⟩ := inside_cover sound (List.mem_of_getElem? found)
    exact lookUp_of_inside low high
  | immediate =>
    simp only [Ideal.address?]
    rw [pointer, lookUp_of_inside (by omega) (by omega), Machine.read_cover]
    rfl
  | relative =>
    obtain ⟨low, high⟩ := inside_cover sound (List.mem_of_getElem? found)
    exact lookUp_of_inside low high

/-- An operand that is written has an address, and memory has grown to cover it. -/
theorem targetOf_eq (k : Nat) (target : Target) (sound : m.ideal.negative? i = none)
    (found : (m.ideal.addresses i)[k - 1]? = some (m.ideal.address? k target.mode)) :
    ∃ address, (∀ m', (targetOf (m.ideal.addresses i) k).run m' = (.ok address, m')) ∧
      address.toNat = m.ideal.cell k target ∧ 0 ≤ address ∧
      address < (m.cover (m.ideal.located i)).memory.size := by
  obtain ⟨address, referred⟩ : ∃ address, m.ideal.address? k target.mode = some address := by
    cases target <;> exact ⟨_, rfl⟩
  rw [referred] at found
  obtain ⟨low, high⟩ := inside_cover sound (List.mem_of_getElem? found)
  refine ⟨address, ?_, ?_, low, high⟩
  · intro m'
    simp only [targetOf, found]
    rfl
  · rw [Ideal.cell, referred]
    rfl

theorem perform_eq (positive : 0 ≤ m.ip) (inside : m.ip + i.arity < m.memory.size)
    (sound : m.ideal.negative? i = none) (free : m.stall? i = none) :
    (perform (m.ideal.addresses i) i).run (m.cover (m.ideal.located i)) =
      (.ok (), (m.cover (m.ideal.located i)).perform (m.ideal.located i)) := by
  have value : ∀ k mode, k ≤ i.arity →
      (m.ideal.addresses i)[k - 1]? = some (m.ideal.address? k mode) →
      (valueOf (m.ideal.addresses i) k).run (m.cover (m.ideal.located i)) =
        (.ok ((m.cover (m.ideal.located i)).value (m.ideal.place k mode)),
          m.cover (m.ideal.located i)) :=
    fun k mode within found => valueOf_eq positive (by omega) sound found
  cases i with
  | compute operation left right target =>
    obtain ⟨address, aimed, same, low, high⟩ := targetOf_eq 3 target sound rfl
    simp only [perform]
    rw [bind_of_ok (value 1 left (by simp [Instruction.arity]) rfl),
      bind_of_ok (value 2 right (by simp [Instruction.arity]) rfl), bind_of_ok (aimed _),
      bind_of_ok (assign_of_inside low high _), same]
    rfl
  | input target =>
    obtain ⟨address, aimed, same, low, high⟩ := targetOf_eq 1 target sound rfl
    cases queued : m.inputs with
    | nil => simp [Machine.stall?, queued] at free
    | cons first rest =>
      have waits : (m.cover (m.ideal.located (.input target))).inputs = first :: rest := by
        rw [Machine.cover_eq]
        exact queued
      generalize m.cover (m.ideal.located (.input target)) = grown at high waits ⊢
      have taken : takeInput.run grown = (.ok first, { grown with inputs := rest }) := by
        simp only [takeInput, waits]
      have assigned := assign_of_inside (m := { grown with inputs := rest }) low high first
      simp only [perform]
      rw [bind_of_ok taken, bind_of_ok (aimed _), bind_of_ok assigned, same]
      simp only [Machine.perform, Ideal.located, waits]
      rfl
  | output operand =>
    simp only [perform]
    rw [bind_of_ok (value 1 operand (by simp [Instruction.arity]) rfl)]
    rfl
  | jump sense condition destination =>
    have first := value 1 condition (by simp [Instruction.arity]) rfl
    have second := value 2 destination (by simp [Instruction.arity]) rfl
    generalize m.cover (m.ideal.located (.jump sense condition destination)) = grown
      at first second ⊢
    simp only [perform, Machine.perform, Ideal.located]
    rw [bind_of_ok first]
    by_cases taken : (grown.value (m.ideal.place 1 condition) != 0) = sense
    · rw [if_pos taken, if_pos taken, bind_of_ok second]
      rfl
    · rw [if_neg taken, if_neg taken]
      rfl
  | adjustBase amount =>
    simp only [perform]
    rw [bind_of_ok (value 1 amount (by simp [Instruction.arity]) rfl)]
    rfl
  | halt => simp [Machine.stall?] at free

end

/-! ## Steps -/

theorem sound_of_resolve {m : Machine} {i : Instruction Mode Target} {j : Instruction Place Nat}
    (resolved : m.resolve i = .ok j) :
    m.ip + i.arity < m.memory.size ∧ m.ideal.negative? i = none ∧ j = m.ideal.located i := by
  rw [Machine.resolve_eq] at resolved
  cases failed : m.ideal.fault? i with
  | some fault => simp [failed] at resolved
  | none =>
    have within : ¬(m.ideal.length : Int) ≤ m.ideal.ip + i.arity := by
      intro outside
      simp [Ideal.fault?, outside] at failed
    rw [Ideal.fault?, if_neg within, Option.map_eq_none_iff] at failed
    simp only [Ideal.fault?, if_neg within, failed, Option.map_none] at resolved
    split at resolved <;> cases resolved
    exact ⟨Int.not_le.mp within, failed, rfl⟩

/-- Carrying out an instruction in place comes to the same as executing it. -/
theorem execute_eq (m : Machine) : execute.run m = m.execute := by
  simp only [execute, Machine.execute]
  cases fetched : m.fetch with
  | error fault => exact bind_of_error (by rw [fetch_eq, fetched])
  | ok i =>
    rw [bind_of_ok (by rw [fetch_eq, fetched]), bind_self]
    dsimp only
    cases stalled : m.stall? i with
    | some outcome => rfl
    | none =>
      -- Without this an operand could be found by counting from the end of memory.
      have positive := Machine.ip_nonneg_of_fetch fetched
      have resolved := resolve_eq i positive
      cases located : m.resolve i with
      | error fault =>
        rw [located] at resolved
        exact bind_of_error resolved
      | ok j =>
        obtain ⟨inside, sound, rfl⟩ := sound_of_resolve located
        rw [located] at resolved
        rw [bind_of_ok resolved, bind_of_ok (perform_eq positive inside sound stalled)]
        rfl

/-- A step in place comes to the same as a step. -/
theorem step_eq (m : Machine) : step.run m = m.step := by
  simp only [step, bind_self, Machine.step]
  cases m.budgetFault? with
  | some fault => rfl
  | none =>
    dsimp only
    rcases executed : m.execute with ⟨fault | outcome, next⟩
    · exact bind_of_error ((execute_eq m).trans executed)
    · rw [bind_of_ok ((execute_eq m).trans executed)]
      cases outcome <;> rfl

end Action

end Intcode
