import Intcode.Proofs.Machine.InPlace

/-!
# Instructions as requests

An `Action` has the whole machine at hand. A `Script` has not: it sees the registers and the number
of cells, and it learns the content of a cell only by asking for it. So there is no access to a cell
that is not a request, and carrying a script out leaves a record of all of them, each with the
number of cells at that moment (`Script.accesses`). A request is answered as carelessly as an action
answers it: a negative address counts from the end of memory, and where there is no cell the script
fails.

`Script.execute` carries out the instruction at the pointer like this. It goes step by step with
`Action.execute`, and so comes to the same as `Machine.execute` (`Script.run_execute`).

The scripts follow `fetch`, `resolve_addresses` and `step` access by access. Requests for the length
are not recorded: they cannot go wrong.
-/
namespace Intcode

/-- What an instruction deals with besides memory. -/
structure Registers where
  ip : Int
  base : Int
  inputs : List Int
  outputs : Array Int

namespace Machine

abbrev registers (m : Machine) : Registers :=
  ⟨m.ip, m.base, m.inputs, m.outputs⟩

def withRegisters (m : Machine) (r : Registers) : Machine :=
  { m with ip := r.ip, base := r.base, inputs := r.inputs, outputs := r.outputs }

end Machine

/-- An access to a cell: the integer that refers to it, and the number of cells at that moment. -/
structure Memory.Access where
  index : Int
  size : Nat
  deriving DecidableEq, Repr

/-- Requests to a machine, one after the other. -/
inductive Script (α : Type) where
  | done (value : α)
  | fail (fault : Fault)
  /-- See the registers and the number of cells. -/
  | inspect (next : Registers → Nat → Script α)
  | update (registers : Registers) (next : Script α)
  | read (address : Int) (next : Int → Script α)
  | write (address value : Int) (next : Script α)
  | grow (address : Int) (next : Script α)

namespace Script

variable {α β : Type}

def andThen : Script α → (α → Script β) → Script β
  | done value, next => next value
  | fail fault, _ => fail fault
  | inspect use, next => inspect fun registers size => (use registers size).andThen next
  | update registers rest, next => update registers (rest.andThen next)
  | read address use, next => read address fun value => (use value).andThen next
  | write address value rest, next => write address value (rest.andThen next)
  | grow address rest, next => grow address (rest.andThen next)

instance : Monad Script where
  pure := done
  bind := andThen

/-- The access comes before all others. -/
def noted (m : Machine) (address : Int) (rest : (Except Fault α × Machine) × List Memory.Access) :
    (Except Fault α × Machine) × List Memory.Access :=
  (rest.1, ⟨address, m.memory.size⟩ :: rest.2)

/-- Carry a script out: its answer, the machine that it leaves, and its accesses in order. -/
def carryOut : Script α → Machine → (Except Fault α × Machine) × List Memory.Access
  | done value, m => ((.ok value, m), [])
  | fail fault, m => ((.error fault, m), [])
  | inspect use, m => (use m.registers m.memory.size).carryOut m
  | update registers rest, m => rest.carryOut (m.withRegisters registers)
  | read address use, m =>
    noted m address <|
      match m.memory.locate? address with
      | some index => (use (m.memory.read index)).carryOut m
      | none => ((.error .readOutOfRange, m), [])
  | write address value rest, m =>
    noted m address <|
      match m.memory.locate? address with
      | some index => rest.carryOut { m with memory := m.memory.write index value }
      | none => ((.error .writeOutOfRange, m), [])
  | grow address rest, m =>
    match m.memory.ensure address m.ip with
    | .ok memory => rest.carryOut { m with memory }
    | .error fault => ((.error fault, m), [])

def run (script : Script α) (m : Machine) : Except Fault α × Machine :=
  (script.carryOut m).1

def accesses (script : Script α) (m : Machine) : List Memory.Access :=
  (script.carryOut m).2

/-! ## Instructions as scripts -/

def lookUp (address : Int) : Script Int :=
  read address done

def assign (address value : Int) : Script Unit :=
  write address value (done ())

def change (f : Registers → Registers) : Script Unit :=
  inspect fun r _ => update (f r) (done ())

def fetch : Script (Instruction Mode Target) :=
  inspect fun r size =>
    if r.ip < 0 ∨ (size : Int) ≤ r.ip then fail (Fault.raised (.pointerOutOfBounds r.ip size))
    else do
      let word ← lookUp r.ip
      match Instruction.decode word r.ip with
      | .error fault => fail fault
      | .ok i => pure i

def accept (address : Int) : Script (Option Int) :=
  inspect fun r _ =>
    if address < 0 then fail (Fault.raised (.negativeAddress address r.ip)) else pure (some address)

/-- The address that an operand refers to. An immediate operand is looked up for nothing. -/
def addressOf (k : Nat) (mode : Mode) : Script (Option Int) :=
  inspect fun r _ => do
    let raw ← lookUp (r.ip + k)
    match mode with
    | .position => accept raw
    | .immediate => pure none
    | .relative => accept (raw + r.base)

def addressesFrom : Nat → List Mode → Script (List (Option Int))
  | _, [] => pure []
  | k, mode :: rest => do
    let address ← addressOf k mode
    let others ← addressesFrom (k + 1) rest
    pure (address :: others)

/-- Grow memory to cover the largest of the addresses. -/
def cover (addresses : List (Option Int)) : Script Unit :=
  match (addresses.filterMap id).max? with
  | none => pure ()
  | some highest => grow highest (done ())

def resolve (i : Instruction Mode Target) : Script (List (Option Int)) :=
  inspect fun r size =>
    let final : Int := r.ip + i.width - 1
    if (size : Int) ≤ final then fail (Fault.raised (.pointerOutOfBounds final size))
    else do
      let addresses ← addressesFrom 1 i.modes
      cover addresses
      pure addresses

def valueOf (addresses : List (Option Int)) (k : Nat) : Script Int :=
  inspect fun r _ =>
    match addresses[k - 1]? with
    | some (some address) => lookUp address
    | some none => lookUp (r.ip + k)
    | none => fail .readOutOfRange

/-- The address of an operand that is written; without one there is nothing to assign. -/
def targetOf (addresses : List (Option Int)) (k : Nat) : Script Int :=
  match addresses[k - 1]? with
  | some (some address) => pure address
  | _ => fail .writeOutOfRange

def takeInput : Script Int :=
  inspect fun r _ =>
    match r.inputs with
    | value :: rest => update { r with inputs := rest } (done value)
    | [] => fail .readOutOfRange

def advance (width : Int) : Script Unit :=
  change fun r => { r with ip := r.ip + width }

def perform (addresses : List (Option Int)) : Instruction Mode Target → Script Unit
  | .compute operation .. => do
    let left ← valueOf addresses 1
    let right ← valueOf addresses 2
    let target ← targetOf addresses 3
    assign target (operation.eval left right)
    advance 4
  | .input _ => do
    let value ← takeInput
    let target ← targetOf addresses 1
    assign target value
    advance 2
  | .output _ => do
    let value ← valueOf addresses 1
    change fun r => { r with outputs := r.outputs.push value }
    advance 2
  | .jump sense .. => do
    let condition ← valueOf addresses 1
    if (condition != 0) = sense then
      let destination ← valueOf addresses 2
      change fun r => { r with ip := destination }
    else advance 3
  | .adjustBase _ => do
    let amount ← valueOf addresses 1
    change fun r => { r with base := r.base + amount }
    advance 2
  | .halt => pure ()

def execute : Script Outcome := do
  let i ← fetch
  inspect fun r _ =>
    if i.opcode = 99 then pure .halted
    else if i.opcode = 3 ∧ r.inputs = [] then pure .awaitingInput
    else do
      let addresses ← resolve i
      perform addresses i
      pure .running

/-! ## Scripts one after the other -/

/-- What a sequence of scripts does, with the accesses of the second behind those of the first. -/
theorem carryOut_bind (script : Script α) (next : α → Script β) (m : Machine) :
    (script >>= next).carryOut m =
      match script.carryOut m with
      | ((.error fault, changed), accesses) => ((.error fault, changed), accesses)
      | ((.ok value, changed), accesses) =>
        (((next value).carryOut changed).1, accesses ++ ((next value).carryOut changed).2) := by
  induction script generalizing m with
  | done value => rfl
  | fail fault => rfl
  | inspect use ih => exact ih m.registers m.memory.size m
  | update registers rest ih => exact ih (m.withRegisters registers)
  | read address use ih =>
    show carryOut (read address fun value => use value >>= next) m = _
    simp only [carryOut]
    cases m.memory.locate? address with
    | none => rfl
    | some index =>
      simp only [ih, noted]
      rcases (use (m.memory.read index)).carryOut m with ⟨⟨fault | value, changed⟩, accesses⟩ <;>
        rfl
  | write address value rest ih =>
    show carryOut (write address value (rest >>= next)) m = _
    simp only [carryOut]
    cases m.memory.locate? address with
    | none => rfl
    | some index =>
      simp only [ih, noted]
      rcases rest.carryOut { m with memory := m.memory.write index value } with
        ⟨⟨fault | value, changed⟩, accesses⟩ <;> rfl
  | grow address rest ih =>
    show carryOut (grow address (rest >>= next)) m = _
    simp only [carryOut]
    cases m.memory.ensure address m.ip with
    | error fault => rfl
    | ok memory => exact ih { m with memory }

theorem run_inspect (use : Registers → Nat → Script α) (m : Machine) :
    (inspect use).run m = (use m.registers m.memory.size).run m :=
  rfl

section

variable {script : Script α} {next : α → Script β} {act : Action α} {later : α → Action β}
  {m : Machine}

/-- A sequence of scripts comes to the same as a sequence of actions. -/
theorem run_bind (same : script.run m = act.run m)
    (rest : ∀ value changed, (next value).run changed = (later value).run changed) :
    (script >>= next).run m = (act >>= later).run m := by
  unfold run at same ⊢
  rw [carryOut_bind]
  rcases carried : script.carryOut m with ⟨⟨fault | value, changed⟩, earlier⟩
  · rw [carried] at same
    exact (Action.bind_of_error same.symm).symm
  · rw [carried] at same
    rw [Action.bind_of_ok same.symm]
    exact rest value changed

end

/-! ## The same as in place -/

theorem run_lookUp (address : Int) (m : Machine) :
    (lookUp address).run m = (Action.lookUp address).run m := by
  simp only [run, lookUp, carryOut, noted, Action.lookUp]
  cases m.memory.locate? address <;> rfl

theorem run_assign (address value : Int) (m : Machine) :
    (assign address value).run m = (Action.assign address value).run m := by
  simp only [run, assign, carryOut, noted, Action.assign]
  cases m.memory.locate? address <;> rfl

theorem run_fetch (m : Machine) : fetch.run m = Action.fetch.run m := by
  simp only [fetch, run_inspect, Action.fetch, Action.bind_self]
  split
  · rfl
  · refine run_bind (run_lookUp m.ip m) fun word changed => ?_
    cases Instruction.decode word m.ip <;> rfl

theorem run_accept (address : Int) (m : Machine) :
    (accept address).run m = (Action.accept address).run m := by
  simp only [accept, run_inspect, Action.accept, Action.bind_self]
  split <;> rfl

theorem run_addressOf (k : Nat) (mode : Mode) (m : Machine) :
    (addressOf k mode).run m = (Action.addressOf k mode).run m := by
  simp only [addressOf, run_inspect, Action.addressOf, Action.bind_self]
  refine run_bind (run_lookUp (m.ip + k) m) fun raw changed => ?_
  cases mode with
  | position => exact run_accept raw changed
  | immediate => rfl
  | relative => exact run_accept (raw + m.base) changed

theorem run_addressesFrom (k : Nat) (modes : List Mode) (m : Machine) :
    (addressesFrom k modes).run m = (Action.addressesFrom k modes).run m := by
  induction modes generalizing k m with
  | nil => rfl
  | cons mode rest ih =>
    refine run_bind (run_addressOf k mode m) fun address changed => ?_
    exact run_bind (ih (k + 1) changed) fun _ _ => rfl

theorem run_cover (addresses : List (Option Int)) (m : Machine) :
    (cover addresses).run m = (Action.cover addresses).run m := by
  simp only [cover, Action.cover]
  cases (addresses.filterMap id).max? with
  | none => rfl
  | some highest =>
    simp only [run, carryOut, Action.ensure]
    cases m.memory.ensure highest m.ip <;> rfl

theorem run_resolve (i : Instruction Mode Target) (m : Machine) :
    (resolve i).run m = (Action.resolve i).run m := by
  simp only [resolve, run_inspect, Action.resolve, Action.bind_self]
  split
  · rfl
  · refine run_bind (run_addressesFrom 1 i.modes m) fun addresses changed => ?_
    exact run_bind (run_cover addresses changed) fun _ _ => rfl

theorem run_valueOf (addresses : List (Option Int)) (k : Nat) (m : Machine) :
    (valueOf addresses k).run m = (Action.valueOf addresses k).run m := by
  simp only [valueOf, run_inspect, Action.valueOf, Action.bind_self]
  rcases addresses[k - 1]? with _ | _ | address
  · rfl
  · exact run_lookUp (m.ip + k) m
  · exact run_lookUp address m

theorem run_targetOf (addresses : List (Option Int)) (k : Nat) (m : Machine) :
    (targetOf addresses k).run m = (Action.targetOf addresses k).run m := by
  simp only [targetOf, Action.targetOf]
  rcases addresses[k - 1]? with _ | _ | address <;> rfl

theorem run_takeInput (m : Machine) : takeInput.run m = Action.takeInput.run m := by
  simp only [takeInput, run_inspect, Action.takeInput]
  cases m.inputs <;> rfl

theorem run_perform (addresses : List (Option Int)) (i : Instruction Mode Target) (m : Machine) :
    (perform addresses i).run m = (Action.perform addresses i).run m := by
  cases i with
  | compute operation left right target =>
    refine run_bind (run_valueOf addresses 1 m) fun left m => ?_
    refine run_bind (run_valueOf addresses 2 m) fun right m => ?_
    refine run_bind (run_targetOf addresses 3 m) fun target m => ?_
    exact run_bind (run_assign target (operation.eval left right) m) fun _ _ => rfl
  | input target =>
    refine run_bind (run_takeInput m) fun value m => ?_
    refine run_bind (run_targetOf addresses 1 m) fun target m => ?_
    exact run_bind (run_assign target value m) fun _ _ => rfl
  | output value => exact run_bind (run_valueOf addresses 1 m) fun _ _ => rfl
  | jump sense condition destination =>
    refine run_bind (run_valueOf addresses 1 m) fun condition m => ?_
    split
    · exact run_bind (run_valueOf addresses 2 m) fun _ _ => rfl
    · rfl
  | adjustBase amount => exact run_bind (run_valueOf addresses 1 m) fun _ _ => rfl
  | halt => rfl

/-- Carrying out an instruction by requests comes to the same as executing it. -/
theorem run_execute (m : Machine) : execute.run m = m.execute := by
  rw [← Action.execute_eq]
  refine run_bind (run_fetch m) fun i m => ?_
  simp only [run_inspect, Action.bind_self]
  rw [← m.ideal_stall? i, Ideal.stall?]
  by_cases halts : i.opcode = 99
  · simp only [if_pos halts]
    rfl
  · simp only [if_neg halts]
    by_cases starved : i.opcode = 3 ∧ m.inputs = []
    · rw [if_pos starved, if_pos (show i.opcode = 3 ∧ m.ideal.inputs = [] from starved)]
      rfl
    · rw [if_neg starved, if_neg (show ¬(i.opcode = 3 ∧ m.ideal.inputs = []) from starved)]
      refine run_bind (run_resolve i m) fun addresses m => ?_
      exact run_bind (run_perform addresses i m) fun _ _ => rfl

end Script

end Intcode
