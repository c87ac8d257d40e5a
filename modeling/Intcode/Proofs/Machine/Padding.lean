import Intcode.Proofs.Machine.Simulation
import Intcode.Proofs.Program

/-!
# Zeros behind a program

Cells past the end of memory hold zero, so zeros behind a program say nothing that is not true
without them. They do move the end of memory, against which a machine checks the pointer, the last
operand of an instruction and how far memory has to grow. All three checks can only become easier:
where a machine takes a step, the machine with zeros behind its cells takes the same step
(`step_padTo`), and the two keep apart by no more than these zeros (`run_padTo`).

This is about steps that succeed. A machine that fails for want of a cell need not fail any more
once it has more of them.
-/
namespace Intcode

namespace Memory

variable (memory : Memory) (address length : Nat)

/-- Memory with zeros behind its cells, up to a length that it may have already. -/
def padTo : Memory :=
  { memory with cells := memory.cells ++ Array.replicate (length - memory.size) 0 }

@[simp] theorem size_padTo : (memory.padTo length).size = max memory.size length := by
  simp only [padTo, size, Array.size_append, Array.size_replicate]
  omega

@[simp] theorem room_padTo : (memory.padTo length).room = memory.room :=
  rfl

@[simp] theorem read_padTo : (memory.padTo length).read address = memory.read address := by
  simp only [padTo, read, Array.getD_eq_getD_getElem?, Array.getElem?_append]
  split
  · rfl
  next past =>
    rw [Array.getElem?_eq_none (Nat.not_lt.mp past), Array.getElem?_replicate]
    split <;> rfl

/-- Memory is determined by the number of its cells, what they hold, and what the allocator
gives. -/
theorem eq_of_read {memory other : Memory} (room : memory.room = other.room)
    (size : memory.size = other.size)
    (read : ∀ address, memory.read address = other.read address) : memory = other := by
  obtain ⟨cells, given⟩ := memory
  obtain ⟨others, given'⟩ := other
  obtain rfl : given = given' := room
  congr 1
  apply Array.ext size
  intro index inside inside'
  simpa [Memory.read, Array.getD, inside, inside'] using read index

theorem extend_padTo :
    (memory.padTo length).extend address = (memory.extend address).padTo length := by
  apply eq_of_read
  · simp only [room_extend, room_padTo]
  · simp only [size_extend, size_padTo]
    omega
  · intro other
    simp only [read_extend, read_padTo]

theorem write_padTo (value : Int) (inside : address < memory.size) :
    (memory.padTo length).write address value = (memory.write address value).padTo length := by
  have inside' : address < (memory.padTo length).size := by
    rw [size_padTo]
    omega
  apply eq_of_read
  · simp only [room_write, room_padTo]
  · simp only [size_write, size_padTo]
  · intro other
    rw [read_padTo, read_write _ _ _ _ inside, read_write _ _ _ _ inside', read_padTo]

/-- With zeros behind the cells fewer of them are missing. -/
theorem growthFault?_padTo (granted : memory.growthFault? address = none) :
    (memory.padTo length).growthFault? address = none := by
  rw [growthFault?, refusal?_eq_none_iff, missing] at granted ⊢
  rw [size_padTo, room_padTo]
  omega

end Memory

namespace Machine

def padTo (m : Machine) (length : Nat) : Machine :=
  { m with memory := m.memory.padTo length }

variable {m next final : Machine} {i : Instruction Mode Target} {j : Instruction Place Nat}
  {outcome : Outcome} {fuel : Nat}

/-! ## One step -/

theorem fetch_padTo (length : Nat) (fetched : m.fetch = .ok i) :
    (m.padTo length).fetch = .ok i := by
  simp only [fetch, padTo, Memory.read_padTo, Memory.size_padTo] at fetched ⊢
  split at fetched
  · cases fetched
  next within =>
    rw [if_neg (by omega)]
    exact fetched

theorem traverse_padTo (m : Machine) (length : Nat) (i : Instruction Mode Target) :
    i.traverse (m.padTo length).locateSource (m.padTo length).locateTarget =
      i.traverse m.locateSource m.locateTarget := by
  have operand : ∀ k, (m.padTo length).operand k = m.operand k :=
    fun k => Memory.read_padTo _ _ _
  have source : (m.padTo length).locateSource = m.locateSource := by
    funext k mode
    cases mode <;> simp only [locateSource, operand] <;> rfl
  have target : (m.padTo length).locateTarget = m.locateTarget := by
    funext k target
    cases target <;> simp only [locateTarget, operand] <;> rfl
  rw [source, target]

theorem growthFault?_padTo (length : Nat) (granted : m.growthFault? j = none) :
    (m.padTo length).growthFault? j = none := by
  unfold growthFault? at granted ⊢
  cases highest : j.highest? with
  | none => rfl
  | some address =>
    simp only [highest] at granted
    exact Memory.growthFault?_padTo _ _ _ granted

theorem resolve_padTo (length : Nat) (resolved : m.resolve i = .ok j) :
    (m.padTo length).resolve i = .ok j := by
  simp only [resolve, traverse_padTo] at resolved ⊢
  split at resolved
  · cases resolved
  next within =>
    -- The end of memory only moves away from the last operand.
    have within' : ¬((m.padTo length).memory.size : Int) ≤ (m.padTo length).ip + i.width - 1 := by
      simp only [padTo, Memory.size_padTo]
      omega
    rw [if_neg within']
    split at resolved
    · cases resolved
    next located traversed =>
      split at resolved
      · cases resolved
      next granted =>
        cases resolved
        simp only [growthFault?_padTo length granted]

theorem attempt_padTo (length : Nat) (tried : m.attempt i = .ok j) :
    (m.padTo length).attempt i = .ok j := by
  unfold attempt at tried ⊢
  cases limited : m.budget with
  | none =>
    simp only [limited, padTo] at tried ⊢
    exact resolve_padTo length tried
  | some budget =>
    simp only [limited, padTo] at tried ⊢
    split at tried
    · cases tried
    next unspent =>
      rw [if_neg unspent]
      exact resolve_padTo length tried

theorem cover_padTo (m : Machine) (length : Nat) (j : Instruction Place Nat) :
    (m.padTo length).cover j = (m.cover j).padTo length := by
  unfold cover
  split
  · rfl
  · simp only [padTo, Memory.extend_padTo]

theorem value_padTo (m : Machine) (length : Nat) (place : Place) :
    (m.padTo length).value place = m.value place := by
  cases place with
  | constant value => rfl
  | cell address => exact Memory.read_padTo _ _ _

/-- The zeros stay behind what an instruction does, if memory covers its operands without them. -/
theorem perform_padTo (length : Nat)
    (covered : ∀ address, some address ∈ j.addresses → address < m.memory.size) :
    (m.padTo length).perform j = (m.perform j).padTo length := by
  cases j with
  | compute operation left right target =>
    have inside : target < m.memory.size := covered target (by simp [Instruction.addresses])
    simp only [perform, value_padTo]
    simp only [padTo, Memory.write_padTo _ _ _ _ inside]
  | input target =>
    have inside : target < m.memory.size := covered target (by simp [Instruction.addresses])
    cases queued : m.inputs with
    | nil => simp only [perform, padTo, queued]
    | cons value rest => simp only [perform, padTo, queued, Memory.write_padTo _ _ _ _ inside]
  | output value =>
    simp only [perform, value_padTo]
    rfl
  | jump sense condition destination =>
    simp only [perform, value_padTo]
    rfl
  | adjustBase amount =>
    simp only [perform, value_padTo]
    rfl
  | halt => rfl

theorem settleStep_padTo (m : Machine) (length : Nat) (outcome : Outcome) :
    (m.padTo length).settleStep outcome = (m.settleStep outcome).padTo length := by
  cases outcome <;> rfl

/-- Where a machine takes a step, it takes the same step with zeros behind its cells. -/
theorem step_padTo (length : Nat) (stepped : m.step = (.ok outcome, next)) :
    (m.padTo length).step = (.ok outcome, next.padTo length) := by
  cases stepsTo_of_step stepped with
  | stalled fetched stalled =>
    rw [← settleStep_padTo]
    exact step_of_stall (fetch_padTo length fetched) stalled
  | @executed i j fetched free tried =>
    have free' : (m.padTo length).stall? i = none := free
    rw [step_of_attempt (fetch_padTo length fetched) free', attempt_padTo length tried]
    simp only [cover_padTo, perform_padTo length fun _ => lt_size_cover m j, settleStep_padTo]

/-! ## Runs -/

/-- A run that does not fail is the same with zeros behind the cells, and they are still there at
its end. -/
theorem run_padTo (length : Nat) (ran : m.run fuel = (some (.ok outcome), final)) :
    (m.padTo length).run fuel = (some (.ok outcome), final.padTo length) := by
  induction fuel generalizing m with
  | zero => simp [run] at ran
  | succ fuel ih =>
    unfold run at ran ⊢
    split at ran
    next next stepped =>
      rw [step_padTo length stepped]
      exact ih ran
    next next stepped =>
      cases ran
      rw [step_padTo length stepped]
    next next stepped =>
      cases ran
      rw [step_padTo length stepped]
    next => simp at ran

theorem ofCells_append_zeros (settings : Settings) (cells : List Int) (zeros : Nat)
    (setup : Setup) :
    ofCells settings (cells ++ List.replicate zeros 0) setup =
      (ofCells settings cells setup).padTo (cells.length + zeros) := by
  simp [ofCells, padTo, Memory.padTo, Memory.size]

theorem load_append_zeros {settings : Settings} {cells : List Int} {setup : Setup}
    (loaded : load settings (.image cells) setup = .ok m) (zeros : Nat) :
    load settings (.image (cells ++ List.replicate zeros 0)) setup =
      .ok (m.padTo (cells.length + zeros)) := by
  unfold load Program.load at loaded ⊢
  cases checked : Program.checkCells 0 cells with
  | error fault => simp [checked] at loaded
  | ok accepted =>
    obtain ⟨rfl, fits⟩ := Program.checkCells_ok_iff.mp checked
    have fits' : ∀ cell ∈ accepted ++ List.replicate zeros 0, Word.fits cell := by
      intro cell member
      rcases List.mem_append.mp member with member | member
      · exact fits cell member
      · rw [List.eq_of_mem_replicate member]
        decide
    simp only [checked, Except.ok.injEq] at loaded
    subst loaded
    simp only [Program.checkCells_ok_iff.mpr ⟨rfl, fits'⟩, ofCells_append_zeros]

/-- Zeros behind a program make no difference to a run of it that halts or lacks an input, whatever
its inputs and its budget. With them it ends in the same way, after the same number of steps, and
leaves the same machine but for its memory: that has the zeros behind the cells which the run
without them leaves, as far as these do not reach the new end by themselves. -/
theorem run_append_zeros {settings : Settings} {cells : List Int} {setup : Setup}
    (loaded : load settings (.image cells) setup = .ok m)
    (ran : m.run fuel = (some (.ok outcome), final)) (zeros : Nat) :
    ∃ m' final', load settings (.image (cells ++ List.replicate zeros 0)) setup = .ok m' ∧
      m'.run fuel = (some (.ok outcome), final') ∧
      final' = { final with memory := final'.memory } ∧
      final'.memory.room = final.memory.room ∧
      final'.memory.size = max final.memory.size (cells.length + zeros) ∧
      final'.memory.cells.toList = final.memory.cells.toList ++
        List.replicate (final'.memory.size - final.memory.size) 0 := by
  refine ⟨_, _, load_append_zeros loaded zeros, run_padTo _ ran, rfl, rfl,
    Memory.size_padTo _ _, ?_⟩
  simp only [padTo, Memory.size_padTo]
  have left : max final.memory.size (cells.length + zeros) - final.memory.size =
      cells.length + zeros - final.memory.size := by omega
  rw [left, Memory.padTo, Array.toList_append, Array.toList_replicate]

/-- Stores its input beyond its own cells, adds a cell that was never written to, and gives out the
sum. -/
def addUnwritten : List Int :=
  [3, 20, 1, 20, 21, 22, 4, 22, 99]

/-- The program grows to 23 cells by itself, and to 39 with zeros that reach farther than that. -/
theorem run_append_zeros_addUnwritten :
    ∃ m final m' final', load {} (.image addUnwritten) { inputs := [5] } = .ok m ∧
      m.run 4 = (some (.ok .halted), final) ∧ final.memory.size = 23 ∧
      load {} (.image (addUnwritten ++ List.replicate 30 0)) { inputs := [5] } = .ok m' ∧
      m'.run 4 = (some (.ok .halted), final') ∧ final'.outputs = #[5] ∧
      final'.memory.size = 39 := by
  have loaded : load {} (.image addUnwritten) { inputs := [5] } =
      .ok (ofCells {} addUnwritten { inputs := [5] }) := rfl
  obtain ⟨final, ran, size, outputs⟩ :
      ∃ final, (ofCells {} addUnwritten { inputs := [5] }).run 4 = (some (.ok .halted), final) ∧
        final.memory.size = 23 ∧ final.outputs = #[5] := ⟨_, rfl, rfl, rfl⟩
  obtain ⟨m', final', loaded', ran', same, -, size', -⟩ := run_append_zeros loaded ran 30
  have outputs' : final'.outputs = #[5] := by
    rw [same]
    exact outputs
  rw [size] at size'
  exact ⟨_, final, m', final', loaded, ran, size, loaded', ran', outputs', size'⟩

end Machine

end Intcode
