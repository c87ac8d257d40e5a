import Intcode.Batch
import Intcode.Proofs.Instruction.Encoding
import Intcode.Proofs.Machine.Budget
import Intcode.Proofs.Machine.Resumption
import Intcode.Proofs.Program
import Intcode.Proofs.Program.Grammar

/-!
# What escapes from a batch run

A batch run returns, fails, or goes on for ever. Why an instruction cannot be executed is told by
`Machine.Breaks`, whose faults are all of the interpreter's own family. `Escapes` lists the faults
that are not: a literal that is too long to be read, a cell or a fault with a number that is too
long to be written, and an instruction that an ideal machine executes, but for which memory would
have to grow by more than the allocator gives (`Machine.Overreaches`).
-/
namespace Intcode

theorem Ideal.running_iff {s next : Ideal} : s.step = (.ok .running, next) ↔
    ∃ i, s.fetch = .ok i ∧ s.stall? i = none ∧ s.fault? i = none ∧ s.perform i = next := by
  constructor
  · intro running
    unfold step at running
    split at running
    · cases running
    next i fetched =>
      split at running
      next stalled =>
        cases running
        exact absurd stalled (s.stall?_ne_running i)
      next free =>
        split at running
        · cases running
        next sound =>
          cases running
          exact ⟨i, fetched, free, sound, rfl⟩
  · rintro ⟨i, fetched, free, sound, rfl⟩
    exact step_of_sound fetched free sound

namespace Machine

/-- The budget allows another step. -/
def Unspent (m : Machine) : Prop :=
  ∀ budget, m.budget = some budget → m.steps < budget

/-- Why the instruction at the pointer cannot be executed. -/
inductive Breaks (m : Machine) : Fault → Prop where
  | astray (outside : m.ip < 0 ∨ (m.memory.size : Int) ≤ m.ip) :
      Breaks m (.pointerOutOfBounds m.ip m.memory.size)
  | meaningless {cause : Fault} (inside : 0 ≤ m.ip ∧ m.ip < m.memory.size)
      (refuses : Instruction.Refuses (m.memory.read m.ip.toNat) m.ip cause) : Breaks m cause
  | spent {i : Instruction Mode Target} {budget : Int} (fetched : m.fetch = .ok i)
      (free : m.stall? i = none) (limited : m.budget = some budget) (spent : budget ≤ m.steps) :
      Breaks m (.stepLimit m.steps budget)
  /-- The instruction does not end inside memory. -/
  | cutOff {i : Instruction Mode Target} (fetched : m.fetch = .ok i) (free : m.stall? i = none)
      (unspent : m.Unspent) (outside : (m.memory.size : Int) ≤ m.ip + i.arity) :
      Breaks m (.pointerOutOfBounds (m.ip + i.arity) m.memory.size)
  | negative {i : Instruction Mode Target} {address : Int} (fetched : m.fetch = .ok i)
      (free : m.stall? i = none) (unspent : m.Unspent) (inside : m.ip + i.arity < m.memory.size)
      (first : m.ideal.negative? i = some address) : Breaks m (.negativeAddress address m.ip)

/-- The budget allows a step, and an ideal machine takes it, but memory would have to grow by so
many cells for it. -/
def Overreaches (m : Machine) (missing : Nat) : Prop :=
  m.Unspent ∧ ∃ next, m.ideal.step = (.ok .running, next) ∧ next.length = m.memory.size + missing

variable {m next : Machine} {i : Instruction Mode Target} {fault cause : Fault} {missing : Nat}

/-! ## Steps -/

theorem attempt_of_unspent (unspent : m.Unspent) : m.attempt i = m.resolve i := by
  rcases m.attempt_cases i with tried | ⟨budget, limited, spent, -⟩
  · exact tried
  · exact absurd spent (Int.not_le.mpr (unspent budget limited))

theorem Breaks.isInterpreterFault (breaks : m.Breaks cause) :
    cause.isInterpreterFault = true := by
  cases breaks with
  | meaningless inside refuses => cases refuses <;> rfl
  | _ => rfl

/-- A machine that cannot execute the instruction at its pointer fails, and stays as it is. -/
theorem Breaks.step (breaks : m.Breaks cause) : m.step = (.error cause.raised, m) := by
  cases breaks with
  | astray outside => exact step_of_fetch_error (if_pos outside)
  | meaningless inside refuses =>
    have found : m.fetch = .error cause.raised := by
      rw [fetch, if_neg (by omega), refuses.decode]
    exact step_of_fetch_error found
  | spent fetched free limited spent =>
    rw [step_of_attempt fetched free]
    simp only [attempt, limited, if_pos spent]
  | cutOff fetched free unspent outside =>
    have failed : m.ideal.fault? _ = some _ := if_pos outside
    rw [step_of_attempt fetched free, attempt_of_unspent unspent, resolve_eq, failed]
    rfl
  | @negative i address fetched free unspent inside first =>
    have failed : m.ideal.fault? i = some (Fault.raised (.negativeAddress address m.ip)) := by
      have below : ¬(m.ideal.length : Int) ≤ m.ideal.ip + i.arity := Int.not_le.mpr inside
      rw [Ideal.fault?, if_neg below, first]
      rfl
    rw [step_of_attempt fetched free, attempt_of_unspent unspent, resolve_eq, failed]

theorem breaks_of_fetch_error (failed : m.fetch = .error fault) :
    ∃ cause, m.Breaks cause ∧ fault = cause.raised := by
  unfold fetch at failed
  split at failed
  next outside =>
    cases failed
    exact ⟨_, .astray outside, rfl⟩
  next inside =>
    obtain ⟨defect, refuses, rfl⟩ := Instruction.decode_error_iff.mp failed
    exact ⟨defect, .meaningless (by omega) refuses, rfl⟩

theorem breaks_of_fault? (fetched : m.fetch = .ok i) (free : m.stall? i = none)
    (unspent : m.Unspent) (failed : m.ideal.fault? i = some fault) :
    ∃ cause, m.Breaks cause ∧ fault = cause.raised := by
  unfold Ideal.fault? at failed
  split at failed
  next outside =>
    cases failed
    exact ⟨_, .cutOff fetched free unspent outside, rfl⟩
  next inside =>
    obtain ⟨address, first, rfl⟩ := Option.map_eq_some_iff.mp failed
    exact ⟨_, .negative fetched free unspent (Int.not_le.mp inside) first, rfl⟩

/-- A step fails because the instruction cannot be executed, or because it overreaches. -/
theorem step_error_cases (failed : m.step = (.error fault, next)) :
    (∃ cause, m.Breaks cause ∧ fault = cause.raised) ∨
      ∃ missing, m.Overreaches missing ∧ m.memory.refusal? missing = some fault := by
  cases stepsTo_of_step failed with
  | unfetched fetched => exact Or.inl (breaks_of_fetch_error fetched)
  | @refused i fault fetched free refused =>
    by_cases unspent : m.Unspent
    · rw [attempt_of_unspent unspent, resolve_eq] at refused
      cases unsound : m.ideal.fault? i with
      | some cause =>
        rw [unsound] at refused
        cases refused
        exact Or.inl (breaks_of_fault? fetched free unspent unsound)
      | none =>
        rw [unsound, growthFault?_located] at refused
        cases short : m.memory.refusal? (m.ideal.reach i - m.memory.size) with
        | none =>
          rw [short] at refused
          cases refused
        | some cause =>
          rw [short] at refused
          cases refused
          refine Or.inr ⟨_, ⟨unspent, m.ideal.perform i, ?_, ?_⟩, short⟩
          · exact Ideal.step_of_sound fetched ((m.ideal_stall? i).trans free) unsound
          · exact (Nat.add_sub_cancel' (Ideal.length_le_reach m.ideal i)).symm
    · obtain ⟨budget, limited, spent⟩ : ∃ budget, m.budget = some budget ∧ budget ≤ m.steps := by
        simpa [Unspent] using unspent
      simp only [attempt, limited, if_pos spent] at refused
      cases refused
      exact Or.inl ⟨_, .spent fetched free limited spent, rfl⟩

theorem Overreaches.step (overreaches : m.Overreaches missing)
    (refused : m.memory.refusal? missing = some fault) : m.step = (.error fault, m) := by
  obtain ⟨unspent, next, running, length⟩ := overreaches
  obtain ⟨i, fetched, free, sound, rfl⟩ := Ideal.running_iff.mp running
  have reach : m.ideal.reach i = m.memory.size + missing := length
  rw [step_of_attempt fetched ((m.ideal_stall? i).symm.trans free), attempt_of_unspent unspent,
    resolve_eq, sound, growthFault?_located, reach, Nat.add_sub_cancel_left, refused]

/-! ## Runs -/

/-- A run fails if and only if it comes to a step that fails. -/
theorem run_fails_iff : (∃ fuel final, m.run fuel = (some (.error fault), final)) ↔
    ∃ count last final, m.Stops count last (.error fault) final := by
  constructor
  · rintro ⟨fuel, final, ran⟩
    obtain ⟨count, -, last, stops⟩ := stops_of_run ran
    exact ⟨count, last, final, stops⟩
  · rintro ⟨count, last, final, reached, stepped, ended⟩
    refine ⟨count + 1, final, ?_⟩
    rw [run_of_after reached, run_of_step stepped ended]

end Machine

namespace Batch

/-- The faults that are not of the interpreter's family and that a batch run fails with. -/
inductive Escapes (settings : Settings) (program : Program) (inputs : List Int)
    (budget : Option Int) : Fault → Prop where
  /-- The leftmost part of the text that is refused is a literal with more than 4300 digits. -/
  | overlong {listing : String} {parts : List (List Char)} {digits : Nat}
      (text : program = .text listing) (cut : Program.HasParts listing.toList parts)
      (refuses : Program.RefusesFirst 0 parts (.overlongLiteral digits)) :
      Escapes settings program inputs budget (.overlongLiteral digits)
  /-- The leftmost cell that is refused has more digits than can be written. -/
  | overlongCell {before after : List Int} {cell : Int}
      (image : program = .image (before ++ cell :: after))
      (accepted : ∀ value ∈ before, Word.fits value) (long : Text.isWritable cell = false) :
      Escapes settings program inputs budget .overlongNumber
  /-- After so many executed instructions, there is one that cannot be executed, for a reason that
  has a number with more digits than can be written in it. -/
  | unworded {cells : List Int} {count : Nat} {last : Machine} {cause : Fault} {n : Int}
      (loaded : program.load = .ok cells)
      (reached : (Machine.ofCells settings cells { inputs, budget }).after count = some last)
      (breaks : last.Breaks cause) (member : n ∈ cause.numbers)
      (long : Text.isWritable n = false) :
      Escapes settings program inputs budget (.unworded cause)
  /-- After so many executed instructions, there is one for which there are too few cells. -/
  | overreach {cells : List Int} {count missing : Nat} {last : Machine} {fault : Fault}
      (loaded : program.load = .ok cells)
      (reached : (Machine.ofCells settings cells { inputs, budget }).after count = some last)
      (overreaches : last.Overreaches missing)
      (refused : last.memory.refusal? missing = some fault) :
      Escapes settings program inputs budget fault

variable {settings : Settings} {program : Program} {inputs cells : List Int} {budget : Option Int}
  {fault : Fault} {fuel : Nat}

theorem run_of_load_error (unloaded : program.load = .error fault) :
    run settings fuel program inputs budget = .failure fault #[] := by
  simp only [run, Machine.load, unloaded]

theorem result_of_load (loaded : program.load = .ok cells) :
    (run settings fuel program inputs budget).result =
      match (Machine.ofCells settings cells { inputs, budget }).run fuel with
      | (none, _) => none
      | (some (.error fault), _) => some (.error fault)
      | (some (.ok _), final) => some (.ok final.outputs.toList) := by
  simp only [run, Machine.load, loaded, collect]
  rcases (Machine.ofCells settings cells { inputs, budget }).run fuel with
    ⟨_ | fault | outcome, final⟩
  · rfl
  · rfl
  · cases outcome <;> rfl

/-- A batch run never comes to an end, or it comes to one and the same end however long it is given
beyond that. -/
theorem run_ends_or_diverges (settings : Settings) (program : Program) (inputs : List Int)
    (budget : Option Int) :
    (∀ fuel, (run settings fuel program inputs budget).result = none) ∨
      ∃ bound ending, ∀ fuel, bound ≤ fuel →
        (run settings fuel program inputs budget).result = some ending := by
  cases loaded : program.load with
  | error fault =>
    refine Or.inr ⟨0, .error fault, fun fuel _ => ?_⟩
    rw [run_of_load_error loaded, Report.failure]
  | ok cells =>
    by_cases ends : ∃ fuel outcome final,
        (Machine.ofCells settings cells { inputs, budget }).run fuel = (some outcome, final)
    · obtain ⟨bound, outcome, final, ran⟩ := ends
      have later : ∀ fuel, bound ≤ fuel →
          (Machine.ofCells settings cells { inputs, budget }).run fuel = (some outcome, final) := by
        intro fuel enough
        rw [← Nat.add_sub_cancel' enough]
        exact Machine.run_add ran _
      cases outcome with
      | error fault =>
        refine Or.inr ⟨bound, .error fault, fun fuel enough => ?_⟩
        rw [result_of_load loaded, later fuel enough]
      | ok outcome =>
        refine Or.inr ⟨bound, .ok final.outputs.toList, fun fuel enough => ?_⟩
        rw [result_of_load loaded, later fuel enough]
    · refine Or.inl fun fuel => ?_
      rw [result_of_load loaded]
      rcases ran : (Machine.ofCells settings cells { inputs, budget }).run fuel with
        ⟨_ | outcome, final⟩
      · rfl
      · exact absurd ⟨fuel, outcome, final, ran⟩ ends

theorem fails_iff_of_load (loaded : program.load = .ok cells) :
    (∃ fuel, (run settings fuel program inputs budget).result = some (.error fault)) ↔
      ∃ count last final, (Machine.ofCells settings cells { inputs, budget }).Stops count last
        (.error fault) final := by
  rw [← Machine.run_fails_iff]
  constructor
  · rintro ⟨fuel, failed⟩
    exact ⟨fuel, run_of_error loaded failed⟩
  · rintro ⟨fuel, final, ran⟩
    exact ⟨fuel, by rw [result_of_load loaded, ran]⟩

/-- A program that cannot be loaded fails with a fault of the interpreter, or one of its literals or
cells is too long. -/
theorem load_error_cases (unloaded : program.load = .error fault) :
    fault.isInterpreterFault = true ∨ Escapes settings program inputs budget fault := by
  cases program with
  | text listing =>
    rcases Program.parse_error_iff.mp unloaded with ⟨-, rfl⟩ | ⟨parts, cut, refuses⟩
    · exact Or.inl rfl
    · obtain ⟨before, part, after, split, read, refused⟩ := refuses
      cases refused with
      | malformed strips meaningless => exact Or.inl rfl
      | wide strips denotes short outside => exact Or.inl rfl
      | overlong strips denotes long =>
        exact Or.inr (.overlong rfl cut
          ⟨before, part, after, split, read, .overlong strips denotes long⟩)
  | image values =>
    rcases Program.checkCells_error_cases unloaded with own | ⟨rfl, before, cell, after, rfl, fit, long⟩
    · exact Or.inl own
    · exact Or.inr (.overlongCell rfl fit long)

/-- What a step fails with is a fault of the interpreter, or it escapes. -/
theorem step_error_cases {count : Nat} {last final : Machine} (loaded : program.load = .ok cells)
    (stops : (Machine.ofCells settings cells { inputs, budget }).Stops count last
      (.error fault) final) :
    fault.isInterpreterFault = true ∨ Escapes settings program inputs budget fault := by
  rcases Machine.step_error_cases stops.stepped with ⟨cause, breaks, rfl⟩ |
    ⟨missing, overreaches, refused⟩
  · by_cases writable : ∀ n ∈ cause.numbers, Text.isWritable n
    · rw [Fault.raised_of_writable writable]
      exact Or.inl breaks.isInterpreterFault
    · obtain ⟨n, member, long⟩ : ∃ n ∈ cause.numbers, Text.isWritable n = false := by
        simpa using writable
      rw [Fault.raised_of_overlong member long]
      exact Or.inr (.unworded loaded stops.reached breaks member long)
  · exact Or.inr (.overreach loaded stops.reached overreaches refused)

theorem Escapes.fails (escapes : Escapes settings program inputs budget fault) :
    ∃ fuel, (run settings fuel program inputs budget).result = some (.error fault) := by
  cases escapes with
  | overlong text cut refuses =>
    subst text
    have unloaded : (Program.text _).load = .error _ :=
      Program.parse_error_iff.mpr (Or.inr ⟨_, cut, refuses⟩)
    exact ⟨0, by rw [run_of_load_error unloaded, Report.failure]⟩
  | @overlongCell before after cell image accepted long =>
    subst image
    have unloaded : (Program.image (before ++ cell :: after)).load = .error .overlongNumber :=
      Program.checkCells_of_overlong accepted long
    exact ⟨0, by rw [run_of_load_error unloaded, Report.failure]⟩
  | unworded loaded reached breaks member long =>
    have stepped := breaks.step
    rw [Fault.raised_of_overlong member long] at stepped
    exact (fails_iff_of_load loaded).mpr ⟨_, _, _, reached, stepped, by simp⟩
  | overreach loaded reached overreaches refused =>
    exact (fails_iff_of_load loaded).mpr
      ⟨_, _, _, reached, overreaches.step refused, by simp⟩

theorem Escapes.foreign (escapes : Escapes settings program inputs budget fault) :
    fault.isInterpreterFault = false := by
  cases escapes with
  | overlong text cut refuses => rfl
  | overlongCell image accepted long => rfl
  | unworded loaded reached breaks member long => rfl
  | overreach loaded reached overreaches refused =>
    rw [Fault.isInterpreterFault, (Memory.refusal?_eq_some refused).1]
    rfl

/-- A batch run goes on for ever, or it comes to an end, which is the same however long it is given.
The end is a list of outputs, a fault of the interpreter's own family, or one of the faults that
escape from it. -/
theorem run_escapes (settings : Settings) (program : Program) (inputs : List Int)
    (budget : Option Int) :
    ((∀ fuel, (run settings fuel program inputs budget).result = none) ∨
      ∃ bound ending, ∀ fuel, bound ≤ fuel →
        (run settings fuel program inputs budget).result = some ending) ∧
    ∀ fault, (∃ fuel, (run settings fuel program inputs budget).result = some (.error fault)) ∧
        fault.isInterpreterFault = false ↔ Escapes settings program inputs budget fault := by
  refine ⟨run_ends_or_diverges settings program inputs budget, fun fault => ⟨?_, ?_⟩⟩
  · rintro ⟨fails, foreign⟩
    cases loaded : program.load with
    | error cause =>
      obtain ⟨fuel, failed⟩ := fails
      rw [run_of_load_error loaded] at failed
      cases failed
      refine (load_error_cases loaded).resolve_left ?_
      simp [foreign]
    | ok cells =>
      obtain ⟨count, last, final, stops⟩ := (fails_iff_of_load loaded).mp fails
      refine (step_error_cases loaded stops).resolve_left ?_
      simp [foreign]
  · intro escapes
    exact ⟨escapes.fails, escapes.foreign⟩

/-- Looks up the last cell that a signed 64-bit word can refer to. -/
def farthest : Program :=
  .text "1,9223372036854775807,0,0,99"

/-- Squares ten again and again, and goes where that leads. -/
def climber : List Int :=
  (List.replicate 13 [2, 55, 55, 55]).flatten ++ [105, 1, 55, 10]

theorem after_climber : ∃ last, (Machine.ofCells {} climber {}).after 14 = some last ∧
    last.ip = (10 ^ 8192 : Nat) ∧ last.memory.size = 56 := by
  have reached : ((Machine.ofCells {} climber {}).after 14).map
      (fun last => (last.ip, last.memory.size)) = some (((10 ^ 8192 : Nat) : Int), 56) := by
    decide +kernel
  obtain ⟨last, after, same⟩ := Option.map_eq_some_iff.mp reached
  exact ⟨last, after, (Prod.mk.inj same).1, (Prod.mk.inj same).2⟩

theorem breaks_climber {last : Machine} (pointer : last.ip = (10 ^ 8192 : Nat))
    (size : last.memory.size = 56) : last.Breaks (.pointerOutOfBounds (10 ^ 8192 : Nat) 56) := by
  have far : ∀ n, 2 ≤ n → 56 ≤ 10 ^ n :=
    fun n more => Nat.le_trans (by decide : 56 ≤ 10 ^ 2) (Nat.pow_le_pow_right (by decide) more)
  have outside : (last.memory.size : Int) ≤ last.ip := by
    rw [pointer, size]
    exact Int.ofNat_le.mpr (far _ (by decide))
  rw [← size, ← pointer]
  exact .astray (Or.inr outside)

/-- Both programs fail, and not with a fault of the interpreter: the one asks for more cells than
there are, the other comes to a pointer of 8193 digits. -/
theorem run_farthest :
    (run {} 1 farthest [] none).result = some (.error .memoryExhausted) ∧
      Fault.memoryExhausted.isInterpreterFault = false ∧
      (∃ fuel, (run {} fuel (.image climber) [] none).result =
        some (.error (.unworded (.pointerOutOfBounds (10 ^ 8192 : Nat) 56)))) ∧
      (Fault.unworded (.pointerOutOfBounds (10 ^ 8192 : Nat) 56)).isInterpreterFault = false := by
  obtain ⟨last, reached, pointer, size⟩ := after_climber
  have stepped := (breaks_climber pointer size).step
  rw [Fault.raised_of_overlong List.mem_cons_self
    (Text.not_isWritable_pow (by decide)).1] at stepped
  have loaded : (Program.image climber).load = .ok climber := by decide +kernel
  exact ⟨rfl, rfl, (fails_iff_of_load loaded).mpr ⟨14, last, last, reached, stepped, nofun⟩, rfl⟩

/-- A program text of nothing but digits escapes when there are more than 4300 of them. -/
theorem escapes_of_digits {digits : List Char} (ascii : ∀ c ∈ digits, c.isDigit)
    (long : 4300 < digits.length) :
    Escapes settings (.text (String.ofList digits)) inputs budget
      (.overlongLiteral digits.length) := by
  have solid : ∀ c ∈ digits, Text.isBlank c = false :=
    fun c member => Program.isBlank_of_isDigit (ascii c member)
  have inhabited : digits ≠ [] := List.ne_nil_of_length_pos (by omega)
  have strips : Text.Strips digits digits := by
    refine ⟨⟨[], [], by simp, by simp, by simp⟩, fun c first => ?_, fun c last => ?_⟩
    · exact solid c (List.mem_of_mem_head? first)
    · exact solid c (List.mem_of_mem_getLast? last)
  have whole : digits.splitOn ',' = [digits] := by
    rw [← Text.fields_eq_splitOn]
    exact Text.fields_of_not_mem fun member => by cases ascii ',' member
  refine .overlong rfl ⟨digits, String.toList_ofList ▸ strips, inhabited, Or.inr ⟨whole, ?_⟩⟩ ?_
  · simpa using inhabited
  · exact ⟨[], digits, [], rfl, by simp, .overlong strips (.unsigned inhabited ascii) long⟩

/-- What is missing for the farthest cell is more than there is, but can still be counted. A literal
of 4301 digits escapes as well. -/
theorem run_escapes_farthest :
    Escapes {} farthest [] none .memoryExhausted ∧
      ∃ fuel, (run {} fuel (.text (String.ofList (.replicate 4301 '1'))) [] none).result =
        some (.error (.overlongLiteral 4301)) := by
  obtain ⟨-, far⟩ := run_escapes {} farthest [] none
  obtain ⟨-, long⟩ := run_escapes {} (.text (String.ofList (.replicate 4301 '1'))) [] none
  have escapes : Escapes {} (.text (String.ofList (.replicate 4301 '1'))) [] none
      (.overlongLiteral (List.replicate 4301 '1').length) := by
    refine escapes_of_digits (fun c member => ?_) ?_
    · rw [List.eq_of_mem_replicate member]
      rfl
    · rw [List.length_replicate]
      decide
  rw [List.length_replicate] at escapes
  exact ⟨(far _).mp ⟨⟨1, rfl⟩, rfl⟩, ((long _).mpr escapes).1⟩

end Batch

end Intcode
