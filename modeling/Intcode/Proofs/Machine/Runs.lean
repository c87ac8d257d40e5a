import Intcode.Proofs.Machine.Core

/-!
# Runs of a core

`Core.Runs c reads outputs d` says that instructions lead from `c` to `d`, and lists the inputs
that they read and the outputs that they write. It mentions no queue: how the inputs are fed, all
at once or one by one, makes no difference. Two runs from one core are stages of one another as
long as their inputs agree (`Runs.linear`), and a run that has come to an end confines all others
on inputs that agree with its own (`Runs.confined`, `Runs.ending_unique`). `Machine.run` is
connected with these runs in both directions.
-/
namespace Intcode

/-- One of two lists continues the other. -/
def Agree (xs ys : List Int) : Prop :=
  xs <+: ys ∨ ys <+: xs

namespace Agree

variable {xs ys zs : List Int} {x y : Int}

theorem of_isPrefix (left : xs <+: zs) (right : ys <+: zs) : Agree xs ys :=
  List.prefix_or_prefix_of_prefix left right

theorem symm (agree : Agree xs ys) : Agree ys xs :=
  Or.symm agree

theorem mono_left (agree : Agree xs ys) (shorter : zs <+: xs) : Agree zs ys := by
  rcases agree with below | above
  · exact Or.inl (shorter.trans below)
  · exact of_isPrefix shorter above

theorem cons_inj (agree : Agree (x :: xs) (y :: ys)) : x = y ∧ Agree xs ys := by
  rcases agree with below | above
  · obtain ⟨same, below⟩ := List.cons_prefix_cons.mp below
    exact ⟨same, Or.inl below⟩
  · obtain ⟨same, above⟩ := List.cons_prefix_cons.mp above
    exact ⟨same.symm, Or.inr above⟩

theorem append_left (agree : Agree xs ys) (zs : List Int) : Agree (zs ++ xs) (zs ++ ys) := by
  rcases agree with below | above
  · exact Or.inl ((List.prefix_append_right_inj zs).mpr below)
  · exact Or.inr ((List.prefix_append_right_inj zs).mpr above)

theorem of_append_left (agree : Agree (zs ++ xs) (zs ++ ys)) : Agree xs ys := by
  rcases agree with below | above
  · exact Or.inl ((List.prefix_append_right_inj zs).mp below)
  · exact Or.inr ((List.prefix_append_right_inj zs).mp above)

end Agree

namespace Core

/-- Instructions lead from one core to another, reading and writing the given values. -/
inductive Runs : Core → List Int → List Int → Core → Prop where
  | stay (c : Core) : Runs c [] [] c
  | go {c d e : Core} {reads outputs : List Int} (acts : c.act = .go d)
      (later : Runs d reads outputs e) : Runs c reads outputs e
  | write {c d e : Core} {reads outputs : List Int} {value : Int} (acts : c.act = .write value d)
      (later : Runs d reads outputs e) : Runs c reads (value :: outputs) e
  | read {c d e : Core} {reads outputs : List Int} {value : Int}
      {next : Int → Except Fault Core} (acts : c.act = .read next) (taken : next value = .ok d)
      (later : Runs d reads outputs e) : Runs c (value :: reads) outputs e

/-- How a machine with this core ends when the given inputs are all that is left to read; `none`
if it goes on. -/
def ending (c : Core) (rest : List Int) : Option (Except Fault Outcome) :=
  match c.act, rest with
  | .fail fault, _ => some (.error fault)
  | .halt, _ => some (.ok .halted)
  | .read _, [] => some (.ok .awaitingInput)
  | .read next, value :: _ =>
    match next value with
    | .error fault => some (.error fault)
    | .ok _ => none
  | .write .., _ | .go _, _ => none

section Ending

variable {c : Core} {fault : Fault} {value : Int} {rest : List Int}
  {next : Int → Except Fault Core}

theorem ending_of_fail (acts : c.act = .fail fault) : c.ending rest = some (.error fault) := by
  simp [ending, acts]

theorem ending_of_halt (acts : c.act = .halt) : c.ending rest = some (.ok .halted) := by
  simp [ending, acts]

theorem ending_of_starved (acts : c.act = .read next) :
    c.ending [] = some (.ok .awaitingInput) := by
  simp [ending, acts]

theorem ending_of_read_error (acts : c.act = .read next) (refused : next value = .error fault) :
    c.ending (value :: rest) = some (.error fault) := by
  simp [ending, acts, refused]

end Ending

def AsksInput (c : Core) : Prop :=
  ∃ next, c.act = .read next

/-- Whether an amplifier sends its outputs here: the core asks for an input, or halts. -/
def Due (c : Core) : Prop :=
  c.act = .halt ∨ c.AsksInput

namespace Runs

variable {c d e : Core} {reads outputs reads' outputs' rest rest' : List Int} {value : Int}
  {next : Int → Except Fault Core} {outcome outcome' : Except Fault Outcome}

theorem trans (first : Runs c reads outputs d) (second : Runs d reads' outputs' e) :
    Runs c (reads ++ reads') (outputs ++ outputs') e := by
  induction first with
  | stay c => exact second
  | go acts _ ih => exact .go acts (ih second)
  | write acts _ ih => exact .write acts (ih second)
  | read acts taken _ ih => exact .read acts taken (ih second)

theorem then_go (run : Runs c reads outputs d) (acts : d.act = .go e) :
    Runs c reads outputs e := by
  simpa using run.trans (.go acts (.stay e))

theorem then_write (run : Runs c reads outputs d) (acts : d.act = .write value e) :
    Runs c reads (outputs ++ [value]) e := by
  simpa using run.trans (.write acts (.stay e))

theorem then_read (run : Runs c reads outputs d) (acts : d.act = .read next)
    (taken : next value = .ok e) : Runs c (reads ++ [value]) outputs e := by
  simpa using run.trans (.read acts taken (.stay e))

theorem steps_le (run : Runs c reads outputs d) : c.steps ≤ d.steps := by
  induction run with
  | stay c => exact Nat.le_refl _
  | go acts _ ih => have := steps_of_go acts; omega
  | write acts _ ih => have := steps_of_write acts; omega
  | read acts taken _ ih => have := steps_of_read acts taken; omega

/-- A run that counts no step executes nothing. -/
theorem stay_of_steps (run : Runs c reads outputs d) (same : d.steps ≤ c.steps) :
    reads = [] ∧ outputs = [] ∧ c = d := by
  cases run with
  | stay c => exact ⟨rfl, rfl, rfl⟩
  | go acts later => have := steps_of_go acts; have := later.steps_le; omega
  | write acts later => have := steps_of_write acts; have := later.steps_le; omega
  | read acts taken later => have := steps_of_read acts taken; have := later.steps_le; omega

/-- Of two runs from one core on inputs that agree, one continues the other. -/
theorem linear (one : Runs c reads outputs d) (other : Runs c reads' outputs' e)
    (agree : Agree reads reads') :
    (∃ r o, reads' = reads ++ r ∧ outputs' = outputs ++ o ∧ Runs d r o e) ∨
      ∃ r o, reads = reads' ++ r ∧ outputs = outputs' ++ o ∧ Runs e r o d := by
  induction one generalizing reads' outputs' with
  | stay c => exact Or.inl ⟨reads', outputs', rfl, rfl, other⟩
  | @go c d₁ d r o acts later ih =>
    cases other with
    | stay => exact Or.inr ⟨r, o, rfl, rfl, .go acts later⟩
    | go acts' later' =>
      cases acts.symm.trans acts'
      exact ih later' agree
    | write acts' _ => cases acts.symm.trans acts'
    | read acts' _ _ => cases acts.symm.trans acts'
  | @write c d₁ d r o v acts later ih =>
    cases other with
    | stay => exact Or.inr ⟨r, v :: o, rfl, rfl, .write acts later⟩
    | go acts' _ => cases acts.symm.trans acts'
    | write acts' later' =>
      cases acts.symm.trans acts'
      rcases ih later' agree with ⟨r', o', rfl, rfl, run⟩ | ⟨r', o', rfl, rfl, run⟩
      · exact Or.inl ⟨r', o', rfl, rfl, run⟩
      · exact Or.inr ⟨r', o', rfl, rfl, run⟩
    | read acts' _ _ => cases acts.symm.trans acts'
  | @read c d₁ d r o v next acts taken later ih =>
    cases other with
    | stay => exact Or.inr ⟨v :: r, o, rfl, rfl, .read acts taken later⟩
    | go acts' _ => cases acts.symm.trans acts'
    | write acts' _ => cases acts.symm.trans acts'
    | read acts' taken' later' =>
      cases acts.symm.trans acts'
      obtain ⟨rfl, agrees⟩ := agree.cons_inj
      cases taken.symm.trans taken'
      rcases ih later' agrees with ⟨r', o', rfl, rfl, run⟩ | ⟨r', o', rfl, rfl, run⟩
      · exact Or.inl ⟨r', o', rfl, rfl, run⟩
      · exact Or.inr ⟨r', o', rfl, rfl, run⟩

/-- Of two runs on inputs that agree, the one that has come less far is a part of the other. -/
theorem part_of_steps_le (one : Runs c reads outputs d) (other : Runs c reads' outputs' e)
    (agree : Agree reads reads') (sooner : d.steps ≤ e.steps) :
    ∃ r o, reads' = reads ++ r ∧ outputs' = outputs ++ o ∧ Runs d r o e := by
  rcases one.linear other agree with part | ⟨r, o, rfl, rfl, beyond⟩
  · exact part
  · obtain ⟨rfl, rfl, rfl⟩ := beyond.stay_of_steps sooner
    exact ⟨[], [], by simp, by simp, .stay _⟩

/-- A core that has come to an end with the given inputs executes nothing more on them. -/
theorem stay_of_ending (run : Runs d reads outputs e) (ended : d.ending rest = some outcome)
    (inside : reads <+: rest) : reads = [] ∧ outputs = [] ∧ d = e := by
  cases run with
  | stay => exact ⟨rfl, rfl, rfl⟩
  | go acts _ => simp [ending, acts] at ended
  | write acts _ => simp [ending, acts] at ended
  | read acts taken _ =>
    cases rest with
    | nil => simp at inside
    | cons v rest =>
      obtain ⟨rfl, -⟩ := List.cons_prefix_cons.mp inside
      simp [ending, acts, taken] at ended

/-- A run that has come to an end continues every other run that reads no more than its inputs. -/
theorem confined (run : Runs c reads outputs d) (ended : d.ending rest = some outcome)
    (other : Runs c reads' outputs' e) (inside : reads' <+: reads ++ rest) :
    ∃ r o, reads = reads' ++ r ∧ outputs = outputs' ++ o ∧ Runs e r o d := by
  have agree : Agree reads reads' := .of_isPrefix (List.prefix_append reads rest) inside
  rcases run.linear other agree with ⟨r, o, rfl, rfl, beyond⟩ | before
  · have left : r <+: rest := (List.prefix_append_right_inj reads).mp inside
    obtain ⟨rfl, rfl, rfl⟩ := beyond.stay_of_ending ended left
    exact ⟨[], [], by simp, by simp, .stay _⟩
  · exact before

/-- A core that halts or fails on the given inputs executes nothing more on any that agree with
them. -/
theorem stay_of_definite (run : Runs d reads outputs e) (ended : d.ending rest = some outcome)
    (definite : outcome ≠ .ok .awaitingInput) (agree : Agree reads rest) :
    reads = [] ∧ outputs = [] ∧ d = e := by
  cases run with
  | stay => exact ⟨rfl, rfl, rfl⟩
  | go acts _ => simp [ending, acts] at ended
  | write acts _ => simp [ending, acts] at ended
  | read acts taken _ =>
    cases rest with
    | nil =>
      simp only [ending, acts, Option.some.injEq] at ended
      exact absurd ended.symm definite
    | cons v rest =>
      obtain ⟨rfl, -⟩ := agree.cons_inj
      simp [ending, acts, taken] at ended

/-- A run that has halted or failed continues every other run on inputs that agree with its
own. -/
theorem confined_of_definite (run : Runs c reads outputs d) (ended : d.ending rest = some outcome)
    (definite : outcome ≠ .ok .awaitingInput) (other : Runs c reads' outputs' e)
    (agree : Agree reads' (reads ++ rest)) :
    ∃ r o, reads = reads' ++ r ∧ outputs = outputs' ++ o ∧ Runs e r o d := by
  have agree' : Agree reads reads' := agree.symm.mono_left (List.prefix_append reads rest)
  rcases run.linear other agree' with ⟨r, o, rfl, rfl, beyond⟩ | before
  · obtain ⟨rfl, rfl, rfl⟩ := beyond.stay_of_definite ended definite agree.of_append_left
    exact ⟨[], [], by simp, by simp, .stay _⟩
  · exact before

/-- Two runs that have come to an end are the same, if the second was given no other inputs than
the first. A lack of inputs counts as an end only when both were given the same. -/
theorem ending_unique (run : Runs c reads outputs d) (ended : d.ending rest = some outcome)
    (other : Runs c reads' outputs' e) (ended' : e.ending rest' = some outcome')
    (inside : reads' ++ rest' <+: reads ++ rest)
    (fed : outcome' = .ok .awaitingInput → reads' ++ rest' = reads ++ rest) :
    e = d ∧ reads' = reads ∧ outputs' = outputs ∧ outcome' = outcome := by
  have shorter : reads' <+: reads ++ rest := (List.prefix_append _ _).trans inside
  obtain ⟨r, o, rfl, rfl, beyond⟩ := run.confined ended other shorter
  rw [List.append_assoc] at inside fed
  have left : rest' <+: r ++ rest := (List.prefix_append_right_inj reads').mp inside
  have whole : outcome' = .ok .awaitingInput → rest' = r ++ rest :=
    fun waits => List.append_cancel_left (fed waits)
  -- What is left of the first run is empty, whichever way the second one has ended.
  cases beyond with
  | stay =>
    refine ⟨rfl, by simp, by simp, ?_⟩
    simp only [List.nil_append] at left whole
    unfold ending at ended ended'
    cases acts : d.act with
    | read next =>
      cases rest' with
      | nil =>
        simp only [acts, Option.some.injEq] at ended'
        simp_all
      | cons v more =>
        cases rest with
        | nil => simp at left
        | cons w others =>
          obtain ⟨rfl, -⟩ := List.cons_prefix_cons.mp left
          simp_all
    | _ => simp_all
  | go acts _ => simp [ending, acts] at ended'
  | write acts _ => simp [ending, acts] at ended'
  | read acts taken _ =>
    cases rest' with
    | nil =>
      simp only [ending, acts, Option.some.injEq] at ended'
      simp at whole
      exact absurd ended'.symm whole
    | cons v more =>
      obtain ⟨rfl, -⟩ := List.cons_prefix_cons.mp left
      simp [ending, acts, taken] at ended'

/-- A run up to a request for an input passes a request for an input as soon as it has read what
comes before. -/
theorem cut (run : Runs c (reads ++ reads') outputs e) (asks : e.AsksInput) :
    ∃ o o' d, Runs c reads o d ∧ d.AsksInput ∧ Runs d reads' o' e ∧ outputs = o ++ o' := by
  generalize split : reads ++ reads' = all at run
  induction run generalizing reads with
  | stay c =>
    obtain ⟨rfl, rfl⟩ := List.append_eq_nil_iff.mp split
    exact ⟨[], [], c, .stay c, asks, .stay c, rfl⟩
  | go acts _ ih =>
    obtain ⟨o, o', d, before, between, after, rfl⟩ := ih asks split
    exact ⟨o, o', d, .go acts before, between, after, rfl⟩
  | @write _ _ _ _ _ v acts _ ih =>
    obtain ⟨o, o', d, before, between, after, rfl⟩ := ih asks split
    exact ⟨v :: o, o', d, .write acts before, between, after, rfl⟩
  | @read c _ _ _ outputs v next acts taken later ih =>
    cases reads with
    | nil =>
      simp only [List.nil_append] at split
      subst split
      exact ⟨[], outputs, c, .stay c, ⟨next, acts⟩, .read acts taken later, rfl⟩
    | cons w others =>
      obtain ⟨rfl, remaining⟩ := List.cons_eq_cons.mp split
      obtain ⟨o, o', d, before, between, after, rfl⟩ := ih asks remaining
      exact ⟨o, o', d, .read acts taken before, between, after, rfl⟩

end Runs

end Core

namespace Machine

open Intcode.Core

variable {m final : Machine} {fuel : Nat} {outcome : Except Fault Outcome}

/-- What a run that ended did, and how it left the machine. -/
theorem run_spec (ran : m.run fuel = (some outcome, final)) :
    ∃ reads outputs, m.inputs = reads ++ final.inputs ∧
      Runs m.core reads outputs final.core ∧
      final.outputs.toList = m.outputs.toList ++ outputs ∧
      final.core.ending final.inputs = some outcome ∧
      ∀ o, outcome = .ok o → final.last = some o := by
  induction fuel generalizing m with
  | zero => simp [run] at ran
  | succ fuel ih =>
    unfold run at ran
    cases acts : m.core.act with
    | fail fault =>
      simp only [step_of_fail acts, Prod.mk.injEq, Option.some.injEq] at ran
      obtain ⟨rfl, rfl⟩ := ran
      exact ⟨[], [], rfl, .stay _, by simp, ending_of_fail acts, by simp⟩
    | halt =>
      simp only [step_of_halt acts, Prod.mk.injEq, Option.some.injEq] at ran
      obtain ⟨rfl, rfl⟩ := ran
      exact ⟨[], [], rfl, .stay _, by simp, ending_of_halt acts, by simp⟩
    | read next =>
      cases given : m.inputs with
      | nil =>
        simp only [step_of_starved acts given, Prod.mk.injEq, Option.some.injEq] at ran
        obtain ⟨rfl, rfl⟩ := ran
        refine ⟨[], [], by simp [given], .stay _, by simp, ?_, by simp⟩
        simp only [given]
        exact ending_of_starved acts
      | cons value rest =>
        cases taken : next value with
        | error fault =>
          simp only [step_of_read_error acts given taken, Prod.mk.injEq, Option.some.injEq] at ran
          obtain ⟨rfl, rfl⟩ := ran
          refine ⟨[], [], by simp [given], .stay _, by simp, ?_, by simp⟩
          rw [given]
          exact ending_of_read_error acts taken
        | ok c =>
          simp only [step_of_read acts given taken] at ran
          obtain ⟨reads, outputs, fed, path, written, ended, last⟩ := ih ran
          exact ⟨value :: reads, outputs, by simpa [resume] using fed, .read acts taken path,
            written, ended, last⟩
    | write value c =>
      simp only [step_of_write acts] at ran
      obtain ⟨reads, outputs, fed, path, written, ended, last⟩ := ih ran
      exact ⟨reads, value :: outputs, fed, .write acts path, by simpa [resume] using written,
        ended, last⟩
    | go c =>
      simp only [step_of_go acts] at ran
      obtain ⟨reads, outputs, fed, path, written, ended, last⟩ := ih ran
      exact ⟨reads, outputs, fed, .go acts path, written, ended, last⟩

/-- What a run fails with is an execution fault. -/
theorem run_error {fault : Fault} (failed : m.run fuel = (some (.error fault), final)) :
    fault.isExecutionFault := by
  induction fuel generalizing m with
  | zero => simp [run] at failed
  | succ fuel ih =>
    unfold run at failed
    split at failed
    · exact ih failed
    · simp at failed
    · simp at failed
    next cause next stepped =>
      cases failed
      exact step_error stepped

end Machine

end Intcode
