import Intcode.Proofs.Machine.Resumption
import Intcode.Proofs.Pipeline.Deadlock
import Intcode.Proofs.Pipeline.Passes

/-!
# How many passes a ring makes

Under a budget the passes of a ring are bounded. `workLeft` counts what the stages may still do: the
steps that their budgets leave, and one stop each. A pass after which the ring goes on uses up some
of it, because something has happened, and no pass adds to it. So a ring with a budget comes to an
outcome, and more steps and more passes than it needs for that do not change it (`ring_terminates`).
-/
namespace Intcode.Pipeline

/-! ## More fuel -/

section

variable {fuel fuel' : Nat} {feederStopped moved feeder : Bool}
  {handed outputs given tail : List Int} {position : Nat} {stage stage' : RingStage}
  {stages after : List RingStage}

theorem Turn.mono (turn : Turn fuel feederStopped handed stage stage' outputs moved)
    (more : fuel ≤ fuel') : Turn fuel' feederStopped handed stage stage' outputs moved := by
  obtain ⟨extra, rfl⟩ := Nat.exists_eq_add_of_le more
  cases turn with
  | skipped stopped => exact .skipped stopped
  | taken going ran => exact .taken going (Machine.run_add ran extra)

theorem Sweep.mono (sweep : Sweep fuel feederStopped handed stages after tail moved)
    (more : fuel ≤ fuel') : Sweep fuel' feederStopped handed stages after tail moved := by
  induction sweep with
  | nil => exact .nil
  | cons turn _ ih => exact .cons (turn.mono more) ih

theorem Reaches.mono
    (reaches : Reaches fuel feederStopped handed stages position stage feeder given)
    (more : fuel ≤ fuel') :
    Reaches fuel' feederStopped handed stages position stage feeder given := by
  induction reaches with
  | here going => exact .here going
  | later turn _ ih => exact .later (turn.mono more) ih

theorem Fails.mono {fault : Fault} (fails : Fails fuel stages fault) (more : fuel ≤ fuel') :
    Fails fuel' stages fault := by
  obtain ⟨position, stage, feeder, given, blocked, reaches, ran⟩ := fails
  have reaches' := reaches.mono more
  obtain ⟨extra, rfl⟩ := Nat.exists_eq_add_of_le more
  exact ⟨position, stage, feeder, given, blocked, reaches', Machine.run_add ran extra⟩

theorem pass_mono {swept : Pass} (passed : (pass fuel stages #[]).result = some (.ok swept))
    (more : fuel ≤ fuel') : (pass fuel' stages #[]).result = some (.ok swept) :=
  pass_iff_sweep.mpr ((pass_iff_sweep.mp passed).mono more)

end

section

variable {settings : Settings} {fuel fuel' : Nat} {program : Program} {phases : List Int}
  {signal : Int} {number : Nat} {stages : List RingStage} {written : List Int}
  {outcome : Except Fault (Option Int)}

theorem EndsIn.mono {last : Option Int} (ends : EndsIn fuel phases stages last outcome)
    (more : fuel ≤ fuel') : EndsIn fuel' phases stages last outcome := by
  cases ends with
  | failed fails => exact .failed (fails.mono more)
  | made passed ended => exact .made (pass_mono passed more) ended

theorem Begins.mono (begins : Begins settings fuel program phases signal number stages written)
    (more : fuel ≤ fuel') : Begins settings fuel' program phases signal number stages written := by
  induction begins with
  | first loaded => exact .first loaded
  | next _ passed relayed going progressed ih =>
    exact .next ih (pass_mono passed more) relayed going progressed

end

/-! ## Machines with a budget -/

/-- A machine has the given budget and has kept to it, and its outputs have been handed on. -/
structure Thrifty (budget : Int) (m : Machine) : Prop where
  limited : m.budget = some budget
  within : m.steps ≤ budget.toNat
  drained : m.outputs = #[]

/-- What a stage may still do: execute the steps that its budget leaves, and stop. -/
def RingStage.workLeft (budget : Int) (stage : RingStage) : Nat :=
  budget.toNat - stage.machine.steps + if stage.stopped then 0 else 1

def workLeft (budget : Int) : List RingStage → Nat
  | [] => 0
  | stage :: rest => stage.workLeft budget + workLeft budget rest

section

variable {fuel : Nat} {budget : Int} {feederStopped moved : Bool}
  {handed outputs tail : List Int} {stage stage' : RingStage} {stages after : List RingStage}

/-- A step keeps a machine within its budget. -/
theorem within_of_step {m next : Machine} {outcome : Except Fault Outcome}
    (limited : m.budget = some budget) (within : m.steps ≤ budget.toNat)
    (stepped : m.step = (outcome, next)) :
    next.budget = some budget ∧ next.steps ≤ budget.toNat := by
  rcases outcome with fault | _ | _ | _
  · cases Machine.unchanged_of_step stepped
    exact ⟨limited, within⟩
  · obtain ⟨kept, unspent⟩ := Machine.budget_of_running stepped
    have counted := Machine.steps_of_running stepped
    have left := unspent budget limited
    exact ⟨kept.trans limited, by omega⟩
  · obtain ⟨-, rfl⟩ := Machine.halt_of_step stepped
    exact ⟨limited, within⟩
  · obtain ⟨-, -, rfl⟩ := Machine.starved_of_step stepped
    exact ⟨limited, within⟩

theorem within_of_run {m final : Machine} {outcome : Except Fault Outcome}
    (limited : m.budget = some budget) (within : m.steps ≤ budget.toNat)
    (ran : m.run fuel = (some outcome, final)) :
    final.budget = some budget ∧ final.steps ≤ budget.toNat := by
  induction fuel generalizing m with
  | zero => cases ran
  | succ fuel ih =>
    rcases stepped : m.step with ⟨answer, next⟩
    obtain ⟨limited', within'⟩ := within_of_step limited within stepped
    rw [Machine.run, stepped] at ran
    split at ran
    next same => cases same; exact ih limited' within' ran
    all_goals
      next same =>
        cases same
        cases ran
        exact ⟨limited', within'⟩

theorem Thrifty.feed {m : Machine} (thrifty : Thrifty budget m) (values : List Int) :
    Thrifty budget (m.feed values) :=
  ⟨thrifty.limited, thrifty.within, thrifty.drained⟩

/-- A turn keeps a stage within its budget, and something happens in it only at the cost of what
the stage may still do. -/
theorem Turn.workLeft_le (turn : Turn fuel feederStopped handed stage stage' outputs moved)
    (thrifty : Thrifty budget stage.machine) :
    Thrifty budget stage'.machine ∧
      stage'.workLeft budget + moved.toNat ≤ stage.workLeft budget := by
  cases turn with
  | skipped stopped =>
    refine ⟨thrifty.feed handed, ?_⟩
    simp [RingStage.workLeft, Machine.feed, stopped]
  | @taken outcome blocked going ran =>
    have fed := thrifty.feed handed
    obtain ⟨limited, within⟩ := within_of_run fed.limited fed.within ran
    obtain ⟨forward, counted⟩ := steps_of_hasMoved fed.drained ran
    refine ⟨⟨limited, within, rfl⟩, ?_⟩
    simp only [Machine.feed] at forward counted
    simp only [RingStage.workLeft, Machine.drained, going, Bool.false_eq_true, ↓reduceIte]
    -- A stage that stops gives up its one stop. One that goes on has done something only if it has
    -- executed an instruction, since its outputs come from instructions.
    cases stops : (blocked.halted || feederStopped) with
    | true =>
      have := Bool.toNat_le (hasMoved stage.machine.steps blocked true)
      simp only [↓reduceIte]
      omega
    | false =>
      cases happened : hasMoved stage.machine.steps blocked false with
      | false =>
        simp only [Bool.false_eq_true, ↓reduceIte, Bool.toNat_false]
        omega
      | true =>
        have := counted happened
        simp only [Bool.false_eq_true, ↓reduceIte, Bool.toNat_true]
        omega

theorem Sweep.workLeft_le (sweep : Sweep fuel feederStopped handed stages after tail moved)
    (thrifty : ∀ stage ∈ stages, Thrifty budget stage.machine) :
    (∀ stage ∈ after, Thrifty budget stage.machine) ∧
      workLeft budget after + moved.toNat ≤ workLeft budget stages := by
  induction sweep with
  | nil => exact ⟨by simp, Nat.le_refl _⟩
  | @cons _ moved progressed _ _ _ _ _ _ _ turn _ ih =>
    rw [List.forall_mem_cons] at thrifty ⊢
    obtain ⟨first, less⟩ := turn.workLeft_le thrifty.1
    obtain ⟨others, less'⟩ := ih thrifty.2
    refine ⟨⟨first, others⟩, ?_⟩
    have either : (moved || progressed).toNat ≤ moved.toNat + progressed.toNat := by
      cases moved <;> cases progressed <;> decide
    simp only [workLeft]
    omega

theorem thrifty_feedHead (values : List Int)
    (thrifty : ∀ stage ∈ stages, Thrifty budget stage.machine) :
    ∀ stage ∈ feedHead values stages, Thrifty budget stage.machine := by
  cases stages with
  | nil => exact thrifty
  | cons head others =>
    rw [feedHead, List.forall_mem_cons]
    rw [List.forall_mem_cons] at thrifty
    exact ⟨thrifty.1.feed values, thrifty.2⟩

theorem workLeft_feedHead (budget : Int) (values : List Int) (stages : List RingStage) :
    workLeft budget (feedHead values stages) = workLeft budget stages := by
  cases stages <;> rfl

theorem workLeft_of_fresh
    (fresh : ∀ stage ∈ stages, stage.stopped = false ∧ stage.machine.steps = 0) :
    workLeft budget stages = stages.length * budget.toNat + stages.length := by
  induction stages with
  | nil => simp [workLeft]
  | cons stage rest ih =>
    rw [List.forall_mem_cons] at fresh
    rw [workLeft, ih fresh.2, RingStage.workLeft, fresh.1.1, fresh.1.2, List.length_cons,
      Nat.add_mul]
    simp only [Bool.false_eq_true, ↓reduceIte]
    omega

end

/-! ## Rings -/

section

variable {settings : Settings} {fuel : Nat} {program : Program} {cells phases : List Int}
  {signal budget : Int} {number : Nat} {stages : List RingStage} {written : List Int}

/-- Each pass before this one has used up some of what the stages could do at the start. -/
theorem Begins.workLeft_le (nonempty : phases ≠ []) (limited : settings.maxSteps = some budget)
    (begins : Begins settings fuel program phases signal number stages written) :
    (∀ stage ∈ stages, Thrifty budget stage.machine) ∧
      workLeft budget stages + number ≤ phases.length * budget.toNat + phases.length := by
  induction begins with
  | @first cells loaded =>
    have fresh : ∀ stage ∈ primeHead signal (ringStages settings cells 0 phases),
        (stage.stopped = false ∧ stage.machine.steps = 0) ∧ Thrifty budget stage.machine := by
      intro stage member
      obtain ⟨k, there⟩ := List.mem_iff_getElem?.mp member
      obtain ⟨going, same⟩ := primed_getElem? there
      rw [same]
      exact ⟨⟨going, rfl⟩, limited, Nat.zero_le _, rfl⟩
    refine ⟨fun stage member => (fresh stage member).2, ?_⟩
    rw [workLeft_of_fresh fun stage member => (fresh stage member).1, primeHead_eq_feedHead,
      feedHead_length, ringStages_length]
    exact Nat.le_refl _
  | next before passed relayed _ progressed ih =>
    obtain ⟨thrifty, bound⟩ := ih
    obtain ⟨rfl, -⟩ := relay_fed (before.inhabited nonempty passed) relayed
    obtain ⟨thrifty', less⟩ := (pass_iff_sweep.mp passed).workLeft_le thrifty
    rw [progressed, Bool.toNat_true] at less
    refine ⟨thrifty_feedHead _ thrifty', ?_⟩
    rw [workLeft_feedHead]
    omega

end

end Intcode.Pipeline
