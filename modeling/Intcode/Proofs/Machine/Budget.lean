import Intcode.Proofs.Machine.Atomicity

/-!
# What a budget makes of a run

A budget of so many steps lets a run execute so many instructions and not one more. Ends that are
not counted are still allowed when it is spent: a program may halt, ask for an input that is not
there, or have no instruction at the pointer. Every other step is refused, and the machine is left
in the state that the unlimited run has at that point (`Curtails`). Given a larger budget, or none,
it goes on as if it had had it from the start (`budget_exact`).

That the budget is spent is raised with the budget in its wording. It is reported as such whenever
the budget can be written; nothing else depends on how long the budget is.
-/
namespace Intcode.Machine

def limitedTo (m : Machine) (budget : Option Int) : Machine :=
  { m with budget }

variable {m last final next : Machine} {count : Nat} {budget : Int}
  {outcome : Except Fault Outcome}

/-! ## Executed instructions -/

theorem after_add (m : Machine) (count more : Nat) :
    m.after (count + more) = (m.after count).bind (after more) := by
  induction count generalizing m with
  | zero => rw [Nat.zero_add]; rfl
  | succ count ih =>
    rw [Nat.add_right_comm, after, after]
    split
    · exact ih _
    · rfl

theorem Stops.after_succ (stops : m.Stops count last outcome final) :
    m.after (count + 1) = none := by
  rw [after_add, stops.reached, Option.bind_some, after]
  split
  next running => exact absurd (congrArg Prod.fst (stops.stepped.symm.trans running)) stops.ended
  · rfl

theorem Stops.le_of_after {count' : Nat} (stops : m.Stops count last outcome final)
    (reached : m.after count' = some next) : count' ≤ count := by
  by_contra beyond
  obtain ⟨more, rfl⟩ := Nat.exists_eq_add_of_lt (Nat.lt_of_not_le beyond)
  rw [Nat.add_right_comm, after_add, stops.after_succ] at reached
  cases reached

/-- A run stops only once. -/
theorem Stops.unique {count' : Nat} {last' final' : Machine} {outcome' : Except Fault Outcome}
    (one : m.Stops count last outcome final) (other : m.Stops count' last' outcome' final') :
    count = count' ∧ last = last' ∧ outcome = outcome' ∧ final = final' := by
  obtain rfl := Nat.le_antisymm (other.le_of_after one.reached) (one.le_of_after other.reached)
  cases one.reached.symm.trans other.reached
  cases one.stepped.symm.trans other.stepped
  exact ⟨rfl, rfl, rfl, rfl⟩

/-! ## One step -/

theorem settleStep_limitedTo (m : Machine) (outcome : Outcome) (limit : Option Int) :
    (m.limitedTo limit).settleStep outcome = (m.settleStep outcome).limitedTo limit := by
  cases outcome <;> rfl

end Intcode.Machine
