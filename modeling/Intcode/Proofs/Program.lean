import Intcode.Program
import Intcode.Proofs.Fault

/-!
# What a program fails to load with

Loading reads the cells from the left and stops at the first one that is not acceptable, so a
program is refused for its text or for one of its cells and for nothing else. A program that is
handed in as cells is loaded as it is, if they all fit, and otherwise refused for the first one that
does not, or that cannot even be written (`checkCells_error_cases`).
-/
namespace Intcode

namespace Program

variable {fault : Fault} {index : Nat}

theorem checkCell_of_fits {value : Int} (fits : Word.fits value) :
    checkCell index value = .ok value := by
  rw [checkCell, if_pos (Text.isWritable_of_fits fits), checkRange, if_pos fits]

theorem checkCell_ok {value cell : Int} (checked : checkCell index value = .ok cell) :
    Word.fits value := by
  unfold checkCell checkRange at checked
  split at checked
  · split at checked
    · assumption
    · cases checked
  · cases checked

/-- Cells are accepted as they are, if all of them fit. -/
theorem checkCells_ok_iff {values cells : List Int} :
    checkCells index values = .ok cells ↔ cells = values ∧ ∀ value ∈ values, Word.fits value := by
  induction values generalizing index cells with
  | nil =>
    simp only [checkCells, Except.ok.injEq, List.not_mem_nil, false_implies, implies_true, and_true]
    exact eq_comm
  | cons value rest ih =>
    simp only [checkCells, List.mem_cons, forall_eq_or_imp]
    by_cases fits : Word.fits value
    · simp only [fits, checkCell_of_fits, true_and]
      cases checked : checkCells (index + 1) rest with
      | error fault =>
        have unfit : ¬∀ value ∈ rest, Word.fits value := by
          intro fit
          cases checked.symm.trans (ih.mpr ⟨rfl, fit⟩)
        simp [unfit]
      | ok others =>
        obtain ⟨rfl, fit⟩ := ih.mp checked
        simp only [Except.ok.injEq]
        exact ⟨fun same => ⟨same.symm, fit⟩, fun same => same.1.symm⟩
    · cases checked : checkCell index value with
      | error fault => simp [fits]
      | ok cell => exact absurd (checkCell_ok checked) fits

/-- Cells are refused for the leftmost one that is not accepted, which may be too long to be
written. -/
theorem checkCells_of_overlong {before after : List Int} {cell : Int}
    (accepted : ∀ value ∈ before, Word.fits value) (long : Text.isWritable cell = false) :
    checkCells index (before ++ cell :: after) = .error .overlongNumber := by
  induction before generalizing index with
  | nil =>
    simp only [List.nil_append, checkCells, checkCell, long, Bool.false_eq_true, if_false]
  | cons first before ih =>
    obtain ⟨fits, accepted⟩ := List.forall_mem_cons.mp accepted
    simp only [List.cons_append, checkCells, checkCell_of_fits fits, ih accepted]

theorem checkCells_error_cases {values : List Int}
    (failed : checkCells index values = .error fault) :
    fault.isInterpreterFault = true ∨
      fault = .overlongNumber ∧ ∃ before cell after, values = before ++ cell :: after ∧
        (∀ value ∈ before, Word.fits value) ∧ Text.isWritable cell = false := by
  induction values generalizing index with
  | nil => cases failed
  | cons value rest ih =>
    rw [checkCells] at failed
    split at failed
    next unfit =>
      cases failed
      unfold checkCell checkRange at unfit
      split at unfit
      · split at unfit <;> cases unfit
        exact Or.inl rfl
      next long =>
        cases unfit
        exact Or.inr ⟨rfl, [], value, rest, rfl, by simp, by simpa using long⟩
    next cell checked =>
      split at failed
      next unread =>
        cases failed
        rcases ih unread with own | ⟨same, before, cell, after, rfl, accepted, long⟩
        · exact Or.inl own
        · have fits := checkCell_ok checked
          exact Or.inr ⟨same, value :: before, cell, after, rfl,
            List.forall_mem_cons.mpr ⟨fits, accepted⟩, long⟩
      · cases failed

end Program

end Intcode
