import Intcode.Pipeline.Concurrent
import Intcode.Pipeline.Sequence

/-!
# Search for the best ordering

A search tries a pipeline with every ordering of given phase settings and keeps the first
ordering with the highest signal. Orderings are taken by position: settings that are equal
stay different, and the orderings come in lexicographic order of the positions.

Embeds the operation `find_max_signal`.
-/
namespace Intcode.Pipeline

/-- Every way to take one element out of a list, the earliest first. -/
def selections {α : Type} : List α → List (α × List α)
  | [] => []
  | x :: rest => (x, rest) :: (selections rest).map fun (y, others) => (y, x :: others)

/-- The orderings of a list of the given length. -/
def orderingsOf {α : Type} : (length : Nat) → List α → List (List α)
  | 0, _ => [[]]
  | length + 1, xs =>
    (selections xs).flatMap fun (x, others) => (orderingsOf length others).map (x :: ·)

/-- The orderings of a list, in lexicographic order of the positions. -/
def orderings {α : Type} (xs : List α) : List (List α) :=
  orderingsOf xs.length xs

structure Best where
  signal : Option Int := none
  phases : List Int := []
  deriving DecidableEq, Repr

/-- Take a signal into account; only a higher one replaces the best. -/
def Best.consider (best : Best) (signal : Option Int) (phases : List Int) : Best :=
  match signal, best.signal with
  | none, _ => best
  | some value, none => ⟨some value, phases⟩
  | some value, some highest => if highest < value then ⟨some value, phases⟩ else best

/-- Try the orderings one after the other. The best so far and the log are handed on. -/
def searchFrom (runner : List Int → Report (Option Int)) :
    List (List Int) → Best → Log → Report Best
  | [], best, log => .answer best log
  | phases :: rest, best, log =>
    match runner phases with
    | ⟨none, lines⟩ => .unfinished (log ++ lines)
    | ⟨some (.error fault), lines⟩ => .failure fault (log ++ lines)
    | ⟨some (.ok signal), lines⟩ =>
      searchFrom runner rest (best.consider signal phases) (log ++ lines)

def bestEntry (best : Best) : Log.Entry :=
  ⟨.info, .pipeline,
    "Best signal " ++ signalText best.signal ++ " with phases " ++ orderingText best.phases⟩

def search (runner : List Int → Report (Option Int)) (phases : List Int) : Report Best :=
  match searchFrom runner (orderings phases) {} #[] with
  | ⟨some (.ok best), log⟩ => .answer best (log.push (bestEntry best))
  | report => report

/-- The pipeline that a search tries: one stage after the other, or a loop. -/
def searched (wiring : Wiring) (settings : Settings) (fuel : Nat) (program : Program)
    (phases : List Int) : Report (Option Int) :=
  match wiring with
  | .chain => sequence settings fuel program phases 0
  | .loop => concurrent .loop settings fuel program phases 0

def searchPipeline (wiring : Wiring) (settings : Settings) (fuel : Nat) (program : Program)
    (phases : List Int) : Report Best :=
  search (searched wiring settings fuel program) phases

end Intcode.Pipeline
