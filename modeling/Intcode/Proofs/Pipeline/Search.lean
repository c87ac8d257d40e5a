import Mathlib.Data.List.Lex
import Mathlib.Data.List.FinRange
import Intcode.Pipeline.Search

/-!
# The search finds the first maximum

The orderings of a list are all of its permutations, and those of the positions come in
lexicographic order. Orderings of phase settings are arrangements by position, so a search that goes
through them from the left and replaces its best only by a higher signal ends with the first of the
highest (`Leads`).

The pipeline that is tried is any function of the phase settings; `searchPipeline` is the case of
the two that `find_max_signal` chooses from.
-/
namespace Intcode.Pipeline

section Orderings

variable {α β : Type} {xs : List α}

theorem mem_selections {x : α} {others : List α} :
    (x, others) ∈ selections xs ↔ ∃ before after, xs = before ++ x :: after ∧
      others = before ++ after := by
  induction xs generalizing others with
  | nil => simp [selections]
  | cons y ys ih =>
    simp only [selections, List.mem_cons, List.mem_map, Prod.mk.injEq, Prod.exists]
    constructor
    · rintro (⟨rfl, rfl⟩ | ⟨z, rest, member, rfl, rfl⟩)
      · exact ⟨[], _, rfl, rfl⟩
      · obtain ⟨before, after, rfl, rfl⟩ := ih.mp member
        exact ⟨y :: before, after, rfl, rfl⟩
    · rintro ⟨before, after, split, rfl⟩
      cases before with
      | nil =>
        cases split
        exact Or.inl ⟨rfl, rfl⟩
      | cons z before =>
        cases split
        exact Or.inr ⟨x, _, ih.mpr ⟨before, after, rfl, rfl⟩, rfl, rfl⟩

theorem selections_map (f : α → β) (xs : List α) :
    selections (xs.map f) = (selections xs).map (Prod.map f (List.map f)) := by
  induction xs with
  | nil => rfl
  | cons x xs ih =>
    simp only [selections, List.map_cons, ih, List.map_map]
    rfl

theorem map_fst_selections (xs : List α) : (selections xs).map Prod.fst = xs := by
  induction xs with
  | nil => rfl
  | cons x xs ih =>
    simp only [selections, List.map_cons, List.map_map]
    exact congrArg (x :: ·) ih

theorem mem_orderingsOf {length : Nat} {ordering : List α} (counted : xs.length = length) :
    ordering ∈ orderingsOf length xs ↔ ordering.Perm xs := by
  induction length generalizing xs ordering with
  | zero =>
    obtain rfl := List.length_eq_zero_iff.mp counted
    simp [orderingsOf]
  | succ length ih =>
    simp only [orderingsOf, List.mem_flatMap, List.mem_map, Prod.exists]
    have shorter : ∀ {before after : List α} {x : α}, xs = before ++ x :: after →
        (before ++ after).length = length := by
      rintro before after x rfl
      simp only [List.length_append, List.length_cons] at counted ⊢
      omega
    constructor
    · rintro ⟨x, others, selected, rest, member, rfl⟩
      obtain ⟨before, after, split, rfl⟩ := mem_selections.mp selected
      have perm := (ih (shorter split)).mp member
      rw [split]
      exact (perm.cons x).trans List.perm_middle.symm
    · intro perm
      cases ordering with
      | nil => cases List.length_eq_zero_iff.mp perm.length_eq.symm ▸ counted
      | cons x rest =>
        obtain ⟨before, after, split⟩ := List.append_of_mem (perm.mem_iff.mp List.mem_cons_self)
        refine ⟨x, before ++ after, mem_selections.mpr ⟨before, after, split, rfl⟩, rest, ?_, rfl⟩
        rw [ih (shorter split), ← List.perm_cons x]
        rw [split] at perm
        exact perm.trans List.perm_middle

/-- The orderings of a list are its permutations. -/
theorem mem_orderings {ordering : List α} : ordering ∈ orderings xs ↔ ordering.Perm xs :=
  mem_orderingsOf rfl

theorem orderingsOf_map (f : α → β) (length : Nat) (xs : List α) :
    orderingsOf length (xs.map f) = (orderingsOf length xs).map (List.map f) := by
  induction length generalizing xs with
  | zero => rfl
  | succ length ih =>
    simp only [orderingsOf, selections_map, List.flatMap_map, List.map_flatMap, List.map_map,
      Prod.map_fst, Prod.map_snd, ih]
    rfl

/-- Orderings go by position: what stands there makes no difference. -/
theorem orderings_map (f : α → β) (xs : List α) :
    orderings (xs.map f) = (orderings xs).map (List.map f) := by
  rw [orderings, List.length_map, orderingsOf_map, orderings]

theorem pairwise_orderingsOf [LinearOrder α] {length : Nat} (ascending : xs.Pairwise (· < ·)) :
    (orderingsOf length xs).Pairwise (· < ·) := by
  induction length generalizing xs with
  | zero => simp [orderingsOf]
  | succ length ih =>
    rw [orderingsOf, List.pairwise_flatMap]
    constructor
    · rintro ⟨x, others⟩ selected
      obtain ⟨before, after, rfl, rfl⟩ := mem_selections.mp selected
      have kept : (before ++ after).Sublist (before ++ x :: after) :=
        (List.sublist_cons_self x after).append_left before
      rw [List.pairwise_map]
      refine (ih (ascending.sublist kept)).imp fun less => ?_
      exact List.cons_lt_cons_iff.mpr (Or.inr ⟨rfl, less⟩)
    · have firsts := map_fst_selections xs ▸ ascending
      rw [List.pairwise_map] at firsts
      refine firsts.imp ?_
      rintro ⟨x, others⟩ ⟨y, others'⟩ less a member b member'
      obtain ⟨a, -, rfl⟩ := List.mem_map.mp member
      obtain ⟨b, -, rfl⟩ := List.mem_map.mp member'
      exact List.cons_lt_cons_iff.mpr (Or.inl less)

/-- The orderings of an ascending list are in lexicographic order. -/
theorem pairwise_orderings [LinearOrder α] (ascending : xs.Pairwise (· < ·)) :
    (orderings xs).Pairwise (· < ·) :=
  pairwise_orderingsOf ascending

end Orderings

def arrange (phases : List Int) (positions : List (Fin phases.length)) : List Int :=
  positions.map phases.get

/-- All positions of the phase settings, in some order. -/
def Arranges (phases : List Int) (positions : List (Fin phases.length)) : Prop :=
  positions.Perm (List.finRange phases.length)

/-- The positions are the first ones in lexicographic order that give a signal, and no ordering of
the phase settings gives a higher one. -/
structure IsFirstMaximum (returns : List Int → Option Int) (phases : List Int) (signal : Int)
    (positions : List (Fin phases.length)) : Prop where
  arranges : Arranges phases positions
  attained : returns (arrange phases positions) = some signal
  highest : ∀ candidate, candidate.Perm phases →
    ∀ other, returns candidate = some other → other ≤ signal
  first : ∀ earlier, Arranges phases earlier → earlier < positions →
    returns (arrange phases earlier) ≠ some signal

/-- The positions are the first ones in lexicographic order with which the pipeline fails. With all
earlier ones it returns. -/
structure IsFirstFailure (runner : List Int → Report (Option Int)) (phases : List Int)
    (fault : Fault) (positions : List (Fin phases.length)) : Prop where
  arranges : Arranges phases positions
  failed : (runner (arrange phases positions)).result = some (.error fault)
  first : ∀ earlier, Arranges phases earlier → earlier < positions →
    ∃ signal, (runner (arrange phases earlier)).result = some (.ok signal)

variable {runner : List Int → Report (Option Int)} {returns : List Int → Option Int}
  {phases phases' : List Int} {positions : List (Fin phases.length)} {tried : List (List Int)}
  {best : Best} {log : Log} {fault : Fault}

theorem orderings_eq (phases : List Int) :
    orderings phases = (orderings (List.finRange phases.length)).map (arrange phases) := by
  calc orderings phases
    _ = orderings ((List.finRange phases.length).map phases.get) := by rw [List.map_get_finRange]
    _ = (orderings (List.finRange phases.length)).map (arrange phases) := orderings_map _ _

theorem Arranges.perm (arranges : Arranges phases positions) :
    (arrange phases positions).Perm phases := by
  have member : arrange phases positions ∈ orderings phases := by
    rw [orderings_eq]
    exact List.mem_map_of_mem (mem_orderings.mpr arranges)
  exact mem_orderings.mp member

/-- The orderings of phase settings that stand before one are arranged by earlier positions. -/
theorem Arranges.split_orderings (arranges : Arranges phases positions) :
    ∃ before after, orderings phases = before ++ arrange phases positions :: after ∧
      ∀ candidate ∈ before, ∃ earlier, Arranges phases earlier ∧ earlier < positions ∧
        arrange phases earlier = candidate := by
  obtain ⟨lower, upper, divided⟩ := List.append_of_mem (mem_orderings.mpr arranges)
  have ascending := pairwise_orderings (List.pairwise_lt_finRange phases.length)
  rw [divided, List.pairwise_append] at ascending
  refine ⟨lower.map (arrange phases), upper.map (arrange phases), ?_, ?_⟩
  · rw [orderings_eq, divided, List.map_append, List.map_cons]
  · intro candidate member
    obtain ⟨earlier, there, rfl⟩ := List.mem_map.mp member
    have arranges' : Arranges phases earlier := mem_orderings.mp (by simp [divided, there])
    exact ⟨earlier, arranges', ascending.2.2 earlier there positions List.mem_cons_self, rfl⟩

/-- Where the orderings of phase settings are divided, those of the positions are divided, and what
comes earlier in lexicographic order stands before. -/
theorem exists_positions {before after : List (List Int)} {candidate : List Int}
    (split : orderings phases = before ++ candidate :: after) :
    ∃ positions, Arranges phases positions ∧ arrange phases positions = candidate ∧
      ∀ earlier, Arranges phases earlier → earlier < positions →
        arrange phases earlier ∈ before := by
  rw [orderings_eq] at split
  obtain ⟨lower, rest, divided, rfl, second⟩ := List.map_eq_append_iff.mp split
  obtain ⟨positions, upper, rfl, rfl, rfl⟩ := List.map_eq_cons_iff.mp second
  have member : positions ∈ orderings (List.finRange phases.length) := by simp [divided]
  refine ⟨positions, mem_orderings.mp member, rfl, fun earlier arranges less => ?_⟩
  have ascending := pairwise_orderings (List.pairwise_lt_finRange phases.length)
  rw [divided, List.pairwise_append, List.pairwise_cons] at ascending
  have there : earlier ∈ orderings (List.finRange phases.length) := mem_orderings.mpr arranges
  rw [divided, List.mem_append, List.mem_cons] at there
  rcases there with before | rfl | after
  · exact List.mem_map_of_mem before
  · exact absurd less (lt_irrefl _)
  · exact absurd less (lt_asymm (ascending.2.1.1 earlier after))

/-! ## The search -/

/-- The best is the first of the orderings with the highest signal among those that were tried. -/
inductive Leads (returns : List Int → Option Int) (tried : List (List Int)) : Best → Prop where
  | silent (nothing : ∀ candidate ∈ tried, returns candidate = none) : Leads returns tried {}
  | ahead {before after : List (List Int)} {phases : List Int} {signal : Int}
      (split : tried = before ++ phases :: after) (gives : returns phases = some signal)
      (below : ∀ candidate ∈ before, ∀ other, returns candidate = some other → other < signal)
      (bounded : ∀ candidate ∈ after, ∀ other, returns candidate = some other → other ≤ signal) :
      Leads returns tried ⟨some signal, phases⟩

namespace Leads

/-- No ordering that was tried gives more than the best. -/
theorem le_signal (leads : Leads returns tried best) {candidate : List Int} {value : Int}
    (member : candidate ∈ tried) (given : returns candidate = some value) :
    ∃ highest, best.signal = some highest ∧ value ≤ highest := by
  cases leads with
  | silent nothing => cases (nothing candidate member).symm.trans given
  | @ahead before after phases signal split gives below bounded =>
    refine ⟨signal, rfl, ?_⟩
    rw [split, List.mem_append, List.mem_cons] at member
    rcases member with earlier | rfl | later
    · exact Int.le_of_lt (below candidate earlier value given)
    · cases gives.symm.trans given
      exact Int.le_refl _
    · exact bounded candidate later value given

theorem attained (leads : Leads returns tried best) {signal : Int}
    (found : best.signal = some signal) : ∃ candidate ∈ tried, returns candidate = some signal := by
  cases leads with
  | silent nothing => cases found
  | ahead split gives =>
    cases found
    exact ⟨_, by simp [split], gives⟩

/-- An ordering that does not give more changes nothing. -/
theorem keep (leads : Leads returns tried best) {candidate : List Int}
    (lower : ∀ value, returns candidate = some value →
      ∃ highest, best.signal = some highest ∧ value ≤ highest) :
    Leads returns (tried ++ [candidate]) best := by
  cases leads with
  | silent nothing =>
    refine .silent fun other member => ?_
    rcases List.mem_append.mp member with earlier | last
    · exact nothing other earlier
    · rw [List.mem_singleton.mp last, Option.eq_none_iff_forall_ne_some]
      intro value given
      obtain ⟨highest, found, -⟩ := lower value given
      cases found
  | @ahead before after phases signal split gives below bounded =>
    refine @ahead _ _ before (after ++ [candidate]) _ _ (by simp [split]) gives below ?_
    intro other member value given
    rcases List.mem_append.mp member with earlier | last
    · exact bounded other earlier value given
    · rw [List.mem_singleton.mp last] at given
      obtain ⟨highest, found, le⟩ := lower value given
      cases found
      exact le

/-- An ordering that gives more than all others takes the lead. -/
theorem overtake {candidate : List Int} {value : Int} (given : returns candidate = some value)
    (higher : ∀ other ∈ tried, ∀ lower, returns other = some lower → lower < value) :
    Leads returns (tried ++ [candidate]) ⟨some value, candidate⟩ :=
  .ahead rfl given higher (by simp)

/-- One more ordering is taken into account. -/
theorem consider (leads : Leads returns tried best) (candidate : List Int) :
    Leads returns (tried ++ [candidate]) (best.consider (returns candidate) candidate) := by
  cases given : returns candidate with
  | none =>
    refine leads.keep fun value given' => ?_
    cases given.symm.trans given'
  | some value =>
    cases found : best.signal with
    | none =>
      simp only [Best.consider, found]
      refine overtake given fun other member lower given' => ?_
      obtain ⟨highest, found', -⟩ := leads.le_signal member given'
      cases found.symm.trans found'
    | some highest =>
      simp only [Best.consider, found]
      split
      next more =>
        refine overtake given fun other member lower given' => ?_
        obtain ⟨highest', found', le⟩ := leads.le_signal member given'
        cases found.symm.trans found'
        exact Int.lt_of_le_of_lt le more
      next less =>
        refine leads.keep fun value' given' => ?_
        cases given.symm.trans given'
        exact ⟨highest, found, Int.not_lt.mp less⟩

/-- The highest signal depends only on which orderings were tried. -/
theorem signal_congr {tried' : List (List Int)} {best' : Best} (leads : Leads returns tried best)
    (leads' : Leads returns tried' best')
    (same : ∀ candidate, candidate ∈ tried ↔ candidate ∈ tried') :
    best.signal = best'.signal := by
  cases found : best.signal with
  | none =>
    cases found' : best'.signal with
    | none => rfl
    | some signal' =>
      obtain ⟨candidate, member, given⟩ := leads'.attained found'
      obtain ⟨signal, found', -⟩ := leads.le_signal ((same candidate).mpr member) given
      cases found.symm.trans found'
  | some signal =>
    obtain ⟨candidate, member, given⟩ := leads.attained found
    obtain ⟨signal', found', le⟩ := leads'.le_signal ((same candidate).mp member) given
    obtain ⟨candidate', member', given'⟩ := leads'.attained found'
    obtain ⟨highest, found'', le'⟩ := leads.le_signal ((same candidate').mpr member') given'
    cases found.symm.trans found''
    rw [found', Int.le_antisymm le le']

end Leads

/-- Orderings that all return are all taken into account. -/
theorem searchFrom_returns {candidates : List (List Int)} (leads : Leads returns tried best)
    (returned : ∀ candidate ∈ candidates,
      (runner candidate).result = some (.ok (returns candidate))) :
    ∃ final, (searchFrom runner candidates best log).result = some (.ok final) ∧
      Leads returns (tried ++ candidates) final := by
  induction candidates generalizing tried best log with
  | nil => exact ⟨best, rfl, by simpa using leads⟩
  | cons candidate rest ih =>
    have first := returned candidate List.mem_cons_self
    obtain ⟨final, found, leads'⟩ := @ih (tried ++ [candidate]) _ (log ++ (runner candidate).log)
      (leads.consider candidate)
      (fun other member => returned other (List.mem_cons_of_mem _ member))
    refine ⟨final, ?_, by simpa using leads'⟩
    rcases ran : runner candidate with ⟨result, lines⟩
    rw [ran] at first
    cases first
    rw [searchFrom, ran, ← found, ran]

/-- The first ordering that fails ends the search. -/
theorem searchFrom_fails {before after : List (List Int)} {candidate : List Int}
    (returned : ∀ earlier ∈ before, ∃ signal, (runner earlier).result = some (.ok signal))
    (failed : (runner candidate).result = some (.error fault)) :
    (searchFrom runner (before ++ candidate :: after) best log).result = some (.error fault) := by
  induction before generalizing best log with
  | nil =>
    rcases ran : runner candidate with ⟨result, lines⟩
    rw [ran] at failed
    cases failed
    rw [List.nil_append, searchFrom, ran]
    rfl
  | cons earlier before ih =>
    obtain ⟨signal, first⟩ := returned earlier List.mem_cons_self
    rcases ran : runner earlier with ⟨result, lines⟩
    rw [ran] at first
    cases first
    rw [List.cons_append, searchFrom, ran]
    exact ih fun other member => returned other (List.mem_cons_of_mem _ member)

/-- Of orderings that all come to an end, one is the first that fails if any of them fails. -/
theorem exists_first_failure {candidates : List (List Int)}
    (ends : ∀ candidate ∈ candidates, (runner candidate).result ≠ none)
    (fails : ∃ candidate ∈ candidates, ∃ fault, (runner candidate).result = some (.error fault)) :
    ∃ before candidate after fault, candidates = before ++ candidate :: after ∧
      (runner candidate).result = some (.error fault) ∧
      ∀ earlier ∈ before, ∃ signal, (runner earlier).result = some (.ok signal) := by
  induction candidates with
  | nil => simp at fails
  | cons candidate rest ih =>
    rcases ran : (runner candidate).result with _ | fault | signal
    · exact absurd ran (ends candidate List.mem_cons_self)
    · exact ⟨[], candidate, rest, fault, rfl, ran, by simp⟩
    · have later : ∃ other ∈ rest, ∃ fault, (runner other).result = some (.error fault) := by
        obtain ⟨other, member, fault, failed⟩ := fails
        rcases List.mem_cons.mp member with rfl | member
        · cases ran.symm.trans failed
        · exact ⟨other, member, fault, failed⟩
      obtain ⟨before, other, after, fault, rfl, failed, returned⟩ :=
        ih (fun other member => ends other (List.mem_cons_of_mem _ member)) later
      refine ⟨candidate :: before, other, after, fault, rfl, failed, fun earlier member => ?_⟩
      rcases List.mem_cons.mp member with rfl | member
      · exact ⟨signal, ran⟩
      · exact returned earlier member

theorem search_result (runner : List Int → Report (Option Int)) (phases : List Int) :
    (search runner phases).result = (searchFrom runner (orderings phases) {} #[]).result := by
  unfold search
  split
  next found =>
    rw [found]
    rfl
  · rfl

/-- A search in which every ordering returns ends with the best of them. -/
theorem search_returns (returned : ∀ candidate, candidate.Perm phases →
      (runner candidate).result = some (.ok (returns candidate))) :
    ∃ best, (search runner phases).result = some (.ok best) ∧
      Leads returns (orderings phases) best := by
  rw [search_result]
  have nothing : Leads returns [] {} := .silent (by simp)
  exact searchFrom_returns nothing fun candidate member =>
    returned candidate (mem_orderings.mp member)

/-- The best of all orderings comes first among those with its signal. -/
theorem Leads.isFirstMaximum {signal : Int} (leads : Leads returns (orderings phases) best)
    (found : best.signal = some signal) :
    ∃ positions, IsFirstMaximum returns phases signal positions ∧
      best = ⟨some signal, arrange phases positions⟩ := by
  have highest : ∀ candidate, candidate.Perm phases →
      ∀ other, returns candidate = some other → other ≤ signal := by
    intro candidate perm other given
    obtain ⟨signal', found', le⟩ := leads.le_signal (mem_orderings.mpr perm) given
    cases found.symm.trans found'
    exact le
  cases leads with
  | silent nothing => cases found
  | ahead split gives below bounded =>
    cases found
    obtain ⟨positions, arranges, rfl, before⟩ := exists_positions split
    refine ⟨positions, ⟨arranges, gives, highest, fun earlier arranges' less same => ?_⟩, rfl⟩
    exact Int.lt_irrefl _ (below _ (before earlier arranges' less) _ same)

theorem IsFirstFailure.search_fails (failure : IsFirstFailure runner phases fault positions) :
    (search runner phases).result = some (.error fault) := by
  obtain ⟨before, after, split, earlier⟩ := failure.arranges.split_orderings
  rw [search_result, split]
  refine searchFrom_fails (fun candidate member => ?_) failure.failed
  obtain ⟨positions', arranges, less, rfl⟩ := earlier candidate member
  exact failure.first positions' arranges less

/-- A search takes the orderings of the phase settings in lexicographic order of their positions. If
all of them return, it finds the first of those with the highest signal, if there is a signal at
all, and the signal that it finds does not depend on the order in which the phase settings are
given. If one of them fails, the search fails as the first of these. -/
theorem search_exact (runner : List Int → Report (Option Int)) (phases : List Int) :
    (∀ returns : List Int → Option Int,
      (∀ candidate, candidate.Perm phases →
        (runner candidate).result = some (.ok (returns candidate))) →
      ((search runner phases).result = some (.ok ⟨none, []⟩) ↔
        ∀ candidate, candidate.Perm phases → returns candidate = none) ∧
      ((∃ candidate, candidate.Perm phases ∧ returns candidate ≠ none) →
        ∃ signal positions, IsFirstMaximum returns phases signal positions ∧
          (arrange phases positions).Perm phases ∧
          (search runner phases).result = some (.ok ⟨some signal, arrange phases positions⟩)) ∧
      ∀ phases', phases'.Perm phases → ∃ best best',
        (search runner phases).result = some (.ok best) ∧
        (search runner phases').result = some (.ok best') ∧ best'.signal = best.signal) ∧
    (∀ fault positions, IsFirstFailure runner phases fault positions →
      (search runner phases).result = some (.error fault)) ∧
    ((∀ candidate, candidate.Perm phases → (runner candidate).result ≠ none) →
      (∃ candidate fault, candidate.Perm phases ∧
        (runner candidate).result = some (.error fault)) →
      ∃ fault positions, IsFirstFailure runner phases fault positions) := by
  refine ⟨fun returns returned => ?_, fun fault positions => IsFirstFailure.search_fails, ?_⟩
  · obtain ⟨best, ended, leads⟩ := search_returns returned
    refine ⟨?_, ?_, fun phases' perm => ?_⟩
    · rw [ended, Option.some.injEq, Except.ok.injEq]
      constructor
      · rintro rfl candidate perm
        rw [Option.eq_none_iff_forall_ne_some]
        intro signal given
        obtain ⟨highest, found, -⟩ := leads.le_signal (mem_orderings.mpr perm) given
        cases found
      · intro nothing
        cases leads with
        | silent _ => rfl
        | @ahead before after candidate signal split gives =>
          have perm : candidate.Perm phases := mem_orderings.mp (by simp [split])
          cases (nothing candidate perm).symm.trans gives
    · rintro ⟨candidate, perm, something⟩
      obtain ⟨signal, given⟩ := Option.ne_none_iff_exists'.mp something
      obtain ⟨highest, found, -⟩ := leads.le_signal (mem_orderings.mpr perm) given
      obtain ⟨positions, maximum, rfl⟩ := leads.isFirstMaximum found
      exact ⟨highest, positions, maximum, maximum.arranges.perm, ended⟩
    · obtain ⟨best', ended', leads'⟩ := search_returns fun candidate perm' =>
        returned candidate (perm'.trans perm)
      refine ⟨best, best', ended, ended', leads'.signal_congr leads fun candidate => ?_⟩
      rw [mem_orderings, mem_orderings]
      exact ⟨fun perm' => perm'.trans perm, fun perm' => perm'.trans perm.symm⟩
  · rintro ends ⟨candidate, fault, perm, failed⟩
    obtain ⟨before, candidate, after, fault, split, failed, returned⟩ :=
      exists_first_failure (fun candidate member => ends candidate (mem_orderings.mp member))
        ⟨candidate, mem_orderings.mpr perm, fault, failed⟩
    obtain ⟨positions, arranges, rfl, earlier⟩ := exists_positions split
    refine ⟨fault, positions, arranges, failed, fun other arranges' less => ?_⟩
    exact returned _ (earlier other arranges' less)

/-- Reads a phase setting and a signal, and gives out ten times the signal and the phase setting. -/
def tenfold : Program :=
  .image [3, 15, 3, 16, 1002, 16, 10, 16, 1, 16, 15, 15, 4, 15, 99, 0, 0]

/-- The signal of stages that run one after the other, if they come to an end without a fault. -/
def signalOf (program : Program) (phases : List Int) : Option Int :=
  match (searched .chain {} 9 program phases).result with
  | some (.ok signal) => signal
  | _ => none

/-- Among 1, 2 and 1 the best ordering puts the 2 first. A search for which all orderings fail fails
with the first of them. -/
theorem search_exact_tenfold :
    (∃ positions, IsFirstMaximum (signalOf tenfold) [1, 2, 1] 211 positions ∧
      arrange [1, 2, 1] positions = [2, 1, 1]) ∧
    (search (searched .chain {} 9 (.image [0])) [4, 4]).result =
      some (.error (.unknownOpcode 0 0)) := by
  constructor
  · obtain ⟨maximum, -, -⟩ :=
      search_exact (searched .chain {} 9 tenfold) [1, 2, 1]
    have returned : ∀ candidate, candidate.Perm [1, 2, 1] →
        (searched .chain {} 9 tenfold candidate).result =
          some (.ok (signalOf tenfold candidate)) := by
      have all : ∀ candidate ∈ orderings [1, 2, 1],
          (searched .chain {} 9 tenfold candidate).result =
            some (.ok (signalOf tenfold candidate)) := by
        decide +kernel
      exact fun candidate perm => all candidate (mem_orderings.mpr perm)
    obtain ⟨-, found, -⟩ := maximum (signalOf tenfold) returned
    obtain ⟨signal, positions, first, -, ended⟩ :=
      found ⟨[1, 2, 1], List.Perm.refl _, by decide +kernel⟩
    have computed : (search (searched .chain {} 9 tenfold) [1, 2, 1]).result =
        some (.ok ⟨some 211, [2, 1, 1]⟩) := by
      decide +kernel
    rw [ended, Option.some.injEq, Except.ok.injEq, Best.mk.injEq, Option.some.injEq] at computed
    obtain ⟨rfl, ordered⟩ := computed
    exact ⟨positions, first, ordered⟩
  · obtain ⟨-, fails, -⟩ :=
      search_exact (searched .chain {} 9 (.image [0])) [4, 4]
    have least : ∀ earlier ∈ orderings (List.finRange 2), ¬earlier < [0, 1] := by
      decide
    refine fails _ [0, 1] ⟨mem_orderings.mp (by decide), by decide +kernel, ?_⟩
    intro earlier arranges less
    exact absurd less (least earlier (mem_orderings.mpr arranges))

end Intcode.Pipeline
