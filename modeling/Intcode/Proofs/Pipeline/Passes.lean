import Intcode.Proofs.Pipeline.Ring
import Intcode.Proofs.Program

/-!
# The passes of a ring

`Begins` follows a ring from pass to pass, and `Reaches` follows a pass from turn to turn. Both say
how far the work has come and leave open how it goes on, so that they also tell of a pass that fails
and of a turn that never ends. A ring has come to an outcome if and only if it ends in one of the
passes that it has begun (`ring_eq_some_iff`): a stage fails in that pass, or the pass is made and
the ring has no reason to begin another one.
-/
namespace Intcode.Pipeline

/-! ## Turns within a pass -/

/-- In a pass over the listed stages the turn comes to one that has not stopped, at the given
position. `feeder` says of the stage before that one whether it has stopped, and `given` are its
outputs. -/
inductive Reaches (fuel : Nat) : Bool → List Int → List RingStage →
    (position : Nat) → (stage : RingStage) → (feeder : Bool) → (given : List Int) → Prop where
  | here {feederStopped : Bool} {handed : List Int} {stage : RingStage} {rest : List RingStage}
      (going : stage.stopped = false) :
      Reaches fuel feederStopped handed (stage :: rest) 0 stage feederStopped handed
  | later {feederStopped moved feeder : Bool} {handed outputs given : List Int} {position : Nat}
      {stage stage' reached : RingStage} {rest : List RingStage}
      (turn : Turn fuel feederStopped handed stage stage' outputs moved)
      (reaches : Reaches fuel stage'.stopped outputs rest position reached feeder given) :
      Reaches fuel feederStopped handed (stage :: rest) (position + 1) reached feeder given

/-- In a pass over the stages of a ring, the one at the given position comes to a stop. -/
def StopsAt (fuel : Nat) (stages : List RingStage) (position : Nat) : Prop :=
  ∃ stage feeder given stage' outputs moved,
    Reaches fuel (tailStopped stages) [] stages position stage feeder given ∧
      Turn fuel feeder given stage stage' outputs moved ∧ stage'.stopped = true

/-- In a pass over the stages of a ring, the program of the one at the given position halts. -/
def HaltsAt (fuel : Nat) (stages : List RingStage) (position : Nat) : Prop :=
  ∃ stage feeder given blocked,
    Reaches fuel (tailStopped stages) [] stages position stage feeder given ∧
      (stage.machine.feed given).run fuel = (some (.ok .halted), blocked)

/-- In a pass over the stages of a ring, the machine of one of them fails. -/
def Fails (fuel : Nat) (stages : List RingStage) (fault : Fault) : Prop :=
  ∃ position stage feeder given blocked,
    Reaches fuel (tailStopped stages) [] stages position stage feeder given ∧
      (stage.machine.feed given).run fuel = (some (.error fault), blocked)

section

variable {fuel position : Nat} {feederStopped feeder moved moved' : Bool}
  {handed given outputs outputs' tail : List Int} {stage stage' stage'' : RingStage}
  {stages after : List RingStage} {fault : Fault}

theorem Turn.unique (one : Turn fuel feederStopped handed stage stage' outputs moved)
    (other : Turn fuel feederStopped handed stage stage'' outputs' moved') :
    stage' = stage'' ∧ outputs = outputs' ∧ moved = moved' := by
  cases one with
  | skipped stopped =>
    cases other with
    | skipped _ => exact ⟨rfl, rfl, rfl⟩
    | taken going _ => cases stopped.symm.trans going
  | taken going ran =>
    cases other with
    | skipped stopped => cases stopped.symm.trans going
    | taken _ ran' =>
      cases ran.symm.trans ran'
      exact ⟨rfl, rfl, rfl⟩

theorem Reaches.going (reaches : Reaches fuel feederStopped handed stages position stage feeder
    given) : stage.stopped = false := by
  induction reaches with
  | here going => exact going
  | later _ _ ih => exact ih

theorem Reaches.position_lt (reaches : Reaches fuel feederStopped handed stages position stage
    feeder given) : position < stages.length := by
  induction reaches with
  | here going => simp
  | later _ _ ih => simpa using ih

/-- To come to a stop is to do something. -/
theorem Turn.moved_of_stopped (turn : Turn fuel feederStopped handed stage stage' outputs moved)
    (going : stage.stopped = false) (stopped : stage'.stopped = true) : moved = true := by
  cases turn with
  | skipped already => cases already.symm.trans going
  | taken _ _ =>
    dsimp only at stopped
    simp [hasMoved, stopped]

/-- Once a stage has come to a stop in a pass, so have all that come after it. -/
theorem Sweep.stopped_of_reaches (sweep : Sweep fuel feederStopped handed stages after tail moved)
    (reaches : Reaches fuel feederStopped handed stages position stage feeder given)
    (turn : Turn fuel feeder given stage stage' outputs moved') (stopped : stage'.stopped = true) :
    moved = true ∧
      ∀ k, position ≤ k → ∀ other, after[k]? = some other → other.stopped = true := by
  induction reaches generalizing after moved with
  | here going =>
    cases sweep with
    | cons first rest =>
      obtain ⟨rfl, rfl, rfl⟩ := first.unique turn
      rw [stopped] at rest
      refine ⟨by simp [turn.moved_of_stopped going stopped], ?_⟩
      intro k _ other there
      cases k with
      | zero =>
        cases Option.some.inj there
        exact stopped
      | succ k => exact rest.all_stopped other (List.mem_of_getElem? there)
  | later before _ ih =>
    cases sweep with
    | cons first rest =>
      obtain ⟨rfl, rfl, rfl⟩ := first.unique before
      obtain ⟨happened, behind⟩ := ih rest turn
      refine ⟨by simp [happened], ?_⟩
      intro k beyond other there
      cases k with
      | zero => omega
      | succ k => exact behind k (by omega) other there

/-- A pass fails where the turn comes to a stage whose machine fails. -/
theorem passFrom_eq_error_iff {progressed : Bool} {done : List RingStage} {log : Log} :
    (passFrom fuel feederStopped handed progressed done stages log).result =
        some (.error fault) ↔
      ∃ position stage feeder given blocked,
        Reaches fuel feederStopped handed stages position stage feeder given ∧
          (stage.machine.feed given).run fuel = (some (.error fault), blocked) := by
  induction stages generalizing feederStopped handed progressed done log with
  | nil =>
    simp only [passFrom, Report.answer, Option.some.injEq, reduceCtorEq, false_iff]
    rintro ⟨position, stage, feeder, given, blocked, reaches, -⟩
    cases reaches
  | cons head rest ih =>
    constructor
    · intro failed
      cases stopped : head.stopped with
      | true =>
        simp only [passFrom, stopped, ↓reduceIte] at failed
        obtain ⟨position, stage, feeder, given, blocked, reaches, ran⟩ := ih.mp failed
        exact ⟨_, _, _, _, _, .later (.skipped stopped) reaches, ran⟩
      | false =>
        simp only [passFrom, stopped, Bool.false_eq_true, ↓reduceIte] at failed
        split at failed
        · simp [Report.unfinished] at failed
        next ran =>
          cases failed
          exact ⟨_, _, _, _, _, .here stopped, ran⟩
        next ran =>
          obtain ⟨position, stage, feeder, given, blocked, reaches, failing⟩ := ih.mp failed
          exact ⟨_, _, _, _, _, .later (.taken stopped ran) reaches, failing⟩
    · rintro ⟨position, stage, feeder, given, blocked, reaches, ran⟩
      cases reaches with
      | here going =>
        simp only [passFrom, going, Bool.false_eq_true, ↓reduceIte, ran]
        rfl
      | later turn reaches =>
        cases turn with
        | skipped stopped =>
          simp only [passFrom, stopped, ↓reduceIte]
          exact ih.mpr ⟨_, _, _, _, _, reaches, ran⟩
        | taken going ran' =>
          simp only [passFrom, going, Bool.false_eq_true, ↓reduceIte, ran']
          exact ih.mpr ⟨_, _, _, _, _, reaches, ran⟩

theorem pass_eq_error_iff {log : Log} :
    (pass fuel stages log).result = some (.error fault) ↔ Fails fuel stages fault :=
  passFrom_eq_error_iff

theorem Fails.isExecutionFault (fails : Fails fuel stages fault) : fault.isExecutionFault := by
  obtain ⟨_, _, _, _, _, -, ran⟩ := fails
  exact Machine.run_error ran

/-- The log that a pass is handed does not matter for its result. -/
theorem pass_log (fuel : Nat) (stages : List RingStage) (log log' : Log) :
    (pass fuel stages log).result = (pass fuel stages log').result := by
  rcases result : (pass fuel stages log').result with _ | fault | swept
  · rcases other : (pass fuel stages log).result with _ | fault | swept
    · rfl
    · rw [pass_eq_error_iff.mpr (pass_eq_error_iff.mp other)] at result
      exact result
    · rw [pass_iff_sweep.mpr (pass_iff_sweep.mp other)] at result
      exact result
  · exact pass_eq_error_iff.mpr (pass_eq_error_iff.mp result)
  · exact pass_iff_sweep.mpr (pass_iff_sweep.mp result)

end

/-! ## What becomes of a ring after a pass -/

/-- How a ring ends by a pass that it has made, if it does. -/
def Pass.verdict (phases : List Int) (last : Option Int) (swept : Pass) :
    Option (Except Fault (Option Int)) :=
  match relay swept.stages last swept.tail with
  | .final signal => some (.ok (some signal))
  | .fed stages last =>
    if stages.all (·.stopped) then some (.ok last)
    else if swept.progressed then none
    else some (.error (Fault.raised (.deadlock phases)))

/-- A ring that begins a pass with the given stages ends in it. -/
inductive EndsIn (fuel : Nat) (phases : List Int) (stages : List RingStage) (last : Option Int) :
    Except Fault (Option Int) → Prop where
  /-- A stage fails. -/
  | failed {fault : Fault} (fails : Fails fuel stages fault) :
      EndsIn fuel phases stages last (.error fault)
  /-- The pass is made, and there is none after it. -/
  | made {swept : Pass} {outcome : Except Fault (Option Int)}
      (passed : (pass fuel stages #[]).result = some (.ok swept))
      (ended : swept.verdict phases last = some outcome) :
      EndsIn fuel phases stages last outcome

section

variable {fuel passes : Nat} {phases : List Int} {stages fed : List RingStage}
  {last : Option Int} {log : Log} {swept : Pass} {outcome : Except Fault (Option Int)}

theorem relay_fed {last' : Option Int} (inhabited : swept.stages ≠ [])
    (relayed : relay swept.stages last swept.tail = .fed fed last') :
    fed = feedHead swept.tail swept.stages ∧ last' = swept.tail.getLast?.or last := by
  rcases relay_cases inhabited swept.tail with ⟨-, value, rest, -, refused⟩ | handed
  · cases relayed.symm.trans (refused last)
  · cases relayed.symm.trans (handed last)
    exact ⟨rfl, rfl⟩

/-- There is another pass if the outputs of the last stage could be handed on, some stage goes on
and something has happened. -/
theorem Pass.verdict_eq_none_iff :
    swept.verdict phases last = none ↔
      ∃ fed last', relay swept.stages last swept.tail = .fed fed last' ∧
        fed.all (·.stopped) = false ∧ swept.progressed = true := by
  unfold verdict
  constructor
  · intro undecided
    split at undecided
    · cases undecided
    next fed last' relayed =>
      split at undecided
      · cases undecided
      next going =>
        split at undecided
        next progressed => exact ⟨fed, last', relayed, Bool.eq_false_iff.mpr going, progressed⟩
        · cases undecided
  · rintro ⟨fed, last', relayed, going, progressed⟩
    simp only [relayed, going, progressed, Bool.false_eq_true, ↓reduceIte]

/-- Once all stages have stopped there is no other pass, and no deadlock. -/
theorem Pass.verdict_of_stopped (phases : List Int) (last : Option Int)
    (inhabited : swept.stages ≠ []) (stopped : ∀ stage ∈ swept.stages, stage.stopped = true) :
    ∃ returned, swept.verdict phases last = some (.ok returned) := by
  have all : swept.stages.all (·.stopped) = true := List.all_eq_true.mpr stopped
  unfold verdict
  rcases relay_cases inhabited swept.tail with ⟨-, value, rest, -, refused⟩ | handed
  · exact ⟨_, by rw [refused]⟩
  · refine ⟨swept.tail.getLast?.or last, ?_⟩
    rw [handed]
    simp only [feedHead_all, all, ↓reduceIte]

/-- The only failure that a pass that is made can end in is a deadlock. -/
theorem Pass.verdict_eq_error {fault : Fault} (inhabited : swept.stages ≠ [])
    (failed : swept.verdict phases last = some (.error fault)) :
    fault = Fault.raised (.deadlock phases) ∧ swept.stages.all (·.stopped) = false ∧
      swept.progressed = false := by
  unfold verdict at failed
  split at failed
  · cases failed
  next fed last' relayed =>
    obtain ⟨rfl, -⟩ := relay_fed inhabited relayed
    rw [feedHead_all] at failed
    split at failed
    · cases failed
    next going =>
      split at failed
      · cases failed
      next still =>
        cases failed
        exact ⟨rfl, Bool.eq_false_iff.mpr going, Bool.eq_false_iff.mpr still⟩

theorem ringFrom_log (fuel : Nat) (phases : List Int) (passes : Nat) (stages : List RingStage)
    (last : Option Int) (log log' : Log) :
    (ringFrom fuel phases passes stages last log).result =
      (ringFrom fuel phases passes stages last log').result := by
  induction passes generalizing stages last log log' with
  | zero => rfl
  | succ passes ih =>
    have same := pass_log fuel stages log log'
    unfold ringFrom
    generalize pass fuel stages log = one, pass fuel stages log' = other at same ⊢
    rcases one with ⟨result, written⟩
    rcases other with ⟨result', written'⟩
    obtain rfl : result = result' := same
    rcases result with _ | fault | swept
    · rfl
    · rfl
    · dsimp only
      split
      · rfl
      · split
        · rfl
        · split
          · rfl
          · exact ih _ _ _ _

/-- What a ring makes of its next pass, whatever the log. -/
theorem ringFrom_succ :
    (ringFrom fuel phases (passes + 1) stages last log).result =
      match (pass fuel stages #[]).result with
      | none => none
      | some (.error fault) => some (.error fault)
      | some (.ok swept) =>
        match relay swept.stages last swept.tail with
        | .final signal => some (.ok (some signal))
        | .fed fed last =>
          if fed.all (·.stopped) then some (.ok last)
          else if swept.progressed then (ringFrom fuel phases passes fed last #[]).result
          else some (.error (Fault.raised (.deadlock phases))) := by
  rw [← pass_log fuel stages log, ringFrom]
  generalize pass fuel stages log = report
  rcases report with ⟨_ | fault | swept, log'⟩
  · rfl
  · rfl
  · dsimp only
    cases relay swept.stages last swept.tail with
    | final signal => rfl
    | fed fed last =>
      dsimp only
      cases fed.all (·.stopped) with
      | true => rfl
      | false =>
        cases swept.progressed with
        | false => rfl
        | true => exact ringFrom_log _ _ _ _ _ _ _

theorem ringFrom_of_error {fault : Fault} (fails : Fails fuel stages fault) :
    (ringFrom fuel phases (passes + 1) stages last log).result = some (.error fault) := by
  rw [ringFrom_succ, pass_eq_error_iff.mpr fails]

/-- A pass that is made ends the ring, or the ring goes on with what it has come to. -/
theorem ringFrom_of_pass (inhabited : swept.stages ≠ [])
    (passed : (pass fuel stages #[]).result = some (.ok swept)) :
    (ringFrom fuel phases (passes + 1) stages last log).result =
      (swept.verdict phases last).or
        (ringFrom fuel phases passes (feedHead swept.tail swept.stages)
          (swept.tail.getLast?.or last) #[]).result := by
  rw [ringFrom_succ, passed]
  unfold Pass.verdict
  dsimp only
  rcases relay_cases inhabited swept.tail with ⟨-, value, rest, -, refused⟩ | handed
  · rw [refused]
    rfl
  · rw [handed]
    dsimp only
    split
    · rfl
    · cases swept.progressed <;> rfl

end

/-! ## One pass after the other -/

/-- A ring begins the pass with the given number, counted from zero, with the given stages. The
last stage has put out the listed values in the passes before. -/
inductive Begins (settings : Settings) (fuel : Nat) (program : Program) (phases : List Int)
    (signal : Int) : (number : Nat) → (stages : List RingStage) → (written : List Int) → Prop where
  | first {cells : List Int} (loaded : program.load = .ok cells) :
      Begins settings fuel program phases signal 0
        (primeHead signal (ringStages settings cells 0 phases)) []
  | next {number : Nat} {stages fed : List RingStage} {written : List Int} {swept : Pass}
      {last : Option Int}
      (before : Begins settings fuel program phases signal number stages written)
      (passed : (pass fuel stages #[]).result = some (.ok swept))
      (relayed : relay swept.stages written.getLast? swept.tail = .fed fed last)
      (going : fed.all (·.stopped) = false) (progressed : swept.progressed = true) :
      Begins settings fuel program phases signal (number + 1) fed (written ++ swept.tail)

section

variable {settings : Settings} {fuel : Nat} {program : Program} {phases : List Int} {signal : Int}
  {number number' : Nat} {stages stages' : List RingStage} {written written' : List Int}
  {swept : Pass} {outcome : Except Fault (Option Int)}

theorem Begins.unique (one : Begins settings fuel program phases signal number stages written)
    (other : Begins settings fuel program phases signal number stages' written') :
    stages = stages' ∧ written = written' := by
  induction one generalizing stages' written' with
  | first loaded =>
    cases other with
    | first loaded' =>
      cases loaded.symm.trans loaded'
      exact ⟨rfl, rfl⟩
  | next _ passed relayed _ _ ih =>
    cases other with
    | next before' passed' relayed' _ _ =>
      obtain ⟨rfl, rfl⟩ := ih before'
      cases passed.symm.trans passed'
      cases relayed.symm.trans relayed'
      exact ⟨rfl, rfl⟩

/-- The passes of a ring are begun in order. -/
theorem Begins.earlier (begins : Begins settings fuel program phases signal number stages written)
    (fewer : number' ≤ number) :
    ∃ stages' written', Begins settings fuel program phases signal number' stages' written' := by
  induction begins with
  | first loaded =>
    obtain rfl := Nat.le_zero.mp fewer
    exact ⟨_, _, .first loaded⟩
  | next before passed relayed going progressed ih =>
    rcases Nat.lt_or_eq_of_le fewer with less | rfl
    · exact ih (Nat.le_of_lt_succ less)
    · exact ⟨_, _, .next before passed relayed going progressed⟩

theorem Begins.loaded (begins : Begins settings fuel program phases signal number stages written) :
    ∃ cells, program.load = .ok cells := by
  induction begins with
  | first loaded => exact ⟨_, loaded⟩
  | next _ _ _ _ _ ih => exact ih

/-- What holds of a ring between its passes holds where it begins one. -/
theorem Begins.state (nonempty : phases ≠ [])
    (begins : Begins settings fuel program phases signal number stages written) :
    ∃ start stream, RingState start phases signal (tailStopped stages) stages stream ∧
      stream 0 = stream phases.length := by
  induction begins with
  | first loaded => exact ⟨_, _, RingState.init settings _ phases signal, rfl⟩
  | @next number stages fed written swept last _ passed relayed going _ ih =>
    obtain ⟨start, stream, state, round⟩ := ih
    have sweep := pass_iff_sweep.mp passed
    obtain ⟨_, -, -, swept'⟩ := state.sweep sweep
    obtain ⟨rfl, -⟩ := relay_fed (swept'.inhabited nonempty) relayed
    rw [feedHead_all] at going
    obtain ⟨stream', state', round', -⟩ := state.onward nonempty round sweep going
    exact ⟨start, stream', state', round'⟩

theorem Begins.inhabited (nonempty : phases ≠ [])
    (begins : Begins settings fuel program phases signal number stages written)
    (passed : (pass fuel stages #[]).result = some (.ok swept)) : swept.stages ≠ [] := by
  obtain ⟨start, stream, state, -⟩ := begins.state nonempty
  obtain ⟨_, -, -, swept'⟩ := state.sweep (pass_iff_sweep.mp passed)
  exact swept'.inhabited nonempty

/-- A pass that is made and does not end the ring is followed by another one. -/
theorem Begins.onward (nonempty : phases ≠ [])
    (begins : Begins settings fuel program phases signal number stages written)
    (passed : (pass fuel stages #[]).result = some (.ok swept))
    (undecided : swept.verdict phases written.getLast? = none) :
    Begins settings fuel program phases signal (number + 1) (feedHead swept.tail swept.stages)
      (written ++ swept.tail) := by
  obtain ⟨fed, last, relayed, going, progressed⟩ := Pass.verdict_eq_none_iff.mp undecided
  obtain ⟨rfl, -⟩ := relay_fed (begins.inhabited nonempty passed) relayed
  exact .next begins passed relayed going progressed

/-- A ring comes to what it still has to do where it begins a pass. -/
theorem Begins.result (nonempty : phases ≠ [])
    (begins : Begins settings fuel program phases signal number stages written)
    (within : number ≤ fuel) :
    (ring settings fuel program phases signal).result =
      (ringFrom fuel phases (fuel - number) stages written.getLast? #[]).result := by
  induction begins with
  | first loaded =>
    have some : phases.isEmpty = false := by simpa using nonempty
    simp only [ring, some, Bool.false_eq_true, ↓reduceIte, loaded]
    rfl
  | @next number stages fed written swept last before passed relayed going progressed ih =>
    have inhabited := before.inhabited nonempty passed
    have undecided : swept.verdict phases written.getLast? = none :=
      Pass.verdict_eq_none_iff.mpr ⟨fed, last, relayed, going, progressed⟩
    obtain ⟨rfl, -⟩ := relay_fed inhabited relayed
    rw [ih (by omega), show fuel - number = fuel - (number + 1) + 1 by omega,
      ringFrom_of_pass inhabited passed, undecided, Option.none_or, List.getLast?_append]

/-- A ring ends where a pass that it begins ends it. -/
theorem Begins.result_of_endsIn (nonempty : phases ≠ [])
    (begins : Begins settings fuel program phases signal number stages written)
    (within : number < fuel) (ends : EndsIn fuel phases stages written.getLast? outcome) :
    (ring settings fuel program phases signal).result = some outcome := by
  rw [begins.result nonempty (Nat.le_of_lt within),
    show fuel - number = fuel - (number + 1) + 1 by omega]
  cases ends with
  | failed fails => exact ringFrom_of_error fails
  | made passed ended =>
    rw [ringFrom_of_pass (begins.inhabited nonempty passed) passed, ended, Option.some_or]

/-- Where a ring that has begun a pass comes to an outcome, it ends in that pass or a later one. -/
theorem Begins.endsIn_of_ringFrom (nonempty : phases ≠ []) {passes : Nat}
    (begins : Begins settings fuel program phases signal number stages written)
    (result : (ringFrom fuel phases passes stages written.getLast? #[]).result = some outcome) :
    ∃ last < number + passes, ∃ stages' written',
      Begins settings fuel program phases signal last stages' written' ∧
        EndsIn fuel phases stages' written'.getLast? outcome := by
  induction passes generalizing number stages written with
  | zero => cases result
  | succ passes ih =>
    rcases found : (pass fuel stages #[]).result with _ | fault | swept
    · rw [ringFrom_succ, found] at result
      cases result
    · have fails := pass_eq_error_iff.mp found
      rw [ringFrom_of_error fails] at result
      cases result
      exact ⟨number, by omega, stages, written, begins, .failed fails⟩
    · rw [ringFrom_of_pass (begins.inhabited nonempty found) found] at result
      cases ended : swept.verdict phases written.getLast? with
      | some verdict =>
        rw [ended] at result
        cases result
        exact ⟨number, by omega, stages, written, begins, .made found ended⟩
      | none =>
        rw [ended, Option.none_or, ← List.getLast?_append] at result
        obtain ⟨last, less, rest⟩ := ih (begins.onward nonempty found ended) result
        exact ⟨last, by omega, rest⟩

/-- A ring comes to an outcome if and only if the program cannot be read, or the ring ends with it
in one of the passes that it begins. -/
theorem ring_eq_some_iff (nonempty : phases ≠ []) :
    (ring settings fuel program phases signal).result = some outcome ↔
      (∃ fault, program.load = .error fault ∧ outcome = .error fault) ∨
      ∃ number < fuel, ∃ stages written,
        Begins settings fuel program phases signal number stages written ∧
          EndsIn fuel phases stages written.getLast? outcome := by
  have some : phases.isEmpty = false := by simpa using nonempty
  constructor
  · intro result
    cases loaded : program.load with
    | error fault =>
      simp only [ring, some, Bool.false_eq_true, ↓reduceIte, loaded] at result
      cases result
      exact Or.inl ⟨fault, rfl, rfl⟩
    | ok cells =>
      have begins : Begins settings fuel program phases signal 0 _ _ := .first loaded
      rw [begins.result nonempty (Nat.zero_le _)] at result
      obtain ⟨last, less, ends⟩ := begins.endsIn_of_ringFrom nonempty result
      exact Or.inr ⟨last, by omega, ends⟩
  · rintro (⟨fault, unread, rfl⟩ | ⟨number, within, stages, written, begins, ends⟩)
    · simp only [ring, some, Bool.false_eq_true, ↓reduceIte, unread]
      rfl
    · exact begins.result_of_endsIn nonempty within ends

/-- No pass is begun after one that ends the ring if it is made. -/
theorem Begins.le_of_ended
    (begins : Begins settings fuel program phases signal number stages written)
    (ended : ∀ swept, (pass fuel stages #[]).result = some (.ok swept) →
      swept.verdict phases written.getLast? ≠ none)
    (later : Begins settings fuel program phases signal number' stages' written') :
    number' ≤ number := by
  refine Nat.le_of_not_lt ?_
  intro beyond
  obtain ⟨_, _, next⟩ := later.earlier beyond
  cases next with
  | next before passed relayed going progressed =>
    obtain ⟨rfl, rfl⟩ := begins.unique before
    exact ended _ passed (Pass.verdict_eq_none_iff.mpr ⟨_, _, relayed, going, progressed⟩)

theorem Begins.le_of_endsIn
    (begins : Begins settings fuel program phases signal number stages written)
    (ends : EndsIn fuel phases stages written.getLast? outcome)
    (later : Begins settings fuel program phases signal number' stages' written') :
    number' ≤ number := by
  refine begins.le_of_ended ?_ later
  intro swept passed
  cases ends with
  | failed fails => cases passed.symm.trans (pass_eq_error_iff.mpr fails)
  | made passed' ended =>
    cases passed.symm.trans passed'
    simp [ended]

end

end Intcode.Pipeline
