import Mathlib

/-! # The verdict of a view compaction

`ViewCompactionTask` triggers a compaction and asks until it has done its work.  `check` calls itself while it
may still be running, and goes on where it was when the inner call is back: it writes over a result that the
inner call has set, and waits on for a compaction that is over. -/

namespace Taf.Views.CompactionVerdict

/-- What the cluster answers when it is asked at some point of the run; an error is an exception.  The details
    are the number of compactions and the fragmentation. -/
structure Observation where
  running : Except Unit Bool
  details : Except Unit (ℤ × ℚ)

structure ViewCompactionTask where
  withRebalance : Bool
  -- `_get_compaction_details` before the compaction
  initial : Except Unit (ℤ × ℚ)
  ddocCompaction : Except Unit Unit
  -- By the number of the requests before
  observations : ℕ → Observation
  -- `set_view_info` at the end of the wait, with its `stats`
  viewInfo : Except Unit Unit

inductive Request where
  | isCompacting
  | getCompactionDetails
  deriving DecidableEq

/-- `raised` says that an exception is set, which comes out of all calls. -/
structure State where
  log : List Request
  result : Bool
  raised : Bool

def State.start : State where
  log := []
  result := false
  raised := false

def State.asks (s : State) (request : Request) : State := { s with log := s.log ++ [request] }

/-- `self.result = False`, and `set_exception` -/
def State.fails (s : State) : State := { s with result := false, raised := true }

@[simp] theorem State.asks_result (s : State) (request : Request) : (s.asks request).result = s.result := rfl

@[simp] theorem State.asks_raised (s : State) (request : Request) : (s.asks request).raised = s.raised := rfl

@[simp] theorem State.length_asks (s : State) (request : Request) : (s.asks request).log.length = s.log.length + 1 := by
  simp [State.asks]

@[simp] theorem State.fails_result (s : State) : s.fails.result = false := rfl

@[simp] theorem State.fails_raised (s : State) : s.fails.raised = true := rfl

namespace ViewCompactionTask

variable (task : ViewCompactionTask)

/-- `_is_compacting`, and what follows -/
def isCompacting (s : State) (next : Bool → State → Option State) : Option State :=
  match (task.observations s.log.length).running with
  | .error _ => some (s.asks .isCompacting).fails
  | .ok running => next running (s.asks .isCompacting)

/-- `_get_compaction_details`, and what follows -/
def getCompactionDetails (s : State) (next : ℤ → ℚ → State → Option State) : Option State :=
  match (task.observations s.log.length).details with
  | .error _ => some (s.asks .getCompactionDetails).fails
  | .ok (revision, fragmentation) => next revision fragmentation (s.asks .getCompactionDetails)

/-- print details in case of failure -/
def failedToStart (s : State) : Option State :=
  task.isCompacting s fun _ s => task.getCompactionDetails s fun _ _ s =>
    match task.viewInfo with
    | .error _ => some s.fails
    | .ok _ => some { s with raised := true }

section

variable (compactionRevision : ℤ) (precompactedFragmentation : ℚ)

/-- Wait for compaction to start, with some rounds left; `inner` is `self.check()`. -/
def waitForStart (inner : State → Option State) : ℕ → State → Option State
  | 0, s => task.failedToStart s
  | rounds + 1, s =>
    task.isCompacting s fun running s =>
      if running then
        match inner s with
        | none => none
        | some s => if s.raised then some s else waitForStart inner rounds s
      else
        task.getCompactionDetails s fun newCompactionRevision _ s =>
          if newCompactionRevision > compactionRevision ∧ task.withRebalance then some { s with result := true }
          else waitForStart inner rounds s

/-- What `check` makes of its first answers -/
def checkDetails (inner : State → Option State) (compactionRunning : Bool) (newCompactionRevision : ℤ) (fragmentation : ℚ)
    (s : State) : Option State :=
  if newCompactionRevision = compactionRevision ∧ compactionRunning then inner s
  else if newCompactionRevision > compactionRevision ∨ precompactedFragmentation > fragmentation then
    if fragmentation - precompactedFragmentation > 0 then
      task.isCompacting s fun running s =>
        if running then
          match inner s with
          | none => none
          | some s => if s.raised then some s else some { s with result := task.withRebalance }
        else some { s with result := task.withRebalance }
    else some { s with result := true }
  else task.waitForStart compactionRevision inner 20 s

/-- `check`, as long as its calls of itself are not nested deeper than the fuel -/
def check : ℕ → State → Option State
  | 0, _ => none
  | fuel + 1, s =>
    task.isCompacting s fun compactionRunning s => task.getCompactionDetails s fun newCompactionRevision fragmentation s =>
      task.checkDetails compactionRevision precompactedFragmentation (check fuel) compactionRunning newCompactionRevision
        fragmentation s

end

def call (fuel : ℕ) : Option State :=
  match task.initial with
  | .error _ => some State.start.fails
  | .ok (compactionRevision, precompactedFragmentation) =>
    if precompactedFragmentation = 0 then some { State.start with result := false }
    else
      match task.ddocCompaction with
      | .error _ => some State.start.fails
      | .ok _ => task.check compactionRevision precompactedFragmentation fuel State.start

/-! ## What the verdict should be -/

/-- The run ends with the result `True` and no exception, however deep it may nest. -/
def Succeeds : Prop :=
  ∃ enough, ∀ fuel ≥ enough, ∃ s, task.call fuel = some s ∧ s.result = true ∧ s.raised = false

/-- From some point on no compaction is running, their number has gone up, and the fragmentation is not larger than
    it was; and the task still asks whether one is running. -/
def Settles : Prop :=
  ∃ revision fragmentation, task.initial = .ok (revision, fragmentation) ∧
    ∃ settled, (∀ k ≥ settled, (task.observations k).running = .ok false ∧
      ∃ newRevision newFragmentation, (task.observations k).details = .ok (newRevision, newFragmentation) ∧
        revision < newRevision ∧ newFragmentation ≤ fragmentation) ∧
      ∃ fuel s, task.call fuel = some s ∧ ∃ k ≥ settled, s.log[k]? = some .isCompacting

/-- The number of compactions never goes up, and the fragmentation never down. -/
def NothingDone : Prop :=
  ∃ revision fragmentation, task.initial = .ok (revision, fragmentation) ∧
    ∀ k newRevision newFragmentation, (task.observations k).details = .ok (newRevision, newFragmentation) →
      newRevision ≤ revision ∧ fragmentation ≤ newFragmentation

def Right : Prop :=
  (task.Settles → task.Succeeds) ∧
    (task.NothingDone → ∀ fuel s, task.call fuel = some s → ¬ s.result = true)

/-! ## The runs that end well -/

/-- A check at `k` finds the details. -/
def Finds (k : ℕ) (running : Bool) (revision : ℤ) (fragmentation : ℚ) : Prop :=
  (task.observations k).running = .ok running ∧ (task.observations (k + 1)).details = .ok (revision, fragmentation)

end ViewCompactionTask

/-- What is left of a run: a check, or a number of rounds of the wait -/
inductive Part where
  | check
  | rounds (left : ℕ)

/-- The part of a run that begins at a request ends well before another one.  Only with `with_rebalance` the
    fragmentation may be larger, and may the wait for the start be entered, which has to be left
    before its rounds are used up. -/
inductive EndsWell (task : ViewCompactionTask) (oldRevision : ℤ) (oldFragmentation : ℚ) : Part → ℕ → ℕ → Prop
  | stillCompacting {k stop fragmentation} : task.Finds k true oldRevision fragmentation →
      EndsWell task oldRevision oldFragmentation .check (k + 2) stop →
      EndsWell task oldRevision oldFragmentation .check k stop
  | compacted {k running revision fragmentation} : task.Finds k running revision fragmentation →
      ¬ (revision = oldRevision ∧ running = true) → oldRevision < revision ∨ fragmentation < oldFragmentation →
      fragmentation ≤ oldFragmentation → EndsWell task oldRevision oldFragmentation .check k (k + 2)
  | larger {k running revision fragmentation} : task.withRebalance = true →
      task.Finds k running revision fragmentation → oldRevision < revision → oldFragmentation < fragmentation →
      (task.observations (k + 2)).running = .ok false → EndsWell task oldRevision oldFragmentation .check k (k + 3)
  | largerRunning {k stop running revision fragmentation} : task.withRebalance = true →
      task.Finds k running revision fragmentation → oldRevision < revision → oldFragmentation < fragmentation →
      (task.observations (k + 2)).running = .ok true →
      EndsWell task oldRevision oldFragmentation .check (k + 3) stop →
      EndsWell task oldRevision oldFragmentation .check k stop
  | notStarted {k stop running revision fragmentation} : task.withRebalance = true →
      task.Finds k running revision fragmentation → ¬ (revision = oldRevision ∧ running = true) →
      revision ≤ oldRevision → oldFragmentation ≤ fragmentation →
      EndsWell task oldRevision oldFragmentation (.rounds 20) (k + 2) stop →
      EndsWell task oldRevision oldFragmentation .check k stop
  | increased {k left revision fragmentation} : task.withRebalance = true →
      task.Finds k false revision fragmentation → oldRevision < revision →
      EndsWell task oldRevision oldFragmentation (.rounds (left + 1)) k (k + 2)
  | waits {k stop left revision fragmentation} : task.Finds k false revision fragmentation → revision ≤ oldRevision →
      EndsWell task oldRevision oldFragmentation (.rounds left) (k + 2) stop →
      EndsWell task oldRevision oldFragmentation (.rounds (left + 1)) k stop
  | starts {k back stop left} : (task.observations k).running = .ok true →
      EndsWell task oldRevision oldFragmentation .check (k + 1) back →
      EndsWell task oldRevision oldFragmentation (.rounds left) back stop →
      EndsWell task oldRevision oldFragmentation (.rounds (left + 1)) k stop

namespace ViewCompactionTask

variable (task : ViewCompactionTask)

/-- Without `with_rebalance`, the first check that does not find a compaction still running finds it done.  With it,
    no wait for the start uses up its rounds. -/
def ChecksWell : Prop :=
  ∃ revision fragmentation, task.initial = .ok (revision, fragmentation) ∧ fragmentation ≠ 0 ∧
    task.ddocCompaction = .ok () ∧
      if task.withRebalance then ∃ stop, EndsWell task revision fragmentation .check 0 stop
      else ∃ n, (∀ earlier < n, ∃ newFragmentation, task.Finds (2 * earlier) true revision newFragmentation) ∧
        ∃ running newRevision newFragmentation, task.Finds (2 * n) running newRevision newFragmentation ∧
          ¬ (newRevision = revision ∧ running = true) ∧
          (revision < newRevision ∨ newFragmentation < fragmentation) ∧ newFragmentation ≤ fragmentation

end ViewCompactionTask

section

variable {task : ViewCompactionTask} {oldRevision : ℤ} {oldFragmentation : ℚ} {s t : State}

/-! ## A request and what follows -/

/-- A run that does not raise goes on behind a request. -/
theorem isCompacting_returns {next : Bool → State → Option State} (returned : task.isCompacting s next = some t)
    (quiet : t.raised = false) :
    ∃ running, (task.observations s.log.length).running = .ok running ∧ next running (s.asks .isCompacting) = some t := by
  unfold ViewCompactionTask.isCompacting at returned
  cases answer : (task.observations s.log.length).running with
  | error e =>
    rw [answer] at returned
    cases returned
    cases quiet
  | ok running =>
    rw [answer] at returned
    exact ⟨running, rfl, returned⟩

theorem details_returns {next : ℤ → ℚ → State → Option State} (returned : task.getCompactionDetails s next = some t)
    (quiet : t.raised = false) :
    ∃ revision fragmentation, (task.observations s.log.length).details = .ok (revision, fragmentation) ∧
      next revision fragmentation (s.asks .getCompactionDetails) = some t := by
  unfold ViewCompactionTask.getCompactionDetails at returned
  cases answer : (task.observations s.log.length).details with
  | error e =>
    rw [answer] at returned
    cases returned
    cases quiet
  | ok pair =>
    rw [answer] at returned
    exact ⟨pair.1, pair.2, rfl, returned⟩

theorem isCompacting_of_running {next : Bool → State → Option State} {running : Bool} {k : ℕ} (here : s.log.length = k)
    (answer : (task.observations k).running = .ok running) :
    task.isCompacting s next = next running (s.asks .isCompacting) := by
  rw [ViewCompactionTask.isCompacting, here, answer]

theorem details_of_answer {next : ℤ → ℚ → State → Option State} {revision : ℤ} {fragmentation : ℚ} {k : ℕ}
    (here : s.log.length = k) (answer : (task.observations k).details = .ok (revision, fragmentation)) :
    task.getCompactionDetails s next = next revision fragmentation (s.asks .getCompactionDetails) := by
  rw [ViewCompactionTask.getCompactionDetails, here, answer]

/-! ## What ends well has followed the rules -/

theorem failedToStart_raises (returned : task.failedToStart s = some t) : t.raised = true := by
  by_contra quiet
  rw [Bool.not_eq_true] at quiet
  obtain ⟨_, _, returned⟩ := isCompacting_returns returned quiet
  obtain ⟨_, _, _, returned⟩ := details_returns returned quiet
  cases view : task.viewInfo <;> simp only [view, Option.some.injEq] at returned <;> simp [← returned] at quiet

/-- What is asked of the calls of `check` that do not raise -/
def FollowsRules (task : ViewCompactionTask) (oldRevision : ℤ) (oldFragmentation : ℚ)
    (inner : State → Option State) : Prop :=
  ∀ s t, inner s = some t → t.raised = false → task.withRebalance = true ∨ t.result = true →
    EndsWell task oldRevision oldFragmentation .check s.log.length t.log.length

/-- A call of `check` inside goes on only if it returns without an exception. -/
theorem inner_returns {called : Option State} {next : State → Option State}
    (returned : (match called with
      | none => none
      | some s => if s.raised then some s else next s) = some t)
    (quiet : t.raised = false) : ∃ back, called = some back ∧ back.raised = false ∧ next back = some t := by
  cases called with
  | none => cases returned
  | some back =>
    dsimp only at returned
    cases raised : back.raised with
    | true =>
      rw [if_pos raised, Option.some.injEq] at returned
      rw [← returned, raised] at quiet
      cases quiet
    | false =>
      rw [if_neg (by simp [raised])] at returned
      exact ⟨back, rfl, raised, returned⟩

/-- The wait does not raise with `with_rebalance` only. -/
theorem waitForStart_follows {inner : State → Option State} (follows : FollowsRules task oldRevision oldFragmentation inner)
    {rounds : ℕ} (returned : task.waitForStart oldRevision inner rounds s = some t) (quiet : t.raised = false) :
    task.withRebalance = true ∧ EndsWell task oldRevision oldFragmentation (.rounds rounds) s.log.length t.log.length := by
  induction rounds generalizing s with
  | zero =>
    have raises := failedToStart_raises returned
    rw [quiet] at raises
    cases raises
  | succ rounds ih =>
    obtain ⟨running, runs, returned⟩ := isCompacting_returns returned quiet
    cases running with
    | true =>
      rw [if_pos rfl] at returned
      obtain ⟨back, called, raised, returned⟩ := inner_returns returned quiet
      obtain ⟨withRebalance, rest⟩ := ih returned
      have check := follows _ _ called raised (.inl withRebalance)
      rw [State.length_asks] at check
      exact ⟨withRebalance, .starts runs check rest⟩
    | false =>
      rw [if_neg (by simp)] at returned
      obtain ⟨revision, fragmentation, details, returned⟩ := details_returns returned quiet
      rw [State.length_asks] at details
      split_ifs at returned with increased
      · cases returned
        have stop : EndsWell task oldRevision oldFragmentation (.rounds (rounds + 1)) s.log.length (s.log.length + 2) :=
          .increased increased.2 ⟨runs, details⟩ increased.1
        simpa [Nat.add_assoc] using And.intro increased.2 stop
      · obtain ⟨withRebalance, rest⟩ := ih returned
        have notMore : revision ≤ oldRevision := not_lt.mp fun more => increased ⟨more, withRebalance⟩
        rw [State.length_asks, State.length_asks] at rest
        exact ⟨withRebalance, .waits ⟨runs, details⟩ notMore rest⟩

theorem check_follows (fuel : ℕ) :
    FollowsRules task oldRevision oldFragmentation (task.check oldRevision oldFragmentation fuel) := by
  induction fuel with
  | zero =>
    intro s t returned
    cases returned
  | succ fuel ih =>
    intro s t returned quiet well
    obtain ⟨running, runs, returned⟩ := isCompacting_returns returned quiet
    obtain ⟨revision, fragmentation, details, returned⟩ := details_returns returned quiet
    rw [State.length_asks] at details
    have finds : task.Finds s.log.length running revision fragmentation := ⟨runs, details⟩
    unfold ViewCompactionTask.checkDetails at returned
    split_ifs at returned with still done larger
    · have rest := ih _ _ returned quiet well
      rw [State.length_asks, State.length_asks] at rest
      rw [still.1, still.2] at finds
      exact .stillCompacting finds rest
    · -- The result of an inner check is written over, so it has to be `with_rebalance` that is true.
      rw [gt_iff_lt, sub_pos] at larger
      have more : oldRevision < revision := done.resolve_right (not_lt.mpr larger.le)
      obtain ⟨again, runsAgain, returned⟩ := isCompacting_returns returned quiet
      simp only [State.length_asks] at runsAgain
      cases again with
      | true =>
        rw [if_pos rfl] at returned
        obtain ⟨back, called, raised, returned⟩ := inner_returns returned quiet
        cases returned
        have withRebalance : task.withRebalance = true := well.elim id id
        have rest := ih _ _ called raised (.inl withRebalance)
        simp only [State.length_asks] at rest
        exact .largerRunning withRebalance finds more larger runsAgain rest
      | false =>
        rw [if_neg (by simp)] at returned
        cases returned
        simpa using EndsWell.larger (well.elim id id) finds more larger runsAgain
    · cases returned
      rw [gt_iff_lt, sub_pos, not_lt] at larger
      simpa using EndsWell.compacted finds still done larger
    · obtain ⟨withRebalance, rest⟩ := waitForStart_follows ih returned quiet
      simp only [State.length_asks] at rest
      rw [not_or, not_lt, gt_iff_lt, not_lt] at done
      exact .notStarted withRebalance finds still done.1 done.2 rest

/-! ## What follows the rules ends well -/

/-- A part of a run, with enough fuel for it -/
def runPart (task : ViewCompactionTask) (oldRevision : ℤ) (oldFragmentation : ℚ) (fuel : ℕ) : Part → State → Option State
  | .check => task.check oldRevision oldFragmentation fuel
  | .rounds left => task.waitForStart oldRevision (task.check oldRevision oldFragmentation fuel) left

/-- The part ends with the result `True`, no exception, and `stop` requests. -/
def EndsTrue (run : State → Option State) (k stop : ℕ) : Prop :=
  ∀ s : State, s.log.length = k → s.raised = false →
    ∃ t, run s = some t ∧ t.log.length = stop ∧ t.raised = false ∧ t.result = true

/-- A check is as good as what follows the details that it finds. -/
theorem check_of_finds {enough k stop : ℕ} {running : Bool} {revision : ℤ} {fragmentation : ℚ}
    (finds : task.Finds k running revision fragmentation)
    (rest : ∀ fuel ≥ enough, EndsTrue (task.checkDetails oldRevision oldFragmentation
      (task.check oldRevision oldFragmentation fuel) running revision fragmentation) (k + 2) stop) :
    ∃ enough, ∀ fuel ≥ enough, EndsTrue (runPart task oldRevision oldFragmentation fuel .check) k stop := by
  refine ⟨enough + 1, fun fuel more s here quiet => ?_⟩
  obtain ⟨fuel, rfl⟩ := Nat.exists_eq_succ_of_ne_zero (by omega : fuel ≠ 0)
  rw [runPart, ViewCompactionTask.check, isCompacting_of_running here finds.1,
    details_of_answer (by rw [State.length_asks, here]) finds.2]
  exact rest fuel (by omega) _ (by simp [here]) quiet

theorem runPart_of_endsWell {part : Part} {k stop : ℕ}
    (endsWell : EndsWell task oldRevision oldFragmentation part k stop) :
    ∃ enough, ∀ fuel ≥ enough, EndsTrue (runPart task oldRevision oldFragmentation fuel part) k stop := by
  induction endsWell with
  | stillCompacting finds _ ih =>
    obtain ⟨enough, rest⟩ := ih
    refine check_of_finds finds (?_ : ∀ fuel ≥ enough, _)
    intro fuel more s here quiet
    rw [ViewCompactionTask.checkDetails, if_pos ⟨rfl, rfl⟩]
    exact rest fuel more s here quiet
  | compacted finds other done smaller =>
    refine check_of_finds finds (?_ : ∀ fuel ≥ 0, _)
    intro fuel _ s here quiet
    rw [ViewCompactionTask.checkDetails, if_neg other, if_pos done, if_neg (by simpa using smaller)]
    exact ⟨_, rfl, here, quiet, rfl⟩
  | larger withRebalance finds more larger idle =>
    refine check_of_finds finds (?_ : ∀ fuel ≥ 0, _)
    intro fuel _ s here quiet
    rw [ViewCompactionTask.checkDetails, if_neg (fun same => more.ne' same.1), if_pos (.inl more),
      if_pos (sub_pos.mpr larger), isCompacting_of_running here idle, if_neg (by simp)]
    exact ⟨_, rfl, by simp [here], quiet, withRebalance⟩
  | largerRunning withRebalance finds more larger runs _ ih =>
    obtain ⟨enough, rest⟩ := ih
    refine check_of_finds finds (?_ : ∀ fuel ≥ enough, _)
    intro fuel atLeast s here quiet
    obtain ⟨t, called, stopped, stillQuiet, _⟩ := rest fuel atLeast (s.asks .isCompacting) (by simp [here]) quiet
    rw [runPart] at called
    rw [ViewCompactionTask.checkDetails, if_neg (fun same => more.ne' same.1), if_pos (.inl more),
      if_pos (sub_pos.mpr larger), isCompacting_of_running here runs, if_pos rfl]
    simp only [called, stillQuiet, Bool.false_eq_true, if_false]
    exact ⟨_, rfl, stopped, rfl, withRebalance⟩
  | notStarted _ finds other notMore notLess _ ih =>
    obtain ⟨enough, rest⟩ := ih
    refine check_of_finds finds (?_ : ∀ fuel ≥ enough, _)
    intro fuel atLeast s here quiet
    rw [ViewCompactionTask.checkDetails, if_neg other, if_neg (by simp [notMore, notLess])]
    exact rest fuel atLeast s here quiet
  | increased withRebalance finds more =>
    refine ⟨0, fun fuel _ s here quiet => ?_⟩
    rw [runPart, ViewCompactionTask.waitForStart, isCompacting_of_running here finds.1, if_neg (by simp),
      details_of_answer (by rw [State.length_asks, here]) finds.2, if_pos ⟨more, withRebalance⟩]
    exact ⟨_, rfl, by simp [here], quiet, rfl⟩
  | waits finds notMore _ ih =>
    obtain ⟨enough, rest⟩ := ih
    refine ⟨enough, fun fuel atLeast s here quiet => ?_⟩
    rw [runPart, ViewCompactionTask.waitForStart, isCompacting_of_running here finds.1, if_neg (by simp),
      details_of_answer (by rw [State.length_asks, here]) finds.2, if_neg (by simp [notMore.not_gt])]
    exact rest fuel atLeast _ (by simp [here]) quiet
  | starts runs _ _ ihCheck ihRest =>
    obtain ⟨enoughCheck, check⟩ := ihCheck
    obtain ⟨enoughRest, rest⟩ := ihRest
    refine ⟨max enoughCheck enoughRest, fun fuel atLeast s here quiet => ?_⟩
    obtain ⟨t, called, back, stillQuiet, _⟩ :=
      check fuel (le_of_max_le_left atLeast) (s.asks .isCompacting) (by simp [here]) quiet
    rw [runPart] at called
    rw [runPart, ViewCompactionTask.waitForStart, isCompacting_of_running here runs, if_pos rfl]
    simp only [called, stillQuiet, Bool.false_eq_true, if_false]
    exact rest fuel (le_of_max_le_right atLeast) t back stillQuiet

/-! ## Nothing done -/

/-- No details show more compactions, or a smaller fragmentation. -/
def Unchanged (task : ViewCompactionTask) (oldRevision : ℤ) (oldFragmentation : ℚ) : Prop :=
  ∀ k revision fragmentation, (task.observations k).details = .ok (revision, fragmentation) →
    revision ≤ oldRevision ∧ oldFragmentation ≤ fragmentation

/-- A part of a run that keeps the result false -/
def StaysFalse (run : State → Option State) : Prop := ∀ s t, s.result = false → run s = some t → t.result = false

theorem isCompacting_staysFalse {next : Bool → State → Option State} (rest : ∀ running, StaysFalse (next running)) :
    StaysFalse fun s => task.isCompacting s next := by
  intro s t start returned
  simp only [ViewCompactionTask.isCompacting] at returned
  cases answer : (task.observations s.log.length).running with
  | error e =>
    simp only [answer, Option.some.injEq] at returned
    rw [← returned, State.fails_result]
  | ok running =>
    simp only [answer] at returned
    exact rest running (s.asks .isCompacting) t start returned

theorem details_staysFalse (unchanged : Unchanged task oldRevision oldFragmentation)
    {next : ℤ → ℚ → State → Option State}
    (rest : ∀ revision fragmentation, revision ≤ oldRevision → oldFragmentation ≤ fragmentation →
      StaysFalse (next revision fragmentation)) : StaysFalse fun s => task.getCompactionDetails s next := by
  intro s t start returned
  simp only [ViewCompactionTask.getCompactionDetails] at returned
  cases answer : (task.observations s.log.length).details with
  | error e =>
    simp only [answer, Option.some.injEq] at returned
    rw [← returned, State.fails_result]
  | ok pair =>
    simp only [answer] at returned
    obtain ⟨notMore, notLess⟩ := unchanged _ pair.1 pair.2 answer
    exact rest pair.1 pair.2 notMore notLess (s.asks .getCompactionDetails) t start returned

theorem waitForStart_staysFalse (unchanged : Unchanged task oldRevision oldFragmentation)
    {inner : State → Option State} (innerStays : StaysFalse inner) (rounds : ℕ) :
    StaysFalse (task.waitForStart oldRevision inner rounds) := by
  induction rounds with
  | zero =>
    refine isCompacting_staysFalse fun _ => details_staysFalse unchanged fun _ _ _ _ => ?_
    intro s t start returned
    cases view : task.viewInfo <;> simp only [view, Option.some.injEq] at returned <;> simp [← returned, start]
  | succ rounds ih =>
    refine isCompacting_staysFalse fun running => ?_
    intro s t start returned
    cases running with
    | true =>
      simp only [if_true] at returned
      cases called : inner s with
      | none => simp [called] at returned
      | some back =>
        have backFalse := innerStays s back start called
        simp only [called] at returned
        split_ifs at returned
        · cases returned
          exact backFalse
        · exact ih back t backFalse returned
    | false =>
      simp only [Bool.false_eq_true, if_false] at returned
      refine details_staysFalse unchanged (fun revision _ notMore _ => ?_) s t start returned
      intro s t start returned
      dsimp only at returned
      rw [if_neg (by simp [notMore.not_gt])] at returned
      exact ih s t start returned

theorem check_staysFalse (unchanged : Unchanged task oldRevision oldFragmentation) (fuel : ℕ) :
    StaysFalse (task.check oldRevision oldFragmentation fuel) := by
  induction fuel with
  | zero =>
    intro s t _ returned
    cases returned
  | succ fuel ih =>
    refine isCompacting_staysFalse fun running => details_staysFalse unchanged fun revision fragmentation notMore notLess => ?_
    intro s t start returned
    have nothing : ¬ (revision > oldRevision ∨ oldFragmentation > fragmentation) := by
      simp [notMore, notLess]
    dsimp only [ViewCompactionTask.checkDetails] at returned
    rw [if_neg nothing] at returned
    split_ifs at returned
    · exact ih s t start returned
    · exact waitForStart_staysFalse unchanged ih 20 s t start returned

theorem call_staysFalse (nothing : task.NothingDone) (fuel : ℕ) (returned : task.call fuel = some s) :
    ¬ s.result = true := by
  obtain ⟨revision, fragmentation, initial, never⟩ := nothing
  rw [Bool.not_eq_true]
  simp only [ViewCompactionTask.call, initial] at returned
  split_ifs at returned
  · cases returned
    rfl
  · cases trigger : task.ddocCompaction with
    | error e =>
      simp only [trigger, Option.some.injEq] at returned
      rw [← returned, State.fails_result]
    | ok _ =>
      simp only [trigger] at returned
      exact check_staysFalse never fuel _ _ rfl returned

/-! ## The verdict -/

/-- Without `with_rebalance` the checks that end well are those that find a compaction running, and one that finds
    it done. -/
theorem endsWell_iff (withoutRebalance : task.withRebalance = false) {k : ℕ} :
    (∃ stop, EndsWell task oldRevision oldFragmentation .check k stop) ↔
      ∃ n, (∀ earlier < n, ∃ newFragmentation, task.Finds (k + 2 * earlier) true oldRevision newFragmentation) ∧
        ∃ running newRevision newFragmentation, task.Finds (k + 2 * n) running newRevision newFragmentation ∧
          ¬ (newRevision = oldRevision ∧ running = true) ∧
          (oldRevision < newRevision ∨ newFragmentation < oldFragmentation) ∧ newFragmentation ≤ oldFragmentation := by
  constructor
  · intro ⟨stop, endsWell⟩
    generalize whole : Part.check = part at endsWell
    induction endsWell with
    | @stillCompacting k stop fragmentation finds _ ih =>
      obtain ⟨n, earlier, done⟩ := ih whole
      refine ⟨n + 1, ?_, ?_⟩
      · intro i before
        cases i with
        | zero => exact ⟨fragmentation, finds⟩
        | succ i =>
          rw [Nat.mul_succ, ← Nat.add_assoc, Nat.add_right_comm]
          exact earlier i (Nat.lt_of_succ_lt_succ before)
      · rw [Nat.mul_succ, ← Nat.add_assoc, Nat.add_right_comm]
        exact done
    | compacted finds other done smaller => exact ⟨0, by simp, _, _, _, finds, other, done, smaller⟩
    | larger withRebalance => simp [withoutRebalance] at withRebalance
    | largerRunning withRebalance => simp [withoutRebalance] at withRebalance
    | notStarted withRebalance => simp [withoutRebalance] at withRebalance
    | increased | waits | starts => cases whole
  · intro ⟨n, earlier, done⟩
    induction n generalizing k with
    | zero =>
      obtain ⟨running, revision, fragmentation, finds, other, changed, smaller⟩ := done
      exact ⟨_, .compacted finds other changed smaller⟩
    | succ n ih =>
      obtain ⟨fragmentation, finds⟩ := earlier 0 n.succ_pos
      have shift : ∀ i, k + 2 * (i + 1) = k + 2 + 2 * i := by
        intro i
        ring
      obtain ⟨stop, rest⟩ := ih (by
        intro i before
        rw [← shift]
        exact earlier (i + 1) (Nat.succ_lt_succ before)) (by
        rw [← shift]
        exact done)
      exact ⟨stop, .stillCompacting finds rest⟩

theorem succeeds_iff : task.Succeeds ↔
    ∃ revision fragmentation, task.initial = .ok (revision, fragmentation) ∧ fragmentation ≠ 0 ∧
      task.ddocCompaction = .ok () ∧ ∃ stop, EndsWell task revision fragmentation .check 0 stop := by
  constructor
  · intro ⟨enough, succeeds⟩
    obtain ⟨s, called, success, quiet⟩ := succeeds enough le_rfl
    unfold ViewCompactionTask.call at called
    cases initial : task.initial with
    | error e =>
      simp only [initial, Option.some.injEq] at called
      simp [← called] at quiet
    | ok pair =>
      simp only [initial] at called
      split_ifs at called with nothing
      · cases called
        cases success
      · cases trigger : task.ddocCompaction with
        | error e =>
          simp only [trigger, Option.some.injEq] at called
          simp [← called] at quiet
        | ok _ =>
          simp only [trigger] at called
          exact ⟨pair.1, pair.2, rfl, nothing, rfl, _, check_follows enough _ _ called quiet (.inr success)⟩
  · intro ⟨revision, fragmentation, initial, something, trigger, stop, endsWell⟩
    obtain ⟨enough, ends⟩ := runPart_of_endsWell endsWell
    refine ⟨enough, fun fuel atLeast => ?_⟩
    obtain ⟨t, called, _, quiet, success⟩ := ends fuel atLeast State.start rfl rfl
    refine ⟨t, ?_, success, quiet⟩
    simp only [ViewCompactionTask.call, initial, something, if_false, trigger]
    exact called

theorem succeeds_iff_checksWell : task.Succeeds ↔ task.ChecksWell := by
  rw [succeeds_iff, ViewCompactionTask.ChecksWell]
  refine exists₂_congr fun revision fragmentation => ?_
  refine and_congr_right fun _ => and_congr_right fun _ => and_congr_right fun _ => ?_
  cases rebalance : task.withRebalance with
  | true => simp
  | false =>
    rw [if_neg Bool.false_ne_true, endsWell_iff rebalance]
    simp only [Nat.zero_add]

end

/-- The verdict is right exactly if the observations of a compaction that does its work lead neither to a wait that
    is used up nor, without `with_rebalance`, to a result that is written over. -/
theorem compaction_right_iff (task : ViewCompactionTask) : task.Right ↔ (task.Settles → task.ChecksWell) := by
  rw [ViewCompactionTask.Right, succeeds_iff_checksWell]
  exact and_iff_left fun nothing _ _ => call_staysFalse nothing _

/-- The first check finds no compaction yet.  The second one, made by the wait, finds it done, and the wait goes on
    until it takes it for one that has never started. -/
theorem late_start_fails :
    let idle : ℤ → ℚ → Observation := fun revision fragmentation => ⟨.ok false, .ok (revision, fragmentation)⟩
    let task : ViewCompactionTask :=
      ⟨false, .ok (5, 50), .ok (), fun k =>
        if k < 2 then idle 5 50 else if k = 2 then ⟨.ok true, .ok (5, 50)⟩ else idle 6 10, .ok ()⟩
    ¬ task.Right := by
  intro idle task right
  have settles : task.Settles := by
    have asks : (task.call 2).map (fun s => s.log[3]?) = some (some .isCompacting) := by decide +kernel
    obtain ⟨s, called, asked⟩ := Option.map_eq_some_iff.mp asks
    refine ⟨5, 50, rfl, 3, fun k late => ?_, 2, s, called, 3, le_rfl, asked⟩
    have observation : task.observations k = idle 6 10 := by
      simp [task, show ¬ k < 2 by omega, show k ≠ 2 by omega]
    rw [observation]
    exact ⟨rfl, 6, 10, rfl, by norm_num, by norm_num⟩
  obtain ⟨revision, fragmentation, initial, _, _, checks⟩ := succeeds_iff_checksWell.mp (right.1 settles)
  cases initial
  obtain ⟨n, earlier, running, newRevision, newFragmentation, finds, _, done, _⟩ := checks
  cases n with
  | zero =>
    cases finds.2
    norm_num at done
  | succ n =>
    obtain ⟨_, still, _⟩ := earlier 0 n.succ_pos
    cases still

end Taf.Views.CompactionVerdict
