import Taf.Cluster.PollingHelpers

/-! # Watching a rebalance

`monitorRebalance` of `membase/api/rest_client.py` polls the progress of a rebalance
until it is finished, has failed or hangs; `rebalance_reached` of `ClusterUtils` polls
until some progress is made.  A reading of the progress takes one or two answers of the
tasks endpoint, and the test of the loop takes another one once the progress is 100.  An
error message makes it fetch the latest logs before it raises.  The answers are parameters,
one record for each turn of the loop. -/

namespace Taf.Cluster.RebalanceMonitor

open Taf.Lib Taf.Cluster

inductive MonitorError where
  | rebalanceFailed
  | request (e : PollError)
  deriving DecidableEq, Repr

/-! ## The tasks endpoint -/

/-- One element of the answer -/
structure Task where
  type : Option String
  subtype : Option String := none
  status : Option String := none
  statusId : Option String := none
  errorMessage : Option String := none
  progress : Option ℚ := none
  deriving DecidableEq

inductive TasksAnswer where
  -- `ServerUnavailableException`
  | unavailable
  -- The status of the request, and its content unless it cannot be read
  | answered (status : Bool) (content : Except PollError (List Task))

/-- The dictionary of the rebalance; without one the whole answer is looked into, which
is a list and has none of the keys. -/
def findRebalance (content : List Task) : Option Task :=
  content.find? fun task => task.type = some "rebalance"

/-- `notRunning` is read as `none`. -/
def statusName (status : String) : String :=
  if status = "notRunning" then "none" else status

/-- A number of the program: the codes are integers, a progress is a rounded float. -/
inductive Reading where
  | int (n : ℤ)
  | float (x : ℚ)
  deriving DecidableEq

def Reading.value : Reading → ℚ
  | .int n => n
  | .float x => x

/-- `round(x, 2)`: half a unit is rounded away from zero. -/
def round2 (x : ℚ) : ℚ :=
  if 0 ≤ x then ⌊x * 100 + 1 / 2⌋ / 100 else -(⌊-x * 100 + 1 / 2⌋ / 100)

/-- `print_UI_logs` in front of `raise RebalanceFailedException`: what its request raises comes first. -/
def printThenRaise : Except PollError Unit → MonitorError
  | .ok () => .rebalanceFailed
  | .error e => .request e

/-- The second request of `_rebalance_status_and_progress`, whose status is not looked at. -/
def confirmFinished (logs : Except PollError Unit) : TasksAnswer → Except MonitorError Unit
  | .unavailable => .error (.request .serverUnavailable)
  | .answered _ (.error e) => .error (.request e)
  | .answered _ (.ok content) =>
    if ((findRebalance content).bind Task.errorMessage).isSome then .error (printThenRaise logs)
    else .ok ()

/-- `_rebalance_status_and_progress(task_status_id)`; `logs` is what `get_logs` raises, if anything. -/
def rebalanceStatusAndProgress (taskStatusId : Option String) (first second : TasksAnswer)
    (logs : Except PollError Unit) : Except MonitorError (Option String × Reading) :=
  match first with
  | .unavailable => .ok (none, .int (-100))
  | .answered _ (.error e) => .error (.request e)
  | .answered false (.ok _) => .ok (none, .int (-100))
  | .answered true (.ok content) =>
    match findRebalance content with
    | none => .ok (none, .int (-1))
    | some task =>
      match task.status with
      | none => .ok (none, .int (-1))
      | some status =>
        if task.errorMessage.isSome then .error (printThenRaise logs)
        else if statusName status = "running" then
          if taskStatusId.isSome ∧ task.statusId.isSome ∧ task.statusId ≠ taskStatusId then
            .ok (some "none", .int 100)
          else
            match task.progress with
            | none => .error (.request .keyError)
            | some progress => .ok (some "running", .float (round2 progress))
        else do
          confirmFinished logs second
          .ok (some (statusName status), .int 100)

/-- `_rebalance_progress_status(include_failover)` -/
def rebalanceProgressStatus (includeFailover : Bool) :
    TasksAnswer → Except MonitorError (Option String)
  | .unavailable => .error (.request .serverUnavailable)
  | .answered _ (.error e) => .error (.request e)
  | .answered false (.ok _) => .ok none
  | .answered true (.ok content) =>
    match findRebalance content with
    | none => .ok none
    | some task =>
      match task.status with
      | none => .ok none
      | some status =>
        if includeFailover then .ok (some (statusName status))
        else
          match task.subtype with
          | none => .error (.request .keyError)
          | some subtype =>
            if subtype = "failover" then .ok (some "none") else .ok (some (statusName status))

/-! ## `monitorRebalance` -/

/-- The answers of one turn: the requests of the progress with that for the logs, and that of the
test behind it -/
structure Poll where
  first : TasksAnswer
  second : TasksAnswer
  logs : Except PollError Unit
  status : TasksAnswer

/-- `_rebalance_progress` -/
def rebalanceProgress (poll : Poll) : Except MonitorError Reading :=
  (rebalanceStatusAndProgress none poll.first poll.second poll.logs).map Prod.snd

structure Monitor where
  progress : Reading := .int 0
  retry : ℕ := 0
  sameProgressCount : ℕ := 0
  previousProgress : Reading := .int 0

/-- The counters behind a reading -/
def Monitor.record (monitor : Monitor) (stopIfLoop : Bool) (progress : Reading) : Monitor :=
  let retry := if progress.value = -100 then monitor.retry + 1 else 0
  if stopIfLoop then
    if monitor.previousProgress.value ≠ progress.value ∨ progress.value = 0 then
      { progress, retry, sameProgressCount := 0, previousProgress := progress }
    else { monitor with progress, retry, sameProgressCount := monitor.sameProgressCount + 1 }
  else { monitor with progress, retry }

/-- The test of the loop, which asks for the status only at a progress of 100 -/
def Monitor.goesOn (monitor : Monitor) (status : TasksAnswer) : Except MonitorError Bool :=
  if monitor.progress.value = -1 then .ok false
  else if monitor.progress.value = 100 then do
    let status ← rebalanceProgressStatus true status
    .ok (status = some "running" ∧ monitor.retry < 20)
  else .ok (monitor.retry < 20)

abbrev Verdict := Except MonitorError Bool

/-- One turn of the loop, with the test behind it -/
def monitorStep (stopIfLoop : Bool) (monitor : Monitor) (poll : Poll) : Except Verdict Monitor :=
  match rebalanceProgress poll with
  | .error e => .error (.error e)
  | .ok progress =>
    let monitor := monitor.record stopIfLoop progress
    if stopIfLoop ∧ monitor.sameProgressCount > 500 then .error (.ok false)
    else
      match monitor.goesOn poll.status with
      | .error e => .error (.error e)
      | .ok true => .ok monitor
      | .ok false => .error (.ok (¬ monitor.progress.value < 0))

/-- `monitorRebalance(stop_if_loop)` after `n` turns; the first test is passed. -/
def monitorRebalance (stopIfLoop : Bool) (polls : ℕ → Poll) (n : ℕ) : Except Verdict Monitor :=
  afterPolls (monitorStep stopIfLoop) polls {} n

/-! ## `rebalance_reached` -/

structure Reaching where
  progress : Reading := .int 0
  previousProgress : Reading := .int 0
  retry : ℚ := 0

section

variable (percentage numRetry : ℚ)

/-- The test of the loop; `progress is not -1` compares objects, and only the code is the integer. -/
def Reaching.goesOn (reaching : Reaching) : Bool :=
  reaching.progress ≠ .int (-1) ∧ reaching.progress.value < percentage ∧ reaching.retry < numRetry

/-- What stands behind the loop -/
def Reaching.verdict (reaching : Reaching) : Bool :=
  if reaching.progress.value ≤ 0 then false
  else if reaching.retry ≥ numRetry then false
  else true

def Reaching.record (reaching : Reaching) (progress : Reading) : Reaching :=
  if progress.value = -100 then { reaching with progress, retry := reaching.retry + 1 }
  else if reaching.previousProgress.value = progress.value then
    { reaching with progress, retry := reaching.retry + 1 / 2 }
  else { progress, previousProgress := progress, retry := 0 }

def reachingStep (reaching : Reaching) (poll : Poll) : Except Verdict Reaching :=
  match rebalanceProgress poll with
  | .error e => .error (.error e)
  | .ok progress =>
    let reaching := reaching.record progress
    if reaching.goesOn percentage numRetry then .ok reaching
    else .error (.ok (reaching.verdict numRetry))

/-- `rebalance_reached(rest, percentage, num_retry)` after `n` turns -/
def rebalanceReached (polls : ℕ → Poll) (n : ℕ) : Except Verdict Reaching :=
  let reaching : Reaching := {}
  if reaching.goesOn percentage numRetry then
    afterPolls (reachingStep percentage numRetry) polls reaching n
  else .error (.ok (reaching.verdict numRetry))

end

/-! ## What the monitors promise -/

/-- A successful answer in which the rebalance has a status and an error message. -/
def CarriesError (answer : TasksAnswer) : Prop :=
  ∃ content task, answer = .answered true (.ok content) ∧ findRebalance content = some task ∧
    task.status.isSome ∧ task.errorMessage.isSome

/-- The first answer makes the reading ask again. -/
def AsksAgain (answer : TasksAnswer) : Prop :=
  ∃ content task status, answer = .answered true (.ok content) ∧
    findRebalance content = some task ∧ task.status = some status ∧
    task.errorMessage = none ∧ statusName status ≠ "running"

section

variable (stopIfLoop : Bool) (polls : ℕ → Poll)

/-- The reading of a turn -/
def reading (k : ℕ) : Except MonitorError Reading :=
  rebalanceProgress (polls k)

/-- The turn is one that the call makes. -/
def Made (k : ℕ) : Prop := ∃ monitor, monitorRebalance stopIfLoop polls k = .ok monitor

structure MonitorSound : Prop where
  -- `True`: the last reading was 100, and the status read behind it was not `running`.
  finished : ∀ n, monitorRebalance stopIfLoop polls n = .error (.ok true) →
    ∃ k < n, Made stopIfLoop polls k ∧
      monitorRebalance stopIfLoop polls (k + 1) = .error (.ok true) ∧
      (∃ progress, reading polls k = .ok progress ∧ progress.value = 100) ∧
      ∃ status, rebalanceProgressStatus true (polls k).status = .ok status ∧
        status ≠ some "running"
  unknown : ∀ k, Made stopIfLoop polls k →
    (∃ progress, reading polls k = .ok progress ∧ progress.value = -1) →
    monitorRebalance stopIfLoop polls (k + 1) = .error (.ok false)
  unreachable : ∀ k, Made stopIfLoop polls k →
    (∀ i < 20, ∃ progress, reading polls (k + i) = .ok progress ∧ progress.value = -100) →
    monitorRebalance stopIfLoop polls (k + 20) = .error (.ok false)
  failed : ∀ k, Made stopIfLoop polls k →
    (CarriesError (polls k).first ∨ AsksAgain (polls k).first ∧ CarriesError (polls k).second) →
    (polls k).logs = .ok () →
    monitorRebalance stopIfLoop polls (k + 1) = .error (.error .rebalanceFailed)
  -- The failure is not passed over either where the logs cannot be fetched.
  unlogged : ∀ k, Made stopIfLoop polls k →
    (CarriesError (polls k).first ∨ AsksAgain (polls k).first ∧ CarriesError (polls k).second) →
    ∀ e, (polls k).logs = .error e →
    monitorRebalance stopIfLoop polls (k + 1) = .error (.error (.request e))
  terminates : stopIfLoop = true → ∀ (settled : ℕ) (value : ℚ), value ≠ 0 →
    (∀ k ≥ settled, ∀ progress, reading polls k = .ok progress → progress.value = value) →
    ∃ n verdict, monitorRebalance stopIfLoop polls n = .error verdict

end

/-! ## One turn -/

section

variable {stopIfLoop : Bool} {polls : ℕ → Poll} {monitor next : Monitor} {poll : Poll}
  {progress : Reading} {n : ℕ}

@[simp] theorem record_progress : (monitor.record stopIfLoop progress).progress = progress := by
  rw [Monitor.record]
  split_ifs <;> rfl

theorem record_retry : (monitor.record stopIfLoop progress).retry =
    if progress.value = -100 then monitor.retry + 1 else 0 := by
  rw [Monitor.record]
  split_ifs <;> rfl

/-- With `stop_if_loop` the monitor remembers the value of its last reading. -/
theorem record_previousProgress :
    (monitor.record true progress).previousProgress.value = progress.value := by
  rw [Monitor.record, if_pos rfl]
  by_cases changed : monitor.previousProgress.value ≠ progress.value ∨ progress.value = 0
  · rw [if_pos changed]
  · rw [if_neg changed]
    exact not_not.mp (not_or.mp changed).1

theorem record_sameProgressCount (same : monitor.previousProgress.value = progress.value)
    (moving : progress.value ≠ 0) : (monitor.record true progress).sameProgressCount =
      monitor.sameProgressCount + 1 := by
  rw [Monitor.record, if_pos rfl, if_neg (by simp [same, moving])]

/-- The test is a matter of the reading, the status where it is asked for, and the retries. -/
theorem goesOn_eq_ok {status : TasksAnswer} {answer : Bool} :
    monitor.goesOn status = .ok answer ↔
      if monitor.progress.value = -1 then answer = false
      else if monitor.progress.value = 100 then
        ∃ name, rebalanceProgressStatus true status = .ok name ∧
          answer = decide (name = some "running" ∧ monitor.retry < 20)
      else answer = decide (monitor.retry < 20) := by
  rw [Monitor.goesOn]
  split_ifs
  · simp [eq_comm]
  · cases rebalanceProgressStatus true status with
    | error e => simp [bind, Except.bind]
    | ok name => simp [bind, Except.bind, eq_comm]
  · simp [eq_comm]

/-- A turn that lets the loop go on: what was read, and what the test saw. -/
theorem monitorStep_ok_iff : monitorStep stopIfLoop monitor poll = .ok next ↔
    ∃ progress, rebalanceProgress poll = .ok progress ∧
      next = monitor.record stopIfLoop progress ∧
      ¬ (stopIfLoop ∧ next.sameProgressCount > 500) ∧ next.goesOn poll.status = .ok true := by
  rw [monitorStep]
  cases rebalanceProgress poll with
  | error e => simp
  | ok progress =>
    simp only [Except.ok.injEq, exists_eq_left']
    split_ifs with stuck
    · refine iff_of_false (fun taken => nomatch taken) fun kept => ?_
      obtain ⟨rfl, going, -⟩ := kept
      exact going stuck
    · cases goes : (monitor.record stopIfLoop progress).goesOn poll.status with
      | error e =>
        refine iff_of_false (fun taken => nomatch taken) fun kept => ?_
        obtain ⟨rfl, -, on⟩ := kept
        exact nomatch goes.symm.trans on
      | ok on =>
        cases on with
        | true =>
          simp only [Except.ok.injEq]
          constructor
          · intro same
            subst same
            exact ⟨rfl, stuck, goes⟩
          · intro kept
            exact kept.1.symm
        | false =>
          refine iff_of_false (fun taken => nomatch taken) fun kept => ?_
          obtain ⟨rfl, -, on⟩ := kept
          exact nomatch goes.symm.trans on

/-- A turn that ends the loop with a verdict: it hangs, or the test fails. -/
theorem monitorStep_ended_iff {verdict : Bool} :
    monitorStep stopIfLoop monitor poll = .error (.ok verdict) ↔
      ∃ progress, rebalanceProgress poll = .ok progress ∧
        if stopIfLoop ∧ (monitor.record stopIfLoop progress).sameProgressCount > 500 then
          verdict = false
        else (monitor.record stopIfLoop progress).goesOn poll.status = .ok false ∧
          verdict = decide (¬ progress.value < 0) := by
  rw [monitorStep]
  cases rebalanceProgress poll with
  | error e => simp
  | ok progress =>
    simp only [Except.ok.injEq, exists_eq_left']
    split_ifs with stuck
    · simp [eq_comm]
    · cases (monitor.record stopIfLoop progress).goesOn poll.status with
      | error e => simp
      | ok on => cases on <;> simp [eq_comm]

/-! ## Where a reading ends the monitor -/

theorem goesOn_minusOne {status : TasksAnswer} (unknown : monitor.progress.value = -1) :
    monitor.goesOn status = .ok false :=
  goesOn_eq_ok.mpr (by rw [if_pos unknown])

/-- Below 0 the verdict is `False`, whatever it is that ends the loop. -/
theorem monitorStep_false (read : rebalanceProgress poll = .ok progress)
    (negative : progress.value < 0)
    (off : (monitor.record stopIfLoop progress).goesOn poll.status = .ok false) :
    monitorStep stopIfLoop monitor poll = .error (.ok false) := by
  refine monitorStep_ended_iff.mpr ⟨progress, read, ?_⟩
  split_ifs
  · rfl
  · exact ⟨off, by simp [negative]⟩

theorem monitorStep_unknown (read : rebalanceProgress poll = .ok progress)
    (unknown : progress.value = -1) : monitorStep stopIfLoop monitor poll = .error (.ok false) :=
  monitorStep_false read (by rw [unknown]; norm_num)
    (goesOn_minusOne (by rw [record_progress, unknown]))

/-- A failed reading is counted, and the twentieth in a row is the last one. -/
theorem monitorStep_unreachable (read : rebalanceProgress poll = .ok progress)
    (failed : progress.value = -100) :
    monitorStep stopIfLoop monitor poll = .error (.ok false) ∨
      ∃ next, monitorStep stopIfLoop monitor poll = .ok next ∧
        next.retry = monitor.retry + 1 ∧ next.retry < 20 := by
  have retry : (monitor.record stopIfLoop progress).retry = monitor.retry + 1 := by
    rw [record_retry, if_pos failed]
  have tested : (monitor.record stopIfLoop progress).goesOn poll.status =
      .ok (decide (monitor.retry + 1 < 20)) := by
    refine goesOn_eq_ok.mpr ?_
    rw [record_progress, failed, if_neg (by norm_num), if_neg (by norm_num), retry]
  by_cases stuck : stopIfLoop ∧ (monitor.record stopIfLoop progress).sameProgressCount > 500
  · exact .inl (monitorStep_ended_iff.mpr ⟨progress, read, by rw [if_pos stuck]⟩)
  · by_cases more : monitor.retry + 1 < 20
    · refine .inr ⟨_, monitorStep_ok_iff.mpr ⟨progress, read, rfl, stuck, ?_⟩, retry, by rwa [retry]⟩
      rw [tested, decide_eq_true more]
    · refine .inl (monitorStep_false read (by rw [failed]; norm_num) ?_)
      rw [tested, decide_eq_false more]

/-- `True` is the verdict at a progress of 100 alone. -/
theorem monitorStep_true (ended : monitorStep stopIfLoop monitor poll = .error (.ok true)) :
    (∃ progress, rebalanceProgress poll = .ok progress ∧
        progress.value = 100) ∧
      ∃ status, rebalanceProgressStatus true poll.status = .ok status ∧
        status ≠ some "running" := by
  obtain ⟨progress, read, left⟩ := monitorStep_ended_iff.mp ended
  split_ifs at left
  obtain ⟨off, nonneg⟩ := left
  have nonneg : 0 ≤ progress.value := by simpa using nonneg
  have tested := goesOn_eq_ok.mp off
  rw [record_progress, if_neg (by intro unknown; rw [unknown] at nonneg; norm_num at nonneg)]
    at tested
  -- A reading that has not failed resets the retries.
  have retry : (monitor.record stopIfLoop progress).retry = 0 := by
    rw [record_retry, if_neg (by intro failed; rw [failed] at nonneg; norm_num at nonneg)]
  split_ifs at tested with complete
  · obtain ⟨name, status, off⟩ := tested
    rw [retry] at off
    exact ⟨⟨progress, read, complete⟩, name, status, by simpa using off⟩
  · simp [retry] at tested

theorem reading_of_carriesError
    (carries : CarriesError poll.first ∨ AsksAgain poll.first ∧ CarriesError poll.second) :
    rebalanceProgress poll = .error (printThenRaise poll.logs) := by
  obtain carries | ⟨again, carries⟩ := carries
  · obtain ⟨content, task, first, found, hasStatus, message⟩ := carries
    obtain ⟨status, hasStatus⟩ := Option.isSome_iff_exists.mp hasStatus
    simp [rebalanceProgress, rebalanceStatusAndProgress, first, found, hasStatus, message, Except.map]
  · obtain ⟨content, task, status, first, found, hasStatus, quiet, idle⟩ := again
    obtain ⟨content', task', second, found', -, message⟩ := carries
    simp [rebalanceProgress, rebalanceStatusAndProgress, first, second, found, hasStatus, quiet, idle,
      confirmFinished, found', message, bind, Except.bind, Except.map]

/-- A turn that reads an error message is the last one. -/
theorem monitorStep_carriesError
    (carries : CarriesError poll.first ∨ AsksAgain poll.first ∧ CarriesError poll.second) :
    monitorStep stopIfLoop monitor poll = .error (.error (printThenRaise poll.logs)) := by
  rw [monitorStep, reading_of_carriesError carries]

/-! ## Whole calls -/

theorem made_step {k : ℕ} (made : monitorRebalance stopIfLoop polls k = .ok monitor) :
    monitorRebalance stopIfLoop polls (k + 1) = monitorStep stopIfLoop monitor (polls k) :=
  afterPolls_succ made

/-- After `i` failed readings in a row the call has ended with `False` or counted all of them. -/
theorem monitor_unreachable {k : ℕ} (made : Made stopIfLoop polls k) (i : ℕ)
    (failed : ∀ j < i, ∃ progress, reading polls (k + j) = .ok progress ∧ progress.value = -100) :
    monitorRebalance stopIfLoop polls (k + i) = .error (.ok false) ∨
      ∃ next, monitorRebalance stopIfLoop polls (k + i) = .ok next ∧ i ≤ next.retry ∧
        (0 < i → next.retry < 20) := by
  induction i with
  | zero =>
    obtain ⟨monitor, made⟩ := made
    exact .inr ⟨monitor, made, Nat.zero_le _, fun more => absurd more (Nat.lt_irrefl 0)⟩
  | succ i ih =>
    obtain ended | ⟨next, made, counted, -⟩ := ih fun j earlier => failed j (Nat.lt_succ_of_lt earlier)
    · exact .inl (afterPolls_ended ended (Nat.le_succ _))
    · obtain ⟨progress, read, value⟩ := failed i (Nat.lt_succ_self i)
      rw [← Nat.add_assoc, made_step made]
      obtain ended | ⟨last, taken, retry, bound⟩ := @monitorStep_unreachable stopIfLoop next _ _ read value
      · exact .inl ended
      · exact .inr ⟨last, taken, by omega, fun _ => bound⟩

theorem monitor_terminates {settled : ℕ} {value : ℚ} (moving : value ≠ 0)
    (constant : ∀ k ≥ settled, ∀ progress, reading polls k = .ok progress → progress.value = value) :
    ∃ n verdict, monitorRebalance true polls n = .error verdict := by
  -- Once the value has been remembered, every turn counts.
  refine afterPolls_ends_of_potential (fun monitor => 501 - monitor.sameProgressCount)
    (settled + 1) fun n monitor next late going taken => ?_
  obtain ⟨n, rfl⟩ : ∃ m, n = m + 1 := ⟨n - 1, by omega⟩
  obtain ⟨before, -, taken'⟩ := afterPolls_succ_eq_ok.mp going
  obtain ⟨first, readFirst, rfl, -⟩ := monitorStep_ok_iff.mp taken'
  obtain ⟨second, readSecond, rfl, going, -⟩ := monitorStep_ok_iff.mp taken
  have firstValue := constant n (by omega) first readFirst
  have secondValue := constant (n + 1) (by omega) second readSecond
  have remembered : (before.record true first).previousProgress.value = second.value := by
    rw [record_previousProgress, firstValue, secondValue]
  have counts := record_sameProgressCount remembered (by rwa [secondValue])
  simp only [true_and, not_lt, gt_iff_lt] at going
  rw [counts] at going ⊢
  omega

end

/-- The monitor is sound on every sequence of answers. -/
theorem monitorSound (stopIfLoop : Bool) (polls : ℕ → Poll) : MonitorSound stopIfLoop polls where
  finished := by
    intro n ended
    obtain ⟨k, before, monitor, going, ends⟩ := afterPolls_ends_iff.mp ended
    obtain ⟨read, status⟩ := monitorStep_true ends
    exact ⟨k, before, ⟨monitor, going⟩, (made_step going).trans ends, read, status⟩
  unknown := by
    intro k made found
    obtain ⟨monitor, made⟩ := made
    obtain ⟨progress, read, value⟩ := found
    exact (made_step made).trans (monitorStep_unknown read value)
  unreachable := by
    intro k made failed
    obtain ended | ⟨next, -, counted, bound⟩ := monitor_unreachable made 20 failed
    · exact ended
    · exact absurd (bound (by decide)) (Nat.not_lt.mpr counted)
  failed := by
    intro k made carries logged
    obtain ⟨monitor, made⟩ := made
    rw [made_step made, monitorStep_carriesError carries, logged]
    rfl
  unlogged := by
    intro k made carries e raised
    obtain ⟨monitor, made⟩ := made
    rw [made_step made, monitorStep_carriesError carries, raised]
    rfl
  terminates := by
    intro stops settled value moving constant
    subst stops
    exact monitor_terminates moving constant

/-! ## A progress that is reached -/

section

variable {percentage numRetry : ℚ} {polls : ℕ → Poll} {reaching : Reaching} {progress : Reading}

@[simp] theorem reaching_record_progress : (reaching.record progress).progress = progress := by
  rw [Reaching.record]
  split_ifs <;> rfl

/-- Outside the loop `True` means that the last reading was enough. -/
theorem reached_of_verdict (off : reaching.goesOn percentage numRetry = false)
    (verdict : reaching.verdict numRetry = true) : percentage ≤ reaching.progress.value := by
  rw [Reaching.verdict] at verdict
  split_ifs at verdict with none stuck
  have code : reaching.progress ≠ .int (-1) := by
    intro code
    rw [code] at none
    exact none (by norm_num [Reading.value])
  simp only [Reaching.goesOn, decide_eq_false_iff_not, not_and, not_lt] at off
  by_contra low
  exact stuck (off code (not_le.mp low))

theorem reachingStep_true {poll : Poll}
    (ended : reachingStep percentage numRetry reaching poll = .error (.ok true)) :
    ∃ progress, rebalanceProgress poll = .ok progress ∧
      percentage ≤ progress.value := by
  rw [reachingStep] at ended
  cases read : rebalanceProgress poll with
  | error e => simp [read] at ended
  | ok progress =>
    simp only [read] at ended
    split_ifs at ended with on
    have verdict : (reaching.record progress).verdict numRetry = true := by simpa using ended
    have reached := reached_of_verdict (by simpa using on) verdict
    rw [reaching_record_progress] at reached
    exact ⟨progress, rfl, reached⟩

theorem rebalanceReached_true {n : ℕ}
    (returned : rebalanceReached percentage numRetry polls n = .error (.ok true)) :
    ∃ k < n, ∃ progress, reading polls k = .ok progress ∧ percentage ≤ progress.value := by
  rw [rebalanceReached] at returned
  split_ifs at returned
  · obtain ⟨k, before, reaching, -, ends⟩ := afterPolls_ends_iff.mp returned
    exact ⟨k, before, reachingStep_true ends⟩
  · -- Without a turn the progress is 0, which is no success.
    simp [Reaching.verdict, Reading.value] at returned

end

/-- Both monitors, on every sequence of answers of the tasks endpoint. -/
theorem rebalanceMonitors_sound (stopIfLoop : Bool) (polls : ℕ → Poll) :
    MonitorSound stopIfLoop polls ∧
      ∀ (percentage numRetry : ℚ) (n : ℕ),
        rebalanceReached percentage numRetry polls n = .error (.ok true) →
          ∃ k < n, ∃ progress, reading polls k = .ok progress ∧ percentage ≤ progress.value :=
  ⟨monitorSound stopIfLoop polls, fun _ _ _ returned => rebalanceReached_true returned⟩

end Taf.Cluster.RebalanceMonitor
