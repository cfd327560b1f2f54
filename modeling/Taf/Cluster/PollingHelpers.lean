import Taf.Lib.Polling

/-! # Polls of the cluster

`ClusterUtils.find_orchestrator` and `ClusterUtils.wait_for_cb_collect_to_complete`
poll the cluster manager and count their tries.  The answers of the manager are an
endless sequence; a poll that raises ends the helper. -/

namespace Taf.Cluster

open Taf.Lib

/-- What a request, `json.loads` or a lookup in its result raises. -/
inductive PollError where
  | serverUnavailable
  | valueError
  | keyError
  | typeError
  | indexError
  deriving DecidableEq, Repr

/-! ## `find_orchestrator` -/

/-- An answer of `terseClusterInfo` -/
inductive TerseInfo where
  -- The status of the request and the value of `orchestrator`
  | answered (status : Bool) (orchestrator : String)
  | notReached
  -- `json.loads` refuses the content.
  | notJson
  | noOrchestrator
  deriving DecidableEq, Repr

structure FindOrchestrator where
  retryIndex : Nat := 0
  maxRetry : Nat := 12
  orchestratorNode : Option String := none
  status : Option Bool := none

/-- How a call ends: the status and the content, or an exception. -/
abbrev Found := Except PollError (Option Bool × String)

/-- What stands behind the loop: the address of the named node has to be one of the
servers, which becomes the master. -/
def selectMaster (servers : List String) (call : FindOrchestrator) : Found :=
  let parts := (call.orchestratorNode.getD "").toList.splitOn '@'
  match parts[1]? with
  | none => .error .indexError
  | some named =>
    let ip := String.ofList ((named.filter (· ≠ '\\')).filter (· ≠ '\''))
    match servers.filter (· = ip) with
    | [] => .error .indexError
    | master :: _ => .ok (call.status, "ns_1@" ++ master)

/-- One poll, with the test of the loop behind it. -/
def findOrchestratorStep (servers : List String) (call : FindOrchestrator) :
    TerseInfo → Except Found FindOrchestrator
  | .notReached => .error (.error .serverUnavailable)
  | .notJson => .error (.error .valueError)
  | .noOrchestrator => .error (.error .keyError)
  | .answered status orchestrator =>
    let call := { call with status := some status, orchestratorNode := some orchestrator }
    if orchestrator = "undefined" then
      if call.retryIndex < call.maxRetry then .ok call else .error (selectMaster servers call)
    else .error (selectMaster servers call)

/-- `ClusterUtils.find_orchestrator` after `n` polls -/
def findOrchestrator (servers : List String) (answers : Nat → TerseInfo) (n : Nat) :
    Except Found FindOrchestrator :=
  afterPolls (findOrchestratorStep servers) answers {} n

/-- An answer that names an orchestrator. -/
def TerseInfo.Names : TerseInfo → Prop
  | .answered _ orchestrator => orchestrator ≠ "undefined"
  | _ => False

/-- The answer after which there is nothing to do but ask again. -/
def TerseInfo.Undefined : TerseInfo → Prop
  | .answered _ orchestrator => orchestrator = "undefined"
  | _ => False

/-- The promise: at most `max_retry` polls, no index error where nobody was named, and a
result only where somebody was. -/
structure FindOrchestratorBounded (servers : List String) (answers : Nat → TerseInfo) : Prop where
  stops : ∃ outcome, findOrchestrator servers answers 12 = .error outcome
  reports : ∀ n outcome, findOrchestrator servers answers n = .error outcome →
    (∀ k < n, ¬ (answers k).Names) → outcome ≠ .error .indexError
  awaited : ∀ n result, findOrchestrator servers answers n = .error (.ok result) →
    ∃ k < n, (answers k).Names

/-! ## `wait_for_cb_collect_to_complete` -/

/-- An answer of `ns_server_tasks("clusterLogsCollection")` -/
inductive CollectTask where
  -- `None` or an empty task
  | empty
  | task (progress : Int) (status : String)
  | failed (e : PollError)
  deriving DecidableEq, Repr

/-- One poll, with the test of the loop behind it; the state is `retry`. -/
def waitForCbCollectStep (retryCount retry : Nat) :
    CollectTask → Except (Except PollError Bool) Nat
  | .failed e => .error (.error e)
  | .task progress _ =>
    if progress = 100 then .error (.ok true)
    else if retry < retryCount then .ok retry else .error (.ok false)
  | .empty =>
    let retry := retry + 1
    if retry < retryCount then .ok retry else .error (.ok false)

/-- `ClusterUtils.wait_for_cb_collect_to_complete` after `n` polls -/
def waitForCbCollectToComplete (retryCount : Nat) (answers : Nat → CollectTask) (n : Nat) :
    Except (Except PollError Bool) Nat :=
  if 0 < retryCount then afterPolls (waitForCbCollectStep retryCount) answers 0 n
  else .error (.ok false)

/-- The answers that end the wait: the awaited one, and an exception. -/
def CollectTask.Ends : CollectTask → Prop
  | .empty => False
  | .task progress _ => progress = 100
  | .failed _ => True

def CollectTask.Completed : CollectTask → Prop
  | .task progress _ => progress = 100
  | _ => False

structure CbCollectBounded (retryCount : Nat) (answers : Nat → CollectTask) : Prop where
  stops : ∃ outcome, waitForCbCollectToComplete retryCount answers retryCount = .error outcome
  awaited : ∀ n, waitForCbCollectToComplete retryCount answers n = .error (.ok true) →
    ∃ k < n, (answers k).Completed

/-! ## What a poll does -/

/-- No branch of `find_orchestrator` moves its counter: a poll goes on exactly when it is
answered with `undefined`. -/
theorem findOrchestratorStep_ok_iff {servers : List String} {call next : FindOrchestrator}
    {answer : TerseInfo} (trying : call.retryIndex < call.maxRetry) :
    findOrchestratorStep servers call answer = .ok next ↔
      ∃ status, answer = .answered status "undefined" ∧
        next = { call with status := some status, orchestratorNode := some "undefined" } := by
  cases answer with
  | notReached => simp [findOrchestratorStep]
  | notJson => simp [findOrchestratorStep]
  | noOrchestrator => simp [findOrchestratorStep]
  | answered status orchestrator =>
    by_cases undefined : orchestrator = "undefined"
    · subst undefined
      simp [findOrchestratorStep, trying, eq_comm]
    · simp [findOrchestratorStep, undefined]

theorem findOrchestratorStep_ok_of_error {servers : List String} {call : FindOrchestrator}
    {answer : TerseInfo} {outcome : Found} (trying : call.retryIndex < call.maxRetry)
    (ends : findOrchestratorStep servers call answer = .error outcome) :
    answer.Names ∨ outcome ≠ .error .indexError ∧ ∀ result, outcome ≠ .ok result := by
  cases answer with
  | notReached => cases ends; simp
  | notJson => cases ends; simp
  | noOrchestrator => cases ends; simp
  | answered status orchestrator =>
    by_cases undefined : orchestrator = "undefined"
    · simp [findOrchestratorStep, undefined, trying] at ends
    · exact .inl undefined

theorem findOrchestrator_trying {servers : List String} {answers : Nat → TerseInfo} {n : Nat}
    {call : FindOrchestrator} (going : findOrchestrator servers answers n = .ok call) :
    call.retryIndex < call.maxRetry ∧ ∀ k < n, (answers k).Undefined := by
  refine afterPolls_invariant (fun n (call : FindOrchestrator) =>
    call.retryIndex < call.maxRetry ∧ ∀ k < n, (answers k).Undefined) ?_ ?_ going
  · exact ⟨by decide, fun k before => absurd before (Nat.not_lt_zero k)⟩
  · intro n call next inv taken
    obtain ⟨status, answered, rfl⟩ := (findOrchestratorStep_ok_iff inv.1).mp taken
    refine ⟨inv.1, fun k before => ?_⟩
    obtain earlier | same := Nat.lt_succ_iff_lt_or_eq.mp before
    · exact inv.2 k earlier
    · rw [same, answered]
      rfl

/-- An `undefined` answer to each of the first polls, and the helper is still asking. -/
theorem findOrchestrator_going {servers : List String} {answers : Nat → TerseInfo} {n : Nat}
    (undefined : ∀ k < n, (answers k).Undefined) :
    ∃ call, findOrchestrator servers answers n = .ok call := by
  induction n with
  | zero => exact ⟨_, rfl⟩
  | succ n ih =>
    obtain ⟨call, going⟩ := ih fun k before => undefined k (Nat.lt_succ_of_lt before)
    have last := undefined n (Nat.lt_succ_self n)
    cases answer : answers n with
    | notReached => simp [answer, TerseInfo.Undefined] at last
    | notJson => simp [answer, TerseInfo.Undefined] at last
    | noOrchestrator => simp [answer, TerseInfo.Undefined] at last
    | answered status orchestrator =>
      rw [answer] at last
      cases last
      have taken := (@findOrchestratorStep_ok_iff servers _ _ _
        (findOrchestrator_trying going).1).mpr ⟨status, answer, rfl⟩
      exact ⟨_, (afterPolls_succ going).trans taken⟩

/-- The promise is kept exactly when one of the first twelve answers is not `undefined`. -/
theorem findOrchestratorBounded_iff (servers : List String) (answers : Nat → TerseInfo) :
    FindOrchestratorBounded servers answers ↔ ∃ k < 12, ¬ (answers k).Undefined := by
  constructor
  · intro bounded
    by_contra undefined
    push Not at undefined
    obtain ⟨call, going⟩ := @findOrchestrator_going servers _ _ undefined
    obtain ⟨outcome, stopped⟩ := bounded.stops
    rw [going] at stopped
    exact nomatch stopped
  · intro found
    obtain ⟨k, early, other⟩ := found
    have ends : ∀ n outcome, findOrchestrator servers answers n = .error outcome →
        ∃ k < n, (answers k).Names ∨
          outcome ≠ .error .indexError ∧ ∀ result, outcome ≠ .ok result := by
      intro n outcome ended
      obtain ⟨k, before, call, going, ends⟩ := afterPolls_ends_iff.mp ended
      exact ⟨k, before, findOrchestratorStep_ok_of_error (findOrchestrator_trying going).1 ends⟩
    constructor
    · cases found : findOrchestrator servers answers 12 with
      | ok call => exact absurd ((findOrchestrator_trying found).2 k early) other
      | error outcome => exact ⟨outcome, rfl⟩
    · intro n outcome ended unnamed
      obtain ⟨k, before, named | raised⟩ := ends n outcome ended
      · exact absurd named (unnamed k before)
      · exact raised.1
    · intro n result ended
      obtain ⟨k, before, named | raised⟩ := ends n _ ended
      · exact ⟨k, before, named⟩
      · exact absurd rfl (raised.2 result)

/-! ## The wait for the logs -/

theorem waitForCbCollectStep_ok_iff {retryCount retry next : Nat} {answer : CollectTask}
    (trying : retry < retryCount) :
    waitForCbCollectStep retryCount retry answer = .ok next ↔
      ¬ answer.Ends ∧ next < retryCount ∧
        next = retry + if answer = .empty then 1 else 0 := by
  cases answer with
  | empty =>
    by_cases more : retry + 1 < retryCount
    · simp [waitForCbCollectStep, more, CollectTask.Ends, eq_comm]
      omega
    · simp [waitForCbCollectStep, more, CollectTask.Ends]
      omega
  | task progress status =>
    by_cases completed : progress = 100
    · simp [waitForCbCollectStep, completed, CollectTask.Ends]
    · simp [waitForCbCollectStep, completed, trying, CollectTask.Ends, eq_comm]
      omega
  | failed e => simp [waitForCbCollectStep, CollectTask.Ends]

theorem completed_of_waitForCbCollectStep {retryCount retry : Nat} {answer : CollectTask}
    (ends : waitForCbCollectStep retryCount retry answer = .error (.ok true)) :
    answer.Completed := by
  cases answer with
  | empty => simp [waitForCbCollectStep] at ends; split at ends <;> cases ends
  | task progress status =>
    by_cases completed : progress = 100
    · exact completed
    · simp [waitForCbCollectStep, completed] at ends
      split at ends <;> cases ends
  | failed e => cases ends

section

variable {retryCount : Nat} {answers : Nat → CollectTask} {n retry : Nat}

/-- The counter of a wait that goes on counts the empty answers alone. -/
theorem waitForCbCollect_going_iff (asked : 0 < retryCount) :
    waitForCbCollectToComplete retryCount answers n = .ok retry ↔
      (∀ k < n, ¬ (answers k).Ends) ∧ retry < retryCount ∧
        retry = Nat.count (fun k => answers k = .empty) n := by
  rw [waitForCbCollectToComplete, if_pos asked]
  induction n generalizing retry with
  | zero =>
    simp only [afterPolls, Except.ok.injEq, Nat.not_lt_zero, false_implies, implies_true,
      true_and, Nat.count_zero]
    omega
  | succ n ih =>
    rw [afterPolls_succ_eq_ok, Nat.count_succ]
    constructor
    · intro found
      obtain ⟨before, going, taken⟩ := found
      obtain ⟨quiet, below, counted⟩ := ih.mp going
      obtain ⟨last, trying, next⟩ := (waitForCbCollectStep_ok_iff below).mp taken
      refine ⟨fun k earlier => ?_, trying, by rw [next, counted]⟩
      obtain earlier | same := Nat.lt_succ_iff_lt_or_eq.mp earlier
      · exact quiet k earlier
      · rwa [same]
    · intro found
      obtain ⟨quiet, trying, counted⟩ := found
      have below : Nat.count (fun k => answers k = .empty) n < retryCount := by omega
      refine ⟨_, ih.mpr ⟨fun k earlier => quiet k (Nat.lt_succ_of_lt earlier), below, rfl⟩, ?_⟩
      exact (waitForCbCollectStep_ok_iff below).mpr
        ⟨quiet n (Nat.lt_succ_self n), trying, counted⟩

end

/-- The wait is bounded exactly when one of its first `retry_count` answers ends it or all
of them are empty: an answer that shows the collection in progress is not counted. -/
theorem cbCollectBounded_iff (retryCount : Nat) (answers : Nat → CollectTask) :
    CbCollectBounded retryCount answers ↔
      (∃ k < retryCount, (answers k).Ends) ∨ ∀ k < retryCount, answers k = .empty := by
  have awaited : ∀ n, waitForCbCollectToComplete retryCount answers n = .error (.ok true) →
      ∃ k < n, (answers k).Completed := by
    intro n ended
    rw [waitForCbCollectToComplete] at ended
    split at ended
    · obtain ⟨k, before, retry, -, ends⟩ := afterPolls_ends_iff.mp ended
      exact ⟨k, before, completed_of_waitForCbCollectStep ends⟩
    · cases ended
  obtain rfl | asked := Nat.eq_zero_or_pos retryCount
  · exact iff_of_true ⟨⟨_, rfl⟩, awaited⟩ (.inr fun k before => absurd before (Nat.not_lt_zero k))
  -- Still going on after `retry_count` polls: nothing has ended the wait, and one was not counted.
  have endless : (∃ retry, waitForCbCollectToComplete retryCount answers retryCount = .ok retry) ↔
      (∀ k < retryCount, ¬ (answers k).Ends) ∧ ∃ k < retryCount, answers k ≠ .empty := by
    have counted : Nat.count (fun k => answers k = .empty) retryCount < retryCount ↔
        ∃ k < retryCount, answers k ≠ .empty := by
      constructor
      · intro fewer
        by_contra all
        push Not at all
        rw [Nat.count_iff_forall.mpr all] at fewer
        exact Nat.lt_irrefl retryCount fewer
      · intro found
        obtain ⟨k, before, other⟩ := found
        exact lt_of_le_of_ne (Nat.count_le _) fun full => other (Nat.count_iff_forall.mp full k before)
    simp only [waitForCbCollect_going_iff asked, exists_and_left, ← counted]
    simp
  rw [← not_iff_not]
  push Not
  rw [← endless]
  constructor
  · intro unbounded
    cases found : waitForCbCollectToComplete retryCount answers retryCount with
    | ok retry => exact ⟨retry, rfl⟩
    | error outcome => exact absurd ⟨⟨outcome, found⟩, awaited⟩ unbounded
  · intro going bounded
    obtain ⟨retry, going⟩ := going
    obtain ⟨outcome, stopped⟩ := bounded.stops
    rw [going] at stopped
    exact nomatch stopped

/-! ## Both helpers -/

/-- When the two helpers are bounded: an orchestrator that stays `undefined`, and a
collection that stays in progress, are asked for without an end. -/
theorem pollingHelpers_bounded_iff (servers : List String) (infos : Nat → TerseInfo)
    (retryCount : Nat) (tasks : Nat → CollectTask) :
    (FindOrchestratorBounded servers infos ↔ ∃ k < 12, ¬ (infos k).Undefined) ∧
      (CbCollectBounded retryCount tasks ↔
        (∃ k < retryCount, (tasks k).Ends) ∨ ∀ k < retryCount, tasks k = .empty) :=
  ⟨findOrchestratorBounded_iff servers infos, cbCollectBounded_iff retryCount tasks⟩

/-- With a cluster that never names its orchestrator the first helper never stops. -/
theorem findOrchestrator_never_stops :
    ¬ ∀ (servers : List String) (infos : Nat → TerseInfo) (retryCount : Nat)
        (tasks : Nat → CollectTask),
      FindOrchestratorBounded servers infos ∧ CbCollectBounded retryCount tasks := by
  intro bounded
  have stopped := (bounded ["10.1.1.1"] (fun _ => .answered true "undefined") 60
    (fun _ => .task 100 "completed")).1
  obtain ⟨k, -, other⟩ := (findOrchestratorBounded_iff _ _).mp stopped
  exact other rfl

end Taf.Cluster
