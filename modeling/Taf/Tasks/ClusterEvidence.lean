import Taf.Lib.Waiting
import Taf.Tasks.Task

/-! # What the tasks of the cluster have seen when they succeed

`FailoverTask`, `CompactBucketTask` and `MonitorViewFragmentationTask` wait until something shows in what
the cluster answers, for a limited time.  What a wait makes of the time being over differs: the first two
go on as if they had seen what they waited for, the third one is not successful, and takes a value
that is just reached for one that is not. -/

namespace Taf.Tasks.ClusterEvidence

open Taf.Lib Taf.Tasks

/-- How `call` is left: with `result`, and whether something comes out of it -/
structure CallEnd where
  result : Bool
  raised : Bool
  deriving DecidableEq

/-! ## `FailoverTask` -/

/-- A server, with what `int` makes of its port -/
structure Server where
  ip : String
  hostname : String
  port : ℤ

structure OtpNode where
  id : String
  ip : String
  port : ℤ

/-- A node of `pools/default` -/
structure PoolNode where
  otpNode : String
  clusterMembership : String

structure FailoverTask where
  toFailover : List Server
  useHostnames : Bool
  allAtOnce : Bool
  -- `node_statuses` for the servers, by their position
  nodeStatuses : ℕ → Except Raised (List OtpNode)
  -- The calls of `fail_over`, in their order
  failOver : ℕ → Except Raised Bool
  monitorRebalance : Except Raised Unit
  -- `RestConnection(self.servers[0])`
  connects : Except Raised Unit
  -- `get_pools_default()["nodes"]` in a round of the wait, for a node by its position
  poolsDefault : ℕ → ℕ → Except Raised (List PoolNode)

namespace FailoverTask

variable (task : FailoverTask)

def IsNode (server : Server) (node : OtpNode) : Prop :=
  (if task.useHostnames then server.hostname else server.ip) = node.ip ∧ server.port = node.port

instance (server : Server) (node : OtpNode) : Decidable (task.IsNode server node) :=
  inferInstanceAs (Decidable (_ ∧ _))

def otpNodesToFo : Except Raised (List String) := do
  let found ← task.toFailover.zipIdx.mapM fun server => do
    let nodes ← task.nodeStatuses server.2
    pure ((nodes.filter fun node => task.IsNode server.1 node).map OtpNode.id)
  pure found.flatten

/-- A call of `fail_over`: `set_exception` raises. -/
def failOverCall (k : ℕ) : Except Raised Unit := do
  let result ← task.failOver k
  if result then pure () else .error .base

def failOverCalls (otpNodes : List String) : Except Raised Unit :=
  if task.allAtOnce then
    -- `otpNode[0]`
    if otpNodes = [] then .error .exception else task.failOverCall 0
  else (List.range otpNodes.length).foldlM (fun _ k => task.failOverCall k) ()

def failoverNodes (otpNodes : List String) : Except Raised Unit := do
  task.failOverCalls otpNodes
  task.monitorRebalance

/-- A node that is not listed counts as failed over. -/
def nodeFailedOver (otpNode : String) (nodes : List PoolNode) : Bool :=
  match nodes.find? fun node => node.otpNode = otpNode with
  | some node => node.clusterMembership = "inactiveFailed"
  | none => true

def allNodesFoed (otpNodes : List String) (round : ℕ) : Except Raised Bool :=
  otpNodes.zipIdx.foldlM (fun foed otpNode => do
    let nodes ← task.poolsDefault round otpNode.2
    pure (foed && nodeFailedOver otpNode.1 nodes)) true

/-- 300 seconds in steps of 5 -/
def rounds : ℕ := 60

def failOverAndWait (otpNodes : List String) : Except Raised Bool := do
  task.failoverNodes otpNodes
  task.connects
  waitFor (task.allNodesFoed otpNodes) rounds 0

def call : CallEnd :=
  match task.otpNodesToFo with
  | .error _ => ⟨false, true⟩
  | .ok otpNodes =>
    match task.failOverAndWait otpNodes with
    -- `set_result(False)`, and `set_exception` raises
    | .error _ => ⟨false, true⟩
    | .ok _ => ⟨true, false⟩

/-- How many calls of `fail_over` there are -/
def calls (otpNodes : List String) : ℕ := if task.allAtOnce then 1 else otpNodes.length

/-- What `node_statuses` answers for the servers -/
def Answers (statuses : ℕ → List OtpNode) : Prop :=
  ∀ index < task.toFailover.length, task.nodeStatuses index = .ok (statuses index)

/-- The nodes that are servers to fail over -/
def nodesOf (statuses : ℕ → List OtpNode) : List String :=
  (task.toFailover.zipIdx.map fun server =>
    ((statuses server.2).filter fun node => task.IsNode server.1 node).map OtpNode.id).flatten

/-- All requests of a round of the wait are answered. -/
def Answered (otpNodes : List String) (round : ℕ) : Prop :=
  ∀ index < otpNodes.length, ∃ nodes, task.poolsDefault round index = .ok nodes

/-- The first entry of the node in its answer of a round -/
def Listed (otpNodes : List String) (round : ℕ) (otpNode membership : String) : Prop :=
  ∃ index nodes node, otpNodes[index]? = some otpNode ∧ task.poolsDefault round index = .ok nodes ∧
    nodes.find? (fun node => node.otpNode = otpNode) = some node ∧ node.clusterMembership = membership

/-- A round is made if it is one of the first 60 and each round before it is answered, and lists some node
    with a membership other than `inactiveFailed`. -/
def Made (otpNodes : List String) (round : ℕ) : Prop :=
  round < rounds ∧ ∀ earlier < round, task.Answered otpNodes earlier ∧
    ∃ otpNode membership, task.Listed otpNodes earlier otpNode membership ∧ membership ≠ "inactiveFailed"

/-- Each server to fail over is one of the nodes, and each of these has been seen as `inactiveFailed`. -/
structure Seen (statuses : ℕ → List OtpNode) : Prop where
  found : ∀ server index, task.toFailover[index]? = some server →
    ∃ node ∈ statuses index, task.IsNode server node
  failed : ∀ otpNode ∈ task.nodesOf statuses,
    ∃ round, task.Made (task.nodesOf statuses) round ∧
      task.Listed (task.nodesOf statuses) round otpNode "inactiveFailed"

def Right : Prop :=
  task.call.result = true →
    ∃ statuses, task.Answers statuses ∧
      (∀ k < task.calls (task.nodesOf statuses), task.failOver k = .ok true) ∧ task.Seen statuses

/-- No request of the task raises, and no `fail_over` says no. -/
structure Quiet (otpNodes : List String) : Prop where
  failOver : ∀ k < task.calls otpNodes, task.failOver k = .ok true
  someNode : task.allAtOnce = true → otpNodes ≠ []
  monitorRebalance : task.monitorRebalance = .ok ()
  connects : task.connects = .ok ()
  rounds : ∀ round, task.Made otpNodes round → task.Answered otpNodes round

/-- Nothing goes wrong, but a server is none of the nodes, or a node is `inactiveFailed` in no round that is made. -/
def Unseen : Prop :=
  ∃ statuses, task.Answers statuses ∧ task.Quiet (task.nodesOf statuses) ∧
    ((∃ server index, task.toFailover[index]? = some server ∧ ∀ node ∈ statuses index, ¬ task.IsNode server node) ∨
      ∃ otpNode ∈ task.nodesOf statuses, ∀ round, task.Made (task.nodesOf statuses) round →
        ¬ task.Listed (task.nodesOf statuses) round otpNode "inactiveFailed")

end FailoverTask

/-! ## `CompactBucketTask` -/

/-- A round of a wait, with what the clock shows where it is read.  The answer of
    `check_compaction_status` is the progress of the compaction if one is running. -/
structure CompactPoll where
  loopAt : ℚ
  checkedAt : ℚ
  status : Except Raised (Option ℚ)

/-- How a wait for a compaction ends -/
inductive WaitEnd where
  | done
  | expired
  | raised
  deriving DecidableEq

structure CompactBucketTask where
  timeout : ℚ
  -- The calls of `compact_bucket`, in their order
  compactBucket : ℕ → Except Raised Bool
  -- When the waits begin, and their rounds
  startAt : ℚ
  startPolls : List CompactPoll
  finishAt : ℚ
  finishPolls : List CompactPoll

namespace CompactBucketTask

variable (task : CompactBucketTask)

/-- One call, and 20 retries -/
def accepted : Except Raised Bool := do
  let status ← task.compactBucket 0
  if status then pure true else waitFor task.compactBucket 20 1

/-- A round up to the answer -/
def ask (stopTime : ℚ) (poll : CompactPoll) : Except WaitEnd (Option ℚ) :=
  if poll.loopAt < stopTime then
    if 0 < task.timeout ∧ stopTime < poll.checkedAt then .error .raised
    else poll.status.mapError fun _ => .raised
  else .error .expired

/-- Compaction started -/
def started : Option ℚ → Bool
  | some progress => 0 < progress
  | none => false

/-- Compaction completed -/
def completed (status : Option ℚ) : Bool := status.isNone

def waitStep (stopTime : ℚ) (stops : Option ℚ → Bool) (_ : Unit) (poll : CompactPoll) : Except WaitEnd Unit := do
  let status ← task.ask stopTime poll
  if stops status then .error .done else .ok ()

/-- The wait is over, or it goes on after the polls. -/
def wait (stopTime : ℚ) (stops : Option ℚ → Bool) (polls : List CompactPoll) : Except WaitEnd Unit :=
  polls.foldlM (task.waitStep stopTime stops) ()

def waitForStart : Except WaitEnd Unit := task.wait (task.startAt + task.timeout) started task.startPolls

def waitForFinish : Except WaitEnd Unit := task.wait (task.finishAt + task.timeout) completed task.finishPolls

/-- `none` while it waits -/
def call : Option CallEnd :=
  match task.accepted with
  | .error _ => some ⟨false, true⟩
  | .ok false => some ⟨false, false⟩
  | .ok true =>
    match task.waitForStart with
    | .ok () => none
    | .error .raised => some ⟨true, true⟩
    | .error _ =>
      match task.waitForFinish with
      | .ok () => none
      | .error .raised => some ⟨true, true⟩
      | .error _ => some ⟨true, false⟩

/-- The answers of a wait, up to its end -/
def answers (stopTime : ℚ) (stops : Option ℚ → Bool) : List CompactPoll → List (Option ℚ)
  | [] => []
  | poll :: polls =>
    match task.ask stopTime poll with
    | .error _ => []
    | .ok status => if stops status then [status] else status :: answers stopTime stops polls

def allAnswers : List (Option ℚ) :=
  task.answers (task.startAt + task.timeout) started task.startPolls ++
    task.answers (task.finishAt + task.timeout) completed task.finishPolls

/-- Something shows, and later nothing. -/
def Vanishes (statuses : List (Option ℚ)) : Prop :=
  ∃ before progress between after, statuses = before ++ some progress :: between ++ none :: after

/-- A compaction has been running, and later none. -/
def Seen : Prop := Vanishes task.allAnswers

def Right : Prop := task.call = some ⟨true, false⟩ → task.Seen

/-- The clock lets the poll ask. -/
def InTime (stopTime : ℚ) (poll : CompactPoll) : Prop :=
  poll.loopAt < stopTime ∧ ¬ (0 < task.timeout ∧ stopTime < poll.checkedAt)

/-- The polls ask in time and get answers that do not end the wait. -/
def Going (stopTime : ℚ) (stops : Option ℚ → Bool) (polls : List CompactPoll) (statuses : List (Option ℚ)) : Prop :=
  List.Forall₂ (fun poll status => task.InTime stopTime poll ∧ poll.status = .ok status ∧ stops status = false)
    polls statuses

/-- The time is over when the next round is to begin. -/
def Over (stopTime : ℚ) (stops : Option ℚ → Bool) (polls : List CompactPoll) (statuses : List (Option ℚ)) : Prop :=
  ∃ before last after, polls = before ++ last :: after ∧ task.Going stopTime stops before statuses ∧
    stopTime ≤ last.loopAt

/-- An answer ends the wait. -/
def Ends (stopTime : ℚ) (stops : Option ℚ → Bool) (polls : List CompactPoll) (statuses : List (Option ℚ))
    (status : Option ℚ) : Prop :=
  ∃ before last after, polls = before ++ last :: after ∧ task.Going stopTime stops before statuses ∧
    task.InTime stopTime last ∧ last.status = .ok status ∧ stops status = true

/-- The wait for the start is over, with these answers. -/
def FirstWait (statuses : List (Option ℚ)) : Prop :=
  task.Over (task.startAt + task.timeout) started task.startPolls statuses ∨
    ∃ before status, statuses = before ++ [status] ∧
      task.Ends (task.startAt + task.timeout) started task.startPolls before status

/-- One of the 21 requests is accepted, and the polls of the wait for the start show no compaction, or none and
    then one to the end.  Then the time of the other wait is over, or none has shown and its first poll shows none. -/
def Unseen : Prop :=
  (∃ k, Asked task.compactBucket 21 0 k ∧ task.compactBucket k = .ok true) ∧
    ∃ nones running, task.FirstWait (List.replicate nones none ++ running.map some) ∧
      ((running = [] ∧ task.Ends (task.finishAt + task.timeout) completed task.finishPolls [] none) ∨
        ∃ still, task.Over (task.finishAt + task.timeout) completed task.finishPolls still)

end CompactBucketTask

/-! ## `MonitorViewFragmentationTask` -/

structure MonitorViewFragmentationTask where
  fragmentationValue : ℚ
  -- The values of `calc_ddoc_fragmentation`, in their order
  polls : ℕ → Except Raised ℚ

namespace MonitorViewFragmentationTask

variable (task : MonitorViewFragmentationTask)

/-- `check` with `timeout` polls left and the value read last -/
def checkLoop : ℕ → ℕ → ℚ → CallEnd
  | 0, _, _ => ⟨false, false⟩
  | timeout + 1, k, newFragValue =>
    if newFragValue < task.fragmentationValue then
      match task.polls k with
      | .error _ => ⟨false, true⟩
      | .ok newFragValue =>
        if task.fragmentationValue < newFragValue then ⟨true, false⟩ else checkLoop timeout (k + 1) newFragValue
    else ⟨false, false⟩

def check : CallEnd := task.checkLoop 300 0 0

/-- The value is read in one of the polls. -/
def Polled (k : ℕ) (value : ℚ) : Prop :=
  0 < task.fragmentationValue ∧ k < 300 ∧
    (∀ earlier < k, ∃ below, task.polls earlier = .ok below ∧ below < task.fragmentationValue) ∧
    task.polls k = .ok value

def Right : Prop :=
  task.check.result = true ↔ ∃ k value, task.Polled k value ∧ task.fragmentationValue ≤ value

/-- No poll hits the value. -/
def Misses : Prop := ∀ k, ¬ task.Polled k task.fragmentationValue

end MonitorViewFragmentationTask

/-! ## A failover -/

section Failover

variable {task : FailoverTask} {otpNodes : List String}

theorem failOverCall_ok {k : ℕ} : task.failOverCall k = .ok () ↔ task.failOver k = .ok true := by
  rw [FailoverTask.failOverCall, bind_eq_ok]
  simp [pure, Except.pure]

theorem failOverCalls_ok : task.failOverCalls otpNodes = .ok () ↔
    (∀ k < task.calls otpNodes, task.failOver k = .ok true) ∧ (task.allAtOnce = true → otpNodes ≠ []) := by
  unfold FailoverTask.failOverCalls FailoverTask.calls
  cases task.allAtOnce with
  | true =>
    by_cases empty : otpNodes = []
    · simp [empty]
    · simp [empty, failOverCall_ok]
  | false => simp [foldlM_unit_ok, failOverCall_ok]

/-- The nodes are looked up as soon as every request for them is answered. -/
theorem otpNodesToFo_ok_iff : task.otpNodesToFo = .ok otpNodes ↔
    ∃ statuses, task.Answers statuses ∧ otpNodes = task.nodesOf statuses := by
  have looked : ∀ statuses, task.Answers statuses → task.otpNodesToFo = .ok (task.nodesOf statuses) := by
    intro statuses answers
    rw [FailoverTask.otpNodesToFo, mapM_eq_ok_map]
    · rfl
    · rintro ⟨server, index⟩ member
      rw [List.mem_zipIdx_iff_getElem?] at member
      rw [answers index (List.getElem?_eq_some_iff.mp member).1]
      rfl
  constructor
  · intro found
    let statuses (index : ℕ) : List OtpNode := (task.nodeStatuses index).toOption.getD []
    have answers : task.Answers statuses := by
      intro index inside
      obtain ⟨lists, made, _⟩ := bind_eq_ok.mp found
      have member : (task.toFailover[index], index) ∈ task.toFailover.zipIdx := by
        rw [List.mem_zipIdx_iff_getElem?, List.getElem?_eq_getElem inside]
      obtain ⟨ids, -, made⟩ := exists_of_forall₂_mem (forall₂_of_mapM_ok made) member
      obtain ⟨nodes, answered, _⟩ := bind_eq_ok.mp made
      simp only [statuses, answered]
      rfl
    exact ⟨statuses, answers, Except.ok.inj (found.symm.trans (looked statuses answers))⟩
  · rintro ⟨statuses, answers, rfl⟩
    exact looked statuses answers

theorem nodeFailedOver_eq_false_iff {otpNode : String} {nodes : List PoolNode} :
    FailoverTask.nodeFailedOver otpNode nodes = false ↔
      ∃ node, nodes.find? (fun node => node.otpNode = otpNode) = some node ∧
        node.clusterMembership ≠ "inactiveFailed" := by
  unfold FailoverTask.nodeFailedOver
  cases nodes.find? fun node => node.otpNode = otpNode with
  | none => simp
  | some node => simp

/-- A round returns if its requests are answered. -/
theorem allNodesFoed_ok_iff {round : ℕ} :
    (∃ foed, task.allNodesFoed otpNodes round = .ok foed) ↔ task.Answered otpNodes round := by
  constructor
  · rintro ⟨foed, returned⟩ index inside
    have each := @forall_of_foldlM_ok _ _ _ _ _
      (fun otpNode => ∃ nodes, task.poolsDefault round otpNode.2 = .ok nodes) _ _ returned
    have member : (otpNodes[index], index) ∈ otpNodes.zipIdx := by
      rw [List.mem_zipIdx_iff_getElem?, List.getElem?_eq_getElem inside]
    refine each ?_ _ member
    intro foed otpNode next this
    obtain ⟨nodes, answered, _⟩ := bind_eq_ok.mp this
    exact ⟨nodes, answered⟩
  · intro answered
    refine foldlM_returns ?_ true
    rintro foed ⟨otpNode, index⟩ member
    rw [List.mem_zipIdx_iff_getElem?] at member
    obtain ⟨nodes, here⟩ := answered index (List.getElem?_eq_some_iff.mp member).1
    exact ⟨foed && FailoverTask.nodeFailedOver otpNode nodes, by rw [here]; rfl⟩

/-- The wait goes on if some node is listed with another membership. -/
theorem allNodesFoed_false_iff {round : ℕ} : task.allNodesFoed otpNodes round = .ok false ↔
    task.Answered otpNodes round ∧
      ∃ otpNode membership, task.Listed otpNodes round otpNode membership ∧ membership ≠ "inactiveFailed" := by
  have all : task.allNodesFoed otpNodes round = .ok true ↔ ∀ otpNode ∈ otpNodes.zipIdx,
      ∃ nodes, task.poolsDefault round otpNode.2 = .ok nodes ∧ FailoverTask.nodeFailedOver otpNode.1 nodes = true := by
    rw [FailoverTask.allNodesFoed, foldlM_status_iff, and_iff_right rfl]
    intro status otpNode
    rw [bind_eq_ok]
    simp only [pure, Except.pure, Except.ok.injEq, Bool.and_eq_true]
    tauto
  constructor
  · intro waits
    have answered : task.Answered otpNodes round := allNodesFoed_ok_iff.mp ⟨false, waits⟩
    refine ⟨answered, ?_⟩
    by_contra none
    have foed : task.allNodesFoed otpNodes round = .ok true := by
      rw [all]
      rintro ⟨otpNode, index⟩ member
      rw [List.mem_zipIdx_iff_getElem?] at member
      obtain ⟨nodes, here⟩ := answered index (List.getElem?_eq_some_iff.mp member).1
      refine ⟨nodes, here, ?_⟩
      by_contra other
      obtain ⟨node, first, differs⟩ := nodeFailedOver_eq_false_iff.mp (Bool.not_eq_true _ ▸ other)
      exact none ⟨otpNode, _, ⟨index, nodes, node, member, here, first, rfl⟩, differs⟩
    cases waits.symm.trans foed
  · rintro ⟨answered, otpNode, membership, ⟨index, nodes, node, place, here, first, rfl⟩, differs⟩
    obtain ⟨foed, returned⟩ := allNodesFoed_ok_iff.mpr answered
    cases foed with
    | false => exact returned
    | true =>
      have member : (otpNode, index) ∈ otpNodes.zipIdx := List.mem_zipIdx_iff_getElem?.mpr place
      obtain ⟨others, again, failed⟩ := all.mp returned (otpNode, index) member
      cases here.symm.trans again
      rw [nodeFailedOver_eq_false_iff.mpr ⟨node, first, differs⟩] at failed
      cases failed

theorem asked_iff_made {round : ℕ} :
    Asked (task.allNodesFoed otpNodes) FailoverTask.rounds 0 round ↔ task.Made otpNodes round := by
  unfold Asked FailoverTask.Made
  simp only [Nat.zero_add, allNodesFoed_false_iff]

theorem failOverAndWait_returns_iff :
    (∃ foed, task.failOverAndWait otpNodes = .ok foed) ↔ task.Quiet otpNodes := by
  have waits : (∃ foed, waitFor (task.allNodesFoed otpNodes) FailoverTask.rounds 0 = .ok foed) ↔
      ∀ round, task.Made otpNodes round → task.Answered otpNodes round := by
    simp only [waitFor_returns_iff, asked_iff_made, Nat.zero_add, allNodesFoed_ok_iff]
  simp only [FailoverTask.failOverAndWait, FailoverTask.failoverNodes, bind_eq_ok]
  constructor
  · rintro ⟨foed, _, ⟨_, called, monitorRebalance⟩, _, connects, waited⟩
    obtain ⟨failOver, someNode⟩ := failOverCalls_ok.mp called
    exact ⟨failOver, someNode, monitorRebalance, connects, waits.mp ⟨foed, waited⟩⟩
  · intro quiet
    have called := failOverCalls_ok.mpr ⟨quiet.failOver, quiet.someNode⟩
    obtain ⟨foed, waited⟩ := waits.mpr quiet.rounds
    exact ⟨foed, (), ⟨(), called, quiet.monitorRebalance⟩, (), quiet.connects, waited⟩

/-- The task succeeds whenever no request of it raises, and no `fail_over` says no. -/
theorem failover_result_iff : task.call.result = true ↔
    ∃ statuses, task.Answers statuses ∧ task.Quiet (task.nodesOf statuses) := by
  unfold FailoverTask.call
  cases found : task.otpNodesToFo with
  | error e =>
    refine iff_of_false (by simp) ?_
    rintro ⟨statuses, answers, _⟩
    cases found.symm.trans (otpNodesToFo_ok_iff.mpr ⟨statuses, answers, rfl⟩)
  | ok otpNodes =>
    have success : (∃ foed, task.failOverAndWait otpNodes = .ok foed) ↔
        ∃ statuses, task.Answers statuses ∧ task.Quiet (task.nodesOf statuses) := by
      rw [failOverAndWait_returns_iff]
      constructor
      · intro quiet
        obtain ⟨statuses, answers, rfl⟩ := otpNodesToFo_ok_iff.mp found
        exact ⟨statuses, answers, quiet⟩
      · rintro ⟨statuses, answers, quiet⟩
        cases found.symm.trans (otpNodesToFo_ok_iff.mpr ⟨statuses, answers, rfl⟩)
        exact quiet
    rw [← success]
    cases outcome : task.failOverAndWait otpNodes <;> simp [outcome]

/-- Two ways in which the requests are answered have the same answers for the servers. -/
theorem answers_unique {statuses others : ℕ → List OtpNode} (answers : task.Answers statuses)
    (again : task.Answers others) {index : ℕ} (inside : index < task.toFailover.length) :
    statuses index = others index :=
  Except.ok.inj ((answers index inside).symm.trans (again index inside))

theorem failover_right_iff : task.Right ↔ ¬ task.Unseen := by
  constructor
  · rintro right ⟨statuses, answers, quiet, missing⟩
    obtain ⟨others, again, _, seen⟩ := right (failover_result_iff.mpr ⟨statuses, answers, quiet⟩)
    have same : task.nodesOf statuses = task.nodesOf others :=
      Except.ok.inj ((otpNodesToFo_ok_iff.mpr ⟨statuses, answers, rfl⟩).symm.trans
        (otpNodesToFo_ok_iff.mpr ⟨others, again, rfl⟩))
    rw [same] at missing
    rcases missing with ⟨server, index, place, none⟩ | ⟨otpNode, member, never⟩
    · obtain ⟨node, listed, isNode⟩ := seen.found server index place
      rw [← answers_unique answers again (List.getElem?_eq_some_iff.mp place).1] at listed
      exact none node listed isNode
    · obtain ⟨round, made, listed⟩ := seen.failed otpNode member
      exact never round made listed
  · intro shows success
    obtain ⟨statuses, answers, quiet⟩ := failover_result_iff.mp success
    refine ⟨statuses, answers, quiet.failOver, ?_, ?_⟩
    · intro server index place
      by_contra none
      push Not at none
      exact shows ⟨statuses, answers, quiet, .inl ⟨server, index, place, none⟩⟩
    · intro otpNode member
      by_contra never
      push Not at never
      exact shows ⟨statuses, answers, quiet, .inr ⟨otpNode, member, never⟩⟩

end Failover

/-! ## A compaction -/

section Compaction

open CompactBucketTask

variable {task : CompactBucketTask} {stopTime : ℚ} {stops : Option ℚ → Bool} {polls : List CompactPoll}
  {statuses : List (Option ℚ)} {status : Option ℚ}

theorem accepted_iff : task.accepted = .ok true ↔
    ∃ k, Asked task.compactBucket 21 0 k ∧ task.compactBucket k = .ok true := by
  have same : task.accepted = waitFor task.compactBucket 21 0 := by rfl
  rw [same, waitFor_ends_iff (by simp)]
  simp only [Nat.zero_add]

/-- A poll that asks in time passes its answer on. -/
theorem ask_inTime {poll : CompactPoll} (inTime : task.InTime stopTime poll) (answered : poll.status = .ok status) :
    task.ask stopTime poll = .ok status := by
  rw [CompactBucketTask.ask, if_pos inTime.1, if_neg inTime.2, answered]
  rfl

theorem ask_ok_iff {poll : CompactPoll} :
    task.ask stopTime poll = .ok status ↔ task.InTime stopTime poll ∧ poll.status = .ok status := by
  refine ⟨fun asked => ?_, fun found => ask_inTime found.1 found.2⟩
  rw [CompactBucketTask.ask] at asked
  split at asked
  · rename_i before
    split at asked
    · cases asked
    · rename_i notLate
      cases answer : poll.status with
      | error e =>
        rw [answer] at asked
        cases asked
      | ok progress =>
        rw [answer] at asked
        cases asked
        exact ⟨⟨before, notLate⟩, rfl⟩
  · cases asked

theorem ask_expired_iff {poll : CompactPoll} :
    task.ask stopTime poll = .error .expired ↔ stopTime ≤ poll.loopAt := by
  rw [CompactBucketTask.ask]
  split
  · rename_i before
    refine iff_of_false ?_ (not_le.mpr before)
    split
    · simp
    · cases poll.status <;> simp [Except.mapError]
  · rename_i past
    exact iff_of_true rfl (not_lt.mp past)

theorem waitStep_ok_iff {poll : CompactPoll} : task.waitStep stopTime stops () poll = .ok () ↔
    ∃ status, task.InTime stopTime poll ∧ poll.status = .ok status ∧ stops status = false := by
  rw [CompactBucketTask.waitStep, bind_eq_ok]
  simp only [ask_ok_iff, and_assoc]
  refine exists_congr fun status => and_congr_right fun _ => and_congr_right fun _ => ?_
  cases stops status <;> simp

theorem waitStep_done_iff {poll : CompactPoll} : task.waitStep stopTime stops () poll = .error .done ↔
    ∃ status, task.InTime stopTime poll ∧ poll.status = .ok status ∧ stops status = true := by
  rw [CompactBucketTask.waitStep, bind_eq_error]
  have asks : task.ask stopTime poll ≠ .error .done := by
    rw [CompactBucketTask.ask]
    split
    · split
      · simp
      · cases poll.status <;> simp [Except.mapError]
    · simp
  simp only [asks, false_or, ask_ok_iff, and_assoc]
  refine exists_congr fun status => and_congr_right fun _ => and_congr_right fun _ => ?_
  cases stops status <;> simp

theorem waitStep_expired_iff {poll : CompactPoll} :
    task.waitStep stopTime stops () poll = .error .expired ↔ stopTime ≤ poll.loopAt := by
  rw [CompactBucketTask.waitStep, bind_eq_error, ask_expired_iff, or_iff_left]
  rintro ⟨status, _, ends⟩
  cases answer : stops status <;> simp [answer] at ends

/-- The polls that do not end a wait -/
theorem wait_ok_iff : task.wait stopTime stops polls = .ok () ↔ ∃ statuses, task.Going stopTime stops polls statuses := by
  refine foldlM_unit_ok.trans ?_
  constructor
  · intro each
    induction polls with
    | nil => exact ⟨[], .nil⟩
    | cons poll polls ih =>
      obtain ⟨this, rest⟩ := List.forall_mem_cons.mp each
      obtain ⟨status, found⟩ := waitStep_ok_iff.mp this
      obtain ⟨statuses, going⟩ := ih rest
      exact ⟨status :: statuses, .cons found going⟩
  · rintro ⟨statuses, going⟩
    induction going with
    | nil => simp
    | cons found _ ih => exact List.forall_mem_cons.mpr ⟨waitStep_ok_iff.mpr ⟨_, found⟩, ih⟩

theorem wait_expired_iff :
    task.wait stopTime stops polls = .error .expired ↔ ∃ statuses, task.Over stopTime stops polls statuses := by
  rw [CompactBucketTask.wait, foldlM_ends_iff]
  constructor
  · rintro ⟨before, last, after, _, same, going, ends⟩
    obtain ⟨statuses, going⟩ := wait_ok_iff.mp going
    exact ⟨statuses, before, last, after, same, going, waitStep_expired_iff.mp ends⟩
  · rintro ⟨statuses, before, last, after, same, going, late⟩
    exact ⟨before, last, after, (), same, wait_ok_iff.mpr ⟨statuses, going⟩, waitStep_expired_iff.mpr late⟩

theorem wait_done_iff :
    task.wait stopTime stops polls = .error .done ↔
      ∃ statuses status, task.Ends stopTime stops polls statuses status := by
  rw [CompactBucketTask.wait, foldlM_ends_iff]
  constructor
  · rintro ⟨before, last, after, _, same, going, ends⟩
    obtain ⟨statuses, going⟩ := wait_ok_iff.mp going
    obtain ⟨status, ends⟩ := waitStep_done_iff.mp ends
    exact ⟨statuses, status, before, last, after, same, going, ends⟩
  · rintro ⟨statuses, status, before, last, after, same, going, ends⟩
    exact ⟨before, last, after, (), same, wait_ok_iff.mpr ⟨statuses, going⟩, waitStep_done_iff.mpr ⟨status, ends⟩⟩

/-- The answers that do not end a wait come first. -/
theorem answers_going {rest : List CompactPoll} (going : task.Going stopTime stops polls statuses) :
    task.answers stopTime stops (polls ++ rest) = statuses ++ task.answers stopTime stops rest := by
  induction going with
  | nil => rfl
  | cons found _ ih =>
    obtain ⟨inTime, answered, goesOn⟩ := found
    rw [List.cons_append, CompactBucketTask.answers, ask_inTime inTime answered]
    simp only [goesOn, ih]
    rfl

theorem answers_over (late : task.Over stopTime stops polls statuses) :
    task.answers stopTime stops polls = statuses := by
  obtain ⟨before, last, after, rfl, going, late⟩ := late
  rw [answers_going going, CompactBucketTask.answers, ask_expired_iff.mpr late, List.append_nil]

theorem answers_ends (ends : task.Ends stopTime stops polls statuses status) :
    task.answers stopTime stops polls = statuses ++ [status] := by
  obtain ⟨before, last, after, rfl, going, inTime, answered, ends⟩ := ends
  rw [answers_going going, CompactBucketTask.answers, ask_inTime inTime answered]
  simp only [ends, if_true]

/-- A wait for the end asks on as long as a compaction shows. -/
theorem going_completed (going : task.Going stopTime completed polls statuses) :
    ∃ still : List ℚ, statuses = still.map some := by
  induction going with
  | nil => exact ⟨[], rfl⟩
  | @cons poll status _ _ found _ ih =>
    obtain ⟨still, rfl⟩ := ih
    cases status with
    | none =>
      have goesOn := found.2.2
      simp [completed] at goesOn
    | some progress => exact ⟨progress :: still, rfl⟩

theorem firstWait_iff : (∃ outcome, task.waitForStart = .error outcome ∧ outcome ≠ .raised) ↔
    ∃ statuses, task.FirstWait statuses := by
  constructor
  · rintro ⟨outcome, ended, quiet⟩
    cases outcome with
    | raised => exact absurd rfl quiet
    | expired =>
      obtain ⟨statuses, late⟩ := wait_expired_iff.mp ended
      exact ⟨statuses, .inl late⟩
    | done =>
      obtain ⟨statuses, status, ends⟩ := wait_done_iff.mp ended
      exact ⟨_, .inr ⟨statuses, status, rfl, ends⟩⟩
  · rintro ⟨statuses, late | ⟨before, status, _, ends⟩⟩
    · exact ⟨.expired, wait_expired_iff.mpr ⟨statuses, late⟩, by simp⟩
    · exact ⟨.done, wait_done_iff.mpr ⟨before, status, ends⟩, by simp⟩

theorem answers_firstWait (first : task.FirstWait statuses) :
    task.answers (task.startAt + task.timeout) started task.startPolls = statuses := by
  rcases first with late | ⟨before, status, rfl, ends⟩
  · exact answers_over late
  · exact answers_ends ends

/-- The call succeeds when neither wait raises anything. -/
theorem compact_result_iff : task.call = some ⟨true, false⟩ ↔
    task.accepted = .ok true ∧ (∃ first, task.waitForStart = .error first ∧ first ≠ .raised) ∧
      (task.waitForFinish = .error .expired ∨ task.waitForFinish = .error .done) := by
  unfold CompactBucketTask.call
  cases task.accepted with
  | error e => simp
  | ok accepted =>
    cases accepted with
    | false => simp
    | true =>
      cases task.waitForStart with
      | ok _ => simp
      | error first =>
        cases task.waitForFinish with
        | ok _ => cases first <;> simp
        | error last => cases first <;> cases last <;> simp

theorem vanishes_cons_none : Vanishes (none :: statuses) ↔ Vanishes statuses := by
  constructor
  · rintro ⟨_ | ⟨first, before⟩, progress, between, after, same⟩
    · cases same
    · cases same
      exact ⟨before, progress, between, after, by simp⟩
  · rintro ⟨before, progress, between, after, rfl⟩
    exact ⟨none :: before, progress, between, after, by simp⟩

theorem vanishes_cons_some {progress : ℚ} : Vanishes (some progress :: statuses) ↔ none ∈ statuses := by
  constructor
  · rintro ⟨before, other, between, after, same⟩
    have member : none ∈ some progress :: statuses := by simp [same]
    simpa using member
  · intro member
    obtain ⟨between, after, rfl⟩ := List.append_of_mem member
    exact ⟨[], progress, between, after, rfl⟩

theorem vanishes_iff : Vanishes statuses ↔
    ¬ ∃ (nones : ℕ) (running : List ℚ), statuses = List.replicate nones none ++ running.map some := by
  induction statuses with
  | nil =>
    refine iff_of_false ?_ (not_not.mpr ⟨0, [], rfl⟩)
    rintro ⟨before, progress, between, after, same⟩
    simp at same
  | cons status statuses ih =>
    cases status with
    | none =>
      rw [vanishes_cons_none, ih, not_iff_not]
      constructor
      · rintro ⟨nones, running, rfl⟩
        exact ⟨nones + 1, running, rfl⟩
      · rintro ⟨_ | nones, running, same⟩
        · cases running <;> cases same
        · exact ⟨nones, running, List.tail_eq_of_cons_eq same⟩
    | some progress =>
      rw [vanishes_cons_some]
      constructor
      · rintro member ⟨_ | nones, running, same⟩
        · have inside : none ∈ running.map some := by
            rw [List.replicate_zero, List.nil_append] at same
            rw [← same]
            exact List.mem_cons_of_mem _ member
          simp at inside
        · cases same
      · intro none
        by_contra absent
        have all : statuses ∈ Set.range (List.map some) := by
          rw [Set.range_list_map]
          intro status member
          cases status with
          | none => exact absurd member absent
          | some progress => exact ⟨progress, rfl⟩
        obtain ⟨running, rfl⟩ := all
        exact none ⟨0, progress :: running, rfl⟩

/-- A compaction that shows is gone in a last answer without one. -/
theorem vanishes_concat {progress : ℚ} (member : some progress ∈ statuses) : Vanishes (statuses ++ [none]) := by
  obtain ⟨before, between, rfl⟩ := List.append_of_mem member
  exact ⟨before, progress, between, [], by rw [List.append_assoc, List.cons_append]⟩

theorem compact_right_iff : task.Right ↔ ¬ task.Unseen := by
  rw [CompactBucketTask.Right, compact_result_iff]
  constructor
  · rintro right ⟨accepted, nones, running, first, other⟩
    have waits := firstWait_iff.mpr ⟨_, first⟩
    rcases other with ⟨rfl, ends⟩ | ⟨still, late⟩
    · have seen : Vanishes task.allAnswers :=
        right ⟨accepted_iff.mpr accepted, waits, .inr (wait_done_iff.mpr ⟨_, _, ends⟩)⟩
      refine vanishes_iff.mp seen ⟨nones + 1, [], ?_⟩
      rw [CompactBucketTask.allAnswers, answers_firstWait first, answers_ends ends, List.replicate_succ']
      simp
    · have seen : Vanishes task.allAnswers :=
        right ⟨accepted_iff.mpr accepted, waits, .inl (wait_expired_iff.mpr ⟨_, late⟩)⟩
      obtain ⟨before, last, after, _, going, _⟩ := id late
      obtain ⟨shown, rfl⟩ := going_completed going
      refine vanishes_iff.mp seen ⟨nones, running ++ shown, ?_⟩
      rw [CompactBucketTask.allAnswers, answers_firstWait first, answers_over late, List.map_append,
        List.append_assoc]
  · rintro shows ⟨accepted, waits, other⟩
    obtain ⟨statuses, first⟩ := firstWait_iff.mp waits
    by_contra unseen
    have steady : ¬ Vanishes task.allAnswers := unseen
    rw [CompactBucketTask.allAnswers, answers_firstWait first] at steady
    rcases other with expired | done
    · obtain ⟨still, late⟩ := wait_expired_iff.mp expired
      have firstSteady : ¬ Vanishes statuses := by
        rintro ⟨before, progress, between, after, rfl⟩
        exact steady ⟨before, progress, between, _, List.append_assoc _ (_ :: _) _⟩
      obtain ⟨nones, running, rfl⟩ := not_not.mp (vanishes_iff.not.mp firstSteady)
      exact shows ⟨accepted_iff.mp accepted, nones, running, first, .inr ⟨still, late⟩⟩
    · obtain ⟨still, status, ends⟩ := wait_done_iff.mp done
      rw [answers_ends ends] at steady
      obtain ⟨before, last, after, _, going, _, _, stops⟩ := id ends
      obtain rfl : status = none := Option.isNone_iff_eq_none.mp stops
      obtain ⟨shown, rfl⟩ := going_completed going
      have never : ∀ status ∈ statuses ++ shown.map some, status = none := by
        intro status member
        by_contra shows
        obtain ⟨progress, rfl⟩ := Option.ne_none_iff_exists'.mp shows
        exact steady (List.append_assoc statuses _ _ ▸ vanishes_concat member)
      have firstNone : statuses = List.replicate statuses.length none ++ ([] : List ℚ).map some := by
        rw [List.map_nil, List.append_nil]
        exact List.eq_replicate_iff.mpr ⟨rfl, fun status member => never status (List.mem_append_left _ member)⟩
      obtain rfl : shown = [] := by
        by_contra some
        obtain ⟨progress, member⟩ := List.exists_mem_of_ne_nil _ some
        cases never (.some progress) (List.mem_append_right _ (List.mem_map_of_mem member))
      rw [firstNone] at first
      exact shows ⟨accepted_iff.mp accepted, statuses.length, [], first, .inl ⟨rfl, ends⟩⟩

end Compaction

/-! ## A fragmentation -/

section Fragmentation

variable {task : MonitorViewFragmentationTask}

/-- The loop succeeds at the first value that is not below the one to reach, if it is above. -/
theorem checkLoop_result_iff (timeout k : ℕ) (newFragValue : ℚ) :
    (task.checkLoop timeout k newFragValue).result = true ↔
      newFragValue < task.fragmentationValue ∧ ∃ i < timeout,
        (∀ earlier < i, ∃ below, task.polls (k + earlier) = .ok below ∧ below < task.fragmentationValue) ∧
        ∃ value, task.polls (k + i) = .ok value ∧ task.fragmentationValue < value := by
  induction timeout generalizing k newFragValue with
  | zero => simp [MonitorViewFragmentationTask.checkLoop]
  | succ timeout ih =>
    rw [MonitorViewFragmentationTask.checkLoop]
    by_cases below : newFragValue < task.fragmentationValue
    · rw [if_pos below, and_iff_right below]
      rw [Nat.exists_lt_succ_left]
      simp only [Nat.forall_lt_succ_left, Nat.not_lt_zero, Nat.add_zero]
      cases here : task.polls k with
      | error e => simp
      | ok value =>
        by_cases above : task.fragmentationValue < value
        · simp [above]
        · simp only [above, if_false, ih, Except.ok.injEq, exists_eq_left', Nat.add_assoc, Nat.add_comm 1,
            and_false, false_or]
          constructor
          · intro found
            obtain ⟨less, i, inTime, earlier, reached⟩ := found
            exact ⟨i, inTime, ⟨less, earlier⟩, reached⟩
          · intro found
            obtain ⟨i, inTime, ⟨less, earlier⟩, reached⟩ := found
            exact ⟨less, i, inTime, earlier, reached⟩
    · simp [below]

theorem check_result_iff : task.check.result = true ↔
    ∃ k value, task.Polled k value ∧ task.fragmentationValue < value := by
  rw [MonitorViewFragmentationTask.check, checkLoop_result_iff]
  unfold MonitorViewFragmentationTask.Polled
  simp only [Nat.zero_add]
  constructor
  · intro ⟨positive, k, inTime, earlier, value, read, above⟩
    exact ⟨k, value, ⟨positive, inTime, earlier, read⟩, above⟩
  · intro ⟨k, value, polled, above⟩
    obtain ⟨positive, inTime, earlier, read⟩ := polled
    exact ⟨positive, k, inTime, earlier, value, read, above⟩

/-- Only one value that is not below the one to reach is polled. -/
theorem polled_unique {k k' : ℕ} {value value' : ℚ} (polled : task.Polled k value) (polled' : task.Polled k' value')
    (reached : task.fragmentationValue ≤ value) (reached' : task.fragmentationValue ≤ value') : value = value' := by
  obtain ⟨_, _, earlier, read⟩ := polled
  obtain ⟨_, _, earlier', read'⟩ := polled'
  rcases lt_trichotomy k k' with before | same | behind
  · obtain ⟨below, same, less⟩ := earlier' k before
    cases read.symm.trans same
    exact absurd less (not_lt.mpr reached)
  · subst same
    exact Except.ok.inj (read.symm.trans read')
  · obtain ⟨below, same, less⟩ := earlier k' behind
    cases read'.symm.trans same
    exact absurd less (not_lt.mpr reached')

theorem monitor_right_iff : task.Right ↔ task.Misses := by
  rw [MonitorViewFragmentationTask.Right, check_result_iff]
  constructor
  · intro right k hit
    obtain ⟨k', value, polled, above⟩ := right.mpr ⟨k, _, hit, le_rfl⟩
    exact absurd (polled_unique hit polled le_rfl above.le) above.ne
  · intro misses
    refine exists₂_congr fun k value => and_congr_right fun polled => ⟨le_of_lt, fun reached => ?_⟩
    refine lt_of_le_of_ne reached fun same => misses k ?_
    rw [same]
    exact polled

end Fragmentation

/-- The three tasks succeed on evidence only, exactly if what they poll is never such that nothing goes wrong and
    nothing shows, and the fragmentation never is just the value to reach. -/
theorem success_on_evidence_iff (failover : FailoverTask) (compact : CompactBucketTask)
    (monitor : MonitorViewFragmentationTask) :
    failover.Right ∧ compact.Right ∧ monitor.Right ↔ ¬ failover.Unseen ∧ ¬ compact.Unseen ∧ monitor.Misses :=
  and_congr failover_right_iff (and_congr compact_right_iff monitor_right_iff)

/-- A node that stays active for all of the wait, a compaction that never shows, and a fragmentation of
    just the value to reach -/
theorem tasks_pass_without_evidence :
    let failover : FailoverTask :=
      ⟨[⟨"10.0.0.1", "", 8091⟩], false, false, fun _ => .ok [⟨"ns_1@10.0.0.1", "10.0.0.1", 8091⟩], fun _ => .ok true,
        .ok (), .ok (), fun _ _ => .ok [⟨"ns_1@10.0.0.1", "active"⟩]⟩
    let compact : CompactBucketTask :=
      ⟨300, fun _ => .ok true, 0, [⟨0, 0, .ok none⟩, ⟨300, 300, .ok none⟩], 300, [⟨300, 300, .ok none⟩]⟩
    let monitor : MonitorViewFragmentationTask := ⟨50, fun _ => .ok 50⟩
    ¬ failover.Right ∧ ¬ compact.Right ∧ ¬ monitor.Right := by
  intro failover compact monitor
  refine ⟨fun right => ?_, fun right => ?_, fun right => ?_⟩
  · obtain ⟨statuses, answers, _, seen⟩ := right (by decide)
    have only : statuses 0 = [⟨"ns_1@10.0.0.1", "10.0.0.1", 8091⟩] := (Except.ok.inj (answers 0 (by decide))).symm
    have member : "ns_1@10.0.0.1" ∈ failover.nodesOf statuses := by
      simp [FailoverTask.nodesOf, FailoverTask.IsNode, failover, only]
    obtain ⟨round, _, index, nodes, node, _, answered, first, failed⟩ := seen.failed "ns_1@10.0.0.1" member
    cases answered
    cases first
    exact absurd failed (by decide)
  · obtain ⟨before, progress, between, after, same⟩ := right (by decide +kernel)
    have never : some progress ∉ compact.allAnswers := by
      have all : compact.allAnswers = [none, none] := by decide +kernel
      simp [all]
    exact never (by simp [same])
  · have success : monitor.check.result = true := right.mpr ⟨0, 50, ⟨by norm_num [monitor], by norm_num, by simp, rfl⟩, le_rfl⟩
    exact absurd success (by decide +kernel)

end Taf.Tasks.ClusterEvidence
