import Taf.Lib.Dict
import Taf.Lib.Text
import Taf.Lib.Waiting

/-! # The verdict of a rebalance

`RebalanceTask.call` prepares and starts a rebalance, `check` polls until it is finished or hangs and then asks
each node that was taken out for its pools.  The requests are parameters: what is here is what they give,
in the order in which they are made. -/

namespace Taf.Tasks.RebalanceVerdict

open Taf.Lib

/-- What `check` lets out -/
inductive Stopped where
  | rebalanceFailed (message : String)
  -- Any other exception
  | exception
  deriving DecidableEq

/-- Servers are compared as objects. -/
structure Server where
  object : ℕ
  ip : String
  port : String
  deriving DecidableEq

inductive VbType where
  | activeVb
  | replicaVb
  deriving DecidableEq

/-- `_get_vbuckets`: the numbers of the vBuckets of each server asked for -/
abbrev Vbuckets := Server → VbType → List ℕ

structure RebalanceTask where
  servers : List Server
  toAdd : List Server
  toRemove : List Server
  services : List String
  checkVbucketShuffling : Bool
  retryGetProcessNum : ℤ

/-! ## The answers -/

/-- Before the rebalance runs -/
structure Preparation where
  nodeVersionCheck : Except Stopped Bool
  oldVbuckets : Except Stopped Vbuckets
  nodesServices : Except Stopped (AList fun _ : String => List String)
  addNodes : Except Stopped Unit
  -- The first part of what `rest.rebalance` returns
  rebalanceResult : Except Stopped Bool
  -- The wait for a new status id
  statusId : Except Stopped Unit

/-- One poll of `check` -/
structure Poll where
  newVbuckets : Except Stopped Vbuckets
  -- `(status, progress)`
  answer : Except Stopped (Option String × ℚ)
  clusterMixed : Except Stopped Bool
  printsLogs : Bool

/-- An answer of `get_pools_info` -/
inductive PoolsInfo where
  -- The length of the list under `pools`, if it is there
  | answered (pools : Option ℕ)
  -- `ServerUnavailableException` or `IncompleteRead`
  | unavailable
  | raised (e : Stopped)
  deriving DecidableEq

/-- A round asks twice. -/
structure Round where
  first : PoolsInfo
  second : PoolsInfo
  deriving DecidableEq

inductive Connection where
  | made
  | unavailable
  | raised (e : Stopped)
  deriving DecidableEq

/-- What a node that was taken out answers in its 30 seconds -/
structure Visit where
  connection : Connection
  rounds : List Round
  deriving DecidableEq

/-! ## Monitoring the vBuckets -/

namespace RebalanceTask

variable (task : RebalanceTask) (preparation : Preparation)

def nonSwapServers : List Server :=
  task.servers.filter fun server => server ∉ task.toRemove ∧ server ∉ task.toAdd

/-- The services of a node that goes out, of which there have to be some -/
def hasKv (servicesMap : AList fun _ : String => List String) (node : Server) : Except Stopped Bool :=
  match servicesMap.lookup (node.ip ++ ":" ++ node.port) with
  | none => .error .exception
  | some services => .ok (services.contains "kv")

/-- The old vBuckets, if `monitor_vbuckets_shuffling` is set -/
def monitorVbucketsShuffling : Except Stopped (Option Vbuckets) :=
  if task.toAdd ≠ [] ∧ task.toAdd.length = task.toRemove.length then do
    let nodeVersionCheck ← preparation.nodeVersionCheck
    if task.checkVbucketShuffling then
      let oldVbuckets ← preparation.oldVbuckets
      let withoutKv := task.services.any fun serviceGroup => !occursIn "kv" serviceGroup
      if task.nonSwapServers = [] ∨ (nodeVersionCheck ∧ withoutKv) then pure none
      else if nodeVersionCheck then
        let servicesMap ← preparation.nodesServices
        let kv ← task.toRemove.mapM (hasKv servicesMap)
        pure (if kv.all id then some oldVbuckets else none)
      else pure (some oldVbuckets)
    else pure none
  else pure none

/-- Up to the first poll: whether it was triggered, and with what to compare the vBuckets -/
def prepare : Except Stopped (Option (Option Vbuckets)) := do
  let monitored ← task.monitorVbucketsShuffling preparation
  preparation.addNodes
  let rebalanceResult ← preparation.rebalanceResult
  if rebalanceResult then
    preparation.statusId
    pure (some monitored)
  else pure none

/-- `raise Exception(msg)` if vBuckets were shuffled -/
def checkShuffling (monitored : Option Vbuckets) (poll : Poll) : Except Stopped Unit :=
  match monitored with
  | none => .ok ()
  | some old => do
    let new ← poll.newVbuckets
    if ∀ vbType ∈ [VbType.activeVb, .replicaVb], ∀ server ∈ task.nonSwapServers,
        (old server vbType).toFinset = (new server vbType).toFinset then pure ()
    else .error .exception

end RebalanceTask

/-! ## Polling -/

structure Polling where
  retryGetProgress : ℕ
  retryGetProcessNum : ℤ
  previousProgress : ℚ

/-- How the loop is left -/
inductive PollEnd where
  | finished
  | stopped (e : Stopped)

def Polling.count (s : Polling) (progress : ℚ) : Polling :=
  if progress = -100 then { s with retryGetProgress := s.retryGetProgress + 1 }
  else if s.previousProgress ≠ progress then { s with previousProgress := progress, retryGetProgress := 0 }
  else { s with retryGetProgress := s.retryGetProgress + 1 }

/-- for mix cluster, rebalance takes longer -/
def Polling.allow (s : Polling) (mixed : Bool) : Polling :=
  if mixed then { s with retryGetProcessNum := s.retryGetProcessNum * 2 } else s

namespace RebalanceTask

variable (task : RebalanceTask)

def startPolling : Polling where
  retryGetProgress := 0
  retryGetProcessNum := task.retryGetProcessNum
  previousProgress := 0

/-- What follows the answer and the question whether the cluster is mixed -/
def decideAfter (s : Polling) (status : Option String) (progress : ℚ) (printsLogs : Bool) : Except PollEnd Polling :=
  if progress ≠ -1 ∧ status ≠ some "none" then
    if (s.retryGetProgress : ℤ) < s.retryGetProcessNum then .ok s
    else if printsLogs then
      .error (.stopped (.rebalanceFailed "seems like rebalance hangs. please check logs!"))
    else .error (.stopped .exception)
  else .error .finished

def pollStep (monitored : Option Vbuckets) (s : Polling) (poll : Poll) : Except PollEnd Polling := do
  (task.checkShuffling monitored poll).mapError PollEnd.stopped
  let (status, progress) ← poll.answer.mapError PollEnd.stopped
  let mixed ← poll.clusterMixed.mapError PollEnd.stopped
  decideAfter ((s.count progress).allow mixed) status progress poll.printsLogs

/-- The loop goes on after the polls, or it has been left. -/
def poll (monitored : Option Vbuckets) (polls : List Poll) : Except PollEnd Polling :=
  polls.foldlM (task.pollStep monitored) task.startPolling

end RebalanceTask

/-! ## Cleaning up -/

/-- Whether the node has been cleaned, in one round -/
def Round.cleaned (round : Round) : Except Stopped Bool :=
  match round.first with
  | .raised e => .error e
  | .unavailable | .answered none => .ok false
  | .answered (some _) =>
    match round.second with
    | .raised e => .error e
    | .unavailable => .ok false
    -- There is no `pools` to index with.
    | .answered none => .error .exception
    | .answered (some pools) => .ok (pools = 0)

/-- The rounds until the node is cleaned -/
def roundsClean : List Round → Except Stopped Bool
  | [] => .ok false
  | round :: rounds => do
    let cleaned ← round.cleaned
    if cleaned then pure true else roundsClean rounds

def Visit.cleaned (visit : Visit) : Except Stopped Bool :=
  match visit.connection with
  | .raised e => .error e
  | .unavailable => .ok false
  | .made => roundsClean visit.rounds

/-- A node of `to_remove`, with what it answers when its turn comes -/
def cleanNode (successCleaned : List Server) (removed : Server × Visit) : Except Stopped (List Server) := do
  let cleaned ← removed.2.cleaned
  pure (if cleaned then successCleaned ++ [removed.1] else successCleaned)

/-! ## The task -/

/-- `raised` is what `call` lets out. -/
structure TaskState where
  result : Bool
  exception : Option Stopped
  completed : Bool
  raised : Bool

def TaskState.init : TaskState where
  result := false
  exception := none
  completed := false
  raised := false

/-- All answers of a run -/
structure Answers where
  preparation : Preparation
  polls : List Poll
  -- By the position in `to_remove`
  visits : ℕ → Visit
  serverless : Bool
  -- `get_updated_bucket_server_list` of the buckets
  updatesServerLists : Bool

namespace RebalanceTask

variable (task : RebalanceTask) (answers : Answers)

/-- The nodes of `to_remove`, with what they answer -/
def removed : List (Server × Visit) :=
  task.toRemove.zipIdx.map fun node => (node.1, answers.visits node.2)

/-- The part of `check` behind the loop -/
def checkCleaned (s : TaskState) : TaskState × Option Stopped :=
  match (task.removed answers).foldlM cleanNode [] with
  | .error e => (s, some e)
  | .ok successCleaned =>
    let s := if ∃ node ∈ task.toRemove, node ∉ successCleaned then { s with result := false } else s
    ({ s with result := true }, none)

/-- `none` while it polls -/
def check (monitored : Option Vbuckets) (s : TaskState) : Option (TaskState × Option Stopped) :=
  match task.poll monitored answers.polls with
  | .ok _ => none
  | .error (.stopped e) => some ({ s with result := false }, some e)
  | .error .finished => some (task.checkCleaned answers s)

def call : Option TaskState :=
  match task.prepare answers.preparation with
  | .error e => some { TaskState.init with exception := some e, result := false }
  | .ok none => some { TaskState.init with completed := true, result := false }
  | .ok (some monitored) =>
    (task.check answers monitored TaskState.init).map fun (s, e) =>
      match e with
      | some e => { s with exception := some e, result := false }
      | none =>
        if answers.serverless ∧ ¬ answers.updatesServerLists then { s with raised := true }
        else { s with completed := true, result := true }

end RebalanceTask

/-! ## What the verdict should be -/

/-- The progress that was seen last; the newest poll comes first. -/
def lastProgress : List ℚ → ℚ
  | [] => 0
  | progress :: earlier => if progress = -100 then lastProgress earlier else progress

/-- The polls without a change of the progress, back from the newest one -/
def unchangedPolls : List ℚ → ℕ
  | [] => 0
  | progress :: earlier =>
    if progress ≠ -100 ∧ progress ≠ lastProgress earlier then 0 else unchangedPolls earlier + 1

def Poll.progress? (poll : Poll) : Option ℚ :=
  match poll.answer with
  | .ok (_, progress) => some progress
  | .error _ => none

def Poll.mixed (poll : Poll) : Bool :=
  match poll.clusterMixed with
  | .ok mixed => mixed
  | .error _ => false

def Poll.Finished (poll : Poll) : Prop :=
  ∃ status progress, poll.answer = .ok (status, progress) ∧ (progress = -1 ∨ status = some "none")

/-- The poll is answered, and the rebalance goes on. -/
def Poll.Running (poll : Poll) : Prop :=
  ∃ status progress, poll.answer = .ok (status, progress) ∧ progress ≠ -1 ∧ status ≠ some "none"

/-- The polls without a change, when a poll has been answered -/
def unchangedAt (before : List Poll) (poll : Poll) : ℕ :=
  unchangedPolls ((before ++ [poll]).filterMap Poll.progress?).reverse

/-- How often the cluster was seen to be mixed -/
def mixedPolls (before : List Poll) (poll : Poll) : ℕ := (before ++ [poll]).countP Poll.mixed

namespace RebalanceTask

variable (task : RebalanceTask) (answers : Answers)

/-- `retry_get_process_num`, twice that for a cluster that was seen to be mixed -/
def bound (before : List Poll) (poll : Poll) : ℤ :=
  if mixedPolls before poll = 0 then task.retryGetProcessNum else 2 * task.retryGetProcessNum

/-- The poll is made after the ones before, and nothing is raised up to the comparison. -/
structure PollsAt (monitored : Option Vbuckets) (before : List Poll) (poll : Poll) (s : Polling) : Prop where
  going : task.poll monitored before = .ok s
  notShuffled : task.checkShuffling monitored poll = .ok ()
  saysMixed : ∃ mixed, poll.clusterMixed = .ok mixed

def PollingEndsFinished : Prop :=
  ∃ monitored, task.prepare answers.preparation = .ok (some monitored) ∧
    ∃ before poll after s, answers.polls = before ++ poll :: after ∧ task.PollsAt monitored before poll s ∧
      poll.Finished

/-- The node has reported that it has no pools. -/
def ReportsEmpty (node : Server) : Prop :=
  ∃ visit, (node, visit) ∈ task.removed answers ∧ visit.connection = .made ∧
    ∃ round ∈ visit.rounds, round.cleaned = .ok true

def VerdictRight : Prop :=
  ∀ s, task.call answers = some s → s.result = true →
    task.PollingEndsFinished answers ∧ ∀ node ∈ task.toRemove, task.ReportsEmpty answers node

/-- The polls go on below the bound, and the rebalance has failed when it is reached. -/
def PollingRight : Prop :=
  ∀ monitored, task.prepare answers.preparation = .ok (some monitored) →
    ∀ before poll after s, answers.polls = before ++ poll :: after → task.PollsAt monitored before poll s →
      poll.Running →
        if (unchangedAt before poll : ℤ) < task.bound before poll then
          ∃ next, task.pollStep monitored s poll = .ok next
        else ∃ message, task.pollStep monitored s poll = .error (.stopped (.rebalanceFailed message))

/-! ## When it is -/

end RebalanceTask

/-- A round raises what is not caught before the node is cleaned. -/
def Visit.Raises (visit : Visit) : Prop :=
  (∃ e, visit.connection = .raised e) ∨
    visit.connection = .made ∧ ∃ before round after e, visit.rounds = before ++ round :: after ∧
      (∀ earlier ∈ before, earlier.cleaned = .ok false) ∧ round.cleaned = .error e

namespace RebalanceTask

variable (task : RebalanceTask) (answers : Answers)

/-- If the rebalance finishes and no visit raises, all nodes report that they have no pools. -/
def CleansUp : Prop :=
  task.PollingEndsFinished answers → (∀ removed ∈ task.removed answers, ¬ removed.2.Raises) →
    ∀ node ∈ task.toRemove, task.ReportsEmpty answers node

/-- Where the bound is reached, the number that has been doubled at each mixed poll is reached too, and the
    logs can be printed. -/
def HangsInTime : Prop :=
  ∀ monitored, task.prepare answers.preparation = .ok (some monitored) →
    ∀ before poll after s, answers.polls = before ++ poll :: after → task.PollsAt monitored before poll s →
      poll.Running → task.bound before poll ≤ unchangedAt before poll →
        task.retryGetProcessNum * 2 ^ mixedPolls before poll ≤ unchangedAt before poll ∧ poll.printsLogs = true

end RebalanceTask

section

variable {task : RebalanceTask} {answers : Answers} {monitored : Option Vbuckets} {before : List Poll}
  {s next : Polling} {poll : Poll} {status : Option String} {progress : ℚ} {mixed : Bool}

/-! ## The count of the polls -/

/-- The state of the loop, in terms of the polls behind it -/
structure Tracks (task : RebalanceTask) (before : List Poll) (s : Polling) : Prop where
  retryGetProgress : s.retryGetProgress = unchangedPolls (before.filterMap Poll.progress?).reverse
  previousProgress : s.previousProgress = lastProgress (before.filterMap Poll.progress?).reverse
  retryGetProcessNum : s.retryGetProcessNum = task.retryGetProcessNum * 2 ^ before.countP Poll.mixed

@[simp] theorem Polling.allow_retryGetProgress : (s.allow mixed).retryGetProgress = s.retryGetProgress := by
  cases mixed <;> rfl

@[simp] theorem Polling.allow_previousProgress : (s.allow mixed).previousProgress = s.previousProgress := by
  cases mixed <;> rfl

@[simp] theorem Polling.count_retryGetProcessNum :
    (s.count progress).retryGetProcessNum = s.retryGetProcessNum := by
  unfold Polling.count
  split_ifs <;> rfl

theorem Tracks.answered (tracks : Tracks task before s) (answer : poll.answer = .ok (status, progress))
    (saysMixed : poll.clusterMixed = .ok mixed) :
    Tracks task (before ++ [poll]) ((s.count progress).allow mixed) := by
  have newest : ((before ++ [poll]).filterMap Poll.progress?).reverse =
      progress :: (before.filterMap Poll.progress?).reverse := by
    simp [Poll.progress?, answer]
  constructor
  · rw [newest, unchangedPolls, ← tracks.previousProgress, ← tracks.retryGetProgress, Polling.allow_retryGetProgress,
      Polling.count]
    by_cases unavailable : progress = -100
    · simp [unavailable]
    · by_cases same : s.previousProgress = progress
      · simp [unavailable, same]
      · simp [unavailable, same, Ne.symm same]
  · rw [newest, lastProgress, ← tracks.previousProgress, Polling.allow_previousProgress, Polling.count]
    by_cases unavailable : progress = -100
    · simp [unavailable]
    · by_cases same : s.previousProgress = progress
      · simp [unavailable, same]
      · simp [unavailable, same]
  · have counted : (before ++ [poll]).countP Poll.mixed = before.countP Poll.mixed + if mixed then 1 else 0 := by
      simp [Poll.mixed, saysMixed, List.countP_cons]
    rw [counted]
    cases mixed with
    | true =>
      simp only [Polling.allow, if_true, Polling.count_retryGetProcessNum, tracks.retryGetProcessNum]
      ring
    | false => simp [Polling.allow, tracks.retryGetProcessNum]

/-- A poll up to the comparison -/
theorem pollStep_eq (notShuffled : task.checkShuffling monitored poll = .ok ())
    (answer : poll.answer = .ok (status, progress)) (saysMixed : poll.clusterMixed = .ok mixed) :
    task.pollStep monitored s poll =
      RebalanceTask.decideAfter ((s.count progress).allow mixed) status progress poll.printsLogs := by
  rw [RebalanceTask.pollStep, notShuffled, answer, saysMixed]
  rfl

theorem pollStep_ok (going : task.pollStep monitored s poll = .ok next) :
    ∃ status progress mixed, poll.answer = .ok (status, progress) ∧ poll.clusterMixed = .ok mixed ∧
      next = (s.count progress).allow mixed := by
  obtain ⟨_, _, going⟩ := bind_eq_ok.mp going
  obtain ⟨⟨status, progress⟩, answer, going⟩ := bind_eq_ok.mp going
  obtain ⟨mixed, saysMixed, going⟩ := bind_eq_ok.mp going
  refine ⟨status, progress, mixed, mapError_eq_ok.mp answer, mapError_eq_ok.mp saysMixed, ?_⟩
  unfold RebalanceTask.decideAfter at going
  split_ifs at going
  cases going
  rfl

theorem tracks_of_going (going : task.poll monitored before = .ok s) : Tracks task before s :=
  foldlM_reaches ⟨rfl, rfl, by simp [RebalanceTask.startPolling]⟩
    (fun behind t poll next tracks taken => by
      obtain ⟨status, progress, mixed, answer, saysMixed, rfl⟩ := pollStep_ok taken
      exact tracks.answered answer saysMixed) going

/-! ## Going on and giving up -/

/-- The number doubled at each mixed poll is the bound for at most one of them, and not below it else. -/
theorem lt_doubled_of_lt_bound {count : ℕ} (below : (count : ℤ) < task.bound before poll) :
    (count : ℤ) < task.retryGetProcessNum * 2 ^ mixedPolls before poll := by
  unfold RebalanceTask.bound at below
  cases times : mixedPolls before poll with
  | zero => simpa [times] using below
  | succ more =>
    rw [times, if_neg (Nat.succ_ne_zero more)] at below
    have positive : 0 < task.retryGetProcessNum := by omega
    have atLeastOne : (1 : ℤ) ≤ 2 ^ more := one_le_pow₀ (by norm_num)
    calc (count : ℤ) < 2 * task.retryGetProcessNum := below
      _ = task.retryGetProcessNum * 2 * 1 := by ring
      _ ≤ task.retryGetProcessNum * 2 * 2 ^ more := by gcongr
      _ = task.retryGetProcessNum * 2 ^ (more + 1) := by ring

/-- What a poll of a running rebalance does -/
theorem PollsAt.running_step (here : task.PollsAt monitored before poll s) (running : poll.Running) :
    ∃ next, task.pollStep monitored s poll =
      if (unchangedAt before poll : ℤ) < task.retryGetProcessNum * 2 ^ mixedPolls before poll then .ok next
      else if poll.printsLogs then
        .error (.stopped (.rebalanceFailed "seems like rebalance hangs. please check logs!"))
      else .error (.stopped .exception) := by
  obtain ⟨status, progress, answer, notDone, notNone⟩ := running
  obtain ⟨mixed, saysMixed⟩ := here.saysMixed
  have tracks := (tracks_of_going here.going).answered answer saysMixed
  refine ⟨(s.count progress).allow mixed, ?_⟩
  rw [pollStep_eq here.notShuffled answer saysMixed, RebalanceTask.decideAfter, if_pos ⟨notDone, notNone⟩,
    tracks.retryGetProgress, tracks.retryGetProcessNum]
  rfl

theorem pollingRight_iff : task.PollingRight answers ↔ task.HangsInTime answers := by
  unfold RebalanceTask.PollingRight RebalanceTask.HangsInTime
  refine forall₂_congr fun monitored _ => forall₅_congr fun before poll after s _ => ?_
  refine forall₂_congr fun here running => ?_
  obtain ⟨next, step⟩ := PollsAt.running_step here running
  rw [step]
  by_cases below : (unchangedAt before poll : ℤ) < task.bound before poll
  · simp [below, lt_doubled_of_lt_bound below, not_le.mpr below]
  · rw [if_neg below, ← not_lt, ← not_lt]
    by_cases doubled : (unchangedAt before poll : ℤ) < task.retryGetProcessNum * 2 ^ mixedPolls before poll
    · simp [below, doubled]
    · cases poll.printsLogs <;> simp [below, doubled]

/-! ## The end of the polls -/

theorem pollStep_finished_iff : task.pollStep monitored s poll = .error .finished ↔
    task.checkShuffling monitored poll = .ok () ∧ (∃ mixed, poll.clusterMixed = .ok mixed) ∧ poll.Finished := by
  constructor
  · intro finished
    cases shuffling : task.checkShuffling monitored poll with
    | error e => simp [RebalanceTask.pollStep, shuffling, Except.mapError, bind, Except.bind] at finished
    | ok _ =>
      cases answer : poll.answer with
      | error e => simp [RebalanceTask.pollStep, shuffling, answer, Except.mapError, bind, Except.bind] at finished
      | ok pair =>
        obtain ⟨status, progress⟩ := pair
        cases saysMixed : poll.clusterMixed with
        | error e =>
          simp [RebalanceTask.pollStep, shuffling, answer, saysMixed, Except.mapError, bind, Except.bind] at finished
        | ok mixed =>
          rw [pollStep_eq shuffling answer saysMixed, RebalanceTask.decideAfter] at finished
          refine ⟨rfl, ⟨mixed, rfl⟩, status, progress, answer, ?_⟩
          by_contra goesOn
          rw [not_or] at goesOn
          rw [if_pos goesOn] at finished
          split_ifs at finished <;> cases finished
  · intro found
    obtain ⟨notShuffled, ⟨mixed, saysMixed⟩, status, progress, answer, ended⟩ := found
    have done : ¬ (progress ≠ -1 ∧ status ≠ some "none") := by tauto
    rw [pollStep_eq notShuffled answer saysMixed, RebalanceTask.decideAfter, if_neg done]

theorem pollingEndsFinished_iff : task.PollingEndsFinished answers ↔
    ∃ monitored, task.prepare answers.preparation = .ok (some monitored) ∧
      task.poll monitored answers.polls = .error .finished := by
  refine exists_congr fun monitored => and_congr_right fun _ => ?_
  rw [RebalanceTask.poll, foldlM_ends_iff]
  refine exists₄_congr fun before poll after s => and_congr_right fun _ => ?_
  rw [pollStep_finished_iff]
  constructor
  · intro found
    exact ⟨found.1.going, found.1.notShuffled, found.1.saysMixed, found.2⟩
  · intro found
    obtain ⟨going, notShuffled, saysMixed, finished⟩ := found
    exact ⟨⟨going, notShuffled, saysMixed⟩, finished⟩

/-! ## Cleaning up -/

theorem roundsClean_error_iff {rounds : List Round} : (∃ e, roundsClean rounds = .error e) ↔
    ∃ before round after e, rounds = before ++ round :: after ∧
      (∀ earlier ∈ before, earlier.cleaned = .ok false) ∧ round.cleaned = .error e := by
  induction rounds with
  | nil => simp [roundsClean]
  | cons first rounds ih =>
    constructor
    · intro raised
      cases here : first.cleaned with
      | error e => exact ⟨[], first, rounds, e, rfl, by simp, here⟩
      | ok cleaned =>
        cases cleaned with
        | true => simp [roundsClean, here, bind, Except.bind, pure, Except.pure] at raised
        | false =>
          have later : ∃ e, roundsClean rounds = .error e := by
            simpa [roundsClean, here, bind, Except.bind] using raised
          obtain ⟨before, round, after, e, rfl, earlier, raises⟩ := ih.mp later
          exact ⟨first :: before, round, after, e, rfl, List.forall_mem_cons.mpr ⟨here, earlier⟩, raises⟩
    · intro found
      obtain ⟨before, round, after, e, same, earlier, raises⟩ := found
      cases before with
      | nil =>
        cases same
        exact ⟨e, by rw [roundsClean, raises]; rfl⟩
      | cons other before =>
        cases same
        obtain ⟨here, earlier⟩ := List.forall_mem_cons.mp earlier
        obtain ⟨e, later⟩ := ih.mpr ⟨before, round, after, e, rfl, earlier, raises⟩
        exact ⟨e, by rw [roundsClean, here]; exact later⟩

theorem visit_raises_iff {visit : Visit} : (∃ e, visit.cleaned = .error e) ↔ visit.Raises := by
  unfold Visit.cleaned Visit.Raises
  cases visit.connection <;> simp [roundsClean_error_iff]

/-- All nodes are visited exactly if no visit raises. -/
theorem cleanup_returns_iff : (∃ successCleaned, (task.removed answers).foldlM cleanNode [] = .ok successCleaned) ↔
    ∀ removed ∈ task.removed answers, ¬ removed.2.Raises := by
  have returns : ∀ {removed : Server × Visit}, ¬ removed.2.Raises → ∃ cleaned, removed.2.cleaned = .ok cleaned := by
    intro removed quiet
    rw [← visit_raises_iff] at quiet
    cases outcome : removed.2.cleaned with
    | error e => exact absurd ⟨e, outcome⟩ quiet
    | ok cleaned => exact ⟨cleaned, rfl⟩
  constructor
  · intro ⟨successCleaned, returned⟩
    refine forall_of_foldlM_ok returned ?_
    intro s removed next stepped raises
    obtain ⟨e, raised⟩ := visit_raises_iff.mpr raises
    simp [cleanNode, raised, bind, Except.bind] at stepped
  · intro quiet
    refine foldlM_returns ?_ []
    intro s removed member
    obtain ⟨cleaned, outcome⟩ := returns (quiet removed member)
    exact ⟨_, by rw [cleanNode, outcome]; rfl⟩

/-- The result is true whenever the polls end with a finished rebalance and no visit raises. -/
theorem call_result_iff : (∃ s, task.call answers = some s ∧ s.result = true) ↔
    task.PollingEndsFinished answers ∧ ∀ removed ∈ task.removed answers, ¬ removed.2.Raises := by
  rw [pollingEndsFinished_iff, ← cleanup_returns_iff]
  unfold RebalanceTask.call
  cases prepared : task.prepare answers.preparation with
  | error e => simp [TaskState.init]
  | ok triggered =>
    cases triggered with
    | none => simp [TaskState.init]
    | some monitored =>
      have same : ∀ other, (Except.ok (some monitored) : Except Stopped (Option (Option Vbuckets))) = .ok (some other) ↔
          other = monitored := by
        intro other
        simp [eq_comm]
      simp only [same, exists_eq_left]
      unfold RebalanceTask.check
      cases polled : task.poll monitored answers.polls with
      | ok s => simp
      | error ended =>
        cases ended with
        | stopped e => simp
        | finished =>
          cases visited : (task.removed answers).foldlM cleanNode [] with
          | error e => simp [RebalanceTask.checkCleaned, visited]
          | ok successCleaned =>
            simp only [RebalanceTask.checkCleaned, visited, Option.map_some]
            split_ifs <;> simp

theorem verdictRight_iff : task.VerdictRight answers ↔ task.CleansUp answers := by
  constructor
  · intro right finished quiet
    obtain ⟨s, called, success⟩ := call_result_iff.mpr ⟨finished, quiet⟩
    exact (right s called success).2
  · intro cleansUp s called success
    obtain ⟨finished, quiet⟩ := call_result_iff.mp ⟨s, called, success⟩
    exact ⟨finished, cleansUp finished quiet⟩

end

/-- The verdict and the polling are right exactly if the nodes are clean whenever the rebalance finishes, and
    no number doubled again keeps the polls going. -/
theorem rebalance_right_iff (task : RebalanceTask) (answers : Answers) :
    task.VerdictRight answers ∧ task.PollingRight answers ↔ task.CleansUp answers ∧ task.HangsInTime answers :=
  and_congr verdictRight_iff pollingRight_iff

/-- A node that cannot be reached after its removal is taken for a clean one. -/
theorem unreachable_node_passes :
    let node : Server := ⟨0, "10.0.0.2", "8091"⟩
    let task : RebalanceTask := ⟨[⟨1, "10.0.0.1", "8091"⟩], [], [node], [], true, 25⟩
    let preparation : Preparation :=
      ⟨.ok true, .error .exception, .ok ∅, .ok (), .ok true, .ok ()⟩
    let poll : Poll := ⟨.error .exception, .ok (some "none", 100), .ok false, true⟩
    let answers : Answers := ⟨preparation, [poll], fun _ => ⟨.unavailable, []⟩, false, true⟩
    ¬ (task.VerdictRight answers ∧ task.PollingRight answers) := by
  intro node task preparation poll answers right
  have reports := (right.1 _ rfl rfl).2 node (by simp [task])
  obtain ⟨visit, member, made, _⟩ := reports
  simp [RebalanceTask.removed, task, answers] at member
  rw [member] at made
  cases made

end Taf.Tasks.RebalanceVerdict
