import Taf.Bucket.Collection
import Taf.Tasks.Task

/-! # Loading from a spec

`MutateDocsFromSpecTask` cuts the range of every operation of its spec into
sub-tasks, runs them in the pool and waits for them.  Its result is read off the
failure dictionaries of the sub-tasks only.  What a sub-task meets in a batch is an
event: the client's call returns its failures or raises, something else in `next`
raises, or the future is cancelled and the thread interrupted. -/

namespace Taf.Tasks

open Taf.Lib Taf.Bucket

/-! ## The sub-tasks of a spec -/

inductive LoadOp where
  | doc (op : DocOp)
  | subDoc (op : SubDocOp)
  | contUpdate
  | contReplace
  deriving DecidableEq

/-- The entries of `op_data` that decide which sub-tasks are built and what they record. -/
structure LoadOpData where
  docGen : DocSource
  trackFailures : Option Bool
  iterations : Option Int

structure CollectionLoad where
  bucket : String
  scope : String
  collection : String
  ops : List (LoadOp × LoadOpData)

structure SubTask where
  bucket : String
  scope : String
  collection : String
  op : LoadOp
  generator : BatchedDocumentGenerator
  reqIterations : Int
  trackFailures : Bool

structure MutateDocsFromSpecTask where
  loaderSpec : List CollectionLoad
  processConcurrency : Int
  batchSize : Int
  trackFailures : Bool

/-- `range(start, stop, step)` for a positive step. -/
def pyRange (start stop : Int) (step : Nat) : List Int :=
  (List.range (((stop - start).toNat + step - 1) / step)).map fun i => start + (step * i : Nat)

/-- The partitions of a generator; `none` when the division or the constructor of the first
    partition's batches raises. -/
def partitionGens (processConcurrency batchSize : Int) (gen : DocSource) :
    Option (List BatchedDocumentGenerator) :=
  if processConcurrency = 0 then none
  else
    let genRange := (max ((gen.stop - gen.start).fdiv processConcurrency) 1).toNat
    let starts := pyRange gen.start gen.stop genRange
    if positive : 0 < batchSize.toNat then
      some (starts.map fun pos =>
        ⟨{ gen with start := pos, stop := min (pos + genRange) gen.stop }, batchSize.toNat, positive⟩)
    else if starts.isEmpty then some []
    else none

/-- The requested iterations: `LoadSubDocumentsTask` is built without them. -/
def LoadOp.iterations (op : LoadOp) (opData : LoadOpData) : Int :=
  match op with
  | .subDoc _ => 1
  | _ => opData.iterations.getD 1

/-- The operations for which `create_tasks_for_collections` has a branch. -/
def LoadOp.hasTask : LoadOp → Bool
  | .subDoc op => op ∈ subDocOps
  | _ => true

namespace MutateDocsFromSpecTask

variable (task : MutateDocsFromSpecTask)

/-- `create_tasks_for_collections`: it runs in a thread of its own, so an exception leaves the
    remaining operations of the collection without sub-tasks. -/
def createTasksForCollections (load : CollectionLoad) : List (LoadOp × LoadOpData) → List SubTask
  | [] => []
  | (op, opData) :: ops =>
    match partitionGens task.processConcurrency task.batchSize opData.docGen with
    | none => []
    | some generators =>
      let tasks :=
        if op.hasTask then
          generators.map fun generator =>
            { bucket := load.bucket
              scope := load.scope
              collection := load.collection
              op := op
              generator := generator
              reqIterations := op.iterations opData
              trackFailures := opData.trackFailures.getD task.trackFailures }
        else []
      tasks ++ createTasksForCollections load ops

def getTasks : List SubTask :=
  task.loaderSpec.flatMap fun load => task.createTasksForCollections load load.ops

end MutateDocsFromSpecTask

/-! ## One sub-task -/

inductive BatchEvent where
  -- The call of the client returns; `fail` are the keys that failed.
  | returned (fail : List String)
  | callRaised (raised : Raised)
  -- An exception elsewhere in `next`, before anything of the batch is recorded.
  | aborted
  | cancelled

/-- What the sub-tasks of a run meet: in every round the event of every batch, and for
    `iterations = -1` the number of rounds until `end_task`. -/
structure Behaviour where
  stopAfter : SubTask → Nat
  event : SubTask → Nat → Nat → BatchEvent

structure LoadState where
  docsLoaded : Nat := 0
  fail : List String := []

/-- `batch_create`, `batch_update` and `batch_replace` log an exception of the client and return
    what they have, which is nothing; the other batch functions let it out. -/
def LoadOp.swallows : LoadOp → Bool
  | .doc .create | .doc .update | .doc .replace | .contUpdate | .contReplace => true
  | _ => false

namespace SubTask

variable (interp : Interpreter) (behaviour : Behaviour) (t : SubTask)

def loaded (state : LoadState) (batch : List Int) (fail : List String) : LoadState where
  docsLoaded := state.docsLoaded + batch.length
  fail := if t.trackFailures then state.fail ++ fail else state.fail

/-- `LoadDocumentsTask.next` and `LoadSubDocumentsTask.next`; an error is the end of the task with
    the state it leaves. -/
def next (state : LoadState) : List Int × BatchEvent → Except (LoadState × TaskEnd) LoadState
  | (batch, .returned fail) => .ok (t.loaded state batch fail)
  | (batch, .callRaised raised) =>
    if t.op.swallows && interp.exceptException raised then .ok (t.loaded state batch [])
    else .error (state, .raised)
  | (_, .aborted) => .error (state, .raised)
  | (_, .cancelled) => .error (state, .cancelled)

def rounds : Nat := Tasks.rounds t.reqIterations (behaviour.stopAfter t)

def planned : List (List (List Int × BatchEvent)) :=
  (List.range (t.rounds behaviour)).map fun round =>
    t.generator.batches.zipIdx.map fun batch => (batch.1, behaviour.event t round batch.2)

def run : LoadState × TaskEnd :=
  match GenericLoadingTask.call (t.next interp) (t.planned behaviour) {} with
  | .ok state => (state, .returned)
  | .error ended => ended

end SubTask

/-! ## Waiting for the sub-tasks -/

/-- `__wait_for_task_completion`.  The `finally` block looks at `task.fail` whatever happened; an
    exception that `except Exception` does not match leaves the loop and the whole `call`. The
    wait of up to 60 s for missing documents changes nothing. -/
def waitForTaskCompletion (interp : Interpreter) :
    Bool → List (LoadState × TaskEnd) → Except Raised Bool
  | result, [] => .ok result
  | result, (state, ended) :: tasks =>
    let result := result && state.fail.isEmpty
    match getTaskResult ended with
    | .ok _ => waitForTaskCompletion interp result tasks
    | .error raised =>
      if interp.exceptException raised then waitForTaskCompletion interp result tasks
      else .error raised

inductive TaskGroup where
  | loadGen
  | loadSubdocGen
  | contLoadGen
  deriving DecidableEq

def LoadOp.group : LoadOp → TaskGroup
  | .doc _ => .loadGen
  | .subDoc _ => .loadSubdocGen
  | _ => .contLoadGen

namespace MutateDocsFromSpecTask

variable (interp : Interpreter) (behaviour : Behaviour) (task : MutateDocsFromSpecTask)

def groupRuns (group : TaskGroup) : List (LoadState × TaskEnd) :=
  (task.getTasks.filter fun t => t.op.group = group).map (SubTask.run interp behaviour)

def call : Except Raised Bool := do
  let result ← waitForTaskCompletion interp true (task.groupRuns interp behaviour .loadGen)
  let result ← waitForTaskCompletion interp result (task.groupRuns interp behaviour .loadSubdocGen)
  waitForTaskCompletion interp result (task.groupRuns interp behaviour .contLoadGen)

end MutateDocsFromSpecTask

end Taf.Tasks
