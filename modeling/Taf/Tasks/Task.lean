import Taf.Lib.Run
import Taf.Lib.PyJson

/-! # Tasks, their futures, and the loading loop

`Task`, `TaskManager` and `GenericLoadingTask` of `Jython_tasks`.  A task runs in a
pool thread and hands an exception over through its future, so whether the waiting
code notices it depends on what `except Exception` matches there.  Python's own
exceptions are matched, the `BaseException` of `Task.set_exception` is not.  For the
Java exceptions that `Future.get` throws this is left open: `Interpreter` is a
parameter of everything that waits for a task, and the results hold for both kinds. -/

namespace Taf.Tasks

open Taf.Lib

/-! ## Exceptions -/

inductive Raised where
  -- A subclass of Python's `Exception`.
  | exception
  -- The `BaseException` that `Task.set_exception` raises.
  | base
  -- Thrown by a Java method.
  | java
  deriving DecidableEq

structure Interpreter where
  catchesJava : Bool
  deriving DecidableEq

/-- `except Exception` matches what was raised. -/
def Interpreter.exceptException (interp : Interpreter) : Raised → Bool
  | .exception => true
  | .base => false
  | .java => interp.catchesJava

/-! ## Futures -/

inductive TaskEnd where
  | returned
  | raised
  | cancelled
  deriving DecidableEq

/-- `TaskManager.get_task_result`: an exception of the task comes out of `Future.get` as
    a Java `ExecutionException`; a `CancellationException` is caught and only logged. -/
def getTaskResult : TaskEnd → Except Raised Unit
  | .returned => .ok ()
  | .raised => .error .java
  | .cancelled => .ok ()

/-! ## `BatchedDocumentGenerator` -/

section Batches

variable {α : Type*}

/-- `while has_next(): next_batch()` over what is left; every round takes at least one element,
    so the length of the list is fuel enough. -/
def batchesOf (batchSize : Nat) : Nat → List α → List (List α)
  | 0, _ => []
  | _ + 1, [] => []
  | fuel + 1, first :: rest =>
    (first :: rest).take batchSize :: batchesOf batchSize fuel ((first :: rest).drop batchSize)

theorem batchesOf_flatten {batchSize : Nat} (positive : 0 < batchSize) (fuel : Nat)
    (left : List α) (enough : left.length ≤ fuel) :
    (batchesOf batchSize fuel left).flatten = left := by
  induction fuel generalizing left with
  | zero =>
    have empty : left = [] := List.length_eq_zero_iff.mp (Nat.le_zero.mp enough)
    subst empty
    rfl
  | succ fuel ih =>
    cases left with
    | nil => rfl
    | cons first rest =>
      have shorter : ((first :: rest).drop batchSize).length ≤ fuel := by
        rw [List.length_drop]
        omega
      rw [batchesOf, List.flatten_cons, ih _ shorter, List.take_append_drop]

theorem ne_nil_of_mem_batchesOf {batchSize : Nat} (positive : 0 < batchSize) (fuel : Nat)
    (left : List α) {batch : List α} (member : batch ∈ batchesOf batchSize fuel left) :
    batch ≠ [] := by
  induction fuel generalizing left with
  | zero => cases member
  | succ fuel ih =>
    cases left with
    | nil => cases member
    | cons first rest =>
      cases member with
      | head =>
        rw [← List.length_pos_iff, List.length_take]
        simp [positive]
      | tail _ member => exact ih _ member

end Batches

/-- A document generator as its batches see it: the index runs from `start` to `end`, and a
    document has a key and a value, here what `Json.loads` makes of it (`none` if it raises). -/
structure DocSource where
  start : Int
  -- The source's `end`.
  stop : Int
  key : Int → String
  value : Int → Option PyDict
  deepCopy : Bool

/-- `BatchedDocumentGenerator`: its constructor refuses a batch size that is not positive. -/
structure BatchedDocumentGenerator where
  docGen : DocSource
  batchSize : Nat
  positive : 0 < batchSize

namespace BatchedDocumentGenerator

variable (g : BatchedDocumentGenerator)

def indices : List Int :=
  (List.range (g.docGen.stop - g.docGen.start).toNat).map fun offset => g.docGen.start + offset

def batches : List (List Int) :=
  batchesOf g.batchSize g.indices.length g.indices

/-- `next_batch` on the indices it takes: without `deep_copy` a value is generated for the first
    document only and stands for all of the batch; with `skip_value` it is the empty string. -/
def nextBatch (skipValue : Bool) (batch : List Int) : List (String × Option PyDict) :=
  if g.docGen.deepCopy then batch.map fun index => (g.docGen.key index, g.docGen.value index)
  else
    let value := if skipValue then none else batch.head?.bind g.docGen.value
    batch.map fun index => (g.docGen.key index, value)

@[simp] theorem length_indices : g.indices.length = (g.docGen.stop - g.docGen.start).toNat := by
  simp [indices]

theorem batches_flatten : g.batches.flatten = g.indices :=
  batchesOf_flatten g.positive _ _ le_rfl

theorem nextBatch_keys (skipValue : Bool) (batch : List Int) :
    (g.nextBatch skipValue batch).map Prod.fst = batch.map g.docGen.key := by
  unfold nextBatch
  split_ifs <;> simp

end BatchedDocumentGenerator

/-! ## `GenericLoadingTask` -/

/-- How often `call` goes through its generator: `-1` runs until `end_task`, here after `stopAfter`
    rounds; any other number runs at least once, since the count is compared after the increment. -/
def rounds (reqIterations : Int) (stopAfter : Nat) : Nat :=
  if reqIterations = -1 then stopAfter else max 1 reqIterations.toNat

/-- `GenericLoadingTask.call`: the batches of all rounds one after the other, until one of them
    raises; `set_exception` then raises again out of the task. -/
def GenericLoadingTask.call {σ β ε : Type*} (next : σ → β → Except ε σ) (batches : List (List β))
    (s : σ) : Except ε σ :=
  batches.foldlM (fun s round => round.foldlM next s) s

theorem GenericLoadingTask.call_eq_foldlM {σ β ε : Type*} (next : σ → β → Except ε σ)
    (batches : List (List β)) (s : σ) :
    GenericLoadingTask.call next batches s = batches.flatten.foldlM next s := by
  induction batches generalizing s with
  | nil => rfl
  | cons round batches ih =>
    rw [List.flatten_cons, List.foldlM_append, GenericLoadingTask.call, List.foldlM_cons]
    refine congrArg _ (funext fun next => ?_)
    exact ih next

end Taf.Tasks
