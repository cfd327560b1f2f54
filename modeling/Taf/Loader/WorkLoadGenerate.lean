import Taf.Lib.Window
import Taf.Loader.SharedGenerator

/-! # The main loop of a loader task

`WorkLoadGenerate.run` takes a batch of every kind of operation in each round, with a
client of the pool, until a round adds nothing to its `int` counter of operations.  What
it meets outside (answers of the bulk operations, the verdict of the validation,
`stop_work_load`) is given per round.  After the loop the failed mutations are retried. -/

namespace Taf.Loader

open Taf.Lib

/-! ## Batches -/

/-- `while has_next() && count < req_count`, with `left` documents still wanted.  The value
    of the iterator is always the last index handed out. -/
def nextBatch (e : Int64) : Nat → Int64 → List Int64
  | 0, _ => []
  | left + 1, itr => if itr < e then (itr + 1) :: nextBatch e left (itr + 1) else []

/-- A batch takes what is wanted, or what is left of the range. -/
theorem nextBatch_spec (e : Int64) (wanted : Nat) (itr : Int64) :
    ∃ count, count = min wanted (e.toInt - itr.toInt).toNat ∧
      (nextBatch e wanted itr).map Int64.toInt = window (itr.toInt + 1) count ∧
      ((nextBatch e wanted itr).getLastD itr).toInt = itr.toInt + count := by
  refine ⟨_, rfl, ?_⟩
  induction wanted generalizing itr with
  | zero => simp [nextBatch]
  | succ wanted ih =>
    by_cases hasNext : itr < e
    · have next := toInt_add_one hasNext
      have below := Int64.lt_iff_toInt_lt.mp hasNext
      obtain ⟨indices, last⟩ := ih (itr + 1)
      have count : min (wanted + 1) (e.toInt - itr.toInt).toNat =
          min wanted (e.toInt - (itr + 1).toInt).toNat + 1 := by omega
      rw [nextBatch, if_pos hasNext, count, window_succ, List.map_cons, indices, next,
        List.getLastD_cons, last, next]
      exact ⟨rfl, by omega⟩
    · have past : min (wanted + 1) (e.toInt - itr.toInt).toNat = 0 := by
        rw [Int64.lt_iff_toInt_lt] at hasNext
        omega
      rw [nextBatch, if_neg hasNext, past]
      simp

theorem nextBatch_eq_nil {e itr : Int64} {wanted : Nat} :
    nextBatch e wanted itr = [] ↔ wanted = 0 ∨ e ≤ itr := by
  cases wanted with
  | zero => simp [nextBatch]
  | succ wanted =>
    by_cases hasNext : itr < e
    · simp [nextBatch, hasNext, Int64.not_le.mpr hasNext]
    · simp [nextBatch, hasNext, Int64.not_lt.mp hasNext]

/-! ## The loop -/

inductive PoolEvent where
  | acquire
  | release
  deriving DecidableEq

structure RunState where
  itr : OpType → Int64
  -- The indices that were handed to a bulk operation.
  handed : OpType → List Int64 := fun _ => []
  ops : Int32 := 0
  flag : Bool := false
  -- How many results are kept under each key of `failedMutations`.
  failedMutations : OpType → Nat := fun _ => 0
  -- The calls of the client pool, first to last.
  events : List PoolEvent := []

/-- What a round meets. -/
structure Round where
  -- `stop_loading` when the round begins.
  stop : Bool := false
  -- The bulk operation is left by an exception.
  throws : OpType → Bool := fun _ => false
  -- How many failed results the bulk operation answers with.
  failures : OpType → Nat := fun _ => 0
  -- Some document that was read is not the expected one.
  validationFails : Bool := false

inductive LoopEnd where
  | left
  | validationFailed
  | threw
  deriving DecidableEq

def RunState.start (ws : WorkLoadSettings) : RunState := { itr := ws.dr.s }

def RunState.event (st : RunState) (event : PoolEvent) : RunState :=
  { st with events := st.events ++ [event] }

@[simp] theorem RunState.event_ops (st : RunState) (event : PoolEvent) :
    (st.event event).ops = st.ops := rfl

@[simp] theorem RunState.event_events (st : RunState) (event : PoolEvent) :
    (st.event event).events = st.events ++ [event] := rfl

/-- The documents of an operation in this round. -/
def RunState.docs (ws : WorkLoadSettings) (st : RunState) (op : OpType) : List Int64 :=
  nextBatch (ws.dr.e op) (ws.reqCount op).toInt.toNat (st.itr op)

/-- A batch is generated and handed over. -/
def RunState.take (ws : WorkLoadSettings) (st : RunState) (op : OpType) : RunState :=
  { st with
    itr := Function.update st.itr op ((st.docs ws op).getLastD (st.itr op))
    handed := Function.update st.handed op (st.handed op ++ st.docs ws op)
    flag := true }

/-- The part of a round that is for one kind of operation.  Results are compared before the
    reads are counted, and a failed comparison gives the client back. -/
def runOp (ws : WorkLoadSettings) (trackFailures : Bool) (round : Round) (st : RunState)
    (op : OpType) : Except (LoopEnd × RunState) RunState :=
  if ws.percent op > 0 ∧ st.docs ws op ≠ [] then
    let taken := st.take ws op
    let counted := { taken with ops := taken.ops + ws.reqCount op }
    if round.throws op then .error (.threw, taken)
    else if op = .read then
      if ws.validate && round.validationFails then
        .error (.validationFailed, taken.event .release)
      else .ok counted
    else if trackFailures then
      .ok { counted with
        failedMutations := Function.update counted.failedMutations op
          (counted.failedMutations op + round.failures op) }
    else .ok counted
  else .ok st

def opOrder : List OpType := [.create, .update, .expiry, .delete, .read]

/-- `while (! this.stop_loading)`; after `ops == 0` the flag is set and the loop is left. -/
def mainLoop (ws : WorkLoadSettings) (trackFailures : Bool) (rounds : Nat → Round) :
    Nat → Nat → RunState → Option (LoopEnd × RunState)
  | 0, _, _ => none
  | fuel + 1, n, st =>
    if (rounds n).stop then some (.left, st)
    else
      match opOrder.foldlM (runOp ws trackFailures (rounds n)) (st.event .acquire) with
      | .error ended => some ended
      | .ok done =>
        let st := done.event .release
        if st.ops = 0 then some (.left, st)
        else if st.ops < ws.batchSize ∧ st.flag then
          mainLoop ws trackFailures rounds fuel (n + 1) { st with flag := false }
        else mainLoop ws trackFailures rounds fuel (n + 1) { st with ops := 0 }

section Rounds

variable {ws : WorkLoadSettings} {round : Round} {next : RunState} {op : OpType} {trackFailures : Bool} {rounds : Nat → Round} {fuel n : Nat}
  {st done : RunState}

/-- An operation that the round gets through takes nothing, or a batch that it counts. -/
theorem runOp_cases (passed : runOp ws trackFailures round st op = .ok next) :
    (¬ (ws.percent op > 0 ∧ st.docs ws op ≠ []) ∧ next = st) ∨
    (ws.percent op > 0 ∧ st.docs ws op ≠ [] ∧ ∃ failed,
      next = { st.take ws op with ops := st.ops + ws.reqCount op, failedMutations := failed }) := by
  simp only [runOp] at passed
  by_cases takes : ws.percent op > 0 ∧ st.docs ws op ≠ []
  · rw [if_pos takes] at passed
    refine .inr ⟨takes.1, takes.2, ?_⟩
    split at passed
    · cases passed
    split at passed
    · split at passed
      · cases passed
      · cases passed
        exact ⟨_, rfl⟩
    · split at passed
      · cases passed
        exact ⟨_, rfl⟩
      · cases passed
        exact ⟨_, rfl⟩
  · rw [if_neg takes] at passed
    cases passed
    exact .inl ⟨takes, rfl⟩

/-- An operation that ends the run throws with the client in hand, or has given it back. -/
theorem runOp_aborted {ended : LoopEnd × RunState}
    (aborted : runOp ws trackFailures round st op = .error ended) :
    (round.throws op = true ∧ ended.1 = .threw ∧ ended.2.events = st.events) ∨
    (round.validationFails = true ∧ ended.1 = .validationFailed ∧
      ended.2.events = st.events ++ [.release]) := by
  simp only [runOp] at aborted
  split at aborted
  · split at aborted
    · rename_i throws
      cases aborted
      exact .inl ⟨throws, rfl, rfl⟩
    split at aborted
    · split at aborted
      · rename_i fails
        cases aborted
        exact .inr ⟨(Bool.and_eq_true_iff.mp fails).2, rfl, rfl⟩
      · cases aborted
    · split at aborted
      · cases aborted
      · cases aborted
  · cases aborted

/-- The batches of a round do not touch the client pool. -/
theorem runOp_events (passed : runOp ws trackFailures round st op = .ok next) :
    next.events = st.events := by
  obtain ⟨_, rfl⟩ | ⟨_, _, failed, rfl⟩ := runOp_cases passed
  · rfl
  · rfl

theorem round_events {ops : List OpType}
    (passed : ops.foldlM (runOp ws trackFailures round) st = .ok next) :
    next.events = st.events :=
  @foldlM_invariant _ _ _ _ _ (fun s => s.events = st.events) _ _ passed
    (fun _ _ _ this soFar => (runOp_events this).trans soFar) rfl

theorem round_aborted {ops : List OpType} {ended : LoopEnd × RunState}
    (aborted : ops.foldlM (runOp ws trackFailures round) st = .error ended) :
    ((∃ op, round.throws op = true) ∧ ended.1 = .threw ∧ ended.2.events = st.events) ∨
    (round.validationFails = true ∧ ended.1 = .validationFailed ∧
      ended.2.events = st.events ++ [.release]) := by
  obtain ⟨middle, op, -, same, this⟩ := @foldlM_raised _ _ _ _ _ (fun s => s.events = st.events)
    _ _ aborted (fun _ _ _ this soFar => (runOp_events this).trans soFar) rfl
  rw [← same]
  obtain ⟨throws, kind, events⟩ | failed := runOp_aborted this
  · exact .inl ⟨⟨op, throws⟩, kind, events⟩
  · exact .inr failed

theorem mainLoop_stop (stopped : (rounds n).stop = true) :
    mainLoop ws trackFailures rounds (fuel + 1) n st = some (.left, st) := by
  rw [mainLoop, if_pos stopped]

theorem mainLoop_error (running : (rounds n).stop ≠ true) {ended : LoopEnd × RunState}
    (aborted : opOrder.foldlM (runOp ws trackFailures (rounds n)) (st.event .acquire) =
      .error ended) :
    mainLoop ws trackFailures rounds (fuel + 1) n st = some ended := by
  rw [mainLoop, if_neg running, aborted]

/-- After a round that came through, the counter decides how the loop goes on. -/
theorem mainLoop_ok (running : (rounds n).stop ≠ true)
    (passed : opOrder.foldlM (runOp ws trackFailures (rounds n)) (st.event .acquire) = .ok done) :
    mainLoop ws trackFailures rounds (fuel + 1) n st =
      if done.ops = 0 then some (.left, done.event .release)
      else if done.ops < ws.batchSize ∧ done.flag = true then
        mainLoop ws trackFailures rounds fuel (n + 1) { done.event .release with flag := false }
      else mainLoop ws trackFailures rounds fuel (n + 1) { done.event .release with ops := 0 } := by
  rw [mainLoop, if_neg running, passed]
  rfl

end Rounds

end Taf.Loader
