import Taf.Lib.Run

/-! # The document generator of the Java loader

`Loader.main` hands one `DocumentGenerator` to all its workers.  `has_next_create` reads
the atomic iterator and `next` increments it, each atomic on its own, so a schedule of the
workers is a list of their numbers and a worker is either before the test or between the
test and the increment.  The counters are Java's `int` and `long`. -/

namespace Taf.Loader

open Taf.Lib

/-! ## Settings -/

inductive OpType where
  | create
  | update
  | expiry
  | delete
  | read
  deriving DecidableEq

/-- `DocRange`: an operation takes the indices from `s + 1` to `e`. -/
structure DocRange where
  s : OpType → Int64 := fun _ => 0
  e : OpType → Int64 := fun _ => 0

structure WorkLoadSettings where
  workers : Int32
  ops : Int32
  -- The fields `creates`, `updates`, `expiry`, `deletes` and `reads`.
  percent : OpType → Int32 := fun _ => 0
  dr : DocRange := {}
  validate : Bool := false

namespace WorkLoadSettings

variable (ws : WorkLoadSettings)

def batchSize : Int32 := ws.ops / ws.workers

/-- `req_count` of the batch methods of the generator. -/
def reqCount (op : OpType) : Int32 := ws.batchSize * ws.percent op / 100

end WorkLoadSettings

/-- The iterator is below the end of its range, so the increment cannot overflow. -/
theorem toInt_add_one {itr e : Int64} (below : itr < e) : (itr + 1).toInt = itr.toInt + 1 := by
  rw [Int64.lt_iff_toInt_lt] at below
  have upper := e.toInt_lt
  have lower := itr.le_toInt
  rw [Int64.toInt_add, Int64.toInt_one]
  exact Int.bmod_eq_of_le (by omega) (by omega)

/-! ## Workers that share a generator -/

/-- Where a worker is in the loop of `nextInsertBatch`, after `count` documents. -/
inductive Worker where
  | head (count : Nat)
  | tested (count : Nat)
  deriving DecidableEq

structure SharedGenerator where
  createItr : Int64
  workers : Nat → Worker
  -- The indices that `next` has returned, first to last.
  issued : List Int64

def SharedGenerator.start (ws : WorkLoadSettings) : SharedGenerator :=
  ⟨ws.dr.s .create, fun _ => .head 0, []⟩

/-- One atomic step of a worker.  A batch that is over is followed by the next one. -/
def SharedGenerator.step (ws : WorkLoadSettings) (g : SharedGenerator) (worker : Nat) :
    SharedGenerator :=
  if ws.percent .create > 0 then
    match g.workers worker with
    | .head count =>
      if g.createItr < ws.dr.e .create ∧ (count : Int) < (ws.reqCount .create).toInt then
        { g with workers := Function.update g.workers worker (.tested count) }
      else { g with workers := Function.update g.workers worker (.head 0) }
    | .tested count =>
      { createItr := g.createItr + 1
        workers := Function.update g.workers worker (.head (count + 1))
        issued := g.issued ++ [g.createItr + 1] }
  else g

/-- The tasks are numbered from `0` to `ws.workers - 1`. -/
def Schedule (ws : WorkLoadSettings) (schedule : List Nat) : Prop :=
  ∀ worker ∈ schedule, (worker : Int) < ws.workers.toInt

/-- No index twice, and none outside the range. -/
structure SharedGenerator.Safe (ws : WorkLoadSettings) (g : SharedGenerator) : Prop where
  nodup : g.issued.Nodup
  inRange : ∀ index ∈ g.issued, ws.dr.s .create < index ∧ index ≤ ws.dr.e .create

namespace SharedGenerator

variable {ws : WorkLoadSettings} {g : SharedGenerator}

/-! ### One step -/

theorem step_test (creates : ws.percent .create > 0) {worker count : Nat}
    (head : g.workers worker = .head count) (hasNext : g.createItr < ws.dr.e .create)
    (wanted : (count : Int) < (ws.reqCount .create).toInt) :
    g.step ws worker = { g with workers := Function.update g.workers worker (.tested count) } := by
  simp [step, creates, head, hasNext, wanted]

theorem step_batch_done {worker count : Nat} (head : g.workers worker = .head count)
    (done : ¬ (g.createItr < ws.dr.e .create ∧ (count : Int) < (ws.reqCount .create).toInt))
    (creates : ws.percent .create > 0) :
    g.step ws worker = { g with workers := Function.update g.workers worker (.head 0) } := by
  simp only [step, creates, head, done, if_true, if_false]

theorem step_issue (creates : ws.percent .create > 0) {worker count : Nat}
    (tested : g.workers worker = .tested count) :
    g.step ws worker =
      { createItr := g.createItr + 1
        workers := Function.update g.workers worker (.head (count + 1))
        issued := g.issued ++ [g.createItr + 1] } := by
  simp [step, creates, tested]

/-! ### Nothing to issue -/

/-- All workers are before the test and nothing was issued. -/
structure Idle (g : SharedGenerator) : Prop where
  heads : ∀ worker, ∃ count, g.workers worker = .head count
  issued : g.issued = []

theorem Idle.step (idle : g.Idle) (start : g.createItr = ws.dr.s .create)
    (nothing : ws.dr.e .create ≤ ws.dr.s .create ∨ ws.percent .create ≤ 0 ∨
      ws.reqCount .create ≤ 0) (worker : Nat) :
    (g.step ws worker).Idle ∧ (g.step ws worker).createItr = ws.dr.s .create := by
  by_cases creates : ws.percent .create > 0
  · obtain ⟨count, head⟩ := idle.heads worker
    have done : ¬ (g.createItr < ws.dr.e .create ∧
        (count : Int) < (ws.reqCount .create).toInt) := by
      simp only [gt_iff_lt, Int32.lt_iff_toInt_lt, Int32.le_iff_toInt_le, Int64.lt_iff_toInt_lt,
        Int64.le_iff_toInt_le, Int32.toInt_zero, start] at nothing creates ⊢
      omega
    rw [step_batch_done head done creates]
    refine ⟨⟨?_, idle.issued⟩, start⟩
    intro other
    by_cases same : other = worker
    · exact ⟨0, by simp [same]⟩
    · obtain ⟨otherCount, otherHead⟩ := idle.heads other
      exact ⟨otherCount, by simp [Function.update_of_ne same, otherHead]⟩
  · have unchanged : g.step ws worker = g := by simp [SharedGenerator.step, creates]
    rw [unchanged]
    exact ⟨idle, start⟩

theorem run_idle (nothing : ws.dr.e .create ≤ ws.dr.s .create ∨ ws.percent .create ≤ 0 ∨
    ws.reqCount .create ≤ 0) (schedule : List Nat) :
    (run (SharedGenerator.step ws) (start ws) schedule).Idle := by
  have reached := @run_invariant _ _ (SharedGenerator.step ws)
    (fun g => g.Idle ∧ g.createItr = ws.dr.s .create)
    (fun g worker ⟨idle, itr⟩ => idle.step itr nothing worker) (start ws)
    ⟨⟨fun _ => ⟨0, rfl⟩, rfl⟩, rfl⟩ schedule
  exact reached.1

/-! ### One worker -/

/-- What a worker that is alone keeps: a test that was passed still holds at the increment. -/
structure Alone (ws : WorkLoadSettings) (g : SharedGenerator) : Prop where
  increasing : g.issued.Pairwise (· < ·)
  inRange : ∀ index ∈ g.issued, ws.dr.s .create < index ∧ index ≤ g.createItr
  started : ws.dr.s .create ≤ g.createItr
  bounded : g.createItr ≤ ws.dr.e .create
  tested : ∀ count, g.workers 0 = .tested count → g.createItr < ws.dr.e .create

theorem Alone.step (alone : g.Alone ws) : (g.step ws 0).Alone ws := by
  by_cases creates : ws.percent .create > 0
  swap
  · have unchanged : g.step ws 0 = g := by simp [SharedGenerator.step, creates]
    rw [unchanged]
    exact alone
  cases position : g.workers 0 with
  | head count =>
    by_cases more : g.createItr < ws.dr.e .create ∧ (count : Int) < (ws.reqCount .create).toInt
    · rw [step_test creates position more.1 more.2]
      exact { alone with tested := fun _ _ => more.1 }
    · rw [step_batch_done position more creates]
      exact { alone with tested := by simp }
  | tested count =>
    rw [step_issue creates position]
    have below := alone.tested count position
    have next := toInt_add_one below
    have started := alone.started
    simp only [Int64.lt_iff_toInt_lt, Int64.le_iff_toInt_le] at below started
    exact
      { increasing := by
          refine List.pairwise_append.mpr ⟨alone.increasing, List.pairwise_singleton _ _, ?_⟩
          intro old issued new isNew
          have bound := (alone.inRange old issued).2
          rw [List.mem_singleton.mp isNew]
          rw [Int64.le_iff_toInt_le] at bound
          rw [Int64.lt_iff_toInt_lt]
          omega
        inRange := by
          intro index issued
          cases List.mem_append.mp issued with
          | inl old =>
            obtain ⟨lower, upper⟩ := alone.inRange index old
            refine ⟨lower, ?_⟩
            simp only [Int64.le_iff_toInt_le] at upper ⊢
            omega
          | inr new =>
            rw [List.mem_singleton.mp new]
            simp only [Int64.lt_iff_toInt_lt, Int64.le_iff_toInt_le]
            omega
        started := by
          simp only [Int64.le_iff_toInt_le]
          omega
        bounded := by
          simp only [Int64.le_iff_toInt_le]
          omega
        tested := by simp }

theorem Alone.safe (alone : g.Alone ws) : g.Safe ws where
  nodup := by
    refine alone.increasing.imp ?_
    intro one other less same
    rw [same, Int64.lt_iff_toInt_lt] at less
    omega
  inRange := by
    intro index issued
    obtain ⟨lower, upper⟩ := alone.inRange index issued
    have bounded := alone.bounded
    refine ⟨lower, ?_⟩
    simp only [Int64.le_iff_toInt_le] at upper bounded ⊢
    omega

theorem run_alone (ordered : ws.dr.s .create ≤ ws.dr.e .create) {schedule : List Nat}
    (only : ∀ worker ∈ schedule, worker = 0) :
    (run (SharedGenerator.step ws) (start ws) schedule).Alone ws := by
  have begun : (start ws).Alone ws :=
    { increasing := List.Pairwise.nil
      inRange := by simp [start]
      started := Int64.le_refl _
      bounded := ordered
      tested := by simp [start] }
  revert begun
  generalize start ws = g
  induction schedule generalizing g with
  | nil => exact id
  | cons worker schedule ih =>
    intro alone
    rw [run_cons, only worker List.mem_cons_self]
    exact ih (fun other later => only other (List.mem_cons_of_mem _ later)) _ alone.step

/-! ### Two workers -/

/-- A worker before the test can go through it as long as there is an index left, if need
    be in its next batch. -/
theorem reach_tested (creates : ws.percent .create > 0) (wanted : 0 < (ws.reqCount .create).toInt)
    {worker count : Nat} (head : g.workers worker = .head count)
    (hasNext : g.createItr < ws.dr.e .create) :
    ∃ schedule, (∀ other ∈ schedule, other = worker) ∧ ∃ tested,
      run (SharedGenerator.step ws) g schedule =
        { g with workers := Function.update g.workers worker (.tested tested) } := by
  by_cases room : (count : Int) < (ws.reqCount .create).toInt
  · exact ⟨[worker], by simp, count, step_test creates head hasNext room⟩
  · refine ⟨[worker, worker], by simp, 0, ?_⟩
    have done : ¬ (g.createItr < ws.dr.e .create ∧ (count : Int) < (ws.reqCount .create).toInt) :=
      fun both => room both.2
    have nextHead : ({ g with workers := Function.update g.workers worker (.head 0) } :
        SharedGenerator).workers worker = .head 0 := Function.update_self ..
    rw [run_cons, step_batch_done head done creates, run_cons,
      step_test creates nextHead hasNext (by simpa using wanted), run_nil, Function.update_idem]

/-- A worker takes the next index. -/
theorem reach_issued (creates : ws.percent .create > 0) (wanted : 0 < (ws.reqCount .create).toInt)
    {worker count : Nat} (head : g.workers worker = .head count)
    (hasNext : g.createItr < ws.dr.e .create) :
    ∃ schedule, (∀ other ∈ schedule, other = worker) ∧ ∃ issued,
      run (SharedGenerator.step ws) g schedule =
        { createItr := g.createItr + 1
          workers := Function.update g.workers worker (.head issued)
          issued := g.issued ++ [g.createItr + 1] } := by
  obtain ⟨schedule, mine, tested, reached⟩ := reach_tested creates wanted head hasNext
  refine ⟨schedule ++ [worker], ?_, tested + 1, ?_⟩
  · intro other member
    cases List.mem_append.mp member with
    | inl early => exact mine other early
    | inr last => exact List.mem_singleton.mp last
  · have position : ({ g with workers := Function.update g.workers worker (.tested tested) } :
        SharedGenerator).workers worker = .tested tested := by simp
    rw [run_append, reached, run_cons, step_issue creates position, run_nil, Function.update_idem]

/-- Worker `0` takes the indices of the range up to the last one and is then behind the test. -/
theorem reach_last (creates : ws.percent .create > 0) (wanted : 0 < (ws.reqCount .create).toInt)
    (left : Nat) {count : Nat} (head : g.workers 0 = .head count)
    (distance : g.createItr.toInt + 1 + left = (ws.dr.e .create).toInt) :
    ∃ schedule, (∀ other ∈ schedule, other = 0) ∧
      (∃ tested, (run (SharedGenerator.step ws) g schedule).workers 0 = .tested tested) ∧
      (run (SharedGenerator.step ws) g schedule).workers 1 = g.workers 1 ∧
      (run (SharedGenerator.step ws) g schedule).createItr.toInt + 1 =
        (ws.dr.e .create).toInt := by
  have hasNext : g.createItr < ws.dr.e .create := by
    rw [Int64.lt_iff_toInt_lt]
    omega
  induction left generalizing g count with
  | zero =>
    obtain ⟨schedule, mine, tested, reached⟩ := reach_tested creates wanted head hasNext
    refine ⟨schedule, mine, ?_⟩
    rw [reached]
    exact ⟨⟨tested, by simp⟩, by simp, by simpa using distance⟩
  | succ left ih =>
    obtain ⟨schedule, mine, issued, reached⟩ := reach_issued creates wanted head hasNext
    have next := toInt_add_one hasNext
    generalize ran : run (SharedGenerator.step ws) g schedule = after at reached
    have afterHead : after.workers 0 = .head issued := by simp [reached]
    have afterItr : after.createItr.toInt = g.createItr.toInt + 1 := by rw [reached, ← next]
    have afterHasNext : after.createItr < ws.dr.e .create := by
      rw [Int64.lt_iff_toInt_lt]
      omega
    obtain ⟨rest, restMine, last, other, final⟩ := ih afterHead (by omega) afterHasNext
    refine ⟨schedule ++ rest, ?_, ?_⟩
    · intro worker member
      cases List.mem_append.mp member with
      | inl early => exact mine worker early
      | inr late => exact restMine worker late
    · rw [run_append, ran]
      refine ⟨last, ?_, final⟩
      rw [other, reached]
      simp

/-- The index behind the end of the range, also where the increment wraps around. -/
theorem overshoot_not_inRange {s e index : Int64} (before : index.toInt + 1 = e.toInt)
    (inRange : s < index + 1 + 1 ∧ index + 1 + 1 ≤ e) : False := by
  have same : index + 1 = e := by
    rw [← Int64.toInt_inj, toInt_add_one (e := e), before]
    rw [Int64.lt_iff_toInt_lt]
    omega
  rw [same] at inRange
  by_cases top : e.toInt + 1 < 2 ^ 63
  · have next : (e + 1).toInt = e.toInt + 1 := by
      have lower := e.le_toInt
      rw [Int64.toInt_add, Int64.toInt_one]
      exact Int.bmod_eq_of_le (by omega) (by omega)
    have upper := Int64.le_iff_toInt_le.mp inRange.2
    omega
  · have highest : e = Int64.maxValue := by
      have bound := e.toInt_lt
      rw [← Int64.toInt_inj]
      have value : Int64.maxValue.toInt = 2 ^ 63 - 1 := by decide
      omega
    have wrapped : (e + 1).toInt = -2 ^ 63 := by
      rw [highest]
      decide
    have lower := Int64.lt_iff_toInt_lt.mp inRange.1
    have least := s.le_toInt
    omega

/-- Two workers pass the test on the last index and both increment. -/
theorem exists_overshoot (creates : ws.percent .create > 0)
    (wanted : 0 < (ws.reqCount .create).toInt) (several : 1 < ws.workers.toInt)
    (range : ws.dr.s .create < ws.dr.e .create) :
    ∃ schedule, Schedule ws schedule ∧
      ¬ (run (SharedGenerator.step ws) (start ws) schedule).Safe ws := by
  rw [Int64.lt_iff_toInt_lt] at range
  obtain ⟨schedule, mine, ⟨tested, first⟩, second, last⟩ :=
    reach_last (g := start ws) creates wanted
      ((ws.dr.e .create).toInt - (ws.dr.s .create).toInt - 1).toNat rfl (by
        simp only [start]
        omega)
  refine ⟨schedule ++ [1, 0, 1], ?_, ?_⟩
  · intro worker member
    cases List.mem_append.mp member with
    | inl early =>
      rw [mine worker early]
      push_cast
      omega
    | inr late =>
      have small : worker ≤ 1 := by
        simp only [List.mem_cons, List.not_mem_nil, or_false] at late
        omega
      omega
  · rw [run_append]
    generalize run (SharedGenerator.step ws) (start ws) schedule = g at first second last
    have hasNext : g.createItr < ws.dr.e .create := by
      rw [Int64.lt_iff_toInt_lt]
      omega
    have secondHead : g.workers 1 = .head 0 := second
    have afterTest := step_test creates secondHead hasNext (by simpa using wanted)
    have firstTested : ({ g with workers := Function.update g.workers 1 (.tested 0) } :
        SharedGenerator).workers 0 = .tested tested := by simp [first]
    have afterFirst := step_issue creates firstTested
    have secondTested :
        ({ createItr := g.createItr + 1
           workers := Function.update (Function.update g.workers 1 (.tested 0)) 0 (.head (tested + 1))
           issued := g.issued ++ [g.createItr + 1] } : SharedGenerator).workers 1 = .tested 0 := by
      simp
    have afterSecond := step_issue creates secondTested
    rw [run_cons, afterTest, run_cons, afterFirst, run_cons, afterSecond, run_nil]
    intro safe
    exact overshoot_not_inRange last (safe.inRange _ (by simp))

/-! ### The range is kept -/

/-- Sharing the generator is safe exactly if nobody else can come between the test and the
    increment, or nothing is ever issued. -/
theorem safe_iff (ordered : ws.dr.s .create ≤ ws.dr.e .create) :
    (∀ schedule, Schedule ws schedule →
        (run (SharedGenerator.step ws) (start ws) schedule).Safe ws) ↔
      ws.workers ≤ 1 ∨ ws.dr.s .create = ws.dr.e .create ∨ ws.percent .create ≤ 0 ∨
        ws.reqCount .create ≤ 0 := by
  constructor
  · intro always
    by_contra unmet
    simp only [not_or, Int32.not_le] at unmet
    obtain ⟨several, range, creates, wanted⟩ := unmet
    have less : ws.dr.s .create < ws.dr.e .create := by
      rw [← Int64.toInt_inj] at range
      rw [Int64.le_iff_toInt_le] at ordered
      rw [Int64.lt_iff_toInt_lt]
      omega
    rw [Int32.lt_iff_toInt_lt] at several wanted
    obtain ⟨schedule, scheduled, overshoot⟩ := exists_overshoot creates
      (by simpa using wanted) (by simpa using several) less
    exact overshoot (always schedule scheduled)
  · intro condition schedule scheduled
    have idleSafe : ∀ g : SharedGenerator, g.Idle → g.Safe ws := by
      intro g idle
      exact ⟨by simp [idle.issued], by simp [idle.issued]⟩
    cases condition with
    | inl single =>
      apply Alone.safe
      apply run_alone ordered
      intro worker member
      have bound := scheduled worker member
      rw [Int32.le_iff_toInt_le, Int32.toInt_one] at single
      omega
    | inr nothing =>
      apply idleSafe
      apply run_idle
      cases nothing with
      | inl empty => exact .inl (by rw [empty]; exact Int64.le_refl _)
      | inr nothing => exact .inr nothing

/-- Two workers and a range with one index. -/
def twoWorkers : WorkLoadSettings :=
  { workers := 2, ops := 200, percent := fun _ => 100, dr := { e := fun _ => 1 } }

theorem safe_iff_of_twoWorkers :
    (∀ schedule, Schedule twoWorkers schedule →
        (run (SharedGenerator.step twoWorkers) (start twoWorkers) schedule).Safe twoWorkers) ↔
      twoWorkers.workers ≤ 1 ∨ twoWorkers.dr.s .create = twoWorkers.dr.e .create ∨
        twoWorkers.percent .create ≤ 0 ∨ twoWorkers.reqCount .create ≤ 0 :=
  safe_iff (by decide)

/-- Both workers test before one of them increments: the indices `1` and `2` are issued. -/
theorem twoWorkers_overshoot :
    ¬ ∀ ws : WorkLoadSettings, ws.dr.s .create ≤ ws.dr.e .create → ∀ schedule,
      Schedule ws schedule → (run (SharedGenerator.step ws) (start ws) schedule).Safe ws := by
  intro always
  have scheduled : Schedule twoWorkers [0, 1, 0, 1] := by
    intro worker member
    simp only [List.mem_cons, List.not_mem_nil, or_false] at member
    have two : twoWorkers.workers.toInt = 2 := rfl
    omega
  have safe := always twoWorkers (by decide) [0, 1, 0, 1] scheduled
  have beyond : (2 : Int64) ∈
      (run (SharedGenerator.step twoWorkers) (start twoWorkers) [0, 1, 0, 1]).issued := by
    decide
  exact absurd (safe.inRange 2 beyond).2 (by decide)


end SharedGenerator

end Taf.Loader
