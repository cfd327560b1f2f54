import Mathlib.Algebra.BigOperators.Intervals
import Taf.Loader.WorkLoadGenerate

/-! # A load that ends has taken its whole range

The loop is left when a round adds nothing to the counter of operations.  That says
nothing about the ranges if an operation that is wanted asks for no documents, because
its share of the batch was rounded down to zero, or if the counter wraps around to zero. -/

namespace Taf.Loader

open Taf.Lib

variable {ws : WorkLoadSettings} {trackFailures : Bool} {round : Round} {st next done : RunState}
  {op : OpType} {n : Nat}

/-! ## One operation of a round -/

/-- What has been handed over of a range, and where its iterator is. -/
structure Progress (ws : WorkLoadSettings) (st : RunState) (op : OpType) : Prop where
  started : (ws.dr.s op).toInt ≤ (st.itr op).toInt
  bounded : (st.itr op).toInt ≤ max (ws.dr.s op).toInt (ws.dr.e op).toInt
  handed : (st.handed op).map Int64.toInt =
    window ((ws.dr.s op).toInt + 1) ((st.itr op).toInt - (ws.dr.s op).toInt).toNat

theorem Progress.take (progress : Progress ws st op) : Progress ws (st.take ws op) op := by
  obtain ⟨count, counted, indices, last⟩ :=
    nextBatch_spec (ws.dr.e op) (ws.reqCount op).toInt.toNat (st.itr op)
  have started := progress.started
  have bounded := progress.bounded
  have itr : ((st.take ws op).itr op).toInt = (st.itr op).toInt + count := by
    simp only [RunState.take, RunState.docs, Function.update_self, last]
  constructor
  · omega
  · omega
  · have split : ((st.itr op).toInt + count - (ws.dr.s op).toInt).toNat =
        ((st.itr op).toInt - (ws.dr.s op).toInt).toNat + count := by omega
    have soFar : (ws.dr.s op).toInt + 1 +
        (((st.itr op).toInt - (ws.dr.s op).toInt).toNat : Int) = (st.itr op).toInt + 1 := by omega
    rw [itr, split, ← window_append, soFar, ← progress.handed, ← indices]
    simp [RunState.take, RunState.docs]

theorem runOp_progress (passed : runOp ws trackFailures round st op = .ok next)
    (progress : ∀ other, Progress ws st other) (other : OpType) : Progress ws next other := by
  obtain ⟨_, rfl⟩ | ⟨_, _, failed, rfl⟩ := runOp_cases passed
  · exact progress other
  · by_cases same : other = op
    · subst same
      exact { (progress other).take with }
    · obtain ⟨started, bounded, handed⟩ := progress other
      constructor
      · simpa [RunState.take, Function.update_of_ne same] using started
      · simpa [RunState.take, Function.update_of_ne same] using bounded
      · simpa [RunState.take, Function.update_of_ne same] using handed

/-- How many documents the ranges still have. -/
def RunState.remaining (ws : WorkLoadSettings) (st : RunState) : Nat :=
  (opOrder.map fun op => ((ws.dr.e op).toInt - (st.itr op).toInt).toNat).sum

theorem remaining_take (docs : st.docs ws op ≠ []) :
    (st.take ws op).remaining ws < st.remaining ws := by
  obtain ⟨count, counted, indices, last⟩ :=
    nextBatch_spec (ws.dr.e op) (ws.reqCount op).toInt.toNat (st.itr op)
  have itr : ((st.take ws op).itr op).toInt = (st.itr op).toInt + count := by
    simp only [RunState.take, RunState.docs, Function.update_self, last]
  have others : ∀ other, other ≠ op → (st.take ws op).itr other = st.itr other := by
    intro other different
    simp [RunState.take, Function.update_of_ne different]
  have wanted := nextBatch_eq_nil.not.mp docs
  simp only [not_or, Int64.not_le, Int64.lt_iff_toInt_lt] at wanted
  apply List.sum_lt_sum
  · intro other _
    by_cases same : other = op
    · rw [same, itr]
      omega
    · rw [others other same]
  · exact ⟨op, by cases op <;> decide, by rw [itr]; omega⟩

/-! ## One round -/

/-- A round that adds no document leaves the state as it is. -/
theorem round_remaining {ops : List OpType}
    (passed : ops.foldlM (runOp ws trackFailures round) st = .ok next) :
    next = st ∨ next.remaining ws < st.remaining ws := by
  refine @foldlM_invariant _ _ _ _ _ (fun s => s = st ∨ s.remaining ws < st.remaining ws)
    _ _ passed ?_ (.inl rfl)
  intro before op after this soFar
  obtain ⟨_, rfl⟩ | ⟨_, docs, failed, rfl⟩ := runOp_cases this
  · exact soFar
  · have decreased := remaining_take docs
    refine .inr ?_
    cases soFar with
    | inl same =>
      rw [← same]
      exact decreased
    | inr less => exact decreased.trans less

theorem round_progress {ops : List OpType}
    (passed : ops.foldlM (runOp ws trackFailures round) st = .ok next)
    (progress : ∀ op, Progress ws st op) : ∀ op, Progress ws next op :=
  @foldlM_invariant _ _ _ _ _ (fun s => ∀ op, Progress ws s op) _ _ passed
    (fun _ _ _ this soFar => runOp_progress this soFar) progress

/-- An operation that asks for no documents does not move. -/
theorem round_stuck (none : (ws.reqCount op).toInt ≤ 0) {ops : List OpType}
    (passed : ops.foldlM (runOp ws trackFailures round) st = .ok next) :
    next.itr op = st.itr op := by
  refine @foldlM_invariant _ _ _ _ _ (fun s => s.itr op = st.itr op) _ _ passed ?_ rfl
  intro before other after this soFar
  obtain ⟨_, rfl⟩ | ⟨_, docs, failed, rfl⟩ := runOp_cases this
  · exact soFar
  · have different : op ≠ other := by
      intro same
      rw [← same] at docs
      exact docs (nextBatch_eq_nil.mpr (.inl (by omega)))
    rw [← soFar]
    exact Function.update_of_ne different ..

/-! ## Where the rounds get to -/

namespace WorkLoadSettings

variable (ws : WorkLoadSettings)

/-- The operation is asked for, on a range that is not empty. -/
def Wanted (op : OpType) : Prop := ws.percent op > 0 ∧ ws.dr.s op < ws.dr.e op

instance (op : OpType) : Decidable (ws.Wanted op) := inferInstanceAs (Decidable (_ ∧ _))

/-- Every kind of operation that is wanted and has documents asks for some. -/
def AsksForDocs : Prop := ∀ op, ws.Wanted op → ws.reqCount op > 0

/-- After `n` batches of `req_count` documents the range is not used up. -/
def Left (n : Nat) (op : OpType) : Prop :=
  ws.Wanted op ∧ (ws.dr.s op).toInt + n * (ws.reqCount op).toInt < (ws.dr.e op).toInt

instance (n : Nat) (op : OpType) : Decidable (ws.Left n op) := inferInstanceAs (Decidable (_ ∧ _))

/-- What round `n` adds to the counter, which is `req_count` for every batch. -/
def demand (n : Nat) (op : OpType) : Int := if ws.Left n op then (ws.reqCount op).toInt else 0

/-- What the rounds from `first` to before `n` add to the counter. -/
def demandFrom (first n : Nat) : Int :=
  ∑ round ∈ Finset.Ico first n, (opOrder.map (ws.demand round)).sum

/-- The round before which the counter was last set to zero: a sum that is below `batchSize`
    as an `int` is carried over to the next round. -/
def lastReset : Nat → Nat
  | 0 => 0
  | n + 1 =>
    if (ws.demandFrom (lastReset n) (n + 1)).bmod (2 ^ 32) < ws.batchSize.toInt then lastReset n
    else n + 1

/-- As long as documents are left, the demand since the counter was last set to zero is no
    multiple of `2 ^ 32`. -/
def CounterKeeps : Prop :=
  ∀ n op, ws.Left (n + 1) op → ¬ (2 ^ 32 : Int) ∣ ws.demandFrom (ws.lastReset n) (n + 1)

/-- The iterator before round `n`. -/
def itrAt (n : Nat) (op : OpType) : Int :=
  if ws.Wanted op then
    min ((ws.dr.s op).toInt + n * (ws.reqCount op).toInt) (ws.dr.e op).toInt
  else (ws.dr.s op).toInt

end WorkLoadSettings

theorem reqCount_pos (asks : ws.AsksForDocs) (wanted : ws.Wanted op) :
    0 < (ws.reqCount op).toInt := by
  have positive := Int32.lt_iff_toInt_lt.mp (asks op wanted)
  rwa [Int32.toInt_zero] at positive

theorem itrAt_zero (ws : WorkLoadSettings) (op : OpType) :
    ws.itrAt 0 op = (ws.dr.s op).toInt := by
  simp only [WorkLoadSettings.itrAt]
  split
  · rename_i wanted
    have range := Int64.lt_iff_toInt_lt.mp wanted.2
    simp only [Nat.cast_zero, zero_mul, add_zero]
    omega
  · rfl

theorem left_of_later (asks : ws.AsksForDocs) {m n : Nat} (order : m ≤ n)
    (left : ws.Left n op) : ws.Left m op := by
  refine ⟨left.1, ?_⟩
  have batches : (m : Int) * (ws.reqCount op).toInt ≤ n * (ws.reqCount op).toInt :=
    Int.mul_le_mul_of_nonneg_right (by omega) (reqCount_pos asks left.1).le
  have below := left.2
  omega

/-- What is left of a range is what its iterator is before. -/
theorem left_iff {n : Nat} (at_ : (st.itr op).toInt = ws.itrAt n op) :
    ws.Left n op ↔ ws.percent op > 0 ∧ st.itr op < ws.dr.e op := by
  rw [Int64.lt_iff_toInt_lt, at_, WorkLoadSettings.itrAt, WorkLoadSettings.Left]
  by_cases wanted : ws.Wanted op
  · rw [if_pos wanted]
    have percent := wanted.1
    constructor
    · rintro ⟨_, below⟩
      exact ⟨percent, by omega⟩
    · rintro ⟨_, below⟩
      exact ⟨wanted, by omega⟩
  · rw [if_neg wanted]
    constructor
    · rintro ⟨isWanted, _⟩
      exact absurd isWanted wanted
    · rintro ⟨percent, below⟩
      exact absurd ⟨percent, Int64.lt_iff_toInt_lt.mpr below⟩ wanted

/-- The next place of an iterator that is at its end, or before it. -/
theorem itrAt_succ (ws : WorkLoadSettings) (n : Nat) (op : OpType) (asks : ws.AsksForDocs) :
    ws.itrAt (n + 1) op =
      if ws.Left n op then
        ws.itrAt n op + min (ws.reqCount op).toInt ((ws.dr.e op).toInt - ws.itrAt n op)
      else ws.itrAt n op := by
  by_cases wanted : ws.Wanted op
  · have positive := reqCount_pos asks wanted
    have grows : (ws.dr.s op).toInt + ((n + 1 : Nat) : Int) * (ws.reqCount op).toInt =
        (ws.dr.s op).toInt + n * (ws.reqCount op).toInt + (ws.reqCount op).toInt := by
      push_cast
      ring
    simp only [WorkLoadSettings.itrAt, if_pos wanted, grows]
    by_cases left : ws.Left n op
    · have below := left.2
      rw [if_pos left]
      omega
    · have past := left
      rw [WorkLoadSettings.Left, not_and] at past
      have atEnd := past wanted
      rw [if_neg left]
      omega
  · have none : ¬ ws.Left n op := fun left => wanted left.1
    rw [if_neg none, WorkLoadSettings.itrAt, WorkLoadSettings.itrAt, if_neg wanted, if_neg wanted]

/-- One operation of round `n`: its iterator moves on, and the counter has its demand. -/
theorem runOp_round (asks : ws.AsksForDocs) {n : Nat}
    (passed : runOp ws trackFailures round st op = .ok next)
    (at_ : (st.itr op).toInt = ws.itrAt n op) :
    (next.itr op).toInt = ws.itrAt (n + 1) op ∧
      (∀ other, other ≠ op → next.itr other = st.itr other) ∧
      next.ops.toInt = (st.ops.toInt + ws.demand n op).bmod (2 ^ 32) ∧
      (st.flag = true ∨ ws.Left n op → next.flag = true) := by
  rw [itrAt_succ ws n op asks, WorkLoadSettings.demand]
  obtain ⟨takesNone, rfl⟩ | ⟨percent, docs, failed, rfl⟩ := runOp_cases passed
  · have none : ¬ ws.Left n op := by
      intro left
      have positive := reqCount_pos asks left.1
      apply takesNone
      refine ⟨left.1.1, nextBatch_eq_nil.not.mpr ?_⟩
      rw [not_or, Int64.not_le]
      exact ⟨by omega, ((left_iff at_).mp left).2⟩
    rw [if_neg none, if_neg none, add_zero]
    exact ⟨at_, fun _ _ => rfl, (Int32.toInt_bmod _).symm, fun flag => flag.resolve_right none⟩
  · have some := nextBatch_eq_nil.not.mp docs
    rw [not_or, Int64.not_le] at some
    have left : ws.Left n op := (left_iff at_).mpr ⟨percent, some.2⟩
    have positive := reqCount_pos asks left.1
    obtain ⟨count, counted, _, last⟩ :=
      nextBatch_spec (ws.dr.e op) (ws.reqCount op).toInt.toNat (st.itr op)
    have below := Int64.lt_iff_toInt_lt.mp some.2
    rw [if_pos left, if_pos left, ← at_]
    refine ⟨?_, ?_, Int32.toInt_add _ _, fun _ => rfl⟩
    · simp only [RunState.take, RunState.docs, Function.update_self, last]
      omega
    · intro other different
      exact Function.update_of_ne different ..

/-- Round `n` moves every iterator on, and the counter has the demand of all. -/
theorem round_counter (asks : ws.AsksForDocs) {n : Nat} {ops : List OpType} (distinct : ops.Nodup)
    (passed : ops.foldlM (runOp ws trackFailures round) st = .ok next)
    (at_ : ∀ op ∈ ops, (st.itr op).toInt = ws.itrAt n op) :
    (∀ op ∈ ops, (next.itr op).toInt = ws.itrAt (n + 1) op) ∧
      (∀ op, op ∉ ops → next.itr op = st.itr op) ∧
      next.ops.toInt = (st.ops.toInt + (ops.map (ws.demand n)).sum).bmod (2 ^ 32) ∧
      ((st.flag = true ∨ ∃ op ∈ ops, ws.Left n op) → next.flag = true) := by
  induction ops generalizing st with
  | nil =>
    cases passed
    simp
  | cons op ops ih =>
    rw [List.foldlM_cons, bind_eq_ok] at passed
    obtain ⟨middle, this, rest⟩ := passed
    obtain ⟨absent, distinct⟩ := List.nodup_cons.mp distinct
    obtain ⟨moved, others, counted, flagged⟩ := runOp_round asks this (at_ op (by simp))
    have middleAt : ∀ other ∈ ops, (middle.itr other).toInt = ws.itrAt n other := by
      intro other member
      rw [others other (fun same => absent (same ▸ member))]
      exact at_ other (List.mem_cons_of_mem _ member)
    obtain ⟨restMoved, restOthers, restCounted, restFlagged⟩ := ih distinct rest middleAt
    refine ⟨?_, ?_, ?_, ?_⟩
    · rw [List.forall_mem_cons, restOthers op absent]
      exact ⟨moved, restMoved⟩
    · intro other outside
      rw [List.mem_cons, not_or] at outside
      rw [restOthers other outside.2, others other outside.1]
    · rw [restCounted, counted, Int.bmod_add_bmod, List.map_cons, List.sum_cons, add_assoc]
    · rintro (flag | ⟨other, member, left⟩)
      · exact restFlagged (.inl (flagged (.inl flag)))
      cases List.mem_cons.mp member with
      | inl same => exact restFlagged (.inl (flagged (.inr (same ▸ left))))
      | inr member => exact restFlagged (.inr ⟨other, member, left⟩)

/-! ## The loop -/

/-- How many rounds without documents the loop can still go through. -/
def RunState.pending (st : RunState) : Nat :=
  if st.ops = 0 then 0 else if st.flag then 2 else 1

/-- The loop always comes to an end. -/
theorem mainLoop_ends (ws : WorkLoadSettings) (trackFailures : Bool) (rounds : Nat → Round)
    (n : Nat) (st : RunState) :
    ∃ fuel ended, mainLoop ws trackFailures rounds fuel n st = some ended := by
  -- A round takes documents, or leaves the counter and the flag as they were.
  generalize size : 3 * st.remaining ws + st.pending = measure
  induction measure using Nat.strong_induction_on generalizing n st with
  | h measure ih =>
    by_cases stopped : (rounds n).stop = true
    · exact ⟨1, _, mainLoop_stop stopped⟩
    cases passed : opOrder.foldlM (runOp ws trackFailures (rounds n)) (st.event .acquire) with
    | error ended => exact ⟨1, ended, mainLoop_error stopped passed⟩
    | ok done =>
      by_cases idle : done.ops = 0
      · refine ⟨1, (.left, done.event .release), ?_⟩
        rw [mainLoop_ok stopped passed, if_pos idle]
      have moved : (done.ops = st.ops ∧ done.flag = st.flag ∧
          done.remaining ws = st.remaining ws) ∨ done.remaining ws < st.remaining ws := by
        cases round_remaining passed with
        | inl same =>
          rw [same]
          exact .inl ⟨rfl, rfl, rfl⟩
        | inr less => exact .inr less
      by_cases again : done.ops < ws.batchSize ∧ done.flag = true
      · have smaller : 3 * done.remaining ws + 1 < measure := by
          cases moved with
          | inl unmoved =>
            have pending : st.pending = 2 := by
              rw [RunState.pending, ← unmoved.1, if_neg idle, ← unmoved.2.1, if_pos again.2]
            omega
          | inr less => omega
        obtain ⟨fuel, ended, returned⟩ := ih _ smaller (n + 1)
          { done.event .release with flag := false } (by
            simp [RunState.remaining, RunState.pending, RunState.event, idle])
        refine ⟨fuel + 1, ended, ?_⟩
        rw [mainLoop_ok stopped passed, if_neg idle, if_pos again, returned]
      · have smaller : 3 * done.remaining ws < measure := by
          cases moved with
          | inl unmoved =>
            have pending : 1 ≤ st.pending := by
              rw [RunState.pending, ← unmoved.1, if_neg idle]
              split
              · omega
              · omega
            omega
          | inr less => omega
        obtain ⟨fuel, ended, returned⟩ := ih _ smaller (n + 1)
          { done.event .release with ops := 0 } (by
            simp [RunState.remaining, RunState.pending, RunState.event])
        refine ⟨fuel + 1, ended, ?_⟩
        rw [mainLoop_ok stopped passed, if_neg idle, if_neg again, returned]

/-- Every index of the ranges of the wanted operations was handed over once, in order. -/
def Complete (ws : WorkLoadSettings) (st : RunState) : Prop :=
  ∀ op, ws.percent op > 0 → ws.dr.e op ≤ st.itr op ∧
    (st.handed op).map Int64.toInt =
      window ((ws.dr.s op).toInt + 1) ((ws.dr.e op).toInt - (ws.dr.s op).toInt).toNat

/-- Whatever the rounds meet, a loop that is left by itself has completed the load. -/
def Completes (ws : WorkLoadSettings) : Prop :=
  ∀ trackFailures rounds fuel last, (∀ n, (rounds n).stop = false) →
    mainLoop ws trackFailures rounds fuel 0 (.start ws) = some (.left, last) → Complete ws last

theorem Progress.atEnd (progress : Progress ws st op) (atEnd : ws.dr.e op ≤ st.itr op) :
    (st.handed op).map Int64.toInt =
      window ((ws.dr.s op).toInt + 1) ((ws.dr.e op).toInt - (ws.dr.s op).toInt).toNat := by
  have started := progress.started
  have bounded := progress.bounded
  rw [Int64.le_iff_toInt_le] at atEnd
  rw [progress.handed]
  exact congrArg _ (by omega)

theorem progress_start (ws : WorkLoadSettings) (op : OpType) :
    Progress ws (.start ws) op where
  started := Int.le_refl _
  bounded := Int.le_max_left ..
  handed := by simp [RunState.start]

/-- The state before round `n`: the ranges have come as far as they can, and while some
    document is left the counter has the demand since it was last set to zero. -/
structure AtRound (ws : WorkLoadSettings) (n : Nat) (st : RunState) : Prop where
  progress : ∀ op, Progress ws st op
  itr : ∀ op, (st.itr op).toInt = ws.itrAt n op
  counter : ∀ op, ws.Left n op →
    st.ops.toInt = (ws.demandFrom (ws.lastReset n) n).bmod (2 ^ 32)

theorem atRound_start (ws : WorkLoadSettings) : AtRound ws 0 (.start ws) where
  progress := progress_start ws
  itr op := (itrAt_zero ws op).symm
  counter _ _ := rfl

/-- What round `n` leaves behind, before the counter is looked at. -/
structure RoundDone (ws : WorkLoadSettings) (n : Nat) (done : RunState) : Prop where
  progress : ∀ op, Progress ws done op
  itr : ∀ op, (done.itr op).toInt = ws.itrAt (n + 1) op
  counter : ∀ op, ws.Left n op →
    done.ops.toInt = (ws.demandFrom (ws.lastReset n) (n + 1)).bmod (2 ^ 32)
  flag : ∀ op, ws.Left n op → done.flag = true

theorem mem_opOrder (op : OpType) : op ∈ opOrder := by cases op <;> decide

theorem lastReset_le (ws : WorkLoadSettings) (n : Nat) : ws.lastReset n ≤ n := by
  induction n with
  | zero => exact Nat.le_refl 0
  | succ n ih =>
    rw [WorkLoadSettings.lastReset]
    split
    · omega
    · omega

theorem AtRound.roundDone (before : AtRound ws n st) (asks : ws.AsksForDocs)
    (passed : opOrder.foldlM (runOp ws trackFailures round) (st.event .acquire) = .ok done) :
    RoundDone ws n done := by
  obtain ⟨moved, _, counted, flagged⟩ :=
    round_counter asks (by decide) passed (fun op _ => before.itr op)
  constructor
  · exact round_progress passed (fun op => { before.progress op with })
  · exact fun op => moved op (mem_opOrder op)
  · intro op left
    rw [counted, RunState.event_ops, before.counter op left, Int.bmod_add_bmod,
      WorkLoadSettings.demandFrom, WorkLoadSettings.demandFrom,
      Finset.sum_Ico_succ_top (lastReset_le ws n)]
  · exact fun op left => flagged (.inr ⟨op, mem_opOrder op, left⟩)

/-- The counter is carried over when it is below `batchSize`. -/
theorem RoundDone.carriedOver (after : RoundDone ws n done) (asks : ws.AsksForDocs)
    (again : done.ops < ws.batchSize) :
    AtRound ws (n + 1) { done.event .release with flag := false } where
  progress op := { after.progress op with }
  itr := after.itr
  counter op left := by
    have counter := after.counter op (left_of_later asks (Nat.le_succ n) left)
    rw [Int32.lt_iff_toInt_lt, counter] at again
    rw [WorkLoadSettings.lastReset, if_pos again]
    exact counter

/-- Otherwise it is set to zero, for in a round with documents the flag is set. -/
theorem RoundDone.reset (after : RoundDone ws n done) (asks : ws.AsksForDocs)
    (full : ¬ (done.ops < ws.batchSize ∧ done.flag = true)) :
    AtRound ws (n + 1) { done.event .release with ops := 0 } where
  progress op := { after.progress op with }
  itr := after.itr
  counter op left := by
    have before := left_of_later asks (Nat.le_succ n) left
    have notBelow : ¬ done.ops < ws.batchSize := fun less => full ⟨less, after.flag op before⟩
    rw [Int32.lt_iff_toInt_lt, after.counter op before] at notBelow
    rw [WorkLoadSettings.lastReset, if_neg notBelow, WorkLoadSettings.demandFrom, Finset.Ico_self]
    rfl

/-- With documents left, the counter is zero where the demand is a multiple of `2 ^ 32`. -/
theorem RoundDone.idle_iff (after : RoundDone ws n done) (left : ws.Left n op) :
    done.ops = 0 ↔ (2 ^ 32 : Int) ∣ ws.demandFrom (ws.lastReset n) (n + 1) := by
  have zero : (done.ops = 0) ↔ done.ops.toInt = 0 := by rw [← Int32.toInt_zero, Int32.toInt_inj]
  rw [zero, after.counter op left, ← Int.dvd_iff_bmod_eq_zero]
  rfl

theorem RoundDone.complete (after : RoundDone ws n done) (none : ∀ op, ¬ ws.Left (n + 1) op) :
    Complete ws (done.event .release) := by
  intro op wanted
  have atEnd : ws.dr.e op ≤ done.itr op := by
    have notLeft := (left_iff (after.itr op)).not.mp (none op)
    rw [not_and, Int64.not_lt] at notLeft
    exact notLeft wanted
  exact ⟨atEnd, (after.progress op).atEnd atEnd⟩

theorem mainLoop_complete (asks : ws.AsksForDocs) (keeps : ws.CounterKeeps)
    {rounds : Nat → Round} (running : ∀ n, (rounds n).stop = false) {fuel n : Nat}
    {last : RunState} (before : AtRound ws n st)
    (ended : mainLoop ws trackFailures rounds fuel n st = some (.left, last)) :
    Complete ws last := by
  induction fuel generalizing n st with
  | zero => cases ended
  | succ fuel ih =>
    have notStopped : (rounds n).stop ≠ true := by simp [running n]
    cases passed : opOrder.foldlM (runOp ws trackFailures (rounds n)) (st.event .acquire) with
    | error aborted =>
      rw [mainLoop_error notStopped passed, Option.some.injEq] at ended
      obtain ⟨_, kind, _⟩ | ⟨_, kind, _⟩ := round_aborted passed
      · rw [ended] at kind
        cases kind
      · rw [ended] at kind
        cases kind
    | ok done =>
      rw [mainLoop_ok notStopped passed] at ended
      have after := before.roundDone asks passed
      split at ended
      · rename_i idle
        rw [Option.some.injEq, Prod.mk.injEq] at ended
        obtain ⟨_, rfl⟩ := ended
        refine after.complete ?_
        intro op left
        have earlier := left_of_later asks (Nat.le_succ n) left
        exact keeps n op left ((after.idle_iff earlier).mp idle)
      split at ended
      · rename_i again
        exact ih (after.carriedOver asks again.1) ended
      · rename_i full
        exact ih (after.reset asks full) ended

/-- In rounds without a fault the loop is left by itself, and an operation that asks for no
    documents is still at the start of its range. -/
theorem mainLoop_stuck (none : (ws.reqCount op).toInt ≤ 0) {fuel n : Nat}
    {ended : LoopEnd × RunState}
    (returned : mainLoop ws trackFailures (fun _ => {}) fuel n st = some ended) :
    ended.1 = .left ∧ ended.2.itr op = st.itr op := by
  induction fuel generalizing n st with
  | zero => cases returned
  | succ fuel ih =>
    have running : ((fun _ => {} : Nat → Round) n).stop ≠ true := by simp
    cases passed : opOrder.foldlM (runOp ws trackFailures {}) (st.event .acquire) with
    | error aborted =>
      obtain ⟨⟨op, throws⟩, _⟩ | ⟨fails, _⟩ := round_aborted passed
      · cases throws
      · cases fails
    | ok done =>
      rw [mainLoop_ok running passed] at returned
      have stuck : done.itr op = (st.event .acquire).itr op := round_stuck none passed
      split at returned
      · cases returned
        exact ⟨rfl, stuck⟩
      split at returned
      · obtain ⟨left, same⟩ := ih returned
        exact ⟨left, same.trans stuck⟩
      · obtain ⟨left, same⟩ := ih returned
        exact ⟨left, same.trans stuck⟩

theorem asksForDocs_of_completes (completes : Completes ws) : ws.AsksForDocs := by
  rintro op ⟨wanted, range⟩
  by_contra asksNothing
  have none : (ws.reqCount op).toInt ≤ 0 := by
    rw [gt_iff_lt, Int32.lt_iff_toInt_lt, Int32.toInt_zero] at asksNothing
    omega
  obtain ⟨fuel, ended, returned⟩ := mainLoop_ends ws true (fun _ => {}) 0 (.start ws)
  obtain ⟨left, stuck⟩ := mainLoop_stuck none returned
  have byItself : ended = (.left, ended.2) := by rw [← left]
  rw [byItself] at returned
  have complete := completes true (fun _ => {}) fuel ended.2 (fun _ => rfl) returned
  have atEnd := (complete op wanted).1
  rw [stuck, Int64.le_iff_toInt_le] at atEnd
  rw [Int64.lt_iff_toInt_lt] at range
  exact absurd range (Int.not_lt.mpr atEnd)

/-- In rounds without a fault the loop is left with documents in the range, if a round comes
    whose demand brings the counter back to zero before the range is used up. -/
theorem mainLoop_cutOff (asks : ws.AsksForDocs) {k : Nat} (left : ws.Left (k + 1) op)
    (wraps : (2 ^ 32 : Int) ∣ ws.demandFrom (ws.lastReset k) (k + 1)) {fuel n : Nat}
    (order : n ≤ k) (before : AtRound ws n st) {ended : LoopEnd × RunState}
    (returned : mainLoop ws trackFailures (fun _ => {}) fuel n st = some ended) :
    ended.1 = .left ∧ ended.2.itr op < ws.dr.e op := by
  induction fuel generalizing n st with
  | zero => cases returned
  | succ fuel ih =>
    have running : ((fun _ => {} : Nat → Round) n).stop ≠ true := by simp
    cases passed : opOrder.foldlM (runOp ws trackFailures {}) (st.event .acquire) with
    | error aborted =>
      obtain ⟨⟨op, throws⟩, _⟩ | ⟨fails, _⟩ := round_aborted passed
      · cases throws
      · cases fails
    | ok done =>
      rw [mainLoop_ok running passed] at returned
      have after := before.roundDone asks passed
      have here : ws.Left n op := left_of_later asks (by omega) left
      have next : ws.Left (n + 1) op := left_of_later asks (by omega) left
      split at returned
      · cases returned
        exact ⟨rfl, ((left_iff (after.itr op)).mp next).2⟩
      rename_i goesOn
      have earlier : n + 1 ≤ k := by
        by_contra last
        obtain rfl : n = k := by omega
        exact goesOn ((after.idle_iff here).mpr wraps)
      split at returned
      · rename_i again
        exact ih earlier (after.carriedOver asks again.1) returned
      · rename_i full
        exact ih earlier (after.reset asks full) returned

theorem counterKeeps_of_completes (asks : ws.AsksForDocs) (completes : Completes ws) :
    ws.CounterKeeps := by
  intro k op left wraps
  obtain ⟨fuel, ended, returned⟩ := mainLoop_ends ws true (fun _ => {}) 0 (.start ws)
  obtain ⟨byItself, before⟩ :=
    mainLoop_cutOff asks left wraps (Nat.zero_le k) (atRound_start ws) returned
  have isLeft : ended = (.left, ended.2) := by rw [← byItself]
  rw [isLeft] at returned
  have complete := completes true (fun _ => {}) fuel ended.2 (fun _ => rfl) returned
  exact absurd (complete op left.1.1).1 (Int64.not_le.mpr before)

/-- Ten operations per worker, one percent of them creates. -/
def onePercentCreates : WorkLoadSettings :=
  { workers := 10
    ops := 100
    percent := fun op => if op = .create then 1 else 0
    dr := { e := fun op => if op = .create then 1 else 0 } }

end Taf.Loader
