import Taf.Tasks.MutateDocs

/-! # When a load that returns True is complete

The run of a sub-task is cut at the first event that stops it: what lies before is
loaded and, with `track_failures`, recorded.  `MutateDocsFromSpecTask.call` returns
True exactly when no sub-task recorded a failed key and no exception of a sub-task got
past `except Exception`, so a load is reported complete wrongly when every incomplete
sub-task is one of the silent kind. -/

namespace Taf.Tasks

open Taf.Lib Taf.Bucket

def BatchEvent.failed : BatchEvent → List String
  | .returned fail => fail
  | _ => []

def BatchEvent.ends : BatchEvent → TaskEnd
  | .returned _ => .returned
  | .callRaised _ => .raised
  | .aborted => .raised
  | .cancelled => .cancelled

/-- A key of the batch failed: the call says so, or it raised and loaded nothing. -/
def BatchEvent.FailsKey : BatchEvent → Prop
  | .returned fail => fail ≠ []
  | .callRaised _ => True
  | _ => False

namespace SubTask

variable (interp : Interpreter) (behaviour : Behaviour) (t : SubTask)

/-! ## The run of a sub-task -/

def proceeds : BatchEvent → Bool
  | .returned _ => true
  | .callRaised raised => t.op.swallows && interp.exceptException raised
  | _ => false

def stops (planned : List Int × BatchEvent) : Bool := !t.proceeds interp planned.2

def loadedAll (state : LoadState) (batches : List (List Int × BatchEvent)) : LoadState where
  docsLoaded := state.docsLoaded + (batches.map fun batch => batch.1.length).sum
  fail := state.fail ++ if t.trackFailures then batches.flatMap fun batch => batch.2.failed else []

theorem next_proceeds {planned : List Int × BatchEvent} (goesOn : t.stops interp planned = false)
    (state : LoadState) : t.next interp state planned = .ok (t.loadedAll state [planned]) := by
  obtain ⟨batch, event⟩ := planned
  cases event with
  | returned fail =>
    cases tracked : t.trackFailures <;>
      simp [next, loaded, loadedAll, BatchEvent.failed, tracked]
  | callRaised raised =>
    have swallowed : (t.op.swallows && interp.exceptException raised) = true := by
      simpa [stops, proceeds] using goesOn
    cases tracked : t.trackFailures <;>
      simp [next, loaded, loadedAll, BatchEvent.failed, tracked, swallowed]
  | aborted => simp [stops, proceeds] at goesOn
  | cancelled => simp [stops, proceeds] at goesOn

theorem next_stops {planned : List Int × BatchEvent} (halts : t.stops interp planned = true)
    (state : LoadState) : t.next interp state planned = .error (state, planned.2.ends) := by
  obtain ⟨batch, event⟩ := planned
  cases event with
  | returned fail => simp [stops, proceeds] at halts
  | callRaised raised =>
    have escapes : (t.op.swallows && interp.exceptException raised) = false := by
      simpa only [stops, proceeds, Bool.not_eq_true'] using halts
    simp only [next, escapes, BatchEvent.ends, Bool.false_eq_true, if_false]
  | aborted => rfl
  | cancelled => rfl

theorem loadedAll_cons (state : LoadState) (first : List Int × BatchEvent)
    (batches : List (List Int × BatchEvent)) :
    t.loadedAll (t.loadedAll state [first]) batches = t.loadedAll state (first :: batches) := by
  cases tracked : t.trackFailures <;> simp [loadedAll, tracked, Nat.add_assoc]

theorem foldlM_next (batches : List (List Int × BatchEvent)) (state : LoadState) :
    batches.foldlM (t.next interp) state =
      match batches.find? (t.stops interp) with
      | none => .ok (t.loadedAll state batches)
      | some last =>
        .error (t.loadedAll state (batches.takeWhile fun batch => !t.stops interp batch),
          last.2.ends) := by
  induction batches generalizing state with
  | nil => simp [loadedAll]; rfl
  | cons first batches ih =>
    rw [List.foldlM_cons]
    cases halts : t.stops interp first with
    | true =>
      rw [next_stops interp t halts, List.find?_cons_of_pos halts,
        List.takeWhile_cons_of_neg (by simp [halts])]
      simp [loadedAll]
      rfl
    | false =>
      rw [next_proceeds interp t halts, List.find?_cons_of_neg (by simp [halts]),
        List.takeWhile_cons_of_pos (by simp [halts])]
      rw [← loadedAll_cons t state first batches, ← loadedAll_cons t state first (batches.takeWhile _)]
      exact ih (t.loadedAll state [first])

def schedule : List (List Int × BatchEvent) := (t.planned behaviour).flatten

def reached : List (List Int × BatchEvent) :=
  (t.schedule behaviour).takeWhile fun batch => !t.stops interp batch

theorem run_state : (t.run interp behaviour).1 = t.loadedAll {} (t.reached interp behaviour) := by
  unfold run reached
  rw [GenericLoadingTask.call_eq_foldlM, ← schedule, foldlM_next]
  cases stopped : (t.schedule behaviour).find? (t.stops interp) with
  | none =>
    have goesOn : ∀ batch ∈ t.schedule behaviour, (!t.stops interp batch) = true := by
      intro batch member
      simpa using List.find?_eq_none.mp stopped batch member
    rw [List.takeWhile_eq_self_iff.mpr goesOn]
  | some last => rfl

theorem run_end : (t.run interp behaviour).2 =
    match (t.schedule behaviour).find? (t.stops interp) with
    | none => .returned
    | some last => last.2.ends := by
  unfold run
  rw [GenericLoadingTask.call_eq_foldlM, ← schedule, foldlM_next]
  cases (t.schedule behaviour).find? (t.stops interp) <;> rfl

/-! ## Complete sub-tasks -/

/-- The sub-task ran its whole range in every round and no key failed. -/
def Complete : Prop :=
  ((t.run interp behaviour).1.docsLoaded : Int) =
      t.rounds behaviour * (t.generator.docGen.stop - t.generator.docGen.start) ∧
    ∀ batch ∈ t.schedule behaviour, ¬batch.2.FailsKey

/-- Every batch of every round returned without a failed key. -/
def Clean : Prop := ∀ batch ∈ t.schedule behaviour, batch.2 = .returned []

theorem mem_schedule {batch : List Int × BatchEvent} :
    batch ∈ t.schedule behaviour →
      ∃ number, (batch.1, number) ∈ t.generator.batches.zipIdx := by
  intro member
  simp only [schedule, planned, List.mem_flatten, List.mem_map] at member
  obtain ⟨_, ⟨round, _, rfl⟩, member⟩ := member
  obtain ⟨numbered, numberedMember, rfl⟩ := List.mem_map.mp member
  exact ⟨numbered.2, numberedMember⟩

theorem batch_ne_nil {batch : List Int × BatchEvent} (member : batch ∈ t.schedule behaviour) :
    batch.1 ≠ [] := by
  obtain ⟨number, numbered⟩ := t.mem_schedule behaviour member
  exact ne_nil_of_mem_batchesOf t.generator.positive _ _ (List.fst_mem_of_mem_zipIdx numbered)

theorem schedule_length_sum :
    ((t.schedule behaviour).map fun batch => batch.1.length).sum =
      t.rounds behaviour * (t.generator.docGen.stop - t.generator.docGen.start).toNat := by
  have perRound : (t.generator.batches.zipIdx.map fun batch => batch.1.length).sum =
      (t.generator.docGen.stop - t.generator.docGen.start).toNat := by
    have lengths : (t.generator.batches.zipIdx.map fun batch => batch.1.length) =
        (t.generator.batches.zipIdx.map Prod.fst).map List.length := by
      rw [List.map_map]
      rfl
    rw [lengths, List.zipIdx_map_fst, ← List.length_flatten, t.generator.batches_flatten,
      t.generator.length_indices]
  simp only [schedule, planned, List.map_flatten, List.sum_flatten, List.map_map,
    Function.comp_def, perRound]
  simp

theorem docsLoaded_of_clean (clean : t.Clean behaviour) :
    (t.run interp behaviour).1.docsLoaded =
      t.rounds behaviour * (t.generator.docGen.stop - t.generator.docGen.start).toNat := by
  have all : t.reached interp behaviour = t.schedule behaviour := by
    refine List.takeWhile_eq_self_iff.mpr ?_
    intro batch member
    simp [stops, clean batch member, proceeds]
  rw [run_state, all, loadedAll, Nat.zero_add, schedule_length_sum]

/-- A sub-task that was stopped has not loaded the batch at which it was stopped. -/
theorem docsLoaded_lt_of_stopped {batch : List Int × BatchEvent}
    (member : batch ∈ t.schedule behaviour) (stopped : t.stops interp batch = true) :
    (t.run interp behaviour).1.docsLoaded <
      t.rounds behaviour * (t.generator.docGen.stop - t.generator.docGen.start).toNat := by
  -- What was loaded is the part before the first stop, and the batch lies behind it.
  have split := List.takeWhile_append_dropWhile (p := fun batch => !t.stops interp batch)
    (l := t.schedule behaviour)
  have left : batch ∈ (t.schedule behaviour).dropWhile fun batch => !t.stops interp batch := by
    rw [← split, List.mem_append] at member
    refine member.resolve_left fun taken => ?_
    have goesOn := List.mem_takeWhile_imp (p := fun batch => !t.stops interp batch) taken
    simp [stopped] at goesOn
  have nonempty : 0 < batch.1.length := List.length_pos_iff.mpr (t.batch_ne_nil behaviour member)
  have loadedLater : batch.1.length ≤ (((t.schedule behaviour).dropWhile fun batch =>
      !t.stops interp batch).map fun batch => batch.1.length).sum :=
    List.single_le_sum (by simp) _ (List.mem_map_of_mem left)
  have total := t.schedule_length_sum behaviour
  rw [← split, List.map_append, List.sum_append] at total
  rw [run_state, loadedAll, reached]
  dsimp only
  omega

/-- A sub-task that is not aborted or cancelled and has no failed key is clean. -/
theorem clean_of_complete (forward : t.generator.docGen.start ≤ t.generator.docGen.stop)
    (complete : t.Complete interp behaviour) : t.Clean behaviour := by
  obtain ⟨whole, noneFails⟩ := complete
  have whole : (t.run interp behaviour).1.docsLoaded =
      t.rounds behaviour * (t.generator.docGen.stop - t.generator.docGen.start).toNat := by
    zify
    rw [Int.toNat_of_nonneg (by omega)]
    exact whole
  intro batch member
  have notStopped : t.stops interp batch = false := by
    by_contra stopped
    have short := t.docsLoaded_lt_of_stopped interp behaviour member (by simpa using stopped)
    omega
  have noFailedKey := noneFails batch member
  cases event : batch.2 with
  | returned fail =>
    simp only [event, BatchEvent.FailsKey, not_not] at noFailedKey
    rw [noFailedKey]
  | callRaised raised => simp [event, BatchEvent.FailsKey] at noFailedKey
  | aborted => simp [stops, event, proceeds] at notStopped
  | cancelled => simp [stops, event, proceeds] at notStopped

theorem complete_of_clean (forward : t.generator.docGen.start ≤ t.generator.docGen.stop)
    (clean : t.Clean behaviour) : t.Complete interp behaviour := by
  refine ⟨?_, ?_⟩
  · rw [docsLoaded_of_clean interp behaviour t clean]
    push_cast
    rw [Int.toNat_of_nonneg (by omega)]
  · intro batch member
    simp [clean batch member, BatchEvent.FailsKey]

/-! ## Sub-tasks that make the load fail -/

/-- A batch that the sub-task gets through has a failed key, and failures are tracked. -/
def RecordsFailure : Prop :=
  t.trackFailures = true ∧ ∃ batch ∈ t.reached interp behaviour, batch.2.failed ≠ []

def Aborts : Prop :=
  ∃ batch, (t.schedule behaviour).find? (t.stops interp) = some batch ∧ batch.2.ends = .raised

/-- The failed key or the exception reaches the caller. -/
def Reported : Prop :=
  t.RecordsFailure interp behaviour ∨ (t.Aborts interp behaviour ∧ interp.catchesJava = false)

theorem fail_ne_nil_iff :
    (t.run interp behaviour).1.fail ≠ [] ↔ t.RecordsFailure interp behaviour := by
  rw [run_state, loadedAll, RecordsFailure]
  cases t.trackFailures <;> simp

theorem end_eq_raised_iff :
    (t.run interp behaviour).2 = .raised ↔ t.Aborts interp behaviour := by
  rw [run_end, Aborts]
  cases (t.schedule behaviour).find? (t.stops interp) <;> simp

end SubTask

/-- The wait ends with True when no sub-task recorded a failure and no exception gets past it. -/
theorem waitForTaskCompletion_true_iff (interp : Interpreter) (result : Bool)
    (runs : List (LoadState × TaskEnd)) :
    waitForTaskCompletion interp result runs = .ok true ↔
      result = true ∧ ∀ ended ∈ runs, ended.1.fail = [] ∧
        (ended.2 = .raised → interp.catchesJava = true) := by
  induction runs generalizing result with
  | nil => simp [waitForTaskCompletion]
  | cons first runs ih =>
    obtain ⟨state, ended⟩ := first
    have goesOn : waitForTaskCompletion interp (result && state.fail.isEmpty) runs = .ok true ↔
        result = true ∧ state.fail = [] ∧ ∀ ended ∈ runs, ended.1.fail = [] ∧
          (ended.2 = .raised → interp.catchesJava = true) := by
      rw [ih, Bool.and_eq_true, List.isEmpty_iff, and_assoc]
    cases ended with
    | returned => simpa [waitForTaskCompletion, getTaskResult] using goesOn
    | cancelled => simpa [waitForTaskCompletion, getTaskResult] using goesOn
    | raised =>
      cases catches : interp.catchesJava with
      | true =>
        simpa [waitForTaskCompletion, getTaskResult, Interpreter.exceptException, catches]
          using goesOn
      | false =>
        simp [waitForTaskCompletion, getTaskResult, Interpreter.exceptException, catches]

theorem bind_eq_ok_true {ε : Type*} {first : Except ε Bool} {second : Bool → Except ε Bool}
    (needsTrue : ∀ result, second result = .ok true → result = true) :
    (first >>= second) = .ok true ↔ first = .ok true ∧ second true = .ok true := by
  rw [bind_eq_ok]
  constructor
  · intro ⟨result, returned, rest⟩
    rw [needsTrue result rest] at returned rest
    exact ⟨returned, rest⟩
  · intro ⟨returned, rest⟩
    exact ⟨true, returned, rest⟩

theorem lt_of_mem_pyRange {start stop pos : Int} {step : Nat} (positive : 0 < step)
    (member : pos ∈ pyRange start stop step) : pos < stop := by
  obtain ⟨i, iMember, rfl⟩ := List.mem_map.mp member
  have count : i + 1 ≤ ((stop - start).toNat + step - 1) / step := List.mem_range.mp iMember
  rw [Nat.le_div_iff_mul_le positive, Nat.add_mul, Nat.one_mul, Nat.mul_comm] at count
  omega

namespace MutateDocsFromSpecTask

variable (interp : Interpreter) (behaviour : Behaviour) (task : MutateDocsFromSpecTask)

theorem wait_group_true_iff (result : Bool) (group : TaskGroup) :
    waitForTaskCompletion interp result (task.groupRuns interp behaviour group) = .ok true ↔
      result = true ∧
        ∀ t ∈ task.getTasks, t.op.group = group → ¬t.Reported interp behaviour := by
  rw [waitForTaskCompletion_true_iff, groupRuns, List.forall_mem_map]
  refine and_congr_right fun _ => ?_
  simp only [List.mem_filter, decide_eq_true_eq, and_imp]
  refine forall₂_congr fun t _ => forall_congr' fun _ => ?_
  rw [SubTask.end_eq_raised_iff, SubTask.Reported, ← SubTask.fail_ne_nil_iff]
  simp only [not_or, not_not, not_and, Bool.not_eq_false]

theorem call_true_iff :
    task.call interp behaviour = .ok true ↔
      ∀ t ∈ task.getTasks, ¬t.Reported interp behaviour := by
  have needsTrue : ∀ group result, waitForTaskCompletion interp result
      (task.groupRuns interp behaviour group) = .ok true → result = true :=
    fun group result returned => ((task.wait_group_true_iff interp behaviour result group).mp returned).1
  rw [call, bind_eq_ok_true, bind_eq_ok_true (needsTrue _)]
  · simp only [wait_group_true_iff, true_and]
    constructor
    · intro ⟨loadGen, subdoc, cont⟩ t member
      cases group : t.op.group with
      | loadGen => exact loadGen t member group
      | loadSubdocGen => exact subdoc t member group
      | contLoadGen => exact cont t member group
    · intro none
      exact ⟨fun t member _ => none t member, fun t member _ => none t member,
        fun t member _ => none t member⟩
  · intro result returned
    exact needsTrue _ result ((bind_eq_ok_true (needsTrue _)).mp returned).1

theorem partitionGens_forward {processConcurrency batchSize : Int} {gen : DocSource}
    {generators : List BatchedDocumentGenerator} {g : BatchedDocumentGenerator}
    (built : partitionGens processConcurrency batchSize gen = some generators)
    (member : g ∈ generators) : g.docGen.start ≤ g.docGen.stop := by
  unfold partitionGens at built
  simp only at built
  split_ifs at built with _ positive empty
  · cases built
    obtain ⟨pos, posMember, rfl⟩ := List.mem_map.mp member
    have before : pos < gen.stop := lt_of_mem_pyRange (by omega) posMember
    dsimp only
    omega
  · cases built
    cases member

theorem createTasksForCollections_forward {load : CollectionLoad} {t : SubTask}
    (ops : List (LoadOp × LoadOpData)) (member : t ∈ task.createTasksForCollections load ops) :
    t.generator.docGen.start ≤ t.generator.docGen.stop := by
  induction ops with
  | nil => cases member
  | cons op ops ih =>
    unfold createTasksForCollections at member
    cases built : partitionGens task.processConcurrency task.batchSize op.2.docGen with
    | none => simp [built] at member
    | some generators =>
      simp only [built, List.mem_append] at member
      obtain first | later := member
      · by_cases hasTask : op.1.hasTask = true
        · simp only [hasTask, if_true, List.mem_map] at first
          obtain ⟨g, gMember, rfl⟩ := first
          exact partitionGens_forward built gMember
        · simp [hasTask] at first
      · exact ih later

theorem getTasks_forward {t : SubTask} (member : t ∈ task.getTasks) :
    t.generator.docGen.start ≤ t.generator.docGen.stop := by
  obtain ⟨load, _, member⟩ := List.mem_flatMap.mp member
  exact task.createTasksForCollections_forward load.ops member

end MutateDocsFromSpecTask

/-- A load that returns True is complete exactly when some sub-task is reported, so that it does
    not return True, or every sub-task is clean. -/
theorem load_reports_iff (interp : Interpreter) (behaviour : Behaviour)
    (task : MutateDocsFromSpecTask) :
    (task.call interp behaviour = .ok true →
        ∀ t ∈ task.getTasks, t.Complete interp behaviour) ↔
      (∃ t ∈ task.getTasks, t.Reported interp behaviour) ∨
        ∀ t ∈ task.getTasks, t.Clean behaviour := by
  rw [MutateDocsFromSpecTask.call_true_iff]
  have completeIff : ∀ t ∈ task.getTasks, t.Complete interp behaviour ↔ t.Clean behaviour := by
    intro t member
    have forward := task.getTasks_forward member
    exact ⟨t.clean_of_complete interp behaviour forward, t.complete_of_clean interp behaviour forward⟩
  rw [forall₂_congr completeIff, imp_iff_not_or]
  simp only [not_forall, not_not, exists_prop]

def oneCreate : MutateDocsFromSpecTask where
  loaderSpec :=
    [{ bucket := "default"
       scope := "_default"
       collection := "_default"
       ops :=
        [(.doc .create,
          { docGen :=
              { start := 0
                stop := 1
                key := fun _ => "doc-0"
                value := fun _ => none
                deepCopy := false }
            trackFailures := none
            iterations := none })] }]
  processConcurrency := 1
  batchSize := 500
  trackFailures := true

/-- In every batch the client's bulk call raises, as it does for an error without a message. -/
def raisingCalls : Behaviour where
  stopAfter := fun _ => 0
  event := fun _ _ _ => .callRaised .exception

/-- The bulk insert raises for the only batch, and the load returns True. -/
theorem raising_insert_returns_true :
    ¬∃ interp : Interpreter, ∀ (behaviour : Behaviour) (task : MutateDocsFromSpecTask),
      task.call interp behaviour = .ok true →
        ∀ t ∈ task.getTasks, t.Complete interp behaviour := by
  intro ⟨interp, reports⟩
  let t := oneCreate.getTasks.head (by decide)
  let batch := (t.schedule raisingCalls).head (by decide)
  have returned : oneCreate.call interp raisingCalls = .ok true := rfl
  have complete := reports raisingCalls oneCreate returned t (List.head_mem _)
  exact complete.2 batch (List.head_mem _) trivial

end Taf.Tasks
