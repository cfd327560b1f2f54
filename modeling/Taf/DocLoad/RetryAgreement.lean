import Taf.Lib.Run
import Taf.DocLoad.RetryClassifier

/-! # Where the two retry classifiers agree

Each loop is first reduced to a plain fold over the failed keys (or to the fact that
it is left by an exception), and the fold to a closed form: every one of the four
lists is a filter of the failed keys, and `num_items` moves by the number of ignored
and of failed ones.  The comparison of the two closed forms is then a key-by-key
condition. -/

namespace Taf.DocLoad

open Taf.Lib Taf.Bucket

variable (input : RetryInput)

/-! ## What the loops read off one failed key -/

def ignoredKey (failure : Failure) : Bool :=
  findsAny input.ignoreExceptions failure.2.error

def retriedKey (failure : Failure) : Bool :=
  findsAny input.retryExceptions failure.2.error

def retryOk (ambiguous : String → Bool) (failure : Failure) : Bool :=
  match input.retry failure.1 with
  | .raises => false
  | .result status error => retrySucceeds (ambiguous failure.2.error) input.op status error

def filed (ambiguous : String → Bool) (retried success : Bool) (failures : List Failure) :
    List String :=
  (failures.filter fun failure =>
    !ignoredKey input failure && (retriedKey input failure == retried &&
      retryOk input ambiguous failure == success)).map Sigma.fst

/-- The keys that `validate_crud_task_per_collection` takes out of `op_data["fail"]`. -/
def popped (failure : Failure) : Bool :=
  ignoredKey input failure ||
    (retriedKey input failure && retryOk input ambiguousForSpec failure)

def failedForSpec (failure : Failure) : Bool :=
  !ignoredKey input failure && !retryOk input ambiguousForSpec failure

theorem ambiguousForTask_of_spec {error : String} (ambiguous : ambiguousForSpec error = true) :
    ambiguousForTask error = true := by
  simp only [ambiguousForSpec, ambiguousForTask, Bool.or_eq_true, Bool.and_eq_true] at *
  exact ambiguous.imp_right And.left

/-- The task based classifier accepts every retry that the spec based one accepts. -/
theorem retryOk_task_of_spec {failure : Failure}
    (ok : retryOk input ambiguousForSpec failure = true) :
    retryOk input ambiguousForTask failure = true := by
  unfold retryOk at *
  cases outcome : input.retry failure.1 with
  | raises => simp [outcome] at ok
  | result status error =>
    simp only [outcome, retrySucceeds, Bool.or_eq_true, Bool.and_eq_true] at ok ⊢
    exact ok.imp id (And.imp_left ambiguousForTask_of_spec)

/-! ## The task based loop -/

def TaskInfo.file (info : TaskInfo) (failure : Failure) : TaskInfo :=
  if ignoredKey input failure then
    { info with numItems := info.numItems - 1, ignored := info.ignored ++ [failure.1] }
  else if retryOk input ambiguousForTask failure then
    info.fileSuccess (retriedKey input failure) failure.1
  else info.fileFail (retriedKey input failure) failure.1

theorem verifyKey_ok {failure : Failure}
    (proceeds : ignoredKey input failure = true ∨ input.retry failure.1 ≠ .raises)
    (info : TaskInfo) : verifyKey input info failure = .ok (info.file input failure) := by
  obtain ⟨key, doc⟩ := failure
  by_cases isIgnored : findsAny input.ignoreExceptions doc.error = true
  · simp [verifyKey, TaskInfo.file, ignoredKey, isIgnored]
  · cases outcome : input.retry key with
    | raises => simp [ignoredKey, isIgnored, outcome] at proceeds
    | result status error =>
      cases ok : retrySucceeds (ambiguousForTask doc.error) input.op status error <;>
        simp [verifyKey, TaskInfo.file, ignoredKey, retriedKey, retryOk, isIgnored, outcome, ok]

theorem verifyKey_error {failure : Failure} (kept : ignoredKey input failure = false)
    (raises : input.retry failure.1 = .raises) (info : TaskInfo) :
    verifyKey input info failure = .error info := by
  have notIgnored : findsAny input.ignoreExceptions failure.2.error = false := kept
  simp [verifyKey, notIgnored, raises]

theorem run_taskFile (info : TaskInfo) (failures : List Failure) :
    run (TaskInfo.file input) info failures =
      { ignored := info.ignored ++ (failures.filter (ignoredKey input)).map Sigma.fst
        retriedSuccess :=
          info.retriedSuccess ++ filed input ambiguousForTask true true failures
        retriedFail := info.retriedFail ++ filed input ambiguousForTask true false failures
        unwantedSuccess :=
          info.unwantedSuccess ++ filed input ambiguousForTask false true failures
        unwantedFail := info.unwantedFail ++ filed input ambiguousForTask false false failures
        numItems := info.numItems - failures.countP (ignoredKey input) } := by
  induction failures generalizing info with
  | nil => simp [filed]
  | cons failure failures ih =>
    rw [run_cons, ih]
    cases isIgnored : ignoredKey input failure with
    | true =>
      simp [TaskInfo.file, filed, isIgnored]
      omega
    | false =>
      cases retried : retriedKey input failure <;>
        cases ok : retryOk input ambiguousForTask failure <;>
        simp [TaskInfo.file, TaskInfo.fileSuccess, TaskInfo.fileFail, filed, isIgnored, retried, ok]

/-! ## The spec based loop -/

def countShift : DocOp → Int
  | .create => -1
  | .delete => 1
  | _ => 0

theorem uncount_eq (data : OpData) (op : DocOp) :
    data.uncount op = { data with numItems := data.numItems + countShift op } := by
  cases op <;> simp [OpData.uncount, countShift]
  rfl

def OpData.file (data : OpData) (failure : Failure) : OpData :=
  if ignoredKey input failure then
    { data.uncount input.op with fail := data.fail.erase failure.1 }
  else if retryOk input ambiguousForSpec failure then
    data.fileSuccess (retriedKey input failure) failure.1
  else (data.uncount input.op).fileFail (retriedKey input failure) failure.1

def pop (fail : FailedDocs) (failure : Failure) : FailedDocs :=
  if popped input failure then fail.erase failure.1 else fail

def SpecProceeds (failure : Failure) : Prop :=
  matchesExceptionPattern failure.2.error = true ∧
    (ignoredKey input failure = true ∨ retryOk input ambiguousForSpec failure = true ∨
      ∃ error, input.retry failure.1 = .result false error ∧ matchesExceptionPattern error = true)

theorem validateKey_ok {failure : Failure} (proceeds : SpecProceeds input failure)
    (data : OpData) : validateKey input data failure = .ok (data.file input failure) := by
  obtain ⟨key, doc⟩ := failure
  obtain ⟨named, reason⟩ := proceeds
  have named : matchesExceptionPattern doc.error = true := named
  by_cases isIgnored : findsAny input.ignoreExceptions doc.error = true
  · simp [validateKey, OpData.file, ignoredKey, isIgnored, named]
  · cases outcome : input.retry key with
    | raises => simp [ignoredKey, retryOk, isIgnored, outcome] at reason
    | result status error =>
      cases ok : retrySucceeds (ambiguousForSpec doc.error) input.op status error with
      | true =>
        simp [validateKey, OpData.file, ignoredKey, retriedKey, retryOk, isIgnored, outcome, ok,
          named]
      | false =>
        have retryNamed : matchesExceptionPattern error = true := by
          simp only [ignoredKey, retryOk, isIgnored, outcome, ok] at reason
          obtain ⟨_, same, named⟩ := reason.resolve_left (by simp) |>.resolve_left (by simp)
          cases same
          exact named
        simp [validateKey, OpData.file, ignoredKey, retriedKey, retryOk, isIgnored, outcome, ok,
          named, retryNamed]

theorem validateKey_error {failure : Failure} (stuck : ¬SpecProceeds input failure)
    (data : OpData) : ∃ stopped, validateKey input data failure = .error stopped := by
  obtain ⟨key, doc⟩ := failure
  by_cases named : matchesExceptionPattern doc.error = true
  · by_cases isIgnored : findsAny input.ignoreExceptions doc.error = true
    · exact absurd ⟨named, .inl isIgnored⟩ stuck
    · cases outcome : input.retry key with
      | raises => exact ⟨data, by simp [validateKey, named, isIgnored, outcome]⟩
      | result status error =>
        cases ok : retrySucceeds (ambiguousForSpec doc.error) input.op status error with
        | true => exact absurd ⟨named, .inr (.inl (by simp [retryOk, outcome, ok]))⟩ stuck
        | false =>
          have failedStatus : status = false := by
            cases status
            · rfl
            · simp [retrySucceeds] at ok
          subst failedStatus
          have unnamed : matchesExceptionPattern error = false := by
            by_contra retryNamed
            exact stuck ⟨named, .inr (.inr ⟨error, outcome, by simpa using retryNamed⟩)⟩
          refine ⟨(data.uncount input.op).fileFail (findsAny input.retryExceptions doc.error) key, ?_⟩
          simp [validateKey, named, isIgnored, outcome, ok, unnamed]
  · exact ⟨data, by simp [validateKey, named]⟩

theorem run_specFile (data : OpData) (failures : List Failure) :
    run (OpData.file input) data failures =
      { fail := run (pop input) data.fail failures
        retriedSuccess :=
          data.retriedSuccess ++ filed input ambiguousForSpec true true failures
        retriedFail := data.retriedFail ++ filed input ambiguousForSpec true false failures
        unwantedSuccess :=
          data.unwantedSuccess ++ filed input ambiguousForSpec false true failures
        unwantedFail := data.unwantedFail ++ filed input ambiguousForSpec false false failures
        numItems := data.numItems + countShift input.op *
          (failures.countP (ignoredKey input) + failures.countP (failedForSpec input)) } := by
  induction failures generalizing data with
  | nil => simp [filed]
  | cons failure failures ih =>
    rw [run_cons, ih]
    cases isIgnored : ignoredKey input failure with
    | true =>
      simp [OpData.file, uncount_eq, pop, popped, filed, failedForSpec, isIgnored]
      ring
    | false =>
      cases retried : retriedKey input failure <;>
        cases ok : retryOk input ambiguousForSpec failure <;>
        simp [OpData.file, OpData.fileSuccess, OpData.fileFail, uncount_eq, pop, popped, filed,
          failedForSpec, isIgnored, retried, ok]
      all_goals ring

/-- `op_data["fail"]` keeps the keys that were not taken out. -/
theorem mem_run_pop (fail : FailedDocs) (failures : List Failure) (key : String) :
    key ∈ run (pop input) fail failures ↔
      key ∈ fail ∧ ∀ failure ∈ failures, popped input failure = true → failure.1 ≠ key := by
  induction failures generalizing fail with
  | nil => simp
  | cons failure failures ih =>
    rw [run_cons, ih]
    cases isPopped : popped input failure <;> simp [pop, isPopped, AList.mem_erase]
    grind

section Unique

variable {fails : FailedDocs}

theorem failure_eq_of_key_eq {first second : Failure} (firstMember : first ∈ fails.entries)
    (secondMember : second ∈ fails.entries) (sameKey : first.1 = second.1) : first = second :=
  fails.nodupKeys.eq_of_fst_eq firstMember secondMember sameKey

theorem mem_filed {ambiguous : String → Bool} {retried success : Bool} {failure : Failure}
    (member : failure ∈ fails.entries) :
    failure.1 ∈ filed input ambiguous retried success fails.entries ↔
      ignoredKey input failure = false ∧ retriedKey input failure = retried ∧
        retryOk input ambiguous failure = success := by
  simp only [filed, List.mem_map, List.mem_filter, Bool.and_eq_true, beq_iff_eq,
    Bool.not_eq_true']
  refine ⟨?_, fun filedSo => ⟨failure, ⟨member, filedSo⟩, rfl⟩⟩
  intro ⟨other, ⟨otherMember, filedSo⟩, sameKey⟩
  exact failure_eq_of_key_eq otherMember member sameKey ▸ filedSo

theorem pop_all_isEmpty :
    (run (pop input) fails fails.entries).entries.isEmpty = true ↔
      ∀ failure ∈ fails.entries, popped input failure = true := by
  rw [List.isEmpty_iff]
  constructor
  · intro empty failure member
    by_contra notPopped
    have left : failure.1 ∈ run (pop input) fails fails.entries := by
      rw [mem_run_pop]
      refine ⟨AList.mem_keys.mpr (List.mem_map_of_mem member), ?_⟩
      intro other otherMember otherPopped sameKey
      exact notPopped (failure_eq_of_key_eq otherMember member sameKey ▸ otherPopped)
    rw [AList.mem_keys, AList.keys, List.keys, empty] at left
    cases left
  · intro allPopped
    rw [List.eq_nil_iff_forall_not_mem]
    intro left leftMember
    have leftKey : left.1 ∈ run (pop input) fails fails.entries :=
      AList.mem_keys.mpr (List.mem_map_of_mem leftMember)
    rw [mem_run_pop] at leftKey
    obtain ⟨failure, member, sameKey⟩ := List.mem_map.mp (AList.mem_keys.mp leftKey.1)
    exact leftKey.2 failure member (allPopped failure member) sameKey

end Unique

/-! ## The comparison -/

/-- The two classifiers end alike, and each has given its client back once. -/
structure Agree (task spec : Classified) : Prop where
  retriedSuccess : ∀ key, key ∈ task.retriedSuccess ↔ key ∈ spec.retriedSuccess
  retriedFail : ∀ key, key ∈ task.retriedFail ↔ key ∈ spec.retriedFail
  unwantedSuccess : ∀ key, key ∈ task.unwantedSuccess ↔ key ∈ spec.unwantedSuccess
  unwantedFail : ∀ key, key ∈ task.unwantedFail ↔ key ∈ spec.unwantedFail
  numItems : task.numItems = spec.numItems
  verdict : task.failed = true ↔ spec.failed = true
  taskClient : task.acquired = 1 ∧ task.released = 1
  specClient : spec.acquired = 1 ∧ spec.released = 1

/-- The failed key leads both classifiers to the same result: an ignored key is one of a
    create, and a retried one succeeds for both or, where the count does not follow the
    operation, fails for both. -/
def KeyAgrees (failure : Failure) : Prop :=
  matchesExceptionPattern failure.2.error = true ∧
    if ignoredKey input failure then input.op = .create
    else
      retryOk input ambiguousForSpec failure = true ∨
        (input.op ≠ .create ∧ input.op ≠ .delete ∧
          retryOk input ambiguousForTask failure = false ∧
          ∃ error, input.retry failure.1 = .result false error ∧
            matchesExceptionPattern error = true)

section Comparison

variable {input} {fails : FailedDocs} {numItems : Int}

theorem verifyDocOpTaskExceptions_eq
    (proceeds : ∀ failure ∈ fails.entries,
      ignoredKey input failure = true ∨ input.retry failure.1 ≠ .raises) :
    verifyDocOpTaskExceptions input fails numItems =
      { retriedSuccess := filed input ambiguousForTask true true fails.entries
        retriedFail := filed input ambiguousForTask true false fails.entries
        unwantedSuccess := filed input ambiguousForTask false true fails.entries
        unwantedFail := filed input ambiguousForTask false false fails.entries
        numItems := numItems - fails.entries.countP (ignoredKey input)
        failed := !(filed input ambiguousForTask true false fails.entries).isEmpty ||
          !(filed input ambiguousForTask false true fails.entries).isEmpty ||
          !(filed input ambiguousForTask false false fails.entries).isEmpty
        acquired := 1
        released := 1 } := by
  have loop : fails.entries.foldlM (verifyKey input) ({ numItems := numItems } : TaskInfo) = _ :=
    foldlM_eq_ok (fun info failure member => verifyKey_ok input (proceeds failure member) info) _
  rw [run_taskFile] at loop
  simp [verifyDocOpTaskExceptions, loop, TaskInfo.opsFailed]

theorem validateCrudTaskPerCollection_eq
    (proceeds : ∀ failure ∈ fails.entries, SpecProceeds input failure) :
    validateCrudTaskPerCollection input fails numItems =
      { retriedSuccess := filed input ambiguousForSpec true true fails.entries
        retriedFail := filed input ambiguousForSpec true false fails.entries
        unwantedSuccess := filed input ambiguousForSpec false true fails.entries
        unwantedFail := filed input ambiguousForSpec false false fails.entries
        numItems := numItems + countShift input.op *
          (fails.entries.countP (ignoredKey input) + fails.entries.countP (failedForSpec input))
        failed := !(run (pop input) fails fails.entries).entries.isEmpty
        acquired := 1
        released := 1 } := by
  have loop : fails.entries.foldlM (validateKey input)
      ({ fail := fails, numItems := numItems } : OpData) = _ :=
    foldlM_eq_ok (fun data failure member => validateKey_ok input (proceeds failure member) data) _
  rw [run_specFile] at loop
  simp [validateCrudTaskPerCollection, loop]

theorem task_proceeds_of_released
    (released : (verifyDocOpTaskExceptions input fails numItems).released = 1) :
    ∀ failure ∈ fails.entries,
      ignoredKey input failure = true ∨ input.retry failure.1 ≠ .raises := by
  intro failure member
  by_contra stuck
  obtain ⟨kept, raises⟩ := not_or.mp stuck
  obtain ⟨stopped, loop⟩ := foldlM_eq_error member
    (fun info => ⟨info, verifyKey_error input (by simpa using kept) (by simpa using raises) info⟩)
    ({ numItems := numItems } : TaskInfo)
  simp [verifyDocOpTaskExceptions, loop] at released

theorem spec_proceeds_of_released
    (released : (validateCrudTaskPerCollection input fails numItems).released = 1) :
    ∀ failure ∈ fails.entries, SpecProceeds input failure := by
  intro failure member
  by_contra stuck
  obtain ⟨stopped, loop⟩ := foldlM_eq_error member (validateKey_error input stuck)
    ({ fail := fails, numItems := numItems } : OpData)
  simp [validateCrudTaskPerCollection, loop] at released

/-- The counts say which operations may have ignored keys and which may have failed ones. -/
theorem same_count_iff {ignored failed : Nat} :
    numItems - ignored = numItems + countShift input.op * (ignored + failed) ↔
      (0 < ignored → input.op = .create) ∧
        (0 < failed → input.op ≠ .create ∧ input.op ≠ .delete) := by
  cases input.op <;> simp [countShift] <;> omega

theorem filed_isEmpty_iff (ambiguous : String → Bool) (retried success : Bool)
    (failures : List Failure) :
    (filed input ambiguous retried success failures).isEmpty = true ↔
      ∀ failure ∈ failures, ignoredKey input failure = false →
        retriedKey input failure = retried → retryOk input ambiguous failure ≠ success := by
  simp [filed]

/-- `op_data["fail"]` ends empty exactly when all keys were ignored or retried with success. -/
theorem popped_iff (failures : List Failure) :
    (∀ failure ∈ failures, popped input failure = true) ↔
      (filed input ambiguousForSpec true false failures).isEmpty = true ∧
        (filed input ambiguousForSpec false true failures).isEmpty = true ∧
        (filed input ambiguousForSpec false false failures).isEmpty = true := by
  simp only [filed_isEmpty_iff, ← forall_and, popped]
  refine forall₂_congr fun failure _ => ?_
  cases ignoredKey input failure <;> cases retriedKey input failure <;>
    cases retryOk input ambiguousForSpec failure <;> simp

theorem keyAgrees_of_agree
    (agree : Agree (verifyDocOpTaskExceptions input fails numItems)
      (validateCrudTaskPerCollection input fails numItems)) :
    ∀ failure ∈ fails.entries, KeyAgrees input failure := by
  -- A client that is given back means that no key has ended its loop.
  have taskProceeds := task_proceeds_of_released agree.taskClient.2
  have specProceeds := spec_proceeds_of_released agree.specClient.2
  rw [verifyDocOpTaskExceptions_eq taskProceeds,
    validateCrudTaskPerCollection_eq specProceeds] at agree
  obtain ⟨ignoredCreates, failedKeepCount⟩ := same_count_iff.mp agree.numItems
  intro failure member
  obtain ⟨named, reason⟩ := specProceeds failure member
  refine ⟨named, ?_⟩
  by_cases isIgnored : ignoredKey input failure = true
  · rw [if_pos isIgnored]
    exact ignoredCreates (List.countP_pos_iff.mpr ⟨failure, member, isIgnored⟩)
  · rw [if_neg isIgnored]
    by_cases ok : retryOk input ambiguousForSpec failure = true
    · exact .inl ok
    · have failedSo : failedForSpec input failure = true := by
        simp [failedForSpec, isIgnored, ok]
      obtain ⟨notCreate, notDelete⟩ :=
        failedKeepCount (List.countP_pos_iff.mpr ⟨failure, member, failedSo⟩)
      refine .inr ⟨notCreate, notDelete, ?_, (reason.resolve_left isIgnored).resolve_left ok⟩
      -- A key that only the task based classifier accepts is filed in different lists.
      by_contra taskOk
      have sameLists : failure.1 ∈ filed input ambiguousForTask (retriedKey input failure) true
          fails.entries ↔ failure.1 ∈ filed input ambiguousForSpec (retriedKey input failure) true
          fails.entries := by
        cases retriedKey input failure
        · exact agree.unwantedSuccess failure.1
        · exact agree.retriedSuccess failure.1
      rw [mem_filed input member, mem_filed input member] at sameLists
      exact ok (sameLists.mp ⟨by simpa using isIgnored, rfl, by simpa using taskOk⟩).2.2

theorem KeyAgrees.specProceeds {failure : Failure} (agrees : KeyAgrees input failure) :
    SpecProceeds input failure := by
  obtain ⟨named, reason⟩ := agrees
  refine ⟨named, ?_⟩
  by_cases isIgnored : ignoredKey input failure = true
  · exact .inl isIgnored
  · rw [if_neg isIgnored] at reason
    exact .inr (reason.imp_right fun ⟨_, _, _, failedResult⟩ => failedResult)

theorem SpecProceeds.task {failure : Failure} (proceeds : SpecProceeds input failure) :
    ignoredKey input failure = true ∨ input.retry failure.1 ≠ .raises := by
  refine proceeds.2.imp_right ?_
  intro reason raises
  obtain ok | ⟨error, outcome, _⟩ := reason
  · simp [retryOk, raises] at ok
  · rw [raises] at outcome
    cases outcome

theorem KeyAgrees.sameOutcome {failure : Failure} (agrees : KeyAgrees input failure)
    (kept : ignoredKey input failure = false) :
    retryOk input ambiguousForTask failure = retryOk input ambiguousForSpec failure := by
  have reason := agrees.2
  rw [if_neg (by simp [kept])] at reason
  obtain ok | ⟨_, _, taskFails, _⟩ := reason
  · rw [ok, retryOk_task_of_spec input ok]
  · rw [taskFails]
    by_contra specOk
    rw [retryOk_task_of_spec input (by simpa using Ne.symm specOk)] at taskFails
    cases taskFails

theorem agree_of_keyAgrees (agrees : ∀ failure ∈ fails.entries, KeyAgrees input failure) :
    Agree (verifyDocOpTaskExceptions input fails numItems)
      (validateCrudTaskPerCollection input fails numItems) := by
  have specProceeds : ∀ failure ∈ fails.entries, SpecProceeds input failure :=
    fun failure member => (agrees failure member).specProceeds
  have taskProceeds : ∀ failure ∈ fails.entries,
      ignoredKey input failure = true ∨ input.retry failure.1 ≠ .raises :=
    fun failure member => (specProceeds failure member).task
  have sameFiled : ∀ retried success, filed input ambiguousForTask retried success fails.entries =
      filed input ambiguousForSpec retried success fails.entries := by
    intro retried success
    refine congrArg _ (List.filter_congr fun failure member => ?_)
    cases isIgnored : ignoredKey input failure with
    | true => rfl
    | false => rw [(agrees failure member).sameOutcome isIgnored]
  rw [verifyDocOpTaskExceptions_eq taskProceeds, validateCrudTaskPerCollection_eq specProceeds]
  simp only [sameFiled]
  refine ⟨fun _ => Iff.rfl, fun _ => Iff.rfl, fun _ => Iff.rfl, fun _ => Iff.rfl, ?_, ?_,
    ⟨rfl, rfl⟩, ⟨rfl, rfl⟩⟩
  · refine same_count_iff.mpr ⟨?_, ?_⟩
    · intro someIgnored
      obtain ⟨failure, member, isIgnored⟩ := List.countP_pos_iff.mp someIgnored
      simpa [isIgnored] using (agrees failure member).2
    · intro someFailed
      obtain ⟨failure, member, failedSo⟩ := List.countP_pos_iff.mp someFailed
      simp only [failedForSpec, Bool.and_eq_true, Bool.not_eq_true'] at failedSo
      have reason := (agrees failure member).2
      simp only [failedSo, Bool.false_eq_true, false_or] at reason
      exact ⟨reason.1, reason.2.1⟩
  · have emptied : (run (pop input) fails fails.entries).entries.isEmpty = true ↔ _ :=
      (pop_all_isEmpty input).trans (popped_iff fails.entries)
    rw [Bool.not_eq_true', ← Bool.not_eq_true, emptied]
    simp only [Bool.or_eq_true, Bool.not_eq_true']
    cases (filed input ambiguousForSpec true false fails.entries).isEmpty <;>
      cases (filed input ambiguousForSpec false true fails.entries).isEmpty <;>
      cases (filed input ambiguousForSpec false false fails.entries).isEmpty <;> simp

end Comparison

/-- The two classifiers agree exactly when every failed key leads both to the same result. -/
theorem classifiers_agree_iff (input : RetryInput) (fails : FailedDocs) (numItems : Int) :
    Agree (verifyDocOpTaskExceptions input fails numItems)
        (validateCrudTaskPerCollection input fails numItems) ↔
      ∀ failure ∈ fails.entries, KeyAgrees input failure :=
  ⟨keyAgrees_of_agree, agree_of_keyAgrees⟩

def ignoredDelete : RetryInput where
  op := .delete
  ignoreExceptions := [SDKException.documentNotFound]
  retryExceptions := []
  retry := fun _ => .result true ""

/-- One ignored key of a delete is counted as one item less and as one item more. -/
theorem ignored_delete_counts_apart :
    ¬∀ (input : RetryInput) (fails : FailedDocs) (numItems : Int),
      input.op ∈ [DocOp.create, DocOp.update, DocOp.delete] →
      (∀ failure ∈ fails.entries, matchesExceptionPattern failure.2.error = true) →
      (∀ key error, input.retry key = .result false error →
        matchesExceptionPattern error = true) →
      Agree (verifyDocOpTaskExceptions input fails numItems)
        (validateCrudTaskPerCollection input fails numItems) := by
  intro always
  have agree := always ignoredDelete
    (AList.singleton "doc-1" ⟨SDKException.documentNotFound, "value"⟩) 5 (by decide)
    (by simp only [AList.singleton_entries, List.mem_singleton, forall_eq]; decide +kernel)
    (by simp [ignoredDelete])
  have apart : (verifyDocOpTaskExceptions ignoredDelete
      (AList.singleton "doc-1" ⟨SDKException.documentNotFound, "value"⟩) 5).numItems ≠
      (validateCrudTaskPerCollection ignoredDelete
        (AList.singleton "doc-1" ⟨SDKException.documentNotFound, "value"⟩) 5).numItems := by
    decide +kernel
  exact apart agree.numItems

end Taf.DocLoad
