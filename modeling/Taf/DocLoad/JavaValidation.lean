import Taf.Lib.Run
import Taf.Lib.Text
import Taf.Bucket.Collection

/-! # Validating a load with the Java loader

`DocLoaderUtils.perform_doc_loading` starts one `WorkLoadGenerate` per collection and
round until `process_concurrency` is used up and then hands what is left of it to
`data_validation`, which starts readers in the same way.  Both loops make progress
only through their inner loop over a map.  A call is a function of its fuel: `none`
for every fuel is a call that does not come back. -/

namespace Taf.DocLoad

open Taf.Lib Taf.Bucket

/-! ## Settings of the Java side -/

/-- `DocRange`; an operation takes the indices from `s + 1` to `e`. -/
structure DocRange where
  createS : Int := 0
  createE : Int := 0
  readS : Int := 0
  readE : Int := 0
  updateS : Int := 0
  updateE : Int := 0
  deleteS : Int := 0
  deleteE : Int := 0

/-- `WorkLoadSettings`, with the defaults of `get_workload_settings`. -/
structure WorkLoadSettings where
  keyPrefix : String := "test_doc"
  keySize : Int := 10
  docSize : Int := 1
  creates : Int := 0
  reads : Int := 0
  updates : Int := 0
  deletes : Int := 0
  workers : Int := 1
  ops : Int := 1
  keyType : String := "SimpleKey"
  valueType : String := "SimpleValue"
  validate : Bool := false
  expectDeleted : Bool := false
  mutated : Int := 0
  batchSize : Int := 0
  dr : DocRange := {}

inductive LoaderError where
  -- Java's `/ by zero`.
  | arithmetic
  | typeError
  deriving DecidableEq

/-- `get_workload_settings`: the constructor of `WorkLoadSettings` divides by the workers. -/
def getWorkloadSettings (arguments : WorkLoadSettings) : Except LoaderError WorkLoadSettings :=
  if arguments.workers = 0 then .error .arithmetic
  else .ok { arguments with batchSize := arguments.ops.tdiv arguments.workers }

/-- The keys of a loader map, `"bucket:scope:collection"`. -/
structure LoaderKey where
  bucket : String
  scope : String
  collection : String
  deriving DecidableEq

abbrev LoaderMap := AList fun _ : LoaderKey => WorkLoadSettings

/-! ## Readers -/

/-- A `WorkLoadGenerate` that `data_validation` starts, with the generator it reads from. -/
structure Reader where
  key : LoaderKey
  op : DocOp
  settings : WorkLoadSettings
  keyType : String
  valueType : String

/-- What a run finds: the documents of the server and the values that the generator makes. -/
structure Documents where
  server : LoaderKey → Int → Option String
  generate : LoaderKey → WorkLoadSettings → Int → String

/-- The text that `bulkGets` answers for a document; an error is the name of its class. -/
def Documents.answer (docs : Documents) (key : LoaderKey) (index : Int) : String :=
  (docs.server key index).getD "com.couchbase.client.core.error.DocumentNotFoundException"

/-- The comparison of the read branch of `WorkLoadGenerate.run`. -/
def Reader.accepts (docs : Documents) (reader : Reader) (index : Int) : Bool :=
  let actual := docs.answer reader.key index
  if reader.settings.expectDeleted then occursIn "DocumentNotFoundException" actual
  else
    actual == docs.generate reader.key reader.settings index || occursIn "TimeoutException" actual

/-- `task.result` of a reader that was handed the given indices: without `validate` nothing is
    compared. -/
def Reader.result (docs : Documents) (reader : Reader) (handed : List Int) : Bool :=
  !(reader.settings.validate && handed.any fun index => !reader.accepts docs index)

/-- A reader of circular keys starts over at the end of its range. -/
def Reader.neverEnds (reader : Reader) : Bool :=
  reader.keyType == "CircularKey" &&
    0 < (reader.settings.batchSize * reader.settings.reads).tdiv 100

/-! ## `data_validation` -/

def validationRanges (setting : WorkLoadSettings) : List (DocOp × Int × Int × Bool) :=
  (if setting.creates > 0 then [(.create, setting.dr.createS, setting.dr.createE, false)] else []) ++
  (if setting.updates > 0 then [(.update, setting.dr.updateS, setting.dr.updateE, false)] else []) ++
  (if setting.deletes > 0 then [(.delete, setting.dr.deleteS, setting.dr.deleteE, true)] else [])

/-- `update_validation_map`: the settings of the reader are built from scratch. -/
def updateValidationMap (processConcurrency opsRate : Int) (key : LoaderKey)
    (setting : WorkLoadSettings) (range : DocOp × Int × Int × Bool) : Except LoaderError Reader := do
  let (op, start, stop, docsDeleted) := range
  let settings ← getWorkloadSettings
    { keyPrefix := setting.keyPrefix
      keySize := setting.keySize
      docSize := setting.docSize
      reads := 100
      expectDeleted := docsDeleted
      ops := opsRate
      workers := processConcurrency }
  return { key, op, settings := { settings with dr := { readS := start, readE := stop } },
           keyType := setting.keyType, valueType := setting.valueType }

def validationMap (loaderMap : LoaderMap) (processConcurrency opsRate : Int) :
    Except LoaderError (List Reader) :=
  (loaderMap.entries.flatMap fun entry =>
      (validationRanges entry.2).map fun range => (entry.1, entry.2, range)).mapM
    fun (key, setting, range) => updateValidationMap processConcurrency opsRate key setting range

/-- `while process_concurrency > 0`: a round starts a task for every element of the map and counts
    `process_concurrency` down with each; `stamp` is the task name, which is built first. -/
def concurrencyLoop {α : Type*} (stamp : Except LoaderError Unit) (round : List α) :
    Nat → Int → Option (Except LoaderError (List α × Int))
  | 0, _ => none
  | fuel + 1, processConcurrency =>
    if 0 < processConcurrency then
      match round.foldlM (fun left _ => stamp.map fun _ => left - 1) processConcurrency with
      | .error e => some (.error e)
      | .ok left =>
        (concurrencyLoop stamp round fuel left).map fun ended =>
          ended.map fun (tasks, last) => (round ++ tasks, last)
    else some (.ok ([], processConcurrency))

/-- A call with its result and the readers it started. -/
abbrev Validation := Nat → Option (Except LoaderError (Bool × List Reader))

section

variable (docs : Documents)

/-- `data_validation`; `handed` are the indices that each reader takes from the generator it may
    share with others. -/
def dataValidation (loaderMap : LoaderMap) (processConcurrency opsRate : Int)
    (handed : Nat → List Int) : Validation := fun fuel =>
  match validationMap loaderMap processConcurrency opsRate with
  | .error e => some (.error e)
  | .ok readers =>
    match concurrencyLoop (.ok ()) readers fuel processConcurrency with
    | none => none
    | some (.error e) => some (.error e)
    | some (.ok (started, _)) =>
      if started.any Reader.neverEnds then none
      else
        some (.ok (started.zipIdx.all fun task => task.1.result docs (handed task.2), started))

/-- `perform_doc_loading` with `async_load=False` and `validate_results=True`: the validation gets
    the counter that the loading loop has used up. -/
def performDocLoading (stamp : Except LoaderError Unit) (loaderMap : LoaderMap)
    (processConcurrency : Int) (handed : Nat → List Int) : Validation := fun fuel =>
  match concurrencyLoop stamp loaderMap.entries fuel processConcurrency with
  | none => none
  | some (.error e) => some (.error e)
  | some (.ok (_, left)) => dataValidation docs loaderMap left 100 handed fuel

end

/-- `time()` in `perform_doc_loading`: `import time` follows `from time import time`, so the name
    is the module, which cannot be called. -/
def timeStamp : Except LoaderError Unit := .error .typeError

/-! ## The loops -/

section Loops

variable {α : Type*} {stamp : Except LoaderError Unit} {round : List α}

/-- A loop that ends normally ends at once or after a round. -/
theorem concurrencyLoop_inv {fuel : Nat} {processConcurrency left : Int} {tasks : List α}
    (ended : concurrencyLoop stamp round (fuel + 1) processConcurrency = some (.ok (tasks, left))) :
    (processConcurrency ≤ 0 ∧ tasks = [] ∧ left = processConcurrency) ∨
      ∃ counted rest, concurrencyLoop stamp round fuel counted = some (.ok (rest, left)) ∧
        tasks = round ++ rest := by
  rw [concurrencyLoop] at ended
  split_ifs at ended with running
  · cases outcome : round.foldlM (fun left _ => stamp.map fun _ => left - 1)
        processConcurrency with
    | error e => simp [outcome] at ended
    | ok counted =>
      simp only [outcome, Option.map_eq_some_iff] at ended
      obtain ⟨rest, restEnded, same⟩ := ended
      cases rest with
      | error e => cases same
      | ok rest =>
        cases same
        exact .inr ⟨counted, rest.1, restEnded, rfl⟩
  · cases ended
    exact .inl ⟨not_lt.mp running, rfl, rfl⟩

/-- The loop is left with nothing of the counter left. -/
theorem concurrencyLoop_left_le {fuel : Nat} {processConcurrency left : Int} {tasks : List α}
    (ended : concurrencyLoop stamp round fuel processConcurrency = some (.ok (tasks, left))) :
    left ≤ 0 := by
  induction fuel generalizing processConcurrency tasks with
  | zero => cases ended
  | succ fuel ih =>
    obtain ⟨usedUp, _, same⟩ | ⟨counted, rest, restEnded, _⟩ := concurrencyLoop_inv ended
    · exact same ▸ usedUp
    · exact ih restEnded

theorem concurrencyLoop_of_le {fuel : Nat} {processConcurrency : Int}
    {ended : Except LoaderError (List α × Int)} (usedUp : processConcurrency ≤ 0)
    (result : concurrencyLoop stamp round fuel processConcurrency = some ended) :
    ended = .ok ([], processConcurrency) := by
  cases fuel with
  | zero => cases result
  | succ fuel =>
    rw [concurrencyLoop, if_neg (by omega)] at result
    exact (Option.some.inj result).symm

/-- Over an empty map the counter never moves. -/
theorem concurrencyLoop_nil (stamp : Except LoaderError Unit) {processConcurrency : Int}
    (running : 0 < processConcurrency) (fuel : Nat) :
    concurrencyLoop stamp ([] : List α) fuel processConcurrency = none := by
  induction fuel with
  | zero => rfl
  | succ fuel ih =>
    have unmoved : ([] : List α).foldlM (fun left _ => stamp.map fun _ => left - 1)
        processConcurrency = .ok processConcurrency := rfl
    rw [concurrencyLoop, if_pos running, unmoved]
    simp only [ih, Option.map_none]

end Loops

/-! ## What the calls amount to -/

def WorkLoadSettings.percentage (setting : WorkLoadSettings) : DocOp → Int
  | .create => setting.creates
  | .update => setting.updates
  | .delete => setting.deletes
  | _ => 0

def startedReaders : Except LoaderError (Bool × List Reader) → List Reader
  | .ok (_, readers) => readers
  | .error _ => []

section Effective

variable (docs : Documents) (loaderMap : LoaderMap)

/-- A document of a create or update range is missing or has another value, or a document of a
    delete range still exists. -/
def BadDocument : Prop :=
  ∃ entry ∈ loaderMap.entries,
    (entry.2.creates > 0 ∧ ∃ index, entry.2.dr.createS < index ∧ index ≤ entry.2.dr.createE ∧
      docs.server entry.1 index ≠ some (docs.generate entry.1 entry.2 index)) ∨
    (entry.2.updates > 0 ∧ ∃ index, entry.2.dr.updateS < index ∧ index ≤ entry.2.dr.updateE ∧
      docs.server entry.1 index ≠ some (docs.generate entry.1 entry.2 index)) ∨
    (entry.2.deletes > 0 ∧ ∃ index, entry.2.dr.deleteS < index ∧ index ≤ entry.2.dr.deleteE ∧
      docs.server entry.1 index ≠ none)

/-- The call comes back, without a division by zero, has started a reader for every operation of
    a positive percentage, and finds the bad documents. -/
def Effective (call : Validation) : Prop :=
  ∃ fuel outcome, call fuel = some outcome ∧ outcome ≠ .error .arithmetic ∧
    (∀ entry ∈ loaderMap.entries, ∀ op, 0 < entry.2.percentage op →
      ∃ reader ∈ startedReaders outcome, reader.key = entry.1 ∧ reader.op = op) ∧
    (BadDocument docs loaderMap → ∃ readers, outcome = .ok (false, readers))

end Effective

variable {docs : Documents} {loaderMap : LoaderMap} {handed : Nat → List Int}

/-- A validation that comes back has started the readers of its loop and asked each for its
    result. -/
theorem dataValidation_inv {processConcurrency opsRate : Int} {fuel : Nat} {result : Bool}
    {readers : List Reader}
    (ended : dataValidation docs loaderMap processConcurrency opsRate handed fuel =
      some (.ok (result, readers))) :
    ∃ round left, validationMap loaderMap processConcurrency opsRate = .ok round ∧
      concurrencyLoop (.ok ()) round fuel processConcurrency = some (.ok (readers, left)) ∧
      result = readers.zipIdx.all fun task => task.1.result docs (handed task.2) := by
  unfold dataValidation at ended
  cases built : validationMap loaderMap processConcurrency opsRate with
  | error e => simp [built] at ended
  | ok round =>
    cases loop : concurrencyLoop (.ok ()) round fuel processConcurrency with
    | none => simp [built, loop] at ended
    | some started =>
      cases started with
      | error e => simp [built, loop] at ended
      | ok started =>
        obtain ⟨tasks, left⟩ := started
        simp only [built, loop] at ended
        split_ifs at ended with endless
        simp only [Option.some.injEq, Except.ok.injEq, Prod.mk.injEq] at ended
        obtain ⟨rfl, rfl⟩ := ended
        exact ⟨round, left, rfl, loop, rfl⟩

/-- What is left of the counter after the loading loop starts no reader, whatever `time()` is. -/
theorem performDocLoading_starts_nothing {stamp : Except LoaderError Unit}
    {processConcurrency : Int} {fuel : Nat} {outcome : Except LoaderError (Bool × List Reader)}
    (ended : performDocLoading docs stamp loaderMap processConcurrency handed fuel = some outcome) :
    startedReaders outcome = [] := by
  cases outcome with
  | error e => rfl
  | ok returned =>
    obtain ⟨result, readers⟩ := returned
    unfold performDocLoading at ended
    cases loop : concurrencyLoop stamp loaderMap.entries fuel processConcurrency with
    | none => simp [loop] at ended
    | some loaded =>
      cases loaded with
      | error e => simp [loop] at ended
      | ok loaded =>
        have usedUp : loaded.2 ≤ 0 := concurrencyLoop_left_le loop
        simp only [loop] at ended
        obtain ⟨round, left, _, inner, _⟩ := dataValidation_inv ended
        have nothing := concurrencyLoop_of_le usedUp inner
        cases nothing
        rfl

/-- With nothing to validate the reader loop never comes to an end. -/
theorem dataValidation_diverges {processConcurrency opsRate : Int}
    (running : 0 < processConcurrency)
    (idle : ∀ entry ∈ loaderMap.entries, ∀ op, ¬0 < entry.2.percentage op) (fuel : Nat) :
    dataValidation docs loaderMap processConcurrency opsRate handed fuel = none := by
  have empty : validationMap loaderMap processConcurrency opsRate = .ok [] := by
    have noRanges : (loaderMap.entries.flatMap fun entry =>
        (validationRanges entry.2).map fun range => (entry.1, entry.2, range)) = [] := by
      rw [List.flatMap_eq_nil_iff]
      intro entry member
      have creates : ¬entry.2.creates > 0 := idle entry member .create
      have updates : ¬entry.2.updates > 0 := idle entry member .update
      have deletes : ¬entry.2.deletes > 0 := idle entry member .delete
      simp [validationRanges, creates, updates, deletes]
    rw [validationMap, noRanges]
    rfl
  simp only [dataValidation, empty, concurrencyLoop_nil _ running]

/-- For every loader map, counter and server content one of the two calls fails: with a positive
    percentage the loading call starts no reader, and without one the validation never returns. -/
theorem validation_never_effective (docs : Documents) (loaderMap : LoaderMap)
    (processConcurrency opsRate : Int) (handed : Nat → List Int)
    (running : 1 ≤ processConcurrency) (stamp : Except LoaderError Unit) :
    ¬(Effective docs loaderMap
          (performDocLoading docs stamp loaderMap processConcurrency handed) ∧
        Effective docs loaderMap
          (dataValidation docs loaderMap processConcurrency opsRate handed)) := by
  intro ⟨loading, validation⟩
  by_cases busy : ∃ entry ∈ loaderMap.entries, ∃ op, 0 < entry.2.percentage op
  · obtain ⟨entry, member, op, positive⟩ := busy
    obtain ⟨fuel, outcome, ended, _, started, _⟩ := loading
    obtain ⟨reader, readerStarted, _⟩ := started entry member op positive
    rw [performDocLoading_starts_nothing ended] at readerStarted
    cases readerStarted
  · obtain ⟨fuel, outcome, ended, _⟩ := validation
    have idle : ∀ entry ∈ loaderMap.entries, ∀ op, ¬0 < entry.2.percentage op := by
      intro entry member op positive
      exact busy ⟨entry, member, op, positive⟩
    rw [dataValidation_diverges (by omega) idle] at ended
    cases ended

def tenCreates : LoaderMap :=
  AList.singleton ⟨"default", "_default", "_default"⟩
    { creates := 100, ops := 10, batchSize := 10, dr := { createE := 10 } }

def emptyServer : Documents where
  server := fun _ _ => none
  generate := fun _ _ _ => "value"

theorem validation_never_effective_one_create :
    1 ≤ (1 : Int) ∧
      ¬(Effective emptyServer tenCreates
            (performDocLoading emptyServer timeStamp tenCreates 1 fun _ => []) ∧
          Effective emptyServer tenCreates
            (dataValidation emptyServer tenCreates 1 100 fun _ => [])) :=
  ⟨by decide, validation_never_effective emptyServer tenCreates 1 100 (fun _ => []) (by decide)
    timeStamp⟩

/-- The loading call raises before it has started anything. -/
theorem loading_raises_type_error :
    ¬∀ (docs : Documents) (loaderMap : LoaderMap) (processConcurrency opsRate : Int)
      (handed : Nat → List Int), loaderMap.entries ≠ [] → 1 ≤ processConcurrency →
      Effective docs loaderMap
          (performDocLoading docs timeStamp loaderMap processConcurrency handed) ∧
        Effective docs loaderMap
          (dataValidation docs loaderMap processConcurrency opsRate handed) := by
  intro effective
  have both := effective emptyServer tenCreates 1 100 (fun _ => []) (by decide) (by decide)
  obtain ⟨fuel, outcome, ended, _, started, _⟩ := both.1
  obtain ⟨reader, readerStarted, _⟩ :=
    started _ (by rw [tenCreates, AList.singleton_entries, List.mem_singleton]) .create (by decide)
  rw [performDocLoading_starts_nothing ended] at readerStarted
  cases readerStarted

end Taf.DocLoad
