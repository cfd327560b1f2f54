import Taf.Lib.Dict
import Taf.Lib.Text
import Taf.Tasks.DurabilityCheckers

/-! # The verdicts of the durability reader

`Reader` asks for all copies of a document that is written and judges them with the evidence of
its operation: a create has to leave a copy, an update a copy without the old value, and a
delete at most `replicaNumber` copies.  Documents that the SDK has acknowledged and that fail the
test go into `sdk_acked_curd_failed`.  A create and an update put the document's key there;
a delete puts the first copy there, which is a dictionary of four fields. -/

namespace Taf.Tasks.Durability

open Taf.Lib

/-! ## What the SDK finds -/

/-- One of the results of `getAllReplicas`; there is no content where `contentAsObject` raises. -/
structure Replica (V : Type) where
  contentAsObject : Option V
  cas : ℤ

/-- `{"key": key, "value": ..., "cas": ..., "status": True}` -/
structure Copy (V : Type) where
  key : String
  value : V
  cas : ℤ
  status : Bool

variable {V : Type}

/-- The loop of `get_from_all_replicas`; an exception ends it with the copies it has. -/
def readCopies (key : String) : List (Replica V) → List (Copy V)
  | [] => []
  | item :: items =>
    match item.contentAsObject with
    | some value =>
      { key := key, value := value, cas := item.cas, status := true } :: readCopies key items
    | none => []

/-- There are no results where `toArray` raises. -/
def getFromAllReplicas (key : String) (getResult : Option (List (Replica V))) : List (Copy V) :=
  match getResult with
  | some items => readCopies key items
  | none => []

/-- A value in the dictionaries of the reader: a document, or one of the fields of a copy. -/
inductive Held (V : Type) where
  | key (key : String)
  | value (value : V)
  | cas (cas : ℤ)
  | status (status : Bool)

def Copy.items (copy : Copy V) : List (String × Held V) :=
  [("key", .key copy.key), ("value", .value copy.value), ("cas", .cas copy.cas),
    ("status", .status copy.status)]

def copyFields : List String := ["key", "value", "cas", "status"]

theorem Copy.keys_items (copy : Copy V) : copy.items.map Prod.fst = copyFields := rfl

/-! ## The reader -/

def durabilityAmbiguousException : String :=
  "com.couchbase.client.core.error.DurabilityAmbiguousException"

def timeoutException : String := "com.couchbase.client.core.error.TimeoutException"

/-- What the reader judges its documents by.  The answers of the SDK come with the index, in case
    the range has a key twice. -/
structure Evidence (V : Type) where
  -- `create_failed`, `update_failed` or `delete_failed`: the texts under `"error"`
  failed : AList fun _ : String => String
  docsToBeUpdated : AList fun _ : String => V
  replicaNumber : ℕ
  -- The documents of the reader's own copy of the generator
  document : ℤ → String × V
  getAllReplicas : ℤ → Option (List (Replica V))

structure Verdicts (V : Type) where
  sdkAckedCurdFailed : AList fun _ : String => Held V := ∅
  sdkExceptionCrudSucceed : AList fun _ : String => Held V := ∅

/-- `KeyError` -/
structure KeyError where
  key : String

/-- `sdk_acked_curd_failed.update({key: val})` -/
def Verdicts.ackFailed (s : Verdicts V) (doc : String × V) : Verdicts V :=
  { s with sdkAckedCurdFailed := s.sdkAckedCurdFailed.insert doc.1 (.value doc.2) }

def Verdicts.exceptionSucceed (s : Verdicts V) (doc : String × V) : Verdicts V :=
  { s with sdkExceptionCrudSucceed := s.sdkExceptionCrudSucceed.insert doc.1 (.value doc.2) }

/-- `sdk_acked_curd_failed.update(result[0])` -/
def Verdicts.ackFirstCopy (s : Verdicts V) : List (Copy V) → Verdicts V
  | copy :: _ => { s with sdkAckedCurdFailed := assignAll copy.items s.sdkAckedCurdFailed }
  | [] => s

namespace Evidence

variable (evidence : Evidence V)

def key (index : ℤ) : String := (evidence.document index).1

def copies (index : ℤ) : List (Copy V) :=
  getFromAllReplicas (evidence.key index) (evidence.getAllReplicas index)

def inspectCreate (doc : String × V) (result : List (Copy V)) (s : Verdicts V) : Verdicts V :=
  match evidence.failed.lookup doc.1 with
  | none => if result.length = 0 then s.ackFailed doc else s
  | some error =>
    if 0 < result.length then
      if occursIn durabilityAmbiguousException error || occursIn timeoutException error then s
      else s.exceptionSucceed doc
    else s

variable [DecidableEq V]

/-- `doc["value"] == self.docs_to_be_updated[key]["value"]` -/
def isOld (key : String) (copy : Copy V) : Except KeyError Bool :=
  match evidence.docsToBeUpdated.lookup key with
  | some value => .ok (copy.value = value)
  | none => .error { key := key }

/-- `for doc in result`, with what a round does where the copy has another value -/
def eachNew {σ : Type} (key : String) (changed : σ → σ) (result : List (Copy V)) (s : σ) :
    Except KeyError σ :=
  result.foldlM (fun s copy => do
    if ← evidence.isOld key copy then pure s else pure (changed s)) s

def inspectUpdate (doc : String × V) (result : List (Copy V)) (s : Verdicts V) :
    Except KeyError (Verdicts V) :=
  match evidence.failed.lookup doc.1 with
  | none =>
    if result.length = 0 then .ok (s.ackFailed doc)
    else do
      let tempCount ← evidence.eachNew doc.1 (fun tempCount => tempCount + 1) result 0
      if tempCount = 0 then pure (s.ackFailed doc) else pure s
  | some _ => evidence.eachNew doc.1 (fun s => s.exceptionSucceed doc) result s

omit [DecidableEq V] in
def inspectDelete (doc : String × V) (result : List (Copy V)) (s : Verdicts V) : Verdicts V :=
  match evidence.failed.lookup doc.1 with
  | none => if evidence.replicaNumber < result.length then s.ackFirstCopy result else s
  | some _ => s

/-- One round of `Reader` -/
def inspect (opType : OpType) (s : Verdicts V) (index : ℤ) : Except KeyError (Verdicts V) :=
  let doc := evidence.document index
  let result := evidence.copies index
  match opType with
  | .create => .ok (evidence.inspectCreate doc result s)
  | .update => evidence.inspectUpdate doc result s
  | .delete => .ok (evidence.inspectDelete doc result s)

end Evidence

/-- The indices of `self.generator._doc_gen` -/
def Loader.range (loader : Loader) : List ℤ :=
  window loader.start (loader.stop - loader.start).toNat

/-- `Reader` over its whole range; a `KeyError` ends the thread. -/
def Evidence.reader [DecidableEq V] (evidence : Evidence V) (loader : Loader) :
    Except KeyError (Verdicts V) :=
  loader.range.foldlM (evidence.inspect loader.opType) {}

namespace Evidence

variable {evidence : Evidence V} {key : String}

/-! ## The copies of an update -/

section Update

variable [DecidableEq V] {doc : String × V} {result : List (Copy V)} {s next : Verdicts V}
  {value : V}

theorem eachNew_known {σ : Type} {changed : σ → σ}
    (known : evidence.docsToBeUpdated.lookup key = some value) (s : σ) :
    evidence.eachNew key changed result s =
      .ok (result.foldl (fun s copy => if copy.value = value then s else changed s) s) := by
  rw [eachNew]
  apply foldlM_eq_ok
  intro s copy _
  rw [isOld, known]
  by_cases old : copy.value = value
  · rw [if_pos old]
    simp [old, bind, Except.bind, pure, Except.pure]
  · rw [if_neg old]
    simp [old, bind, Except.bind, pure, Except.pure]

theorem eachNew_unknown {σ : Type} {changed : σ → σ}
    (unknown : evidence.docsToBeUpdated.lookup key = none) (found : result ≠ []) (s : σ) :
    evidence.eachNew key changed result s = .error { key := key } := by
  cases result with
  | nil => exact absurd rfl found
  | cons copy result =>
    rw [eachNew, List.foldlM_cons, isOld, unknown]
    rfl

/-- `temp_count == 0` -/
theorem count_eq_zero_iff :
    result.foldl (fun tempCount copy => if copy.value = value then tempCount else tempCount + 1) 0 = 0 ↔
      ∀ copy ∈ result, copy.value = value := by
  have each : ∀ (tempCount : ℕ) (copy : Copy V),
      (if copy.value = value then tempCount else tempCount + 1) ≠ 0 ↔
        tempCount ≠ 0 ∨ copy.value ≠ value := by
    intro tempCount copy
    by_cases old : copy.value = value
    · simp [old]
    · simp [old]
  have shown := @foldl_shows_iff _ _ _ (fun tempCount : ℕ => tempCount ≠ 0) _ each result 0
  rw [← not_iff_not, ← ne_eq, shown]
  simp

end Update

/-! ## One round -/

/-- The evidence against the document of the index. -/
def Violates (evidence : Evidence V) (opType : OpType) (index : ℤ) : Prop :=
  match opType with
  | .create => evidence.copies index = []
  | .update => ∀ copy ∈ evidence.copies index,
      evidence.docsToBeUpdated.lookup (evidence.key index) = some copy.value
  | .delete => evidence.replicaNumber < (evidence.copies index).length

/-- The SDK has acknowledged what the evidence speaks against. -/
def NotDurable (evidence : Evidence V) (opType : OpType) (index : ℤ) : Prop :=
  evidence.key index ∉ evidence.failed ∧ evidence.Violates opType index

/-- The keys that the reader puts down for a document that is not durable. -/
def recordedKeys (evidence : Evidence V) (opType : OpType) (index : ℤ) : List String :=
  match opType with
  | .create => [evidence.key index]
  | .update => [evidence.key index]
  | .delete => copyFields

/-- The SDK has reported a failure and the copies show that the operation went through. -/
def Contradicted (evidence : Evidence V) (opType : OpType) (index : ℤ) : Prop :=
  ∃ error, evidence.failed.lookup (evidence.key index) = some error ∧
    match opType with
    | .create => evidence.copies index ≠ [] ∧
        ¬ (occursIn durabilityAmbiguousException error || occursIn timeoutException error)
    | .update => ¬ evidence.Violates .update index
    | .delete => False

/-- There is an old value to compare the copies of an update with. -/
def Comparable (evidence : Evidence V) (opType : OpType) (index : ℤ) : Prop :=
  opType = .update → evidence.copies index ≠ [] → evidence.key index ∈ evidence.docsToBeUpdated

section Rounds

variable {index : ℤ} {s next : Verdicts V} {doc : String × V} {result : List (Copy V)}

theorem mem_ackFailed : key ∈ (s.ackFailed doc).sdkAckedCurdFailed ↔
    key ∈ s.sdkAckedCurdFailed ∨ key = doc.1 := by
  rw [Verdicts.ackFailed, AList.mem_insert, or_comm]

theorem mem_ackFirstCopy (found : result ≠ []) :
    key ∈ (s.ackFirstCopy result).sdkAckedCurdFailed ↔
      key ∈ s.sdkAckedCurdFailed ∨ key ∈ copyFields := by
  cases result with
  | nil => exact absurd rfl found
  | cons copy result =>
    show key ∈ assignAll copy.items s.sdkAckedCurdFailed ↔ _
    rw [← AList.lookup_isSome, lookup_assignAll_isSome, copy.keys_items, AList.lookup_isSome, or_comm]

theorem mem_inspectCreate :
    key ∈ (evidence.inspectCreate (evidence.document index) (evidence.copies index) s).sdkAckedCurdFailed ↔
      key ∈ s.sdkAckedCurdFailed ∨ evidence.NotDurable .create index ∧ key = evidence.key index := by
  have same : (evidence.document index).1 = evidence.key index := rfl
  rw [inspectCreate, same]
  cases failure : evidence.failed.lookup (evidence.key index) with
  | none =>
    have acked : evidence.key index ∉ evidence.failed := AList.lookup_eq_none.mp failure
    by_cases none : evidence.copies index = []
    · simp [NotDurable, Violates, acked, none, mem_ackFailed, same]
    · simp [NotDurable, Violates, none]
  | some error =>
    have reported : evidence.key index ∈ evidence.failed := by
      rw [← AList.lookup_isSome, failure]
      rfl
    dsimp only
    split
    · split
      · simp [NotDurable, reported]
      · simp [NotDurable, reported, Verdicts.exceptionSucceed]
    · simp [NotDurable, reported]

theorem mem_inspectDelete :
    key ∈ (evidence.inspectDelete (evidence.document index) (evidence.copies index) s).sdkAckedCurdFailed ↔
      key ∈ s.sdkAckedCurdFailed ∨ evidence.NotDurable .delete index ∧ key ∈ copyFields := by
  have same : (evidence.document index).1 = evidence.key index := rfl
  rw [inspectDelete, same]
  cases failure : evidence.failed.lookup (evidence.key index) with
  | none =>
    have acked : evidence.key index ∉ evidence.failed := AList.lookup_eq_none.mp failure
    by_cases many : evidence.replicaNumber < (evidence.copies index).length
    · have found : evidence.copies index ≠ [] := List.ne_nil_of_length_pos (by omega)
      simp [NotDurable, Violates, acked, many, mem_ackFirstCopy found]
    · simp [NotDurable, Violates, many]
  | some error =>
    have reported : evidence.key index ∈ evidence.failed := by
      rw [← AList.lookup_isSome, failure]
      rfl
    simp [NotDurable, reported]

theorem exceptionSucceed_twice :
    (s.exceptionSucceed doc).exceptionSucceed doc = s.exceptionSucceed doc := by
  simp [Verdicts.exceptionSucceed]

variable [DecidableEq V] {opType : OpType} {loader : Loader}

/-- The copies of a document that has failed add it once, however many of them are new. -/
theorem foldl_exceptionSucceed {value : V} :
    result.foldl (fun s copy => if copy.value = value then s else s.exceptionSucceed doc) s =
      if ∀ copy ∈ result, copy.value = value then s else s.exceptionSucceed doc := by
  induction result generalizing s with
  | nil => simp
  | cons copy result ih =>
    rw [List.foldl_cons, ih]
    by_cases old : copy.value = value
    · simp [old]
    · simp [old, exceptionSucceed_twice]

/-- An update whose copies can be compared, in terms of whether all of them are old. -/
theorem inspectUpdate_comparable
    (comparable : result ≠ [] → doc.1 ∈ evidence.docsToBeUpdated) :
    evidence.inspectUpdate doc result s = .ok
      (match evidence.failed.lookup doc.1 with
      | none =>
        if ∀ copy ∈ result, evidence.docsToBeUpdated.lookup doc.1 = some copy.value then
          s.ackFailed doc
        else s
      | some _ =>
        if ∀ copy ∈ result, evidence.docsToBeUpdated.lookup doc.1 = some copy.value then s
        else s.exceptionSucceed doc) := by
  rw [inspectUpdate]
  by_cases none : result = []
  · subst none
    cases evidence.failed.lookup doc.1 with
    | none => simp
    | some error => simp [eachNew, pure, Except.pure]
  · obtain ⟨value, known⟩ := Option.isSome_iff_exists.mp (AList.lookup_isSome.mpr (comparable none))
    have nonempty : result.length ≠ 0 := fun empty => none (List.eq_nil_of_length_eq_zero empty)
    have old : (∀ copy ∈ result, evidence.docsToBeUpdated.lookup doc.1 = some copy.value) ↔
        ∀ copy ∈ result, copy.value = value := by
      simp [known, eq_comm]
    simp only [old]
    cases evidence.failed.lookup doc.1 with
    | none =>
      dsimp only
      rw [if_neg nonempty, eachNew_known known]
      simp only [bind, Except.bind, pure, Except.pure, count_eq_zero_iff]
      split
      · rfl
      · rfl
    | some error =>
      dsimp only
      rw [eachNew_known known, foldl_exceptionSucceed]

theorem inspectUpdate_incomparable (found : result ≠ [])
    (unknown : doc.1 ∉ evidence.docsToBeUpdated) :
    evidence.inspectUpdate doc result s = .error { key := doc.1 } := by
  have missing := AList.lookup_eq_none.mpr unknown
  have nonempty : result.length ≠ 0 := fun empty => found (List.eq_nil_of_length_eq_zero empty)
  rw [inspectUpdate]
  cases evidence.failed.lookup doc.1 with
  | none =>
    dsimp only
    rw [if_neg nonempty, eachNew_unknown missing found]
    rfl
  | some error => exact eachNew_unknown missing found s

theorem mem_inspectUpdate (comparable : evidence.Comparable .update index)
    (returned : evidence.inspectUpdate (evidence.document index) (evidence.copies index) s =
      .ok next) :
    key ∈ next.sdkAckedCurdFailed ↔
      key ∈ s.sdkAckedCurdFailed ∨ evidence.NotDurable .update index ∧ key = evidence.key index := by
  have same : (evidence.document index).1 = evidence.key index := rfl
  rw [inspectUpdate_comparable (comparable rfl), same] at returned
  cases failure : evidence.failed.lookup (evidence.key index) with
  | none =>
    have acked : evidence.key index ∉ evidence.failed := AList.lookup_eq_none.mp failure
    simp only [failure, Except.ok.injEq] at returned
    subst returned
    by_cases old : ∀ copy ∈ evidence.copies index,
        evidence.docsToBeUpdated.lookup (evidence.key index) = some copy.value
    · have durable : evidence.NotDurable .update index := ⟨acked, old⟩
      rw [if_pos old, mem_ackFailed, same]
      simp only [durable, true_and]
    · have durable : ¬ evidence.NotDurable .update index := fun both => old both.2
      rw [if_neg old]
      simp only [durable, false_and, or_false]
  | some error =>
    have durable : ¬ evidence.NotDurable .update index := by
      intro both
      exact both.1 (AList.lookup_isSome.mp (by rw [failure]; rfl))
    simp only [failure, Except.ok.injEq] at returned
    subst returned
    simp only [durable, false_and, or_false]
    split
    · rfl
    · rfl

/-! What is said of `sdk_exception_crud_succeed` goes the same way. -/

omit [DecidableEq V] in
theorem exception_inspectCreate :
    key ∈ (evidence.inspectCreate (evidence.document index) (evidence.copies index) s).sdkExceptionCrudSucceed ↔
      key ∈ s.sdkExceptionCrudSucceed ∨
        evidence.Contradicted .create index ∧ key = evidence.key index := by
  have same : (evidence.document index).1 = evidence.key index := rfl
  rw [inspectCreate, same]
  cases failure : evidence.failed.lookup (evidence.key index) with
  | none =>
    dsimp only
    split
    · simp [Contradicted, failure, Verdicts.ackFailed]
    · simp [Contradicted, failure]
  | some error =>
    dsimp only
    split
    case isTrue found =>
      split
      case isTrue expected =>
        have agreed : ¬ evidence.Contradicted .create index := by
          intro ⟨error', same', _, unexpected⟩
          rw [failure, Option.some.injEq] at same'
          subst same'
          exact unexpected expected
        simp only [agreed, false_and, or_false]
      case isFalse unexpected =>
        have contradicted : evidence.Contradicted .create index :=
          ⟨error, failure, List.ne_nil_of_length_pos found, unexpected⟩
        rw [Verdicts.exceptionSucceed, AList.mem_insert, same, or_comm]
        simp only [contradicted, true_and]
    case isFalse nowhere =>
      have none : evidence.copies index = [] := List.eq_nil_of_length_eq_zero (by omega)
      simp [Contradicted, none]

theorem exception_inspectUpdate (comparable : evidence.Comparable .update index)
    (returned : evidence.inspectUpdate (evidence.document index) (evidence.copies index) s =
      .ok next) :
    key ∈ next.sdkExceptionCrudSucceed ↔ key ∈ s.sdkExceptionCrudSucceed ∨
      evidence.Contradicted .update index ∧ key = evidence.key index := by
  have same : (evidence.document index).1 = evidence.key index := rfl
  rw [inspectUpdate_comparable (comparable rfl), same] at returned
  cases failure : evidence.failed.lookup (evidence.key index) with
  | none =>
    simp only [failure, Except.ok.injEq] at returned
    subst returned
    split
    · simp [Contradicted, failure, Verdicts.ackFailed]
    · simp [Contradicted, failure]
  | some error =>
    simp only [failure, Except.ok.injEq] at returned
    subst returned
    split
    case isTrue old =>
      have agreed : ¬ evidence.Contradicted .update index := fun ⟨_, _, new⟩ => new old
      simp only [agreed, false_and, or_false]
    case isFalse new =>
      have contradicted : evidence.Contradicted .update index := ⟨error, failure, new⟩
      rw [Verdicts.exceptionSucceed, AList.mem_insert, same, or_comm]
      simp only [contradicted, true_and]

omit [DecidableEq V] in
theorem exception_inspectDelete :
    (evidence.inspectDelete (evidence.document index) (evidence.copies index) s).sdkExceptionCrudSucceed =
      s.sdkExceptionCrudSucceed := by
  rw [inspectDelete]
  cases evidence.failed.lookup (evidence.document index).1 with
  | some error => rfl
  | none =>
    dsimp only
    split
    · cases evidence.copies index with
      | nil => rfl
      | cons copy copies => rfl
    · rfl

theorem inspect_returns (comparable : evidence.Comparable opType index) :
    ∃ next, evidence.inspect opType s index = .ok next := by
  cases opType with
  | create => exact ⟨_, rfl⟩
  | update => exact ⟨_, inspectUpdate_comparable (comparable rfl)⟩
  | delete => exact ⟨_, rfl⟩

theorem inspect_raises (incomparable : ¬ evidence.Comparable opType index) (s : Verdicts V) :
    ∃ e, evidence.inspect opType s index = .error e := by
  simp only [Comparable, not_forall] at incomparable
  obtain ⟨update, found, unknown⟩ := incomparable
  subst update
  exact ⟨_, inspectUpdate_incomparable found unknown⟩

theorem comparable_of_inspect (returned : evidence.inspect opType s index = .ok next) :
    evidence.Comparable opType index := by
  by_contra incomparable
  obtain ⟨e, raised⟩ := inspect_raises incomparable s
  rw [returned] at raised
  cases raised

/-- What a round adds to `sdk_acked_curd_failed`. -/
theorem mem_inspect (returned : evidence.inspect opType s index = .ok next) :
    key ∈ next.sdkAckedCurdFailed ↔ key ∈ s.sdkAckedCurdFailed ∨
      evidence.NotDurable opType index ∧ key ∈ evidence.recordedKeys opType index := by
  cases opType with
  | create =>
    cases returned
    rw [mem_inspectCreate, recordedKeys, List.mem_singleton]
  | update =>
    have comparable := comparable_of_inspect returned
    rw [mem_inspectUpdate comparable returned, recordedKeys, List.mem_singleton]
  | delete =>
    cases returned
    rw [mem_inspectDelete, recordedKeys]

/-- What a round adds to `sdk_exception_crud_succeed`. -/
theorem exception_inspect (returned : evidence.inspect opType s index = .ok next) :
    key ∈ next.sdkExceptionCrudSucceed ↔ key ∈ s.sdkExceptionCrudSucceed ∨
      evidence.Contradicted opType index ∧ key = evidence.key index := by
  cases opType with
  | create =>
    cases returned
    exact exception_inspectCreate
  | update => exact exception_inspectUpdate (comparable_of_inspect returned) returned
  | delete =>
    cases returned
    rw [exception_inspectDelete]
    simp [Contradicted]

/-! ## The whole range -/

theorem reader_returns_iff : (∃ verdicts, evidence.reader loader = .ok verdicts) ↔
    ∀ index ∈ loader.range, evidence.Comparable loader.opType index := by
  constructor
  · intro ⟨verdicts, returned⟩ index member
    by_contra incomparable
    obtain ⟨e, raised⟩ := foldlM_eq_error member (inspect_raises incomparable) ({} : Verdicts V)
    rw [reader, raised] at returned
    cases returned
  · intro comparable
    exact foldlM_returns (fun _ index member => inspect_returns (comparable index member)) _

/-- Only an update compares anything. -/
theorem reader_returns_of_ne (other : loader.opType ≠ .update) :
    ∃ verdicts, evidence.reader loader = .ok verdicts :=
  reader_returns_iff.mpr fun _ _ update => absurd update other

theorem mem_reader {verdicts : Verdicts V} (returned : evidence.reader loader = .ok verdicts) :
    key ∈ verdicts.sdkAckedCurdFailed ↔ ∃ index ∈ loader.range,
      evidence.NotDurable loader.opType index ∧ key ∈ evidence.recordedKeys loader.opType index := by
  have shown := @foldlM_shows_iff _ _ _ _ _ (fun s : Verdicts V => key ∈ s.sdkAckedCurdFailed) _
    (fun s index next stepped => mem_inspect stepped) _ _ returned
  rw [shown]
  simp

/-- `sdk_exception_crud_succeed` names the documents of which the copies contradict the failure,
    and no others. -/
theorem exception_reader {verdicts : Verdicts V} (returned : evidence.reader loader = .ok verdicts) :
    key ∈ verdicts.sdkExceptionCrudSucceed ↔
      ∃ index ∈ loader.range, evidence.Contradicted loader.opType index ∧ key = evidence.key index := by
  have shown := @foldlM_shows_iff _ _ _ _ _ (fun s : Verdicts V => key ∈ s.sdkExceptionCrudSucceed) _
    (fun s index next stepped => exception_inspect stepped) _ _ returned
  rw [shown]
  simp

/-- In every interleaving with the other threads the reader that has broken out of its loop has
    made its verdicts from the whole range. -/
theorem verdicts_of_broken (evidence : Evidence V) (loader : Loader) (schedule : List Action)
    (broken : (run loader.step loader.init schedule).reader.phase = .broken) :
    (run loader.step loader.init schedule).reader.visited.foldlM (evidence.inspect loader.opType) {} =
      evidence.reader loader := by
  have inv := loader.inv_run schedule
  have lag := loader.reader_lag_run schedule
  simp only [Loader.Lag, broken] at lag
  rw [(inv.reader.visited_eq_iff broken).mpr lag]
  rfl

/-- So in every interleaving its two dictionaries are the ones of the whole range. -/
theorem verdicts_of_run {schedule : List Action} {verdicts : Verdicts V}
    (broken : (run loader.step loader.init schedule).reader.phase = .broken)
    (returned : (run loader.step loader.init schedule).reader.visited.foldlM (evidence.inspect loader.opType) {} =
      .ok verdicts) (key : String) :
    (key ∈ verdicts.sdkAckedCurdFailed ↔ ∃ index ∈ loader.range,
      evidence.NotDurable loader.opType index ∧ key ∈ evidence.recordedKeys loader.opType index) ∧
    (key ∈ verdicts.sdkExceptionCrudSucceed ↔
      ∃ index ∈ loader.range, evidence.Contradicted loader.opType index ∧ key = evidence.key index) := by
  rw [verdicts_of_broken evidence loader schedule broken] at returned
  exact ⟨mem_reader returned, exception_reader returned⟩

/-- The reader comes to the end of its range, and the keys it has then put down are those of the
    acknowledged documents that are not durable. -/
def JudgesExactly (evidence : Evidence V) (loader : Loader) : Prop :=
  ∃ verdicts, evidence.reader loader = .ok verdicts ∧
    ∀ key, key ∈ verdicts.sdkAckedCurdFailed ↔
      ∃ index ∈ loader.range, evidence.key index = key ∧ evidence.NotDurable loader.opType index

/-- The acknowledged deletes of which too many copies are found. -/
def undeleted (evidence : Evidence V) (loader : Loader) : List String :=
  (loader.range.filter fun index =>
    evidence.key index ∉ evidence.failed ∧
      evidence.replicaNumber < (evidence.copies index).length).map evidence.key

/-- The updates that are found have an old value to compare them with, and there are not too many
    copies of an acknowledged delete; or the keys of those there are happen to be the names of the
    fields. -/
def Judgeable (evidence : Evidence V) (loader : Loader) : Prop :=
  match loader.opType with
  | .create => True
  | .update => ∀ index ∈ loader.range,
      evidence.copies index ≠ [] → evidence.key index ∈ evidence.docsToBeUpdated
  | .delete => evidence.undeleted loader = [] ∨
      ∀ key, key ∈ evidence.undeleted loader ↔ key ∈ copyFields

omit [DecidableEq V] in
theorem mem_undeleted : key ∈ evidence.undeleted loader ↔
    ∃ index ∈ loader.range, evidence.key index = key ∧ evidence.NotDurable .delete index := by
  simp only [undeleted, List.mem_map, List.mem_filter, decide_eq_true_eq, NotDurable, Violates]
  constructor
  · intro ⟨index, ⟨member, many⟩, same⟩
    exact ⟨index, member, same, many⟩
  · intro ⟨index, member, same, many⟩
    exact ⟨index, ⟨member, many⟩, same⟩

/-- A delete puts the fields down as soon as one document is not durable. -/
theorem mem_reader_delete {verdicts : Verdicts V} (returned : evidence.reader loader = .ok verdicts)
    (delete : loader.opType = .delete) :
    key ∈ verdicts.sdkAckedCurdFailed ↔ evidence.undeleted loader ≠ [] ∧ key ∈ copyFields := by
  rw [mem_reader returned, delete]
  constructor
  · intro ⟨index, member, many, field⟩
    have listed : evidence.key index ∈ evidence.undeleted loader :=
      mem_undeleted.mpr ⟨index, member, rfl, many⟩
    exact ⟨List.ne_nil_of_mem listed, field⟩
  · intro ⟨nonempty, field⟩
    obtain ⟨listed, within⟩ := List.exists_mem_of_ne_nil _ nonempty
    obtain ⟨index, member, _, many⟩ := mem_undeleted.mp within
    exact ⟨index, member, many, field⟩

/-- Creates and updates put down the key of the document itself. -/
theorem mem_reader_own {verdicts : Verdicts V} (returned : evidence.reader loader = .ok verdicts)
    (own : ∀ index, evidence.recordedKeys loader.opType index = [evidence.key index]) :
    key ∈ verdicts.sdkAckedCurdFailed ↔
      ∃ index ∈ loader.range, evidence.key index = key ∧ evidence.NotDurable loader.opType index := by
  rw [mem_reader returned]
  constructor
  · intro ⟨index, member, violated, recorded⟩
    rw [own, List.mem_singleton] at recorded
    exact ⟨index, member, recorded.symm, violated⟩
  · intro ⟨index, member, same, violated⟩
    refine ⟨index, member, violated, ?_⟩
    rw [own, List.mem_singleton, same]

/-- So a reader of creates or updates only has to come to the end. -/
theorem judgesExactly_iff_returns
    (own : ∀ index, evidence.recordedKeys loader.opType index = [evidence.key index]) :
    evidence.JudgesExactly loader ↔ ∃ verdicts, evidence.reader loader = .ok verdicts := by
  constructor
  · intro ⟨verdicts, returned, _⟩
    exact ⟨verdicts, returned⟩
  · intro ⟨verdicts, returned⟩
    exact ⟨verdicts, returned, fun key => mem_reader_own returned own⟩

/-- A reader of deletes is right if there is nothing to put down, or the fields are the keys. -/
theorem judgesExactly_delete_iff (delete : loader.opType = .delete) :
    evidence.JudgesExactly loader ↔ evidence.undeleted loader = [] ∨
      ∀ key, key ∈ evidence.undeleted loader ↔ key ∈ copyFields := by
  obtain ⟨verdicts, returned⟩ := @reader_returns_of_ne V evidence _ loader (by simp [delete])
  have exact : evidence.JudgesExactly loader ↔
      ∀ key, (evidence.undeleted loader ≠ [] ∧ key ∈ copyFields) ↔ key ∈ evidence.undeleted loader := by
    simp only [mem_undeleted, ← delete, ← mem_reader_delete returned delete]
    constructor
    · intro ⟨verdicts', returned', same⟩
      rw [returned, Except.ok.injEq] at returned'
      rwa [returned']
    · intro same
      exact ⟨verdicts, returned, same⟩
  rw [exact]
  constructor
  · intro same
    by_cases none : evidence.undeleted loader = []
    · exact .inl none
    · right
      intro key
      rw [← same key]
      simp [none]
  · intro either key
    cases either with
    | inl none => simp [none]
    | inr fields =>
      have nonempty : evidence.undeleted loader ≠ [] :=
        List.ne_nil_of_mem ((fields "key").mpr List.mem_cons_self)
      rw [fields key]
      simp [nonempty]

/-- The keys that the reader has put down in the end are those of the acknowledged documents that
    are not durable exactly if every update found has an old value to compare it with, and no
    acknowledged delete leaves more than `replicaNumber` copies. -/
theorem judgesExactly_iff (evidence : Evidence V) (loader : Loader) :
    evidence.JudgesExactly loader ↔ evidence.Judgeable loader := by
  rw [Judgeable]
  cases operation : loader.opType with
  | create =>
    have returns := @reader_returns_of_ne V evidence _ loader (by simp [operation])
    rw [judgesExactly_iff_returns (by simp [operation, recordedKeys])]
    exact iff_of_true returns trivial
  | update =>
    rw [judgesExactly_iff_returns (by simp [operation, recordedKeys]), reader_returns_iff]
    simp [operation, Comparable]
  | delete => exact judgesExactly_delete_iff operation

end Rounds

/-! A document that is still on both of its nodes after the delete: what the verdicts name is the
four fields of its first copy. -/

def deleteOne : Loader where
  start := 0
  stop := 1
  batchSize := 1
  positive := Nat.one_pos
  opType := .delete

def stillThere : Evidence ℤ where
  failed := ∅
  docsToBeUpdated := ∅
  replicaNumber := 1
  document := fun _ => ("test_docs-0", 1)
  getAllReplicas := fun _ => some [{ contentAsObject := some 1, cas := 5 }, { contentAsObject := some 1, cas := 5 }]

theorem fields_held_as_keys : ¬ stillThere.JudgesExactly deleteOne := by
  intro ⟨verdicts, returned, same⟩
  have held : "cas" ∈ verdicts.sdkAckedCurdFailed := by
    cases returned
    decide
  obtain ⟨index, _, key, _⟩ := (same "cas").mp held
  exact absurd key (by simp [Evidence.key, stillThere])

end Evidence

end Taf.Tasks.Durability
