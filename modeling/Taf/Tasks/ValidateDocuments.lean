import Taf.Lib.Text
import Taf.Bucket.CrudSpec
import Taf.DocLoad.RetryClassifier
import Taf.Tasks.Task

/-! # Reading documents back

`ValidateDocumentsTask` reads every batch of its generator back and compares the
values.  What goes wrong with a key ends in one of four places (`missing_keys`,
`wrong_values`, `failed_reads`, or `self.exception`), and only the first two make the
batch raise.  With `is_sub_doc` the batches are read and nothing is compared. -/

namespace Taf.Tasks

open Taf.Lib Taf.Bucket Taf.DocLoad

/-! ## Reading one batch -/

/-- The outcome of `bulkGet` for a key.  An error is rendered as its class, its message and what
    `populate_crud_failure_reason` adds; a Java exception may have no message. -/
inductive GetOutcome where
  | found (cas : Nat) (content : PyDict)
  | error (className : String) (message : Option String) (context : String)

structure Replica where
  value : PyDict
  cas : Nat
  status : Bool

inductive ReplicaOutcome where
  | raises (raised : Raised)
  | copies (replicas : List Replica)

structure FoundDoc where
  value : PyDict
  cas : Nat

/-- Where a read leaves its key: in `result_map`, in `failed_reads` with its error, or nowhere. -/
inductive ReadEntry where
  | found (doc : FoundDoc)
  | failed (error : String)
  | absent

/-- `__translate_get_multi_results` for one key: class name + message raises without a message. -/
def getEntry : GetOutcome → Except Raised ReadEntry
  | .found cas content => .ok (.found ⟨content, cas⟩)
  | .error className (some message) context =>
    .ok (.failed (className ++ " | " ++ message ++ context))
  | .error _ none _ => .error .exception

/-- The body of the `check_replica` loop for one key; `render` is `str` of the list of copies. -/
def replicaEntry (render : List Replica → String) (copies : Nat) :
    ReplicaOutcome → Except Raised ReadEntry
  | .raises raised => .error raised
  | .copies [] =>
    -- `result[0]` of an empty list is reached only when no copy is expected at all.
    if copies = 0 then .error .exception else .ok (.failed SDKException.documentNotFound)
  | .copies (first :: rest) =>
    if (first :: rest).length = copies then
      .ok (if first.status then .found ⟨first.value, first.cas⟩ else .absent)
    else .ok (.failed (render (first :: rest)))

structure ReadMaps where
  resultMap : AList fun _ : String => FoundDoc := ∅
  failedReads : AList fun _ : String => String := ∅

def ReadMaps.record (maps : ReadMaps) (key : String) : ReadEntry → ReadMaps
  | .found doc => { maps with resultMap := maps.resultMap.insert key doc }
  | .failed error => { maps with failedReads := maps.failedReads.insert key error }
  | .absent => maps

def readKey (read : String → Except Raised ReadEntry) (maps : ReadMaps) (key : String) :
    Except Raised ReadMaps :=
  (read key).map (maps.record key)

/-! ## `validate_key_val` -/

inductive ValidationError where
  | keysMissing (keys : List String)
  | wrongValues (keys : List String)
  | notDeleted (keys : List String)
  | malformed
  | readRaised (raised : Raised)

/-- `val["mutated"] = int(val["mutated"])`; `none` is the `KeyError`, `TypeError` or `ValueError`. -/
def mutatedAsInt (value : PyDict) : Option PyDict := do
  let mutated ← (← value.lookup "mutated").toInt
  return value.replace "mutated" (.num mutated)

def compareValues (expected actual : PyDict) : Option Bool := do
  let actual ← mutatedAsInt actual
  let expected ← mutatedAsInt expected
  return PyDict.pyEq expected actual

structure KeyReport where
  missing : List String := []
  wrong : List String := []

inductive KeyVerdict where
  | equal
  | wrong
  | missing
  -- Read neither as a value nor as not found: the loop goes on.
  | skipped
  | malformed
  deriving DecidableEq

def foundVerdict (expected : Option PyDict) (doc : FoundDoc) : KeyVerdict :=
  match expected with
  | none => .malformed
  | some expected =>
    -- A zero CAS leads to `map[key]['error']`, which no entry of the map has.
    if doc.cas = 0 then .malformed
    else
      match compareValues expected doc.value with
      | none => .malformed
      | some true => .equal
      | some false => .wrong

def failedVerdict (error : String) : KeyVerdict :=
  if occursIn SDKException.documentNotFound error then .missing else .skipped

abbrev KeyValue := AList fun _ : String => Option PyDict

def lookupVerdict (maps : ReadMaps) (key : String) (expected : Option PyDict) : KeyVerdict :=
  match maps.resultMap.lookup key with
  | some doc => foundVerdict expected doc
  | none =>
    match maps.failedReads.lookup key with
    | some error => failedVerdict error
    | none => .malformed

def KeyReport.add (report : KeyReport) (key : String) : KeyVerdict → Except ValidationError KeyReport
  | .equal => .ok report
  | .skipped => .ok report
  | .missing => .ok { report with missing := report.missing ++ [key] }
  | .wrong => .ok { report with wrong := report.wrong ++ [key] }
  | .malformed => .error .malformed

def validateKeyVal (maps : ReadMaps) (keyValue : KeyValue) : Except ValidationError KeyReport :=
  keyValue.entries.foldlM
    (fun report entry => report.add entry.1 (lookupVerdict maps entry.1 entry.2)) {}

/-! ## `ValidateDocumentsTask` -/

structure ValidateDocumentsTask where
  interp : Interpreter
  opType : CrudOp
  isSubDoc : Bool := false
  generator : BatchedDocumentGenerator
  checkReplica : Bool
  replicas : Nat
  -- `len(self.cluster.nodes_in_cluster)`
  nodes : Nat
  -- What the server answers for a key in the batch of the given number.
  get : Nat → String → GetOutcome
  getFromAllReplicas : Nat → String → ReplicaOutcome
  render : List Replica → String

structure ValidateState where
  exception : Option ValidationError := none
  missingKeys : List String := []
  wrongValues : List String := []

namespace ValidateDocumentsTask

variable (task : ValidateDocumentsTask)

/-- `dict(doc_gen.next_batch(self.skip_doc_gen_value))`: of equal keys the last one stays. -/
def keyValue (batch : List Int) : KeyValue :=
  (task.generator.nextBatch (task.opType = .doc .delete) batch).foldl
    (fun dict entry => dict.insert entry.1 entry.2) ∅

def copies : Nat := min (task.replicas + 1) task.nodes

def read (number : Nat) (key : String) : Except Raised ReadEntry :=
  if task.checkReplica then
    replicaEntry task.render task.copies (task.getFromAllReplicas number key)
  else getEntry (task.get number key)

/-- The part of `__validate_docs` behind `validate_key_val`. -/
def conclude (state : ValidateState) (keyValue : KeyValue) (report : KeyReport) : ValidateState :=
  if task.opType = .doc .delete then
    let notMissing := keyValue.keys.filter fun key => !report.missing.contains key
    if report.missing.length ≠ keyValue.keys.length ∧ notMissing ≠ [] then
      { state with exception := some (.notDeleted notMissing) }
    else state
  else
    let state :=
      if report.missing ≠ [] then
        { state with
          exception := some (.keysMissing report.missing)
          missingKeys := state.missingKeys ++ report.missing }
      else state
    if report.wrong ≠ [] then
      { state with
        exception := some (.wrongValues report.wrong)
        wrongValues := state.wrongValues ++ report.wrong }
    else state

/-- `__validate_docs` on a numbered batch.  In the replica loop an exception is kept in
    `self.exception` and the method returns; it is raised only by a later batch that gets as
    far as the end of the method. -/
def validateDocs (state : ValidateState) (batch : List Int × Nat) :
    Except ValidationError ValidateState :=
  let keyValue := task.keyValue batch.1
  match keyValue.keys.foldlM (readKey (task.read batch.2)) {} with
  | .error raised =>
    if task.checkReplica && task.interp.exceptException raised then
      .ok { state with exception := some (.readRaised raised) }
    else .error (.readRaised raised)
  | .ok maps =>
    match validateKeyVal maps keyValue with
    | .error e => .error e
    | .ok report =>
      let state := task.conclude state keyValue report
      match state.exception with
      | some e => .error e
      | none => .ok state

/-- `__validate_sub_docs`: the checks of the values stand behind its `return`. -/
def validateSubDocs (state : ValidateState) (batch : List Int × Nat) :
    Except ValidationError ValidateState :=
  match (task.keyValue batch.1).keys.foldlM
      (readKey fun key => getEntry (task.get batch.2 key)) {} with
  | .error raised => .error (.readRaised raised)
  | .ok _ => .ok state

def next (state : ValidateState) (batch : List Int × Nat) : Except ValidationError ValidateState :=
  if task.isSubDoc then task.validateSubDocs state batch else task.validateDocs state batch

def call : Except ValidationError ValidateState :=
  GenericLoadingTask.call task.next [task.generator.batches.zipIdx] {}

end ValidateDocumentsTask

end Taf.Tasks
