import Taf.Lib.Run
import Taf.Bucket.CrudSpec
import Taf.Bucket.TtlExpiry
import Taf.DocLoad.RetryClassifier

/-! # The failed operations of a loader specification

`validate_crud_task_per_collection` with all operations of a collection, those on sub-documents
among them: each failed key is ignored or retried once, and filed by the outcome.
`validate_doc_loading_results` runs it in a thread for each collection and then reads the result of
the load off the keys that are left.  An exception ends its thread only. -/

namespace Taf.CrudValidation

open Taf.Lib Taf.Bucket Taf.DocLoad

namespace SDKException

def pathExists := "com.couchbase.client.java.error.subdoc.PathExistsException"
def pathNotFound := "com.couchbase.client.core.error.subdoc.PathNotFoundException"

end SDKException

/-- An entry of `op_data["fail"]`; `paths` is the number of the tuples under `path_val`. -/
structure FailedCrud where
  error : String
  paths : Option ℕ

abbrev FailedCruds := AList fun _ : String => FailedCrud

/-- What the client answers for one tuple of `path_val` -/
inductive PathOutcome where
  | raises
  | done
  | failed (error : String)

/-- `op_data` with the outcomes of its retries -/
structure CrudData where
  fail : FailedCruds
  ignoreExceptions : List String
  retryExceptions : List String
  retryDocument : String → CrudOutcome
  retryPath : String → ℕ → PathOutcome

/-- The operations of a collection -/
abbrev CollectionCruds := AList fun _ : CrudOp => CrudData

/-- Where a failed key ends -/
inductive Filing where
  | ignored | retriedSuccess | retriedFail | unwantedSuccess | unwantedFail
  deriving DecidableEq

/-- A failed key with the operation it is of -/
structure FailedItem where
  op : CrudOp
  data : CrudData
  key : String
  failedDoc : FailedCrud

/-- What is filled while the operations of a collection are gone through -/
structure Progress where
  fail : CrudOp → FailedCruds
  filed : CrudOp → Filing → Finset String
  numItems : Int

/-! ## The retry -/

/-- The loop over `failed_doc["path_val"]`, which the first failure ends -/
def retryPaths : List PathOutcome → CrudOutcome
  | [] => .result true ""
  | .raises :: _ => .raises
  | .done :: rest => retryPaths rest
  | .failed error :: _ => .result false error

def FailedItem.retry (item : FailedItem) : CrudOutcome :=
  match item.op with
  | .doc _ => item.data.retryDocument item.key
  | _ =>
    match item.failedDoc.paths with
    | some n => retryPaths ((List.range n).map (item.data.retryPath item.key))
    | none => .raises

/-- The retry reports the state that the first, ambiguous attempt may have left. -/
def toleratedCrud (op : CrudOp) (error : String) : Bool :=
  (occursIn DocLoad.SDKException.documentExists error && (op == .doc .create || op == .doc .update)) ||
    (occursIn SDKException.pathExists error && op == .subDoc .insert) ||
    (occursIn DocLoad.SDKException.documentNotFound error && op == .doc .delete) ||
    (occursIn SDKException.pathNotFound error && op == .subDoc .remove)

def FailedItem.isIgnored (item : FailedItem) : Bool :=
  findsAny item.data.ignoreExceptions item.failedDoc.error

def FailedItem.isRetried (item : FailedItem) : Bool :=
  findsAny item.data.retryExceptions item.failedDoc.error

def FailedItem.succeeds (item : FailedItem) (status : Bool) (error : String) : Bool :=
  status || (ambiguousForSpec item.failedDoc.error && toleratedCrud item.op error)

/-! ## `DocLoaderUtils.validate_crud_task_per_collection` -/

namespace Progress

/-- Takes back what the create or the delete of a document did to the count. -/
def uncount (state : Progress) (op : CrudOp) : Progress :=
  match op with
  | .doc .create => { state with numItems := state.numItems - 1 }
  | .doc .delete => { state with numItems := state.numItems + 1 }
  | _ => state

def pop (state : Progress) (op : CrudOp) (key : String) : Progress :=
  { state with fail := Function.update state.fail op ((state.fail op).erase key) }

def file (state : Progress) (op : CrudOp) (filing : Filing) (key : String) : Progress :=
  let keys := insert key (state.filed op filing)
  { state with filed := Function.update state.filed op (Function.update (state.filed op) filing keys) }

end Progress

/-- The body of the loop over `op_data["fail"]`; an error is the state in which it raised. -/
def validateKey (state : Progress) (item : FailedItem) : Except Progress Progress :=
  if !matchesExceptionPattern item.failedDoc.error then .error state
  else if item.isIgnored then
    .ok (((state.uncount item.op).pop item.op item.key).file item.op .ignored item.key)
  else
    match item.retry with
    | .raises => .error state
    | .result status error =>
      if item.succeeds status error then
        if item.isRetried then .ok ((state.file item.op .retriedSuccess item.key).pop item.op item.key)
        else .ok (state.file item.op .unwantedSuccess item.key)
      else
        let filing := if item.isRetried then Filing.retriedFail else .unwantedFail
        let filed := (state.uncount item.op).file item.op filing item.key
        if !matchesExceptionPattern error then .error filed else .ok filed

def isDocOp : CrudOp → Bool
  | .doc _ => true
  | _ => false

/-- The failed keys in the order of the loops: operations on documents come first. -/
def failedItems (cData : CollectionCruds) : List FailedItem :=
  let docData := cData.entries.filter fun entry => isDocOp entry.1
  let subdocData := cData.entries.filter fun entry => !isDocOp entry.1
  (docData ++ subdocData).flatMap fun entry =>
    entry.2.fail.entries.map fun failure => ⟨entry.1, entry.2, failure.1, failure.2⟩

/-- Nothing is filed yet. -/
def started (cData : CollectionCruds) (numItems : Int) : Progress where
  fail op := ((cData.lookup op).map CrudData.fail).getD ∅
  filed _ _ := ∅
  numItems := numItems

def validateCrudTaskPerCollection (cData : CollectionCruds) (numItems : Int) :
    Except Progress Progress :=
  (failedItems cData).foldlM validateKey (started cData numItems)

/-! ## `DocLoaderUtils.validate_doc_loading_results` -/

/-- The collections of a loader specification with their operations -/
abbrev LoadedSpec := AList fun _ : Place => CollectionCruds

/-- What the thread of a collection leaves behind, however it ends -/
def leftBehind (cData : CollectionCruds) (numItems : Int) : Progress :=
  match validateCrudTaskPerCollection cData numItems with
  | .ok state => state
  | .error state => state

/-- The value of `doc_loading_task.result` -/
def validateDocLoadingResults (spec : LoadedSpec) (numItems : Place → Int) : Bool :=
  spec.entries.all fun entry => entry.2.keys.all fun op =>
    ((leftBehind entry.2 (numItems entry.1)).fail op).entries.isEmpty

/-! ## What is meant to happen -/

/-- An originally failed key -/
def Failed (cData : CollectionCruds) (op : CrudOp) (key : String) : Prop :=
  ∃ data, cData.lookup op = some data ∧ key ∈ data.fail

/-- The keys of an operation that were ignored or failed their retry -/
def Progress.lost (state : Progress) (op : CrudOp) : Finset String :=
  state.filed op .ignored ∪ state.filed op .retriedFail ∪ state.filed op .unwantedFail

structure Sorted (cData : CollectionCruds) (numItems : Int) (state : Progress) : Prop where
  filedOnce : ∀ op key, Failed cData op key → ∃! filing, key ∈ state.filed op filing
  onlyFailed : ∀ op filing, ∀ key ∈ state.filed op filing, Failed cData op key
  remaining : ∀ op key, key ∈ state.fail op ↔ Failed cData op key ∧
    key ∉ state.filed op .ignored ∧ key ∉ state.filed op .retriedSuccess
  count : state.numItems =
    numItems - (state.lost (.doc .create)).card + (state.lost (.doc .delete)).card

/-- The keys of every collection are sorted, and the load fails exactly if one is left. -/
def Classifies (spec : LoadedSpec) (numItems : Place → Int) : Prop :=
  (∀ place cData, spec.lookup place = some cData → ∃ state,
    validateCrudTaskPerCollection cData (numItems place) = .ok state ∧
      Sorted cData (numItems place) state) ∧
  (validateDocLoadingResults spec numItems = false ↔ ∃ place cData, spec.lookup place = some cData ∧
    ∃ op ∈ cData, ∃ key, key ∈ (leftBehind cData (numItems place)).fail op)

/-- The error has a class name, and so has the error of a retry that does not count as a success. -/
def Proceeds (item : FailedItem) : Prop :=
  matchesExceptionPattern item.failedDoc.error = true ∧
    (item.isIgnored = true ∨ ∃ status error, item.retry = .result status error ∧
      (item.succeeds status error = true ∨ matchesExceptionPattern error = true))

/-! ## One failed key -/

def Filing.pops : Filing → Bool
  | .ignored | .retriedSuccess => true
  | _ => false

def Filing.loses : Filing → Bool
  | .ignored | .retriedFail | .unwantedFail => true
  | _ => false

def countShift : CrudOp → Int
  | .doc .create => -1
  | .doc .delete => 1
  | _ => 0

def FailedItem.succeeded (item : FailedItem) : Bool :=
  match item.retry with
  | .raises => false
  | .result status error => item.succeeds status error

def FailedItem.filing (item : FailedItem) : Filing :=
  if item.isIgnored then .ignored
  else if item.succeeded then if item.isRetried then .retriedSuccess else .unwantedSuccess
  else if item.isRetried then .retriedFail
  else .unwantedFail

/-- What the body of the loop does, where it does not raise -/
def Progress.after (state : Progress) (item : FailedItem) : Progress where
  fail :=
    if item.filing.pops then
      Function.update state.fail item.op ((state.fail item.op).erase item.key)
    else state.fail
  filed := (state.file item.op item.filing item.key).filed
  numItems := if item.filing.loses then state.numItems + countShift item.op else state.numItems

theorem uncount_eq (state : Progress) (op : CrudOp) :
    state.uncount op = { state with numItems := state.numItems + countShift op } := by
  cases op with
  | doc op => cases op <;> simp [Progress.uncount, countShift]; rfl
  | subDoc op => simp [Progress.uncount, countShift]
  | contUpdate => simp [Progress.uncount, countShift]
  | contReplace => simp [Progress.uncount, countShift]

variable {item : FailedItem}

theorem validateKey_ok (proceeds : Proceeds item) (state : Progress) :
    validateKey state item = .ok (state.after item) := by
  obtain ⟨named, reason⟩ := proceeds
  by_cases isIgnored : item.isIgnored = true
  · simp [validateKey, Progress.after, FailedItem.filing, Filing.pops, Filing.loses, named, isIgnored,
      uncount_eq, Progress.pop, Progress.file]
  · obtain ⟨status, error, retried, outcome⟩ := reason.resolve_left isIgnored
    by_cases ok : item.succeeds status error = true
    · cases wanted : item.isRetried with
      | true => simp [validateKey, Progress.after, FailedItem.filing, FailedItem.succeeded, Filing.pops,
          Filing.loses, named, isIgnored, retried, ok, wanted, Progress.pop, Progress.file]
      | false => simp [validateKey, Progress.after, FailedItem.filing, FailedItem.succeeded, Filing.pops,
          Filing.loses, named, isIgnored, retried, ok, wanted, Progress.file]
    · have retryNamed := outcome.resolve_left ok
      cases wanted : item.isRetried with
      | true => simp [validateKey, Progress.after, FailedItem.filing, FailedItem.succeeded, Filing.pops,
          Filing.loses, named, isIgnored, retried, ok, wanted, retryNamed, uncount_eq, Progress.file]
      | false => simp [validateKey, Progress.after, FailedItem.filing, FailedItem.succeeded, Filing.pops,
          Filing.loses, named, isIgnored, retried, ok, wanted, retryNamed, uncount_eq, Progress.file]

theorem validateKey_error (stuck : ¬ Proceeds item) (state : Progress) :
    ∃ stopped, validateKey state item = .error stopped := by
  by_cases named : matchesExceptionPattern item.failedDoc.error = true
  · by_cases isIgnored : item.isIgnored = true
    · exact absurd ⟨named, .inl isIgnored⟩ stuck
    · cases retried : item.retry with
      | raises => exact ⟨state, by simp [validateKey, named, isIgnored, retried]⟩
      | result status error =>
        have failed : ¬ (item.succeeds status error = true ∨ matchesExceptionPattern error = true) :=
          fun fine => stuck ⟨named, .inr ⟨status, error, retried, fine⟩⟩
        obtain ⟨notOk, unnamed⟩ := not_or.mp failed
        exact ⟨_, by simp [validateKey, named, isIgnored, retried, notOk, unnamed]; rfl⟩
  · exact ⟨state, by simp [validateKey, named]⟩

theorem mem_filed_file {state : Progress} {op op' : CrudOp} {filing filing' : Filing} {key key' : String}
    (member : key ∈ (state.file op' filing' key').filed op filing) : key ∈ state.filed op filing ∨ key = key' := by
  by_cases sameOp : op = op'
  · subst sameOp
    by_cases sameFiling : filing = filing'
    · subst sameFiling
      simp only [Progress.file, Function.update_self] at member
      exact (Finset.mem_insert.mp member).symm
    · simp only [Progress.file, Function.update_self, Function.update_of_ne sameFiling] at member
      exact .inl member
  · simp only [Progress.file, Function.update_of_ne sameOp] at member
    exact .inl member

/-- A key at which the loop raises is the only one that may be filed by then. -/
theorem filed_of_validateKey_error {state stopped : Progress} (raised : validateKey state item = .error stopped)
    {op : CrudOp} {filing : Filing} {key : String} (member : key ∈ stopped.filed op filing) :
    key ∈ state.filed op filing ∨ key = item.key := by
  rw [validateKey] at raised
  split at raised
  case isTrue =>
    cases raised
    exact .inl member
  case isFalse =>
    split at raised
    case isTrue => cases raised
    case isFalse =>
      split at raised
      case h_1 =>
        cases raised
        exact .inl member
      case h_2 =>
        split at raised
        case isTrue => split at raised <;> cases raised
        case isFalse =>
          -- Only the retry that ends without a class name has filed its key.
          dsimp only at raised
          split at raised
          case isTrue =>
            cases raised
            have filed := mem_filed_file member
            rwa [uncount_eq] at filed
          case isFalse => cases raised

/-! ## All failed keys of a collection -/

variable {state : Progress} {items : List FailedItem}

theorem mem_filed_after {op : CrudOp} {filing : Filing} {key : String} :
    key ∈ (state.after item).filed op filing ↔
      key ∈ state.filed op filing ∨ (item.op = op ∧ item.key = key ∧ item.filing = filing) := by
  by_cases sameOp : op = item.op
  · subst sameOp
    by_cases sameFiling : filing = item.filing
    · subst sameFiling
      have same : item.key = key ↔ key = item.key := eq_comm
      simp [Progress.after, Progress.file, or_comm, same]
    · simp [Progress.after, Progress.file, Function.update_of_ne sameFiling, Ne.symm sameFiling]
  · simp [Progress.after, Progress.file, Function.update_of_ne sameOp, Ne.symm sameOp]

theorem mem_fail_after {op : CrudOp} {key : String} : key ∈ (state.after item).fail op ↔
    key ∈ state.fail op ∧ (item.op = op → item.key = key → item.filing.pops = false) := by
  cases pops : item.filing.pops with
  | false => simp [Progress.after, pops]
  | true =>
    by_cases sameOp : op = item.op
    · subst sameOp
      have same : item.key = key ↔ key = item.key := eq_comm
      simp [Progress.after, pops, AList.mem_erase, and_comm, same]
    · simp [Progress.after, pops, Function.update_of_ne sameOp, Ne.symm sameOp]

theorem lost_after (fresh : ∀ filing, item.key ∉ state.filed item.op filing) (op : CrudOp) :
    ((state.after item).lost op).card =
      (state.lost op).card + if item.op = op ∧ item.filing.loses = true then 1 else 0 := by
  have members : ∀ key, key ∈ (state.after item).lost op ↔
      key ∈ state.lost op ∨ (item.op = op ∧ item.key = key ∧ item.filing.loses = true) := by
    intro key
    simp only [Progress.lost, Finset.mem_union, mem_filed_after]
    cases item.filing <;> simp [Filing.loses] <;> tauto
  by_cases adds : item.op = op ∧ item.filing.loses = true
  · obtain ⟨rfl, loses⟩ := adds
    have absent : item.key ∉ state.lost item.op := by
      simp [Progress.lost, fresh]
    have inserted : (state.after item).lost item.op = insert item.key (state.lost item.op) := by
      ext key
      rw [members, Finset.mem_insert]
      simp [loses, or_comm, eq_comm]
    rw [inserted, Finset.card_insert_of_notMem absent, if_pos ⟨rfl, loses⟩]
  · have same : (state.after item).lost op = state.lost op := by
      ext key
      rw [members]
      exact or_iff_left fun both => adds ⟨both.1, both.2.2⟩
    rw [same, if_neg adds, Nat.add_zero]

/-- The state after some failed keys, in terms of them -/
structure Behind (start : Progress) (items : List FailedItem) (state : Progress) : Prop where
  filed : ∀ op filing key, key ∈ state.filed op filing ↔
    ∃ item ∈ items, item.op = op ∧ item.key = key ∧ item.filing = filing
  fail : ∀ op key, key ∈ state.fail op ↔ key ∈ start.fail op ∧
    ∀ item ∈ items, item.op = op → item.key = key → item.filing.pops = false
  count : state.numItems =
    start.numItems - (state.lost (.doc .create)).card + (state.lost (.doc .delete)).card

theorem countShift_eq (op : CrudOp) : countShift op =
    (if op = .doc .delete then 1 else 0) - (if op = .doc .create then 1 else 0) := by
  cases op with
  | doc op => cases op <;> rfl
  | subDoc op => rfl
  | contUpdate => rfl
  | contReplace => rfl

theorem behind_run {start : Progress} (empty : ∀ op filing, start.filed op filing = ∅)
    (unique : (items.map fun item => (item.op, item.key)).Nodup) :
    Behind start items (run Progress.after start items) := by
  induction items using List.reverseRecOn with
  | nil =>
    refine ⟨by simp [run, empty], by simp [run], ?_⟩
    simp [run, Progress.lost, empty]
  | append_singleton items item ih =>
    rw [List.map_append, List.nodup_append] at unique
    obtain ⟨before, -, apart⟩ := unique
    have behind := ih before
    rw [run_append]
    show Behind start _ ((run Progress.after start items).after item)
    have fresh : ∀ filing, item.key ∉ (run Progress.after start items).filed item.op filing := by
      intro filing member
      obtain ⟨other, inside, sameOp, sameKey, -⟩ := (behind.filed _ _ _).mp member
      exact apart _ (List.mem_map_of_mem inside) _ (List.mem_singleton.mpr rfl)
        (Prod.ext sameOp sameKey)
    refine ⟨fun op filing key => ?_, fun op key => ?_, ?_⟩
    · rw [mem_filed_after, behind.filed]
      simp [or_and_right, exists_or]
    · rw [mem_fail_after, behind.fail]
      simp [or_imp, forall_and, and_assoc]
    · rw [lost_after fresh, lost_after fresh]
      have count := behind.count
      have shift := countShift_eq item.op
      cases loses : item.filing.loses with
      | true =>
        simp only [Progress.after, loses, if_true, and_true]
        rw [count, shift]
        push_cast
        ring
      | false => simpa [Progress.after, loses] using count

/-! ## The failed keys of a collection -/

section Items

variable {cData : CollectionCruds}

theorem mem_failedItems : item ∈ failedItems cData ↔
    cData.lookup item.op = some item.data ∧ item.data.fail.lookup item.key = some item.failedDoc := by
  simp only [failedItems, List.mem_flatMap, List.mem_append, List.mem_filter, List.mem_map]
  constructor
  · rintro ⟨entry, member, failure, inside, rfl⟩
    have listed : entry ∈ cData.entries := member.elim And.left And.left
    exact ⟨AList.mem_lookup_iff.mpr listed, AList.mem_lookup_iff.mpr inside⟩
  · rintro ⟨found, inside⟩
    refine ⟨⟨item.op, item.data⟩, ?_, ⟨item.key, item.failedDoc⟩, AList.mem_lookup_iff.mp inside, rfl⟩
    have listed := AList.mem_lookup_iff.mp found
    cases isDoc : isDocOp item.op with
    | true => exact .inl ⟨listed, rfl⟩
    | false => exact .inr ⟨listed, rfl⟩

theorem failed_iff {op : CrudOp} {key : String} :
    Failed cData op key ↔ ∃ item ∈ failedItems cData, item.op = op ∧ item.key = key := by
  constructor
  · rintro ⟨data, found, member⟩
    obtain ⟨failedDoc, inside⟩ := Option.isSome_iff_exists.mp (AList.lookup_isSome.mpr member)
    exact ⟨⟨op, data, key, failedDoc⟩, mem_failedItems.mpr ⟨found, inside⟩, rfl, rfl⟩
  · rintro ⟨item, member, rfl, rfl⟩
    obtain ⟨found, inside⟩ := mem_failedItems.mp member
    exact ⟨item.data, found, by rw [← AList.lookup_isSome, inside]; exact Option.isSome_some⟩

/-- An operation and a key name one failed document. -/
theorem failedItem_unique {other : FailedItem} (member : item ∈ failedItems cData)
    (otherMember : other ∈ failedItems cData) (sameOp : other.op = item.op)
    (sameKey : other.key = item.key) : other = item := by
  obtain ⟨found, inside⟩ := mem_failedItems.mp member
  obtain ⟨found', inside'⟩ := mem_failedItems.mp otherMember
  obtain ⟨op, data, key, failedDoc⟩ := item
  obtain ⟨op', data', key', failedDoc'⟩ := other
  obtain rfl : op' = op := sameOp
  obtain rfl : key' = key := sameKey
  obtain rfl : data = data' := Option.some.inj (found.symm.trans found')
  obtain rfl : failedDoc = failedDoc' := Option.some.inj (inside.symm.trans inside')
  rfl

theorem nodup_failedItems :
    ((failedItems cData).map fun item => (item.op, item.key)).Nodup := by
  let pairs : Sigma (fun _ : CrudOp => CrudData) → List (CrudOp × String) := fun entry =>
    entry.2.fail.keys.map fun key => (entry.1, key)
  have shape : (failedItems cData).map (fun item => (item.op, item.key)) =
      ((cData.entries.filter fun entry => isDocOp entry.1) ++
        cData.entries.filter fun entry => !isDocOp entry.1).flatMap pairs := by
    rw [failedItems, List.map_flatMap]
    congr 1
    funext entry
    simp [pairs, AList.keys, List.keys]
  have whole : (((cData.entries.filter fun entry => isDocOp entry.1) ++
      cData.entries.filter fun entry => !isDocOp entry.1).flatMap pairs).Perm
        (cData.entries.flatMap pairs) := (List.filter_append_perm _ _).flatMap_right pairs
  rw [shape, whole.nodup_iff]
  apply nodup_flatMap_labelled Prod.fst
  · show (cData.entries.map Sigma.fst).Nodup
    exact cData.keys_nodup
  · intro entry _
    exact entry.2.fail.keys_nodup.map fun one other same => (Prod.mk.inj same).2
  · intro entry _ pair inside
    obtain ⟨_, _, rfl⟩ := List.mem_map.mp inside
    rfl

theorem mem_started_fail {numItems : Int} {op : CrudOp} {key : String} :
    key ∈ (started cData numItems).fail op ↔ Failed cData op key := by
  rw [Failed]
  show key ∈ ((cData.lookup op).map CrudData.fail).getD ∅ ↔ _
  cases cData.lookup op with
  | none => simp [AList.notMem_empty]
  | some data => simp

theorem pops_eq_false_iff (filing : Filing) :
    filing.pops = false ↔ filing ≠ .ignored ∧ filing ≠ .retriedSuccess := by
  cases filing <;> simp [Filing.pops]

theorem Behind.sorted {numItems : Int} {state : Progress}
    (behind : Behind (started cData numItems) (failedItems cData) state) :
    Sorted cData numItems state where
  filedOnce op key failed := by
    obtain ⟨item, member, rfl, rfl⟩ := failed_iff.mp failed
    refine ⟨item.filing, (behind.filed _ _ _).mpr ⟨item, member, rfl, rfl, rfl⟩, ?_⟩
    intro filing inside
    obtain ⟨other, otherMember, sameOp, sameKey, same⟩ := (behind.filed _ _ _).mp inside
    rw [← same, failedItem_unique member otherMember sameOp sameKey]
  onlyFailed op filing key member := by
    obtain ⟨item, inside, sameOp, sameKey, -⟩ := (behind.filed op filing key).mp member
    exact failed_iff.mpr ⟨item, inside, sameOp, sameKey⟩
  remaining op key := by
    rw [behind.fail, mem_started_fail, behind.filed, behind.filed]
    apply and_congr_right
    intro _
    constructor
    · intro kept
      constructor
      · rintro ⟨item, member, sameOp, sameKey, filing⟩
        exact ((pops_eq_false_iff _).mp (kept item member sameOp sameKey)).1 filing
      · rintro ⟨item, member, sameOp, sameKey, filing⟩
        exact ((pops_eq_false_iff _).mp (kept item member sameOp sameKey)).2 filing
    · rintro ⟨notIgnored, notRetried⟩ item member sameOp sameKey
      apply (pops_eq_false_iff _).mpr
      constructor
      · exact fun filing => notIgnored ⟨item, member, sameOp, sameKey, filing⟩
      · exact fun filing => notRetried ⟨item, member, sameOp, sameKey, filing⟩
  count := behind.count

theorem validateCrudTaskPerCollection_sorted (proceeds : ∀ item ∈ failedItems cData, Proceeds item)
    (numItems : Int) : ∃ state, validateCrudTaskPerCollection cData numItems = .ok state ∧
      Sorted cData numItems state :=
  ⟨_, foldlM_eq_ok (fun state item member => validateKey_ok (proceeds item member) state) _,
    (behind_run (fun _ _ => rfl) nodup_failedItems).sorted⟩

theorem validateCrudTaskPerCollection_raises {item : FailedItem} (member : item ∈ failedItems cData)
    (stuck : ¬ Proceeds item) (numItems : Int) :
    ∃ state, validateCrudTaskPerCollection cData numItems = .error state :=
  foldlM_eq_error member (validateKey_error stuck) _

end Items

/-! ## The result of the load -/

theorem validateDocLoadingResults_eq_false_iff (spec : LoadedSpec) (numItems : Place → Int) :
    validateDocLoadingResults spec numItems = false ↔ ∃ place cData, spec.lookup place = some cData ∧
      ∃ op ∈ cData, ∃ key, key ∈ (leftBehind cData (numItems place)).fail op := by
  have nonempty : ∀ fails : FailedCruds, fails.entries.isEmpty = false ↔ ∃ key, key ∈ fails := by
    intro fails
    rw [List.isEmpty_eq_false_iff_exists_mem]
    constructor
    · rintro ⟨failure, member⟩
      exact ⟨failure.1, AList.mem_keys.mpr (List.mem_map_of_mem member)⟩
    · rintro ⟨key, member⟩
      obtain ⟨failure, inside, -⟩ := List.mem_map.mp (AList.mem_keys.mp member)
      exact ⟨failure, inside⟩
  simp only [validateDocLoadingResults, List.all_eq_false, Bool.not_eq_true, nonempty]
  constructor
  · rintro ⟨entry, member, op, inside, left⟩
    exact ⟨entry.1, entry.2, AList.mem_lookup_iff.mpr member, op, AList.mem_keys.mpr inside, left⟩
  · rintro ⟨place, cData, found, op, inside, left⟩
    exact ⟨⟨place, cData⟩, AList.mem_lookup_iff.mp found, op, AList.mem_keys.mp inside, left⟩

theorem proceeds_of_classifies {spec : LoadedSpec} {numItems : Place → Int}
    (classifies : Classifies spec numItems) :
    ∀ place cData, spec.lookup place = some cData → ∀ item ∈ failedItems cData, Proceeds item := by
  intro place cData found item member
  by_contra stuck
  obtain ⟨state, returned, -⟩ := classifies.1 place cData found
  obtain ⟨stopped, raised⟩ := validateCrudTaskPerCollection_raises member stuck (numItems place)
  rw [raised] at returned
  cases returned

theorem classifies_iff (spec : LoadedSpec) (numItems : Place → Int) :
    Classifies spec numItems ↔ ∀ place cData, spec.lookup place = some cData →
      ∀ item ∈ failedItems cData, Proceeds item := by
  constructor
  · exact proceeds_of_classifies
  · intro proceeds
    refine ⟨?_, validateDocLoadingResults_eq_false_iff spec numItems⟩
    intro place cData found
    exact validateCrudTaskPerCollection_sorted (proceeds place cData found) (numItems place)

/-- Two failed reads; the retry of the first one ends with an exception that is none of the SDK's. -/
def shutDown : CollectionCruds :=
  let fails : FailedCruds :=
    (AList.singleton "b" ⟨DocLoad.SDKException.timeout, none⟩).insert "a" ⟨DocLoad.SDKException.timeout, none⟩
  let data : CrudData :=
    { fail := fails
      ignoreExceptions := []
      retryExceptions := [DocLoad.SDKException.timeout]
      retryDocument := fun key =>
        if key = "a" then .result false "java.lang.IllegalStateException | shut down"
        else .result true ""
      retryPath := fun _ _ => .done }
  AList.singleton (.doc .read) data

/-- A text in which a class name is found has its letters. -/
theorem mem_of_matchesExceptionPattern {text : String} (found : matchesExceptionPattern text = true) :
    'm' ∈ text.toList := by
  simp only [matchesExceptionPattern, List.any_eq_true] at found
  obtain ⟨rest, suffix, starts⟩ := found
  split at starts
  case h_1 =>
    have onLine := (List.mem_tails _ _).mp suffix
    exact (List.takeWhile_sublist _).subset (onLine.subset (by simp))
  case h_2 => cases starts

/-- The loops over `shutDown` begin with a key that they do not get past. -/
theorem shutDown_stuck : ∃ first second, failedItems shutDown = [first, second] ∧ first.op = .doc .read ∧
    first.key = "a" ∧ ¬ Proceeds first := by
  refine ⟨⟨.doc .read, _, "a", _⟩, _, rfl, rfl, rfl, ?_⟩
  intro ⟨_, reason⟩
  cases reason with
  | inl ignored => exact absurd ignored (by decide)
  | inr retried =>
    obtain ⟨status, error, retried, outcome⟩ := retried
    cases retried
    cases outcome with
    | inl succeeds =>
      -- What is tolerated of a retry does not concern reads.
      have reads : toleratedCrud (.doc .read) "java.lang.IllegalStateException | shut down" = false := by
        simp [toleratedCrud]
      rw [FailedItem.succeeds, Bool.false_or, reads, Bool.and_false] at succeeds
      cases succeeds
    | inr named => exact absurd (mem_of_matchesExceptionPattern named) (by decide)

/-- The second one is not filed anywhere. -/
theorem retry_error_without_class_name :
    ¬ Classifies ⟨[⟨("bucket", "_default", "c"), shutDown⟩], by simp [List.NodupKeys]⟩ (fun _ => 2) ∧
      Failed shutDown (.doc .read) "b" ∧
      ∀ filing, "b" ∉ (leftBehind shutDown 2).filed (.doc .read) filing := by
  obtain ⟨first, second, items, _, isFirst, stuck⟩ := shutDown_stuck
  refine ⟨?_, ⟨_, rfl, by decide⟩, ?_⟩
  · intro classifies
    have member : first ∈ failedItems shutDown := by simp [items]
    exact stuck (proceeds_of_classifies classifies ("bucket", "_default", "c") shutDown rfl first member)
  · intro filing filed
    obtain ⟨stopped, raised⟩ := validateKey_error stuck (started shutDown 2)
    have left : leftBehind shutDown 2 = stopped := by
      rw [leftBehind, validateCrudTaskPerCollection, items, List.foldlM_cons, raised]
      rfl
    rw [left] at filed
    cases filed_of_validateKey_error raised filed with
    | inl before => exact absurd before (by simp [started])
    | inr same =>
      rw [isFirst] at same
      exact absurd same (by decide)

end Taf.CrudValidation
