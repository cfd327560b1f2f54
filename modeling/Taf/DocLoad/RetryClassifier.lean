import Taf.Lib.Text
import Taf.Bucket.Collection

/-! # The two retry classifiers

After a load both `BucketUtils.verify_doc_op_task_exceptions` (task based loading)
and `DocLoaderUtils.validate_crud_task_per_collection` (spec based loading) sort
the failed keys: ignored, or retried once and then filed by the outcome of the
retry and by whether the first error was an expected one.  Both correct the
collection's `num_items` and both borrow a client of the pool.  The two copies have
drifted apart in three places: what they do to `num_items`, when a cancelled
request counts as ambiguous, and how `num_items` follows a failed retry; neither
gives the client back when the retry raises. -/

namespace Taf.DocLoad

open Taf.Lib Taf.Bucket

/-! ## Errors (`sdk_exceptions.py`) -/

namespace SDKException

def durabilityAmbiguous := "com.couchbase.client.core.error.DurabilityAmbiguousException"
def ambiguousTimeout := "com.couchbase.client.core.error.AmbiguousTimeoutException"
def timeout := "com.couchbase.client.core.error.TimeoutException"
def requestCanceled := "com.couchbase.client.core.error.RequestCanceledException"
def documentExists := "com.couchbase.client.core.error.DocumentExistsException"
def documentNotFound := "com.couchbase.client.core.error.DocumentNotFoundException"

end SDKException

/-- `re.match(".*(com\.[a-zA-Z0-9\.]+)", text)` finds a class name on the first line. -/
def matchesExceptionPattern (text : String) : Bool :=
  (text.toList.takeWhile (· ≠ '\n')).tails.any fun rest =>
    match rest with
    | 'c' :: 'o' :: 'm' :: '.' :: next :: _ => next.isAlphanum || next == '.'
    | _ => false

structure FailedDoc where
  error : String
  value : String
  deriving DecidableEq

abbrev FailedDocs := AList fun _ : String => FailedDoc

abbrev Failure := Sigma fun _ : String => FailedDoc

inductive CrudOutcome where
  | raises
  | result (status : Bool) (error : String)
  deriving DecidableEq

/-- The settings that both classifiers read, and the outcome of the retry of each key. -/
structure RetryInput where
  op : DocOp
  ignoreExceptions : List String
  retryExceptions : List String
  retry : String → CrudOutcome

variable (input : RetryInput)

/-- `for ex in exceptions: if str(exception).find(ex) != -1` -/
def findsAny (exceptions : List String) (text : String) : Bool :=
  exceptions.any fun ex => occursIn ex text

/-- The retry reports the state that the first, ambiguous attempt may have left. -/
def toleratedError (op : DocOp) (error : String) : Bool :=
  (occursIn SDKException.documentExists error && (op == .create || op == .update)) ||
    (occursIn SDKException.documentNotFound error && op == .delete)

def retrySucceeds (ambiguousState : Bool) (op : DocOp) (status : Bool) (error : String) : Bool :=
  status || (ambiguousState && toleratedError op error)

/-! ## `BucketUtils.verify_doc_op_task_exceptions` -/

/-- The dictionaries of `get_doc_op_info_dict` that are filled, and the collection's count. -/
structure TaskInfo where
  ignored : List String := []
  retriedSuccess : List String := []
  retriedFail : List String := []
  unwantedSuccess : List String := []
  unwantedFail : List String := []
  numItems : Int

def TaskInfo.fileSuccess (info : TaskInfo) (retried : Bool) (key : String) : TaskInfo :=
  if retried then { info with retriedSuccess := info.retriedSuccess ++ [key] }
  else { info with unwantedSuccess := info.unwantedSuccess ++ [key] }

def TaskInfo.fileFail (info : TaskInfo) (retried : Bool) (key : String) : TaskInfo :=
  if retried then { info with retriedFail := info.retriedFail ++ [key] }
  else { info with unwantedFail := info.unwantedFail ++ [key] }

def ambiguousForTask (error : String) : Bool :=
  occursIn SDKException.durabilityAmbiguous error || occursIn SDKException.ambiguousTimeout error ||
    occursIn SDKException.timeout error || occursIn SDKException.requestCanceled error

/-- The body of the loop over `task.fail`; an error is the state in which `client.crud` raised. -/
def verifyKey (info : TaskInfo) (failure : Failure) : Except TaskInfo TaskInfo :=
  let ⟨key, failedDoc⟩ := failure
  if findsAny input.ignoreExceptions failedDoc.error then
    -- One item less for every ignored key, whatever the operation was.
    .ok { info with numItems := info.numItems - 1, ignored := info.ignored ++ [key] }
  else
    match input.retry key with
    | .raises => .error info
    | .result status error =>
      let retried := findsAny input.retryExceptions failedDoc.error
      if retrySucceeds (ambiguousForTask failedDoc.error) input.op status error then
        .ok (info.fileSuccess retried key)
      else
        .ok (info.fileFail retried key)

/-- What a classifier leaves behind: the filed keys, the count, the verdict and the pool. -/
structure Classified where
  retriedSuccess : List String
  retriedFail : List String
  unwantedSuccess : List String
  unwantedFail : List String
  numItems : Int
  failed : Bool
  acquired : Nat
  released : Nat

/-- `log_doc_ops_task_failures`: the value of `ops_failed`. -/
def TaskInfo.opsFailed (info : TaskInfo) : Bool :=
  !info.retriedFail.isEmpty || !info.unwantedSuccess.isEmpty || !info.unwantedFail.isEmpty

/-- `verify_doc_op_task_exceptions` for one task, followed by `log_doc_ops_task_failures`;
    when a retry raises, the client is not released and the log function is not reached. -/
def verifyDocOpTaskExceptions (fails : FailedDocs) (numItems : Int) : Classified :=
  match fails.entries.foldlM (verifyKey input) ({ numItems := numItems } : TaskInfo) with
  | .ok info =>
    ⟨info.retriedSuccess, info.retriedFail, info.unwantedSuccess, info.unwantedFail, info.numItems,
      info.opsFailed, 1, 1⟩
  | .error info =>
    ⟨info.retriedSuccess, info.retriedFail, info.unwantedSuccess, info.unwantedFail, info.numItems,
      false, 1, 0⟩

/-! ## `DocLoaderUtils.validate_crud_task_per_collection` -/

/-- The entries of `op_data` that the classifier reads and fills, and the collection's count. -/
structure OpData where
  fail : FailedDocs
  retriedSuccess : List String := []
  retriedFail : List String := []
  unwantedSuccess : List String := []
  unwantedFail : List String := []
  numItems : Int

/-- Takes back what the create or the delete of a document did to the count. -/
def OpData.uncount (data : OpData) (op : DocOp) : OpData :=
  match op with
  | .create => { data with numItems := data.numItems - 1 }
  | .delete => { data with numItems := data.numItems + 1 }
  | _ => data

def OpData.fileSuccess (data : OpData) (retried : Bool) (key : String) : OpData :=
  if retried then
    { data with retriedSuccess := data.retriedSuccess ++ [key], fail := data.fail.erase key }
  else { data with unwantedSuccess := data.unwantedSuccess ++ [key] }

def OpData.fileFail (data : OpData) (retried : Bool) (key : String) : OpData :=
  if retried then { data with retriedFail := data.retriedFail ++ [key] }
  else { data with unwantedFail := data.unwantedFail ++ [key] }

def ambiguousForSpec (error : String) : Bool :=
  occursIn SDKException.durabilityAmbiguous error || occursIn SDKException.ambiguousTimeout error ||
    occursIn SDKException.timeout error ||
    (occursIn SDKException.requestCanceled error && occursIn "CHANNEL_CLOSED_WHILE_IN_FLIGHT" error)

/-- The body of the loop over `op_data["fail"]` for a document operation; an error is the state
    in which `re.match(..).group` or `client.crud` raised. -/
def validateKey (data : OpData) (failure : Failure) : Except OpData OpData :=
  let ⟨key, failedDoc⟩ := failure
  if !matchesExceptionPattern failedDoc.error then .error data
  else if findsAny input.ignoreExceptions failedDoc.error then
    .ok { data.uncount input.op with fail := data.fail.erase key }
  else
    match input.retry key with
    | .raises => .error data
    | .result status error =>
      let retried := findsAny input.retryExceptions failedDoc.error
      if retrySucceeds (ambiguousForSpec failedDoc.error) input.op status error then
        .ok (data.fileSuccess retried key)
      else
        let filed := (data.uncount input.op).fileFail retried key
        if !matchesExceptionPattern error then .error filed else .ok filed

/-- `validate_crud_task_per_collection` for a collection with one operation, followed by
    `validate_doc_loading_results`.  The classifier runs in a thread of its own, so an exception
    ends the thread only and the result is still read off `op_data["fail"]`. -/
def validateCrudTaskPerCollection (fails : FailedDocs) (numItems : Int) : Classified :=
  match fails.entries.foldlM (validateKey input) ({ fail := fails, numItems := numItems } : OpData) with
  | .ok data =>
    ⟨data.retriedSuccess, data.retriedFail, data.unwantedSuccess, data.unwantedFail, data.numItems,
      !data.fail.entries.isEmpty, 1, 1⟩
  | .error data =>
    ⟨data.retriedSuccess, data.retriedFail, data.unwantedSuccess, data.unwantedFail, data.numItems,
      !data.fail.entries.isEmpty, 1, 0⟩

end Taf.DocLoad
