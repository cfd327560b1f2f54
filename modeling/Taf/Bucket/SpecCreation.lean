import Taf.Lib.Dict
import Taf.Bucket.Manifest
import Taf.Bucket.SpecExpansion

/-! # From a bucket spec to buckets

`create_buckets_using_json_data` starts one `BucketCreateFromSpecTask` for each bucket of an
expanded spec, and afterwards it writes the scopes and collections of the spec into the tracked
buckets.  The task asks the server for every scope and collection in a thread of its own: what
such a thread raises ends the thread and nothing else, and the thread of a collection is waited
for 30 s at most.  The server answers each request as it likes, but it accepts only what its
manifest allows. -/

namespace Taf.Bucket.Creation

open Taf.Lib Taf.Manifest Taf.Bucket.Expansion

/-! ## The server -/

/-- What comes of a request that the manifest allows -/
inductive Answer where
  | accepted
  | refused
  -- The request raises, or the thread of a collection has no answer yet when the result is read.
  | silent (taken : Bool)
  deriving DecidableEq

/-- The status that the task gets, if it gets one -/
def Answer.status : Answer → Option Bool
  | .accepted => some true
  | .refused => some false
  | .silent _ => none

/-- The server has carried the request out. -/
def Answer.taken : Answer → Bool
  | .accepted => true
  | .refused => false
  | .silent taken => taken

/-- How the server answers the requests for one bucket -/
structure BucketRest where
  -- The task gets its connections, and `create_bucket` returns true.
  createsBucket : Bool
  -- The answer to a request that the manifest allows, and the content of a refusal
  answer : ManifestCall → Answer
  content : ManifestCall → String
  -- The refusal of a manifest, if it is refused
  importFailure : Option String

def systemScope : String := "_system"

/-- The manifest after a successful import: the given scopes beside the one of the system -/
def imported (m : ServerManifest) (scopes : Scopes) : ServerManifest := fun scopeName =>
  if scopeName = systemScope then m scopeName
  else (scopes.lookup scopeName).map fun scope => (scope.collections.getD ∅).keys.toFinset

inductive CreationError where
  | keyError
  | attributeError
  | bucketCreation (bucketName : String)
  | requestFailed
  | importRefused (content : String)
  | listingFailed
  deriving DecidableEq

/-- `d[key]` -/
def known {α : Type} : Option α → Except CreationError α
  | some value => .ok value
  | none => .error .keyError

/-! ## The bucket object -/

def number : PyJson → Option ℤ
  | .num value => if value.den = 1 then some value.num else none
  | _ => none

def text : PyJson → Option String
  | .str text => some text
  | _ => none

/-- What `Collection` reads of the spec of a collection -/
def collectionSpec (name : String) (params : Params) : CollectionSpec where
  name := some name
  numItems := (params.lookup .numItems).map Int.ofNat
  maxTTL := (params.lookup (.other "maxTTL")).bind number
  history := (params.lookup (.other "history")).bind text

/-- `Bucket()` with the attributes that the spec sets; `None` as the retention is replaced by the
    defaults of the bucket. -/
def bucketObject (serverless : Bool) (params : Params) : Bucket :=
  let bucket := Bucket.new "true" true serverless
  { bucket with
    magma := ((params.lookup (.other "storageBackend")).bind text).getD "magma" = "magma"
    historyRetentionCollectionDefault :=
      ((params.lookup (.other "historyRetentionCollectionDefault")).bind text).getD "true" }

/-- The end of `Bucket.set_defaults`: the default collection has the history of the bucket. -/
def setDefaults (bucket : Bucket) : Bucket :=
  if bucket.magma then
    match bucket.scopes.lookup defaultScope with
    | some scope =>
      match scope.collections.lookup defaultCollection with
      | some collection =>
        bucket.withScope defaultScope (scope.withCollection defaultCollection
          { collection with history := bucket.historyRetentionCollectionDefault })
      | none => bucket
    | none => bucket
  else bucket

/-- `bucket_obj.scopes[default_scope].collections.pop(default_collection, None)` -/
def popDefaultCollection (bucket : Bucket) : Bucket :=
  match bucket.scopes.lookup defaultScope with
  | some scope =>
    bucket.withScope defaultScope { scope with collections := scope.collections.erase defaultCollection }
  | none => bucket

/-! ## `BucketCreateFromSpecTask` -/

/-- The task, with the manifest that the server has of its bucket -/
structure Task where
  bucket : Bucket
  server : ServerManifest
  result : Bool := true
  exception : Option String := none

section Call

variable (rest : BucketRest) (bucketName : String)

/-- A request and its status -/
def Task.request (task : Task) (call : ManifestCall) : Option Bool × Task :=
  let answer := rest.answer call
  if task.server.allows call then
    (answer.status, if answer.taken then { task with server := task.server.apply call } else task)
  else (answer.status.map fun _ => false, task)

def createCollectionFromSpec (scopeName : String) (task : Task) (name : String) (params : Params) : Task :=
  let call := .createCollection scopeName name (collectionSpec name params)
  match task.request rest call with
  | (some true, task) => { task with bucket := task.bucket.incrementManifestUid }
  | (some false, task) =>
    let content := rest.content call
    -- `set_exception` raises, so the uid of the manifest stays.
    { task with
      result := false
      exception := some s!"Create collection failed for {bucketName}:{scopeName}:{name}, Reason - {content}" }
  | (none, task) => task

/-- The loop over the collections; a scope without them raises a `KeyError` in its thread. -/
def createCollectionsOfScope (scopeName : String) (scope : ScopeSpec) (task : Task) : Task :=
  (scope.collections.getD ∅).entries.foldl (fun task entry =>
    if entry.1 = defaultCollection then task
    else createCollectionFromSpec rest bucketName scopeName task entry.1 entry.2) task

def createScopeFromSpec (task : Task) (scopeName : String) (scope : ScopeSpec) : Task :=
  if scopeName ≠ defaultScope then
    let call := .createScope scopeName
    match task.request rest call with
    | (some true, task) =>
      createCollectionsOfScope rest bucketName scopeName scope
        { task with bucket := task.bucket.incrementManifestUid }
    | (some false, task) =>
      let content := rest.content call
      -- `set_exception` raises here, before `self.result = False` is reached.
      { task with exception := some s!"Create scope failed for {bucketName}:{scopeName}, Reason - {content}" }
    | (none, task) => task
  else createCollectionsOfScope rest bucketName scopeName scope task

/-- The request to drop the default collection, whose status nobody reads; it is made in the thread of
    the task, which ends with what the request raises. -/
def dropDefaultCollection (task : Task) : Except CreationError Task :=
  match task.request rest (.dropCollection defaultScope defaultCollection) with
  | (none, _) => .error .requestFailed
  | (some _, task) => .ok { task with bucket := popDefaultCollection task.bucket }

def createCollectionsUsingManifestImport (scopes : Scopes) (task : Task) : Except CreationError Task :=
  if ∀ entry ∈ scopes.entries, entry.2.collections.isSome then
    match rest.importFailure with
    | some content => .error (.importRefused content)
    | none => .ok { task with server := imported task.server scopes }
  else .error .keyError

/-- `BucketCreateFromSpecTask.call`; its exceptions reach `get_task_result`, which does not catch them. -/
def call (serverless : Bool) (spec : BucketSpec) : Except CreationError Task := do
  if rest.createsBucket = false then .error (.bucketCreation bucketName)
  else
    let task : Task :=
      { bucket := setDefaults (bucketObject serverless spec.params), server := .new serverless }
    let scopes ← known spec.scopes
    let default ← known (scopes.lookup defaultScope)
    let collections ← known default.collections
    let task ← (if defaultCollection ∈ collections then .ok task else dropDefaultCollection rest task)
    let usingImport ← known (spec.params.lookup .createCollectionsUsingManifestImport)
    if usingImport then createCollectionsUsingManifestImport rest scopes task
    else .ok (scopes.entries.foldl (fun task entry => createScopeFromSpec rest bucketName task entry.1 entry.2) task)

end Call

/-! ## `create_buckets_using_json_data` -/

/-- A collection of the spec becomes one of the tracked bucket, with the history that the bucket has. -/
def trackCollection (scopeName : String) (bucket : Bucket) (name : String) (params : Params) :
    Except CreationError Bucket :=
  let spec := { collectionSpec name params with history := some bucket.defaultHistory }
  match bucket.createCollectionObject scopeName name spec with
  | some bucket => .ok bucket
  | none => .error .attributeError

def trackScope (bucket : Bucket) (scopeName : String) (scope : ScopeSpec) : Except CreationError Bucket := do
  let bucket := if scopeName ≠ defaultScope then bucket.createScopeObject scopeName else bucket
  let collections ← known scope.collections
  collections.entries.foldlM (fun bucket entry => trackCollection scopeName bucket entry.1 entry.2) bucket

/-- The scopes and collections of the spec of a tracked bucket -/
def trackSpec (spec : BucketSpec) (bucket : Bucket) : Except CreationError Bucket := do
  let scopes ← known spec.scopes
  scopes.entries.foldlM (fun bucket entry => trackScope bucket entry.1 entry.2) bucket

/-- The tracked buckets by their names, and what the server has of each bucket -/
structure Cluster where
  buckets : List (String × Bucket)
  server : AList fun _ : String => ServerManifest

/-- One round of the loop that starts the tasks, with the end of its task -/
def createBucketFromDictSpec (rest : String → BucketRest) (serverless : Bool) (bucketName : String)
    (spec : BucketSpec) : Except CreationError (String × Task) := do
  let task ← call (rest bucketName) bucketName serverless spec
  .ok (bucketName, task)

/-- One round of the loop over the tracked buckets, those from before included -/
def trackBucket (specs : Buckets) (bucket : String × Bucket) : Except CreationError (String × Bucket) :=
  match specs.lookup bucket.1 with
  | some spec => do
    let tracked ← trackSpec spec bucket.2
    .ok (bucket.1, tracked)
  | none => .ok bucket

/-- `create_buckets_using_json_data` on a cluster that is not hosted, on the expanded spec and up to
    the loading from a tar file.  The tasks run side by side, each on the manifest of its own
    bucket.  `lists` tells that neither `get_all_buckets` nor `get_updated_bucket_server_list`
    raises; what they read besides is not of the scopes. -/
def createBucketsUsingJsonData (rest : String → BucketRest) (lists serverless : Bool) (specs : Buckets)
    (cluster : Cluster) : Except CreationError (Bool × Cluster) := do
  let tasks ← specs.entries.mapM fun entry => createBucketFromDictSpec rest serverless entry.1 entry.2
  let created := tasks.filter fun task => task.2.result
  if lists = false then .error .listingFailed
  let buckets ← (cluster.buckets ++ created.map fun task => (task.1, task.2.bucket)).mapM (trackBucket specs)
  .ok (tasks.all fun task => task.2.result,
    { buckets := buckets, server := assignAll (tasks.map fun task => (task.1, task.2.server)) cluster.server })

end Taf.Bucket.Creation
