import Taf.Bucket.Manifest

/-! # Scopes and collections from a spec

`perform_tasks_from_spec` drops, creates and re-creates scopes and collections in six
phases and reports what it did in `ops_details`.  Each phase selects at random from what
the phases before it left behind, and then performs calls of `Taf.Bucket.Manifest`, most of
them as jobs of a thread pool.  What `sample` and `list(set(..))` answer is an input
(`Choices`): a run in which one of them could not have answered so is no run.  An exception,
of a call or of a selection, is `none`. -/

namespace Taf.ScopeSpec

open Taf.Lib Taf.Bucket Taf.Manifest

/-! ## Buckets and jobs -/

/-- The buckets that are given to the call, each with its tracked state and the server's. -/
structure Cluster where
  names : List String
  nodup : names.Nodup
  tracked : String → Tracked
  -- `"nonDedupedHistory" in bucket.bucketCapabilities`
  nonDedupedHistory : String → Bool

/-- One of the four calls on a bucket. -/
structure Job where
  bucket : String
  call : ManifestCall

/-- The order in which the jobs of a pool run. -/
structure Order where
  run : List Job → List Job
  perm : ∀ jobs, (run jobs).Perm jobs

namespace Cluster

variable (cl : Cluster)

def getBucketObj (bucketName : String) : Option Tracked :=
  if bucketName ∈ cl.names then some (cl.tracked bucketName) else none

/-- A call with the answer of the server; `none` is the exception that it raises. -/
def perform (job : Job) : Option Cluster := do
  let bucket ← cl.getBucketObj job.bucket
  match (job.call.perform (bucket.server.allows job.call) bucket.bucket).2 with
  | some _ => none
  | none => some { cl with tracked := Function.update cl.tracked job.bucket (bucket.step job.call) }

/-- The jobs of a thread pool; the exception of a job is raised again by the waiting thread. -/
def pool (order : Order) (jobs : List Job) : Option Cluster :=
  (order.run jobs).foldlM perform cl

end Cluster

/-! ## Selections -/

/-- A requested number: `"all"` or an integer. -/
inductive Request where
  | all
  | num (n : Int)

def Request.covers (available : Nat) : Request → Bool
  | .all => true
  | .num n => (available : Int) ≤ n

def Request.truthy : Request → Bool
  | .all => true
  | .num n => n ≠ 0

section Sample

variable {α : Type} [DecidableEq α]

/-- `chosen` is an answer of `list(set(population))`. -/
def listOfSet (population chosen : List α) : Option (List α) :=
  if chosen.Nodup ∧ (∀ x ∈ chosen, x ∈ population) ∧ ∀ x ∈ population, x ∈ chosen then some chosen
  else none

/-- `chosen` is an answer of `sample(population, k)`. -/
def sample (population : List α) (k : Int) (chosen : List α) : Option (List α) :=
  if chosen.Nodup ∧ (∀ x ∈ chosen, x ∈ population) ∧ (chosen.length : Int) = k then some chosen
  else none

/-- The last part of the three selections; the number is compared before anything is excluded. -/
def select (reqNum : Request) (available exclude chosen : List α) : Option (List α) :=
  let left := available.filter (· ∉ exclude)
  match reqNum with
  | .all => listOfSet left chosen
  | .num n => if reqNum.covers available.length then listOfSet left chosen else sample left n chosen

end Sample

/-- What the random functions answer in one selection. -/
structure Choice where
  buckets : List String := []
  scopes : List (String × String) := []
  collections : List (String × String × String) := []

/-- The dictionary of a selection, by its buckets, scopes and collections. -/
structure Selection where
  buckets : List String
  scopes : List (String × String)
  collections : List (String × String × String)

namespace Cluster

variable (cl : Cluster)

def getRandomBuckets (reqNum : Request) (choice : Choice) : Option (List String) :=
  match reqNum with
  | .all => some cl.names
  | .num n =>
    if reqNum.covers cl.names.length then some cl.names else sample cl.names n choice.buckets

def availableScopes (avoidDefault considerOnlyDropped : Bool) (buckets : List String) :
    List (String × String) :=
  buckets.flatMap fun bucketName =>
    let bucket := (cl.tracked bucketName).bucket
    let scopes :=
      if considerOnlyDropped then bucket.scopes.keys.filter (· ∉ bucket.activeScopeNames)
      else bucket.activeScopeNames
    (scopes.filter fun scope => scope ≠ "_system" ∧ ¬ (scope = "_default" ∧ avoidDefault)).map
      fun scope => (bucketName, scope)

/-- `get_random_scopes` without `exclude_from`, which none of the phases gives. -/
def getRandomScopes (reqNum considerBuckets : Request) (avoidDefault considerOnlyDropped : Bool)
    (choice : Choice) : Option Selection := do
  let buckets ← cl.getRandomBuckets considerBuckets choice
  let available := cl.availableScopes avoidDefault considerOnlyDropped buckets
  let scopes ← select reqNum available [] choice.scopes
  return { buckets := buckets, scopes := scopes, collections := [] }

/-- The collections of one scope; `none` is the `AttributeError` for an unknown scope. -/
def availableCollections (considerOnlyDropped : Bool) (place : String × String) :
    Option (List (String × String × String)) := do
  let bucket := (cl.tracked place.1).bucket
  let active ← bucket.getActiveCollectionNames place.2
  let scope ← bucket.scopes.lookup place.2
  let names := if considerOnlyDropped then scope.collections.keys.filter (· ∉ active) else active
  return names.map fun name => (place.1, place.2, name)

def getRandomCollections (reqNum considerScopes considerBuckets : Request)
    (considerOnlyDropped : Bool) (excludeFrom : List (String × String × String)) (choice : Choice) :
    Option Selection := do
  let selected ← cl.getRandomScopes considerScopes considerBuckets false false choice
  let available ← selected.scopes.mapM (cl.availableCollections considerOnlyDropped)
  let collections ← select reqNum available.flatten excludeFrom choice.collections
  return { selected with collections := collections }

/-- `bucket.scopes[scope_name].collections`; `none` is the exception for an unknown name. -/
def trackedScope (place : String × String) : Option Scope := do
  let bucket ← cl.getBucketObj place.1
  bucket.bucket.scopes.lookup place.2

def trackedCollections (place : String × String) : Option (List (String × String × String)) := do
  let scope ← cl.trackedScope place
  return scope.collections.keys.map fun name => (place.1, place.2, name)

/-- `get_dict_object` of a collection as it is handed to `create_collection`. -/
def recreateCollection (place : String × String) (collection : Collection) : Option Job := do
  let name ← collection.name
  return {
    bucket := place.1
    call := .createCollection place.2 name
      { name := some name
        maxTTL := some collection.maxTTL
        history := if cl.nonDedupedHistory place.1 then some collection.history else none } }

end Cluster

/-! ## The phases -/

/-- The entries of `input_spec`; for the last two the default is not the same in every phase. -/
structure InputSpec where
  collectionsToDrop : Request := .num 0
  scopesToDrop : Request := .num 0
  scopesToAddPerBucket : Int := 0
  collectionsToAddForNewScopes : Int := 0
  collectionsToAddPerBucket : Int := 0
  scopesToRecreate : Request := .num 0
  collectionsToRecreate : Request := .num 0
  scopesConsideredForOps : Option Request := none
  bucketConsideredForOps : Option Request := none

structure OpsDetails where
  scopesAdded : List (String × String) := []
  scopesDropped : List (String × String) := []
  collectionsAdded : List (String × String × String) := []
  collectionsDropped : List (String × String × String) := []

structure Choices where
  order : Order
  dropCollections : Choice := {}
  dropScopes : Choice := {}
  createScopes : Choice := {}
  createCollections : Choice := {}
  -- Bucket and scope of every new collection.
  placements : List (String × String) := []
  recreateScopes : Choice := {}
  recreateCollections : Choice := {}

structure Progress where
  cluster : Cluster
  opsDetails : OpsDetails := {}
  scopeCounter : Nat
  collectionCounter : Nat

/-- `perform_scope_operation` takes a bucket called `buckets` for the wrapper of a spec: the entry
    `scopes` below it is then read as a bucket, and a `KeyError` is raised unless one of the
    scopes has that name. -/
def dropScopesSpec (selected : Selection) : Option (List (String × String)) :=
  if "buckets" ∈ selected.buckets then
    if ("buckets", "scopes") ∈ selected.scopes then some [("scopes", "collections")] else none
  else some selected.scopes

/-- Re-creating reads the `collections` of the entry before it has any. -/
def recreateScopesSpec (selected : Selection) : Option (List (String × String)) :=
  if "buckets" ∈ selected.buckets then none else some selected.scopes

namespace Progress

variable (choices : Choices) (spec : InputSpec) (p : Progress)

/-- The collections that are never dropped. -/
def excludeFrom : List (String × String × String) :=
  p.cluster.names.flatMap fun bucketName =>
    (["_eventing", "_query", "_mobile", "_regulator"].map fun name => (bucketName, "_system", name)) ++
      if spec.collectionsToRecreate.truthy then [(bucketName, "_default", "_default")] else []

def dropCollections : Option Progress := do
  let selected ← p.cluster.getRandomCollections spec.collectionsToDrop
    (spec.scopesConsideredForOps.getD (.num 0)) (spec.bucketConsideredForOps.getD (.num 1)) false
    (p.excludeFrom spec) choices.dropCollections
  let cluster ← p.cluster.pool choices.order (selected.collections.map fun place =>
    { bucket := place.1, call := .dropCollection place.2.1 place.2.2 })
  return { p with
    cluster := cluster
    opsDetails := { p.opsDetails with
      collectionsDropped := p.opsDetails.collectionsDropped ++ selected.collections } }

/-- The scopes that are dropped. -/
def scopesToDrop : Option (List (String × String)) := do
  let selected ← p.cluster.getRandomScopes spec.scopesToDrop
    (spec.bucketConsideredForOps.getD (.num 1)) true false choices.dropScopes
  dropScopesSpec selected

def dropScopes : Option Progress := do
  let scopes ← p.scopesToDrop choices spec
  -- The report lists every collection that the scope object has, dropped ones too.
  let collections ← scopes.mapM p.cluster.trackedCollections
  let cluster ← p.cluster.pool choices.order (scopes.map fun place =>
    { bucket := place.1, call := .dropScope place.2 })
  return { p with
    cluster := cluster
    opsDetails := { p.opsDetails with
      scopesDropped := p.opsDetails.scopesDropped ++ scopes
      collectionsDropped := p.opsDetails.collectionsDropped ++ collections.flatten } }

def createScope (bucketName : String) : Option Progress := do
  let scopeName := "scope-" ++ p.scopeCounter.repr
  let cluster ← p.cluster.perform { bucket := bucketName, call := .createScope scopeName }
  let count := spec.collectionsToAddForNewScopes.toNat
  let names := (List.range count).map fun i => "collection-" ++ (p.collectionCounter + i).repr
  let cluster ← cluster.pool choices.order (names.map fun name =>
    { bucket := bucketName, call := .createCollection scopeName name { name := some name } })
  return {
    cluster := cluster
    scopeCounter := p.scopeCounter + 1
    collectionCounter := p.collectionCounter + count
    opsDetails := { p.opsDetails with
      scopesAdded := p.opsDetails.scopesAdded ++ [(bucketName, scopeName)]
      collectionsAdded := p.opsDetails.collectionsAdded ++
        names.map fun name => (bucketName, scopeName, name) } }

def createScopes : Option Progress := do
  let buckets ← p.cluster.getRandomBuckets (spec.bucketConsideredForOps.getD .all) choices.createScopes
  (buckets.flatMap fun bucketName => List.replicate spec.scopesToAddPerBucket.toNat bucketName).foldlM
    (createScope choices spec) p

/-- A bucket called `req_collections` loses its entry to the number of collections. -/
def createCollections : Option Progress := do
  let selected ← p.cluster.getRandomScopes (spec.scopesConsideredForOps.getD .all)
    (spec.bucketConsideredForOps.getD .all) false false choices.createCollections
  let count := spec.collectionsToAddPerBucket.toNat
  if choices.placements.length = count ∧ ∀ place ∈ choices.placements,
      place.1 ≠ "req_collections" ∧ place ∈ selected.scopes then
    let collections := choices.placements.zipIdx.map fun place =>
      (place.1.1, place.1.2, "collection-" ++ (p.collectionCounter + place.2).repr)
    let cluster ← p.cluster.pool choices.order (collections.map fun new =>
      { bucket := new.1, call := .createCollection new.2.1 new.2.2 { name := some new.2.2 } })
    return { p with
      cluster := cluster
      collectionCounter := p.collectionCounter + count
      opsDetails := { p.opsDetails with
        collectionsAdded := p.opsDetails.collectionsAdded ++ collections } }
  else none

end Progress

/-- One scope and then all the collections it ever had. -/
def Cluster.recreateScope (order : Order) (cl : Cluster) (place : String × String) : Option Cluster := do
  let scope ← cl.trackedScope place
  let created ← cl.perform { bucket := place.1, call := .createScope scope.name }
  let jobs ← scope.collections.entries.mapM fun entry => cl.recreateCollection place entry.2
  created.pool order jobs

namespace Progress

variable (choices : Choices) (spec : InputSpec) (p : Progress)

def recreateScopes : Option Progress := do
  let selected ← p.cluster.getRandomScopes spec.scopesToRecreate
    (spec.bucketConsideredForOps.getD .all) false true choices.recreateScopes
  let scopes ← recreateScopesSpec selected
  let collections ← scopes.mapM p.cluster.trackedCollections
  let cluster ← scopes.foldlM (Cluster.recreateScope choices.order) p.cluster
  return { p with
    cluster := cluster
    opsDetails := { p.opsDetails with
      scopesAdded := p.opsDetails.scopesAdded ++ scopes
      collectionsAdded := p.opsDetails.collectionsAdded ++ collections.flatten } }

def recreateCollections : Option Progress := do
  let selected ← p.cluster.getRandomCollections spec.collectionsToRecreate
    (spec.scopesConsideredForOps.getD .all) (spec.bucketConsideredForOps.getD .all) true []
    choices.recreateCollections
  let jobs ← selected.collections.mapM fun place => do
    let scope ← p.cluster.trackedScope (place.1, place.2.1)
    let collection ← scope.collections.lookup place.2.2
    p.cluster.recreateCollection (place.1, place.2.1) collection
  let cluster ← p.cluster.pool choices.order jobs
  return { p with
    cluster := cluster
    opsDetails := { p.opsDetails with
      collectionsAdded := p.opsDetails.collectionsAdded ++ selected.collections } }

end Progress

/-- `perform_tasks_from_spec`: the progress at its end, with the `ops_details` it returns. -/
def performTasksFromSpec (choices : Choices) (spec : InputSpec) (cluster : Cluster)
    (scopeCounter collectionCounter : Nat) : Option Progress := do
  let start : Progress :=
    { cluster := cluster, scopeCounter := scopeCounter, collectionCounter := collectionCounter }
  let p ← start.dropCollections choices spec
  let p ← p.dropScopes choices spec
  let p ← p.createScopes choices spec
  let p ← p.createCollections choices spec
  let p ← p.recreateScopes choices spec
  p.recreateCollections choices spec

end Taf.ScopeSpec
