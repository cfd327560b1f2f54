import Taf.Bucket.Manifest
import Taf.Stats.StatsWait

/-! # Validating the item counts of all buckets

`BucketUtils.validate_docs_per_collections_all_buckets` checks a bucket in three
places: two waits for the replica and the total count, the number of scopes and
collections as the first node reports them, and the sum of every collection's items
over the KV nodes. -/

namespace Taf.Stats

open Taf.Lib Taf.Bucket Taf.Manifest Taf.Tasks

/-! ## What the nodes answer -/

/-- The scopes of a node, each with its collections and their `items` statistic, a number; `none` if it is
    missing: to read, to add or to compare it fails. -/
abbrev NodeStats := AList fun _ : String => AList fun _ : String => Option Int

/-- The sequence numbers of a vBucket, as texts. -/
abbrev VbStats := AList fun _ : String => String

/-- A tracked bucket, and everything that its validation is told. -/
structure BucketCheck where
  bucket : Bucket
  inv : bucket.Inv
  replicaNumber : Nat
  -- The number of `get_bucket_kv_nodes`.
  servers : Nat
  replicaWait : Wait
  totalWait : Wait
  -- `int(manifest_uid, 16)` of the master's answer.
  manifestUid : Except Raised Int
  -- The statistics of the vBuckets, by node, read before the loop.
  vbucketStats : List (List VbStats)
  -- The answers of the KV nodes to `get_collections`.
  collectionStats : List (Except Raised NodeStats)
  -- The answer of the first node to `get_scopes`.
  scopeStats : Except Raised NodeStats

/-! ## `Cbstats` -/

/-- `collection_data[scope][collection]`, and its entry `"items"`. -/
abbrev CollectionData := String → String → Option (Option Int)

def NodeStats.data (stats : NodeStats) : CollectionData := fun scope collection =>
  (stats.lookup scope).bind fun collections => collections.lookup collection

/-- The counter `collection_data["count"]` is lost to a scope of that name, and raising it for a
    later collection raises a `TypeError`. -/
def getCollections (stats : NodeStats) : Except Raised CollectionData :=
  if (stats.entries.dropWhile fun scope => scope.1 ≠ "count").any fun scope =>
      !scope.2.entries.isEmpty then .error .exception
  else .ok stats.data

structure ScopeData where
  -- `none` when a scope of the name `count` has taken the place of the counter.
  count : Option Nat
  collections : String → Option Nat

/-- `get_scopes` adds up the items of every scope, so each collection must have the statistic. -/
def getScopes (stats : NodeStats) : Except Raised ScopeData :=
  if stats.entries.any fun scope => scope.2.entries.any fun collection => collection.2.isNone then
    .error .exception
  else
    let collections := fun scope => (stats.lookup scope).map fun collections => collections.entries.length
    match stats.entries.dropWhile fun scope => scope.1 ≠ "count" with
    | [] => .ok ⟨some stats.entries.length, collections⟩
    | [_] => .ok ⟨none, collections⟩
    | _ :: _ :: _ => .error .exception

/-! ## `validate_seq_no_stats` -/

def comparisonKeyPairs : List (String × String) :=
  [("high_completed_seqno", "high_seqno"), ("last_persisted_snap_start", "last_persisted_seqno"),
    ("last_persisted_snap_start", "last_persisted_snap_end")]

/-- `int(stat[key])` -/
def VbStats.number (stat : VbStats) (key : String) : Except Raised Int :=
  match (stat.lookup key).bind PyJson.parseInt with
  | some number => .ok number
  | none => .error .exception

def comparePair (stat : VbStats) (passed : Bool) (keyPair : String × String) : Except Raised Bool := do
  let first ← stat.number keyPair.1
  let second ← stat.number keyPair.2
  return passed && first ≤ second

def validateSeqNoStats (nodes : List (List VbStats)) : Except Raised Bool :=
  nodes.foldlM (fun passed node => node.foldlM (fun passed stat =>
    comparisonKeyPairs.foldlM (comparePair stat) passed) passed) true

/-! ## `get_doc_count_per_collection` -/

def NodeStats.triples (stats : NodeStats) : List (String × String × Option Int) :=
  stats.entries.flatMap fun scope => scope.2.entries.map fun collection =>
    (scope.1, collection.1, collection.2)

/-- `collection_data[key][col_name]['items'] += c_data['items']` -/
def addItems (data : CollectionData) (triple : String × String × Option Int) :
    Except Raised CollectionData :=
  match data triple.1 triple.2.1, triple.2.2 with
  | some (some before), some items =>
    .ok fun scope collection =>
      if scope = triple.1 ∧ collection = triple.2.1 then some (some (before + items))
      else data scope collection
  | _, _ => .error .exception

def addNode (data : CollectionData) (answer : Except Raised NodeStats) :
    Except Raised CollectionData := do
  let stats ← answer
  let _ ← getCollections stats
  stats.triples.foldlM addItems data

/-- `get_doc_count_per_collection`; `none` when there is no KV node. -/
def getDocCountPerCollection : List (Except Raised NodeStats) → Except Raised (Option CollectionData)
  | [] => .ok none
  | first :: rest => do
    let stats ← first
    let data ← getCollections stats
    let merged ← rest.foldlM addNode data
    return some merged

/-! ## The checks of one bucket -/

namespace BucketCheck

variable (interp : Interpreter) (check : BucketCheck)

def activeCollectionsOf (scope : Scope) : List Collection :=
  (check.bucket.getActiveCollections scope.name).getD []

def expectedTotalNumItems : Int :=
  (check.bucket.activeScopes.map fun scope =>
    ((check.activeCollectionsOf scope).map Collection.numItems).sum).sum

/-- `available_replicas` of `verify_stats_for_bucket` with `num_zone` 1. -/
def availableReplicas : Int :=
  if check.servers = check.replicaNumber then (check.servers : Int) - 1
  else if check.servers ≤ check.replicaNumber then (check.servers : Int) - 1
  else check.replicaNumber

def replicaItems : Int := check.expectedTotalNumItems * check.availableReplicas

def totalItems : Int := check.expectedTotalNumItems * (check.availableReplicas + 1)

/-- `verify_stats_for_bucket`: an exception of a wait that `except Exception` matches is logged, and
    the other wait is given up. -/
def verifyStatsForBucket : Except Raised Unit :=
  let outcome := do
    getTaskResult (StatsWaitTask.call interp check.servers check.replicaItems check.replicaWait)
    getTaskResult (StatsWaitTask.call interp check.servers check.totalItems check.totalWait)
  match outcome with
  | .ok _ => .ok ()
  | .error raised => if interp.exceptException raised then .ok () else .error raised

/-- The innermost loop of `validate_bucket_collection_hierarchy`. -/
def checkCollection (data : CollectionData) (scope : Scope) (status : Bool)
    (collection : Collection) : Except Raised Bool :=
  match collection.name.bind fun name => (data scope.name name).join with
  | some items => .ok (status && items == collection.numItems)
  | none => .error .exception

def checkScope (scopeData : ScopeData) (data : CollectionData) (status : Bool) (scope : Scope) :
    Except Raised Bool :=
  match scopeData.collections scope.name with
  | none => .error .exception
  | some count =>
    (check.activeCollectionsOf scope).foldlM (checkCollection data scope)
      (status && (check.activeCollectionsOf scope).length == count)

def validateBucketCollectionHierarchy (data : CollectionData) : Except Raised Bool := do
  let stats ← check.scopeStats
  let scopeData ← getScopes stats
  check.bucket.activeScopes.foldlM (check.checkScope scopeData data)
    (scopeData.count == some check.bucket.activeScopes.length)

def validateDocCountAsPerCollections : Except Raised Unit := do
  match ← getDocCountPerCollection check.collectionStats with
  -- `cbstat_obj_list[0]` of an empty list
  | none => .error .exception
  | some data =>
    let status ← check.validateBucketCollectionHierarchy data
    if status then .ok () else .error .exception

def validateManifestUid : Except Raised Bool := do
  let uid ← check.manifestUid
  return uid == check.bucket.manifestUid

/-- The round of the loop for one bucket. -/
def validate : Except Raised Unit := do
  check.verifyStatsForBucket interp
  -- a mismatch is only logged
  let _ ← check.validateManifestUid
  let consistent ← validateSeqNoStats check.vbucketStats
  if consistent then check.validateDocCountAsPerCollections else .error .exception

end BucketCheck

/-- `validate_docs_per_collections_all_buckets` for buckets that are not of type memcached; `prepared`
    is how the requests for the server lists and the sequence numbers end before the loop. -/
def validateDocsPerCollectionsAllBuckets (interp : Interpreter) (prepared : Except Raised Unit)
    (checks : List BucketCheck) : Except Raised Unit := do
  prepared
  checks.foldlM (fun _ check => check.validate interp) ()

end Taf.Stats
