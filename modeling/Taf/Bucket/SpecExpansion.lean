import Mathlib
import Taf.Lib.DictLoops
import Taf.Lib.PyJson

/-! # The expansion of a bucket spec

A test describes its buckets by a dictionary with four levels: the spec, its buckets, their
scopes and their collections.  Every level may set parameters, and only some of the entries are
given; the expansion adds entries until the requested numbers are reached and hands the
parameters down.  This module has the spec, `BucketUtils.expand_buckets_spec` with its two
nested expansions, and the exponential load at its end. -/

namespace Taf.Bucket.Expansion

open Taf.Lib

/-! ## Specs -/

/-- The keys of a spec: those of `MetaConstants`, the RAM quota, and every other key, such as
    the other attributes of a bucket -/
inductive SpecKey where
  | useSimpleNames
  | numBuckets
  | numScopesPerBucket
  | numCollectionsPerScope
  | numItems
  | removeDefaultCollection
  | createCollectionsUsingManifestImport
  | bucketTarDir
  | bucketTarSrc
  | loadCollectionsExponentially
  | ramQuotaMB
  | other (name : String)
  deriving DecidableEq

/-- What is stored under a key -/
abbrev SpecKey.Value : SpecKey → Type
  | .useSimpleNames | .removeDefaultCollection | .createCollectionsUsingManifestImport
  | .loadCollectionsExponentially => Bool
  | .numBuckets | .numScopesPerBucket | .numCollectionsPerScope | .numItems => ℕ
  | .ramQuotaMB => ℤ
  | .bucketTarDir | .bucketTarSrc | .other _ => PyJson

/-- The `0` that a parameter gets which nobody sets; as a flag it is `False`. -/
def SpecKey.zero : (key : SpecKey) → key.Value
  | .useSimpleNames | .removeDefaultCollection | .createCollectionsUsingManifestImport
  | .loadCollectionsExponentially => false
  | .numBuckets | .numScopesPerBucket | .numCollectionsPerScope | .numItems => (0 : ℕ)
  | .ramQuotaMB => (0 : ℤ)
  | .bucketTarDir | .bucketTarSrc | .other _ => .num 0

/-- The parameters of one level -/
abbrev Params := AList SpecKey.Value

/-- The collections of a scope, each with its parameters -/
abbrev Collections := AList fun _ : String => Params

structure ScopeSpec where
  params : Params
  collections : Option Collections

abbrev Scopes := AList fun _ : String => ScopeSpec

structure BucketSpec where
  params : Params
  scopes : Option Scopes

abbrev Buckets := AList fun _ : String => BucketSpec

structure BucketsSpec where
  params : Params
  buckets : Option Buckets

/-- A scope of which nothing is given -/
def ScopeSpec.empty : ScopeSpec := ⟨∅, some ∅⟩

/-- A bucket of which nothing is given -/
def BucketSpec.empty : BucketSpec := ⟨∅, some ∅⟩

/-- `MetaConstants.get_params()` -/
def metaParams : List SpecKey :=
  [.useSimpleNames, .numBuckets, .numScopesPerBucket, .numCollectionsPerScope, .numItems,
   .removeDefaultCollection, .createCollectionsUsingManifestImport, .bucketTarDir, .bucketTarSrc,
   .loadCollectionsExponentially]

/-- `Bucket.get_params()`, which lists the counters of the class too -/
def bucketParams : List SpecKey :=
  .ramQuotaMB ::
    ["name", "bucketType", "replicaNumber", "evictionPolicy", "priority", "flushEnabled",
     "conflictResolutionType", "storageBackend", "maxTTL", "replicaIndex", "threadsNumber",
     "compressionMode", "uuid", "durabilityMinLevel", "purge_interval", "autoCompactionDefined",
     "fragmentationPercentage", "numVBuckets", "width", "weight", "historyRetentionCollectionDefault",
     "historyRetentionSeconds", "historyRetentionBytes", "magmaKeyTreeDataBlockSize",
     "magmaSeqTreeDataBlockSize", "bucket_counter", "scope_counter", "collection_counter"].map .other

inductive SpecError where
  | keyError
  | indexError
  | zeroDivisionError
  | overflowError
  deriving DecidableEq

/-- `d[key]` -/
def required {α : Type} : Option α → Except SpecError α
  | some value => .ok value
  | none => .error .keyError

theorem required_eq_ok {α : Type} {found : Option α} {value : α} :
    required found = .ok value ↔ found = some value := by
  cases found <;> simp [required]

/-! ## Generated names -/

inductive NameKind where
  | bucket
  | scope
  | collection
  deriving DecidableEq

def NameKind.word : NameKind → String
  | .bucket => "bucket"
  | .scope => "scope"
  | .collection => "collection"

/-- A simple name -/
def simpleName (kind : NameKind) (drawn : ℕ) : String :=
  kind.word ++ "-" ++ toString drawn

theorem simpleName_injective (kind : NameKind) : Function.Injective (simpleName kind) := by
  intro one other same
  rw [simpleName, simpleName] at same
  have texts : (kind.word ++ "-").toList ++ (toString one).toList = (kind.word ++ "-").toList ++ (toString other).toList := by
    rw [← String.toList_append, same, String.toList_append]
  exact Nat.repr_injective (String.toList_inj.mp (List.append_cancel_left texts))

/-- Names that are all different are not used up. -/
theorem exists_unused {draw : ℕ → String} (injective : Function.Injective draw) (used : List String) (drawn : ℕ) :
    ∃ later, draw (drawn + later) ∉ used := by
  have later : Function.Injective fun later => draw (drawn + later) := injective.comp (add_right_injective drawn)
  obtain ⟨_, ⟨later, rfl⟩, unused⟩ := (Set.infinite_range_of_injective later).exists_notMem_finset used.toFinset
  exact ⟨later, fun member => unused (List.mem_toFinset.mpr member)⟩

/-- The names that are put together at random, which eventually differ from the existing ones -/
structure RandomNames where
  draw : NameKind → ℕ → String
  fresh : ∀ kind (used : List String) drawn, ∃ later, draw kind (drawn + later) ∉ used

instance : Inhabited RandomNames :=
  ⟨⟨simpleName, fun kind => exists_unused (simpleName_injective kind)⟩⟩

/-- How many names of each kind have been generated; for simple names these are the counters of `Bucket`. -/
abbrev Drawn := NameKind → ℕ

section Names

variable (names : RandomNames)

/-- The name that `BucketUtils.get_random_name` generates after `drawn` others -/
def getRandomName (simple : Bool) (kind : NameKind) (drawn : ℕ) : String :=
  if simple then simpleName kind drawn else names.draw kind drawn

theorem exists_fresh (simple : Bool) (kind : NameKind) (used : List String) (drawn : ℕ) :
    ∃ later, getRandomName names simple kind (drawn + later) ∉ used := by
  cases simple with
  | false => exact names.fresh kind used drawn
  | true => exact exists_unused (simpleName_injective kind) used drawn

/-- The loop that generates names until one is new -/
def nextName (simple : Bool) (kind : NameKind) (used : List String) (drawn : Drawn) : String × Drawn :=
  let later := Nat.find (exists_fresh names simple kind used (drawn kind))
  (getRandomName names simple kind (drawn kind + later), Function.update drawn kind (drawn kind + later + 1))

theorem nextName_fresh (simple : Bool) (kind : NameKind) (used : List String) (drawn : Drawn) :
    (nextName names simple kind used drawn).1 ∉ used :=
  Nat.find_spec (exists_fresh names simple kind used (drawn kind))

/-! ## `expand_collection_spec` -/

def defaultScope : String := "_default"

def defaultCollection : String := "_default"

/-- The collections with the default one, which is created anew -/
def withDefaultCollection (scopeName : String) (scope : ScopeSpec) (collections : Collections) : Collections :=
  if scopeName = defaultScope ∧ (scope.params.lookup .removeDefaultCollection).getD false = false then
    collections.insert defaultCollection ∅
  else collections

/-- `BucketUtils.expand_collection_spec` on the scope, with the parameters of the spec and of the bucket -/
def expandCollectionSpec (spec bucket : Params) (scopeName : String) (scope : ScopeSpec) (drawn : Drawn) :
    Except SpecError (ScopeSpec × Drawn) := do
  let reqNumCollections := (scope.params.lookup .numCollectionsPerScope).getD
    ((bucket.lookup .numCollectionsPerScope).getD 0)
  let defNumDocs := (scope.params.lookup .numItems).getD ((bucket.lookup .numItems).getD 0)
  let given ← required scope.collections
  let start := withDefaultCollection scopeName scope given
  let simple ← required (spec.lookup .useSimpleNames)
  let (filled, drawn) ← fillUp (nextName names simple .collection) (fun _ drawn => .ok (∅, drawn))
    (reqNumCollections - start.keys.length) start drawn
  .ok ({ scope with collections := some (mapValues (setMissing .numItems defNumDocs) filled) }, drawn)

/-! ## `expand_scope_spec` -/

/-- The scopes with the default one, which is created if it is missing -/
def withDefaultScope (scopes : Scopes) : Scopes :=
  setMissing defaultScope .empty scopes

/-- `BucketUtils.expand_scope_spec` on the scopes of a bucket -/
def expandScopeSpec (spec bucket : Params) (scopes : Scopes) (drawn : Drawn) :
    Except SpecError (Scopes × Drawn) := do
  let start := withDefaultScope scopes
  let defRemove ← required (spec.lookup .removeDefaultCollection)
  -- The default of `get` is evaluated also where it is not used.
  let fromSpec ← required (spec.lookup .numScopesPerBucket)
  let reqNumScopes := (bucket.lookup .numScopesPerBucket).getD fromSpec
  let (expanded, drawn) ← traverse (fun drawn name scope =>
    expandCollectionSpec names spec bucket name
      { scope with params := setMissing .removeDefaultCollection defRemove scope.params } drawn) start drawn
  let simple ← required (spec.lookup .useSimpleNames)
  fillUp (nextName names simple .scope) (fun name drawn => expandCollectionSpec names spec bucket name .empty drawn)
    (reqNumScopes - expanded.keys.length) expanded drawn

end Names

/-! ## The exponential load -/

def addCollectionItems (total : ℕ) (collection : Params) : Except SpecError ℕ := do
  let items ← required (collection.lookup .numItems)
  .ok (total + items)

def addScopeItems (total : ℕ) (scope : ScopeSpec) : Except SpecError ℕ := do
  let collections ← required scope.collections
  collections.entries.foldlM (fun total collection => addCollectionItems total collection.2) total

/-- The sum of `num_items` over all collections -/
def fetchTotalItems (scopes : Scopes) : Except SpecError ℕ :=
  scopes.entries.foldlM (fun total scope => addScopeItems total scope.2) 0

/-- What a collection gets of the items that remain, and what remains behind it -/
def placeItems (remaining : ℕ) : ℕ × ℕ :=
  let nItems := remaining / 2
  if nItems = 0 ∧ remaining ≠ 0 then (remaining, 0) else (nItems, remaining - nItems)

/-- The items over the collections in the order of the loop, half of what remains to each -/
def setCollectionItems (collections : Collections) (remaining : ℕ) : Except SpecError (Collections × ℕ) :=
  traverse (fun remaining _ collection =>
    .ok (collection.insert .numItems (placeItems remaining).1, (placeItems remaining).2)) collections remaining

def setItemsOfScope (remaining : ℕ) (scope : ScopeSpec) : Except SpecError (ScopeSpec × ℕ) := do
  let collections ← required scope.collections
  let (collections, remaining) ← setCollectionItems collections remaining
  .ok ({ scope with collections := some collections }, remaining)

def setScopeItems (scopes : Scopes) (remaining : ℕ) : Except SpecError (Scopes × ℕ) :=
  traverse (fun remaining _ scope => setItemsOfScope remaining scope) scopes remaining

def loadExponentially (bucket : BucketSpec) : Except SpecError BucketSpec := do
  if (bucket.params.lookup .loadCollectionsExponentially).getD false then
    let scopes ← required bucket.scopes
    let remaining ← fetchTotalItems scopes
    let (scopes, _) ← setScopeItems scopes remaining
    .ok { bucket with scopes := some scopes }
  else .ok bucket

/-! ## `expand_buckets_spec` -/

def BucketsSpec.givenBuckets (spec : BucketsSpec) : Buckets := spec.buckets.getD ∅

/-- `total_ram_requested_explicitly` -/
def Buckets.totalRam (buckets : Buckets) : ℤ :=
  total (fun bucket => (bucket.params.lookup .ramQuotaMB).getD 0) buckets

def BucketsSpec.reqNumBuckets (spec : BucketsSpec) : ℕ :=
  (spec.params.lookup .numBuckets).getD spec.givenBuckets.keys.length

/-- The spec with a quota for each bucket, if it has none and the node tells one -/
def setRamQuota (memoryQuota : ℕ) (spec : BucketsSpec) : Except SpecError Params :=
  if .ramQuotaMB ∈ spec.params ∨ memoryQuota = 0 then .ok spec.params
  else if spec.reqNumBuckets = 0 then .error .zeroDivisionError
  else .ok (spec.params.insert .ramQuotaMB ((memoryQuota - spec.givenBuckets.totalRam) / spec.reqNumBuckets))

/-- The values for what a bucket does not set -/
def bucketDefaults (spec : Params) : Params :=
  assignKeys (fun key => spec.lookup key) bucketParams
    (assignKeys (fun key => some ((spec.lookup key).getD key.zero)) (metaParams.erase .numBuckets) ∅)

/-- A bucket with its parameters, and its scopes expanded -/
def expandBucket (names : RandomNames) (spec params : Params) (scopes : Scopes) (drawn : Drawn) :
    Except SpecError (BucketSpec × Drawn) := do
  let (scopes, drawn) ← expandScopeSpec names spec params scopes drawn
  .ok (⟨params, some scopes⟩, drawn)

/-- The loop over the given buckets -/
def expandGivenBuckets (names : RandomNames) (spec : Params) (buckets : Buckets) (drawn : Drawn) :
    Except SpecError (Buckets × Drawn) :=
  traverse (fun drawn _ bucket =>
    expandBucket names spec (applyDefaults (bucketDefaults spec) bucket.params) (bucket.scopes.getD ∅) drawn)
    buckets drawn

/-- The loop that creates the buckets which are missing, with a copy of the defaults -/
def createBuckets (names : RandomNames) (spec : Params) (reqNumBuckets : ℕ) (buckets : Buckets) (drawn : Drawn) :
    Except SpecError (Buckets × Drawn) := do
  let simple ← required (spec.lookup .useSimpleNames)
  fillUp (nextName names simple .bucket) (fun _ drawn => expandBucket names spec (bucketDefaults spec) ∅ drawn)
    (reqNumBuckets - buckets.keys.length) buckets drawn

/-- The loop over all buckets at the end -/
def loadBuckets (buckets : Buckets) : Except SpecError (Buckets × Unit) :=
  traverse (fun _ _ bucket => (loadExponentially bucket).map fun bucket => (bucket, ())) buckets ()

/-- `BucketUtils.expand_buckets_spec`; the spec is changed in place and its buckets are returned. -/
def expandBucketsSpec (names : RandomNames) (memoryQuota : ℕ) (spec : BucketsSpec) (drawn : Drawn) :
    Except SpecError BucketsSpec := do
  let params ← setRamQuota memoryQuota spec
  let (expanded, drawn) ← expandGivenBuckets names params spec.givenBuckets drawn
  let (buckets, _) ← createBuckets names params spec.reqNumBuckets expanded drawn
  let (loaded, _) ← loadBuckets buckets
  .ok ⟨params, some loaded⟩

end Taf.Bucket.Expansion
