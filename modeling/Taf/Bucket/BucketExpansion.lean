import Mathlib
import Taf.Bucket.ScopeExpansion
import Taf.Lib.Dict

/-! # What the expansion makes of a spec

The buckets are expanded one by one with the parameters of the spec as their defaults, and
buckets are added until there are enough.  The result is complete and keeps what was given
exactly if the spec can be expanded: no scope is without its collections, no given default
collection is created anew, and the quota that is computed per bucket fits as often as it is
handed out. -/

namespace Taf.Bucket.Expansion

open Taf.Lib

/-! ## The promise -/

structure ExpansionRight (memoryQuota : ℕ) (spec result : BucketsSpec) : Prop where
  kept : Keeps result.params spec.params
  count : result.givenBuckets.keys.length = max spec.reqNumBuckets spec.givenBuckets.keys.length
  present : ∀ name ∈ spec.givenBuckets, name ∈ result.givenBuckets
  each : ∀ name bucket, result.givenBuckets.lookup name = some bucket →
    BucketRight spec ((spec.givenBuckets.lookup name).getD .empty) bucket
  quotas : spec.params.lookup .ramQuotaMB = none → result.givenBuckets.totalRam ≤ memoryQuota

/-- The specs that the expansion is meant for -/
structure Suitable (memoryQuota : ℕ) (spec : BucketsSpec) : Prop where
  names : spec.params.lookup .useSimpleNames ≠ none
  removal : spec.params.lookup .removeDefaultCollection ≠ none
  scopes : spec.params.lookup .numScopesPerBucket ≠ none
  quota : spec.givenBuckets.totalRam ≤ memoryQuota
  specEven : spec.params.lookup .loadCollectionsExponentially ≠ some true
  bucketsEven : ∀ name bucket, spec.givenBuckets.lookup name = some bucket →
    bucket.params.lookup .loadCollectionsExponentially ≠ some true

/-- `int(ram_available / req_num_buckets)` -/
def BucketsSpec.quotaOfEach (memoryQuota : ℕ) (spec : BucketsSpec) : ℤ :=
  (memoryQuota - spec.givenBuckets.totalRam) / spec.reqNumBuckets

/-- The buckets without a quota of their own, given or added -/
def BucketsSpec.unquoted (spec : BucketsSpec) : ℕ :=
  total (fun bucket => if .ramQuotaMB ∈ bucket.params then 0 else 1) spec.givenBuckets +
    (spec.reqNumBuckets - spec.givenBuckets.keys.length)

structure Expandable (memoryQuota : ℕ) (spec : BucketsSpec) : Prop where
  complete : ∀ bucketName bucket, spec.givenBuckets.lookup bucketName = some bucket →
    ∀ name scope, bucket.givenScopes.lookup name = some scope → scope.collections ≠ none
  divisible : .ramQuotaMB ∈ spec.params ∨ memoryQuota = 0 ∨ spec.reqNumBuckets ≠ 0
  unset : ∀ bucketName bucket, spec.givenBuckets.lookup bucketName = some bucket →
    ∀ name scope, bucket.givenScopes.lookup name = some scope → DefaultUnset spec bucket name scope
  fits : spec.params.lookup .ramQuotaMB = none → memoryQuota ≠ 0 →
    spec.unquoted * spec.quotaOfEach memoryQuota ≤ memoryQuota - spec.givenBuckets.totalRam

/-! ## The parameters that are handed down -/

section Parameters

variable {memoryQuota : ℕ} {spec : BucketsSpec} {params : Params}

theorem setRamQuota_returns_iff : (∃ params, setRamQuota memoryQuota spec = .ok params) ↔
    .ramQuotaMB ∈ spec.params ∨ memoryQuota = 0 ∨ spec.reqNumBuckets ≠ 0 := by
  rw [setRamQuota, ← or_assoc]
  split
  case isTrue given => exact iff_of_true ⟨_, rfl⟩ (.inl given)
  case isFalse missing =>
    rw [or_iff_right missing]
    split
    case isTrue noBuckets => simp [noBuckets]
    case isFalse someBuckets => exact iff_of_true ⟨_, rfl⟩ someBuckets

/-- The quota is the only parameter of the spec that is set, and only where it is missing. -/
theorem setRamQuota_spec (returned : setRamQuota memoryQuota spec = .ok params) :
    (∀ key, key ≠ .ramQuotaMB → params.lookup key = spec.params.lookup key) ∧
    params.lookup .ramQuotaMB = (spec.params.lookup .ramQuotaMB).or
      (if memoryQuota = 0 then none else some (spec.quotaOfEach memoryQuota)) := by
  rw [setRamQuota] at returned
  split at returned
  case isTrue given =>
    cases returned
    refine ⟨fun _ _ => rfl, ?_⟩
    cases given with
    | inl common =>
      obtain ⟨quota, here⟩ := Option.isSome_iff_exists.mp (AList.lookup_isSome.mpr common)
      rw [here]
      rfl
    | inr unknown => simp [unknown]
  case isFalse missing =>
    rw [not_or] at missing
    split at returned
    case isTrue => cases returned
    case isFalse =>
      cases returned
      refine ⟨fun key different => AList.lookup_insert_ne different, ?_⟩
      rw [AList.lookup_insert, AList.lookup_eq_none.mpr missing.1, if_neg missing.2]
      rfl

theorem lookup_bucketDefaults_ramQuotaMB (params : Params) :
    (bucketDefaults params).lookup .ramQuotaMB = params.lookup .ramQuotaMB := by
  rw [bucketDefaults, lookup_assignKeys, lookup_assignKeys, if_pos (by simp [bucketParams]), if_neg (by decide)]
  simp

/-- A meta parameter is handed down from the spec, or as `0`. -/
theorem lookup_bucketDefaults {key : SpecKey} (isMeta : key ∈ metaParams.erase .numBuckets) (params : Params) :
    (bucketDefaults params).lookup key = some ((params.lookup key).getD key.zero) := by
  have notOfBucket : key ∉ bucketParams := by
    simp only [metaParams] at isMeta
    intro member
    cases key <;> simp_all [bucketParams]
  rw [bucketDefaults, lookup_assignKeys, lookup_assignKeys, if_neg notOfBucket, if_pos isMeta]
  rfl

/-- The parameters of a bucket behind its defaults, whether they are filled in or copied -/
def WithDefaults (params : Params) (given : BucketSpec) (bucketParams : Params) : Prop :=
  ∀ key, bucketParams.lookup key = (given.params.lookup key).or ((bucketDefaults params).lookup key)

variable {given : BucketSpec} {ofBucket : Params}

theorem WithDefaults.handedDown (defaulted : WithDefaults params given ofBucket)
    (same : ∀ key, key ≠ .ramQuotaMB → params.lookup key = spec.params.lookup key) :
    HandedDown spec given ofBucket where
  kept key value here := by rw [defaulted key, here]; rfl
  scopes := by
    rw [defaulted, lookup_bucketDefaults (by decide), same _ (by simp), requestedScopes]
    simp only [innermost]
    cases given.params.lookup .numScopesPerBucket <;> simp [SpecKey.zero]
  collections := by
    rw [defaulted, lookup_bucketDefaults (by decide), same _ (by simp)]
    simp only [innermost]
    cases given.params.lookup .numCollectionsPerScope <;> simp [SpecKey.zero]
  items := by
    rw [defaulted, lookup_bucketDefaults (by decide), same _ (by simp)]
    simp only [innermost]
    cases given.params.lookup .numItems <;> simp [SpecKey.zero]

end Parameters

/-! ## The buckets of a spec -/

/-- A bucket that is not to be loaded exponentially is left alone. -/
theorem loadExponentially_even {bucket : BucketSpec}
    (even : (bucket.params.lookup .loadCollectionsExponentially).getD false = false) :
    loadExponentially bucket = .ok bucket := by
  rw [loadExponentially, if_neg (by simp [even])]

/-- An expanded bucket comes from the given one, or from one of which nothing is given. -/
def MadeFrom (names : RandomNames) (params : Params) (given bucket : BucketSpec) : Prop :=
  ∃ bucketParams before after, WithDefaults params given bucketParams ∧
    expandBucket names params bucketParams given.givenScopes before = .ok (bucket, after)

section Buckets

variable {names : RandomNames} {memoryQuota : ℕ} {spec : BucketsSpec} {params : Params} {given bucket : BucketSpec}

theorem expandBucket_params {bucketParams : Params} {scopes : Scopes} {before after : Drawn}
    (made : expandBucket names params bucketParams scopes before = .ok (bucket, after)) :
    bucket.params = bucketParams := by
  rw [expandBucket, bind_eq_ok] at made
  obtain ⟨_, _, made⟩ := made
  cases made
  rfl

theorem MadeFrom.complete (made : MadeFrom names params given bucket) :
    ∀ name scope, given.givenScopes.lookup name = some scope → scope.collections ≠ none := by
  obtain ⟨_, _, _, _, made⟩ := made
  rw [expandBucket, bind_eq_ok] at made
  obtain ⟨_, loop, _⟩ := made
  obtain ⟨_, _, _, _, _, _, complete, _⟩ := expandScopeSpec_spec loop
  exact complete

/-- The quota of an expanded bucket is its own, or the common one. -/
theorem MadeFrom.quota (made : MadeFrom names params given bucket) :
    (bucket.params.lookup .ramQuotaMB).getD 0 =
      (given.params.lookup .ramQuotaMB).getD ((params.lookup .ramQuotaMB).getD 0) := by
  obtain ⟨_, _, _, defaulted, made⟩ := made
  rw [expandBucket_params made, defaulted, lookup_bucketDefaults_ramQuotaMB]
  cases given.params.lookup .ramQuotaMB <;> rfl

/-- Without flags in the spec and the bucket, an expanded bucket has none. -/
theorem MadeFrom.even (made : MadeFrom names params given bucket)
    (specEven : params.lookup .loadCollectionsExponentially ≠ some true)
    (bucketEven : given.params.lookup .loadCollectionsExponentially ≠ some true) :
    (bucket.params.lookup .loadCollectionsExponentially).getD false = false := by
  obtain ⟨_, _, _, defaulted, made⟩ := made
  rw [expandBucket_params made, defaulted, lookup_bucketDefaults (by decide)]
  cases own : given.params.lookup .loadCollectionsExponentially with
  | some flag =>
    rw [own] at bucketEven
    cases flag with
    | false => rfl
    | true => exact absurd rfl bucketEven
  | none =>
    cases common : params.lookup .loadCollectionsExponentially with
    | none => rfl
    | some flag =>
      rw [common] at specEven
      cases flag with
      | false => rfl
      | true => exact absurd rfl specEven

/-- The quotas of all buckets, where those without one get the common quota -/
theorem total_quotas (buckets : Buckets) (share : ℤ) :
    total (fun bucket => (bucket.params.lookup .ramQuotaMB).getD share) buckets =
      buckets.totalRam +
        (total (fun bucket : BucketSpec => if .ramQuotaMB ∈ bucket.params then 0 else 1) buckets : ℕ) * share := by
  rw [Buckets.totalRam, total, total, total]
  induction buckets.entries with
  | nil => simp
  | cons entry entries ih =>
    simp only [List.map_cons, List.sum_cons, ih]
    cases own : entry.2.params.lookup .ramQuotaMB with
    | none =>
      rw [if_neg (AList.lookup_eq_none.mp own)]
      simp only [Option.getD_none]
      push_cast
      ring
    | some quota =>
      rw [if_pos (AList.lookup_isSome.mp (by rw [own]; rfl))]
      simp only [Option.getD_some]
      push_cast
      ring

variable {buckets expanded created : Buckets} {drawn middle last : Drawn} {reqNumBuckets : ℕ}

/-- Behind both loops each bucket has been made from a given one, or from none. -/
theorem madeFrom_of_created (loop : expandGivenBuckets names params buckets drawn = .ok (expanded, middle))
    (added : createBuckets names params reqNumBuckets expanded middle = .ok (created, last)) :
    ∀ name bucket, created.lookup name = some bucket →
      MadeFrom names params ((buckets.lookup name).getD .empty) bucket := by
  intro name bucket found
  rw [createBuckets, bind_eq_ok] at added
  obtain ⟨simple, _, added⟩ := added
  have here := traverse_lookup loop name
  cases fillUp_lookup (nextName_fresh names simple .bucket) added name with
  | inl kept =>
    rw [← kept, found] at here
    generalize buckets.lookup name = before at here
    cases here with
    | some here =>
      obtain ⟨before, after, here⟩ := here
      exact ⟨_, before, after, fun key => lookup_applyDefaults _ _ key, here⟩
  | inr new =>
    obtain ⟨absent, bucket', before, after, found', here'⟩ := new
    rw [absent] at here
    rw [found'] at found
    cases found
    generalize buckets.lookup name = given at here
    cases here
    exact ⟨_, before, after, fun key => rfl, here'⟩

theorem created_length (loop : expandGivenBuckets names params buckets drawn = .ok (expanded, middle))
    (added : createBuckets names params reqNumBuckets expanded middle = .ok (created, last)) :
    created.keys.length = max reqNumBuckets buckets.keys.length := by
  rw [createBuckets, bind_eq_ok] at added
  obtain ⟨simple, _, added⟩ := added
  rw [fillUp_length (nextName_fresh names simple .bucket) added, traverse_keys loop]
  omega

theorem mem_created (loop : expandGivenBuckets names params buckets drawn = .ok (expanded, middle))
    (added : createBuckets names params reqNumBuckets expanded middle = .ok (created, last)) {name : String}
    (given : name ∈ buckets) : name ∈ created := by
  rw [createBuckets, bind_eq_ok] at added
  obtain ⟨simple, _, added⟩ := added
  exact mem_fillUp (nextName_fresh names simple .bucket) added ((mem_traverse loop).mpr given)

/-- The explicit quotas, and the common one for every other bucket -/
theorem created_totalRam (loop : expandGivenBuckets names params buckets drawn = .ok (expanded, middle))
    (added : createBuckets names params reqNumBuckets expanded middle = .ok (created, last)) :
    created.totalRam = buckets.totalRam +
      (total (fun bucket : BucketSpec => if .ramQuotaMB ∈ bucket.params then 0 else 1) buckets +
        (reqNumBuckets - buckets.keys.length) : ℕ) * (params.lookup .ramQuotaMB).getD 0 := by
  rw [createBuckets, bind_eq_ok] at added
  obtain ⟨simple, _, added⟩ := added
  have carried : total (fun bucket : BucketSpec => (bucket.params.lookup .ramQuotaMB).getD 0) expanded =
      total (fun bucket : BucketSpec => (bucket.params.lookup .ramQuotaMB).getD ((params.lookup .ramQuotaMB).getD 0))
        buckets := by
    refine traverse_total loop ?_
    intro before _ bucket bucket' after expandedHere
    have here : MadeFrom names params bucket bucket' :=
      ⟨_, before, after, fun key => lookup_applyDefaults _ _ key, expandedHere⟩
    exact here.quota
  have each : ∀ (key : String) before bucket after,
      expandBucket names params (bucketDefaults params) ∅ before = .ok (bucket, after) →
      (bucket.params.lookup .ramQuotaMB).getD 0 = (params.lookup .ramQuotaMB).getD 0 := by
    intro _ before bucket after addedHere
    have here : MadeFrom names params .empty bucket := ⟨_, before, after, fun key => rfl, addedHere⟩
    exact here.quota
  have sum := fillUp_total (nextName_fresh names simple .bucket) added each
  rw [carried, total_quotas buckets, traverse_keys loop] at sum
  rw [Buckets.totalRam, sum, nsmul_eq_mul]
  push_cast
  ring

/-- Where no level asks for an exponential load, the last loop changes nothing. -/
theorem loadBuckets_even (suitable : Suitable memoryQuota spec) (quotaSet : setRamQuota memoryQuota spec = .ok params)
    (made : ∀ name bucket, created.lookup name = some bucket →
      MadeFrom names params ((spec.givenBuckets.lookup name).getD .empty) bucket) :
    loadBuckets created = .ok (created, ()) := by
  refine traverse_unchanged ?_ ()
  intro _ name bucket found
  have specEven : params.lookup .loadCollectionsExponentially ≠ some true := by
    rw [(setRamQuota_spec quotaSet).1 _ (by simp)]
    exact suitable.specEven
  have bucketEven : ((spec.givenBuckets.lookup name).getD BucketSpec.empty).params.lookup
      .loadCollectionsExponentially ≠ some true := by
    cases given : spec.givenBuckets.lookup name with
    | none => simp [BucketSpec.empty]
    | some bucket => exact suitable.bucketsEven name bucket given
  rw [loadExponentially_even ((made name bucket found).even specEven bucketEven)]
  rfl

theorem expandBucketsSpec_eq_ok {result : BucketsSpec} (suitable : Suitable memoryQuota spec) :
    expandBucketsSpec names memoryQuota spec drawn = .ok result ↔ ∃ params expanded middle created last,
      setRamQuota memoryQuota spec = .ok params ∧
      expandGivenBuckets names params spec.givenBuckets drawn = .ok (expanded, middle) ∧
      createBuckets names params spec.reqNumBuckets expanded middle = .ok (created, last) ∧
      result = ⟨params, some created⟩ := by
  simp only [expandBucketsSpec, bind_eq_ok]
  constructor
  · intro ⟨params, quotaSet, ⟨expanded, middle⟩, loop, ⟨created, last⟩, added, ⟨loaded, _⟩, load, returned⟩
    rw [loadBuckets_even suitable quotaSet (madeFrom_of_created loop added)] at load
    cases load
    cases returned
    exact ⟨params, expanded, middle, created, last, quotaSet, loop, added, rfl⟩
  · intro ⟨params, expanded, middle, created, last, quotaSet, loop, added, same⟩
    have load := loadBuckets_even suitable quotaSet (madeFrom_of_created loop added)
    exact ⟨params, quotaSet, (expanded, middle), loop, (created, last), added, (created, ()), load, same ▸ rfl⟩

/-- With complete scopes and no division by zero the expansion returns. -/
theorem expandBucketsSpec_returns (suitable : Suitable memoryQuota spec) (expandable : Expandable memoryQuota spec)
    (drawn : Drawn) : ∃ result, expandBucketsSpec names memoryQuota spec drawn = .ok result := by
  obtain ⟨params, quotaSet⟩ := setRamQuota_returns_iff.mpr expandable.divisible
  have same := (setRamQuota_spec quotaSet).1
  have hasNames : params.lookup .useSimpleNames ≠ none := by
    rw [same _ (by simp)]
    exact suitable.names
  -- Whatever the parameters of the bucket are, its scopes can be expanded if they are complete.
  have expands : ∀ bucketParams (scopes : Scopes) drawn,
      (∀ name scope, scopes.lookup name = some scope → scope.collections ≠ none) →
      ∃ bucket drawn', expandBucket names params bucketParams scopes drawn = .ok (bucket, drawn') := by
    intro bucketParams scopes drawn complete
    have hasFlag : params.lookup .removeDefaultCollection ≠ none := by
      rw [same _ (by simp)]
      exact suitable.removal
    have hasScopes : params.lookup .numScopesPerBucket ≠ none := by
      rw [same _ (by simp)]
      exact suitable.scopes
    obtain ⟨scopes', drawn', returned⟩ := expandScopeSpec_returns hasNames hasFlag hasScopes complete drawn
    exact ⟨⟨bucketParams, some scopes'⟩, drawn', bind_eq_ok.mpr ⟨_, returned, rfl⟩⟩
  have each : ∀ drawn name bucket, spec.givenBuckets.lookup name = some bucket →
      ∃ bucket' drawn', expandBucket names params (applyDefaults (bucketDefaults params) bucket.params)
        (bucket.scopes.getD ∅) drawn = .ok (bucket', drawn') := by
    intro drawn name bucket here
    exact expands _ _ drawn (expandable.complete name bucket here)
  obtain ⟨expanded, middle, loop⟩ := traverse_returns each drawn
  obtain ⟨simple, isSimple⟩ := Option.ne_none_iff_exists'.mp hasNames
  have noScopes : ∀ name scope, (∅ : Scopes).lookup name = some scope → scope.collections ≠ none := by
    intro name scope impossible
    cases impossible
  have eachNew : ∀ (name : String) drawn, ∃ bucket drawn',
      expandBucket names params (bucketDefaults params) ∅ drawn = .ok (bucket, drawn') := by
    intro _ drawn
    exact expands _ ∅ drawn noScopes
  obtain ⟨created, last, filled⟩ := fillUp_returns (nextName names simple .bucket) eachNew
    (spec.reqNumBuckets - expanded.keys.length) expanded middle
  have added : createBuckets names params spec.reqNumBuckets expanded middle = .ok (created, last) := by
    rw [createBuckets, isSimple]
    exact filled
  exact ⟨_, (expandBucketsSpec_eq_ok suitable).mpr ⟨params, expanded, middle, created, last, quotaSet, loop, added, rfl⟩⟩

theorem MadeFrom.right_iff (quotaSet : setRamQuota memoryQuota spec = .ok params)
    (made : MadeFrom names params given bucket) : BucketRight spec given bucket ↔
      ∀ name scope, given.givenScopes.lookup name = some scope → DefaultUnset spec given name scope := by
  obtain ⟨bucketParams, before, after, defaulted, made⟩ := made
  have same := (setRamQuota_spec quotaSet).1
  exact bucketRight_iff (defaulted.handedDown same) (same _ (by simp)) made

/-- A given bucket that is right in the result has lost no default collection. -/
theorem unset_of_right {result : BucketsSpec} (suitable : Suitable memoryQuota spec)
    (returned : expandBucketsSpec names memoryQuota spec drawn = .ok result)
    (right : ExpansionRight memoryQuota spec result) :
    ∀ bucketName bucket, spec.givenBuckets.lookup bucketName = some bucket →
      ∀ name scope, bucket.givenScopes.lookup name = some scope →
        scope.collections ≠ none ∧ DefaultUnset spec bucket name scope := by
  obtain ⟨params, expanded, middle, created, last, quotaSet, loop, added, rfl⟩ :=
    (expandBucketsSpec_eq_ok suitable).mp returned
  intro bucketName bucket given name scope here
  have member : bucketName ∈ created := mem_created loop added (AList.lookup_isSome.mp (by rw [given]; rfl))
  obtain ⟨bucket', found⟩ := Option.isSome_iff_exists.mp (AList.lookup_isSome.mpr member)
  have made := madeFrom_of_created loop added bucketName bucket' found
  have bucketRight := right.each bucketName bucket' found
  rw [given] at made bucketRight
  exact ⟨made.complete name scope here, (made.right_iff quotaSet).mp bucketRight name scope here⟩

/-- The quotas behind the expansion of a spec without a common quota -/
theorem totalRam_of_created (quotaSet : setRamQuota memoryQuota spec = .ok params)
    (noCommon : spec.params.lookup .ramQuotaMB = none)
    (loop : expandGivenBuckets names params spec.givenBuckets drawn = .ok (expanded, middle))
    (added : createBuckets names params spec.reqNumBuckets expanded middle = .ok (created, last)) :
    created.totalRam = spec.givenBuckets.totalRam +
      if memoryQuota = 0 then 0 else spec.unquoted * spec.quotaOfEach memoryQuota := by
  rw [created_totalRam loop added, (setRamQuota_spec quotaSet).2, noCommon, BucketsSpec.unquoted]
  split <;> simp

end Buckets

/-- What is returned and right could be expanded. -/
theorem expandable_of_right {names : RandomNames} {memoryQuota : ℕ} {spec result : BucketsSpec} {drawn : Drawn}
    (suitable : Suitable memoryQuota spec) (returned : expandBucketsSpec names memoryQuota spec drawn = .ok result)
    (right : ExpansionRight memoryQuota spec result) : Expandable memoryQuota spec := by
  have givenRight := unset_of_right suitable returned right
  obtain ⟨params, expanded, middle, created, last, quotaSet, loop, added, rfl⟩ :=
    (expandBucketsSpec_eq_ok suitable).mp returned
  refine ⟨?complete, setRamQuota_returns_iff.mp ⟨params, quotaSet⟩, ?unset, ?fits⟩
  case complete =>
    intro bucketName bucket given name scope here
    exact (givenRight bucketName bucket given name scope here).1
  case unset =>
    intro bucketName bucket given name scope here
    exact (givenRight bucketName bucket given name scope here).2
  case fits =>
    intro noCommon known
    have below : created.totalRam ≤ memoryQuota := right.quotas noCommon
    rw [totalRam_of_created quotaSet noCommon loop added, if_neg known] at below
    linarith

/-- What is returned for an expandable spec is right. -/
theorem right_of_expandable {names : RandomNames} {memoryQuota : ℕ} {spec result : BucketsSpec} {drawn : Drawn}
    (suitable : Suitable memoryQuota spec) (returned : expandBucketsSpec names memoryQuota spec drawn = .ok result)
    (expandable : Expandable memoryQuota spec) : ExpansionRight memoryQuota spec result := by
  obtain ⟨params, expanded, middle, created, last, quotaSet, loop, added, rfl⟩ :=
    (expandBucketsSpec_eq_ok suitable).mp returned
  refine ⟨?kept, created_length loop added, fun name given => mem_created loop added given, ?each, ?quotas⟩
  case kept =>
    intro key value here
    change params.lookup key = some value
    by_cases isQuota : key = .ramQuotaMB
    · subst isQuota
      rw [(setRamQuota_spec quotaSet).2, here]
      rfl
    · rw [(setRamQuota_spec quotaSet).1 key isQuota, here]
  case each =>
    intro name bucket found
    refine ((madeFrom_of_created loop added name bucket found).right_iff quotaSet).mpr ?_
    cases given : spec.givenBuckets.lookup name with
    | some explicit => exact expandable.unset name explicit given
    | none =>
      intro _ _ impossible
      cases impossible
  case quotas =>
    intro noCommon
    change created.totalRam ≤ memoryQuota
    rw [totalRam_of_created quotaSet noCommon loop added]
    split
    case isTrue unknown =>
      rw [add_zero]
      exact suitable.quota
    case isFalse known =>
      have fits := expandable.fits noCommon known
      linarith

/-- The expansion returns a complete spec that keeps what was given and stays in the quota of the
    node exactly if the spec is expandable. -/
theorem expansion_right_iff (names : RandomNames) {memoryQuota : ℕ} {spec : BucketsSpec}
    (suitable : Suitable memoryQuota spec) (drawn : Drawn) :
    (∃ result, expandBucketsSpec names memoryQuota spec drawn = .ok result ∧ ExpansionRight memoryQuota spec result) ↔
      Expandable memoryQuota spec := by
  constructor
  · intro ⟨result, returned, right⟩
    exact expandable_of_right suitable returned right
  · intro expandable
    obtain ⟨result, returned⟩ := expandBucketsSpec_returns suitable expandable drawn
    exact ⟨result, returned, right_of_expandable suitable returned expandable⟩

/-! ## One given bucket -/

/-- A bucket with a quota of 100 MB and with the given collections in its default scope -/
def oneBucket (numBuckets : ℕ) (collections : Collections) : BucketsSpec where
  params := (((AList.singleton .useSimpleNames true).insert .removeDefaultCollection false).insert
    .numScopesPerBucket (2 : ℕ)).insert .numBuckets numBuckets
  buckets := some ((∅ : Buckets).insert "travel"
    ⟨.singleton .ramQuotaMB (100 : ℤ), some ((∅ : Scopes).insert defaultScope ⟨∅, some collections⟩)⟩)

theorem suitable_oneBucket (numBuckets : ℕ) (collections : Collections) :
    Suitable 1000 (oneBucket numBuckets collections) where
  names := Option.some_ne_none true
  removal := Option.some_ne_none false
  scopes := Option.some_ne_none 2
  quota := by
    change (100 : ℤ) + 0 ≤ 1000
    norm_num
  specEven := (Option.some_ne_none true).symm
  bucketsEven name bucket found := by
    cases lookup_insert_eq_some.mp found with
    | inl here =>
      rw [here.2]
      exact (Option.some_ne_none true).symm
    | inr impossible => cases impossible.2

/-- Three buckets on a node with 1000 MB, of which one is given -/
theorem expansion_right_iff_of_one_bucket :
    ∃ result, expandBucketsSpec default 1000 (oneBucket 3 ∅) (fun _ => 0) = .ok result ∧
      ExpansionRight 1000 (oneBucket 3 ∅) result := by
  refine (expansion_right_iff default (suitable_oneBucket 3 ∅) (fun _ => 0)).mpr ?_
  have onlyScope : ∀ bucketName bucket, (oneBucket 3 ∅).givenBuckets.lookup bucketName = some bucket →
      ∀ name scope, bucket.givenScopes.lookup name = some scope → scope = ⟨∅, some ∅⟩ := by
    intro bucketName bucket found name scope here
    cases lookup_insert_eq_some.mp found with
    | inl given =>
      rw [given.2] at here
      cases lookup_insert_eq_some.mp here with
      | inl same => exact same.2
      | inr impossible => cases impossible.2
    | inr impossible => cases impossible.2
  refine ⟨?complete, .inr (.inr (by decide)), ?unset, ?fits⟩
  case complete =>
    intro bucketName bucket found name scope here
    rw [onlyScope bucketName bucket found name scope here]
    exact Option.some_ne_none _
  case unset =>
    intro bucketName bucket found name scope here _ collection impossible
    rw [onlyScope bucketName bucket found name scope here] at impossible
    cases impossible
  case fits =>
    intro _ _
    change (2 : ℤ) * ((1000 - (100 + 0)) / 3) ≤ 1000 - (100 + 0)
    norm_num

/-- A given default collection loses its five items: it is created anew. -/
theorem given_default_collection_is_replaced :
    Suitable 1000 (oneBucket 1 (.singleton defaultCollection (.singleton .numItems (5 : ℕ)))) ∧
      ¬ ∃ result, expandBucketsSpec default 1000
          (oneBucket 1 (.singleton defaultCollection (.singleton .numItems (5 : ℕ)))) (fun _ => 0) = .ok result ∧
        ExpansionRight 1000 (oneBucket 1 (.singleton defaultCollection (.singleton .numItems (5 : ℕ)))) result := by
  refine ⟨suitable_oneBucket _ _, ?_⟩
  intro ⟨result, returned, right⟩
  have unset := (unset_of_right (suitable_oneBucket _ _) returned right "travel" _ rfl defaultScope _ rfl).2
  have kept := unset (by decide) _ rfl .numItems (5 : ℕ) rfl
  exact absurd (Option.some.inj kept) (by decide)

end Taf.Bucket.Expansion
