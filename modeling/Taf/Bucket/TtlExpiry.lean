import Taf.Lib.Visits
import Taf.Bucket.Collection

/-! # Items that expire with their collection or their bucket

`DocLoaderUtils.update_num_items_based_on_expired_docs` for the TTL levels `collection` and `bucket`.
The collections are objects that the dictionaries of a bucket refer to; the loops go over the
dictionaries in any order, clear counts and find the time to wait.  For collections the time found so
far decides whether a count is cleared; for buckets every count is. -/

namespace Taf.Bucket

open Taf.Lib

/-- The names of a bucket, a scope and a collection -/
abbrev Place := String × String × String

structure ScopeNames where
  collections : List String
  nodup : collections.Nodup

structure TtlBucket where
  maxTTL : Int
  scopes : AList fun _ : String => ScopeNames

abbrev TtlBuckets := AList fun _ : String => TtlBucket

/-- In which order buckets, the scopes of a bucket and the collections of a scope are visited -/
structure Orders where
  buckets : KeyOrder String
  scopes : String → KeyOrder String
  collections : String → String → KeyOrder String

/-- The order of the entries everywhere -/
def Orders.plain : Orders := ⟨.plain, fun _ => .plain, fun _ _ => .plain⟩

abbrev Heap := Place → Collection

/-! ## The loops -/

def scopeVisits (orders : Orders) (bucket scope : String) (names : ScopeNames) : List Place :=
  ((orders.collections bucket scope).order names.collections).map fun collection =>
    (bucket, scope, collection)

def bucketVisits (orders : Orders) (name : String) (bucket : TtlBucket) : List Place :=
  visit (orders.scopes name) bucket.scopes (scopeVisits orders name)

def visits (orders : Orders) (buckets : TtlBuckets) : List Place :=
  visit orders.buckets buckets (bucketVisits orders)

/-- `collection.num_items = 0` -/
def Collection.emptied (c : Collection) : Collection := { c with numItems := 0 }

def clearItems (heap : Heap) (place : Place) : Heap :=
  Function.update heap place (heap place).emptied

inductive TtlLevel where
  | collection | bucket

/-- The body of the loop for collections -/
def expireCollection (state : Int × Heap) (place : Place) : Int × Heap :=
  if (state.2 place).maxTTL > state.1 then ((state.2 place).maxTTL, clearItems state.2 place)
  else state

/-- The body of the loop for buckets -/
def expireBucket (orders : Orders) (buckets : TtlBuckets) (state : Int × Heap) (name : String) :
    Int × Heap :=
  match buckets.lookup name with
  | some bucket =>
    (if bucket.maxTTL > state.1 then bucket.maxTTL else state.1,
      (bucketVisits orders name bucket).foldl clearItems state.2)
  | none => state

/-- The time that is slept, and the collections afterwards -/
def updateNumItems (level : TtlLevel) (orders : Orders) (buckets : TtlBuckets) (heap : Heap) :
    Int × Heap :=
  match level with
  | .collection => (visits orders buckets).foldl expireCollection (0, heap)
  | .bucket => (orders.buckets.order buckets.keys).foldl (expireBucket orders buckets) (0, heap)

/-! ## What is meant to expire -/

/-- There is such a collection. -/
def Exists (buckets : TtlBuckets) (place : Place) : Prop :=
  ∃ bucket, buckets.lookup place.1 = some bucket ∧
    ∃ names, bucket.scopes.lookup place.2.1 = some names ∧ place.2.2 ∈ names.collections

/-- The TTL that decides about a collection -/
def ttlOf (level : TtlLevel) (buckets : TtlBuckets) (heap : Heap) (place : Place) : Int :=
  match level with
  | .collection => (heap place).maxTTL
  | .bucket => ((buckets.lookup place.1).map TtlBucket.maxTTL).getD 0

open Classical in
/-- Exactly the collections with a TTL are emptied. -/
noncomputable def expiredHeap (level : TtlLevel) (buckets : TtlBuckets) (heap : Heap) : Heap :=
  fun place =>
    if Exists buckets place ∧ 0 < ttlOf level buckets heap place then (heap place).emptied
    else heap place

/-- The largest of the TTLs of the level -/
def IsWait (level : TtlLevel) (buckets : TtlBuckets) (heap : Heap) (wait : Int) : Prop :=
  match level with
  | .collection => IsPeak (fun place => (heap place).maxTTL) 0 {place | Exists buckets place} wait
  | .bucket =>
    IsPeak (fun name => ((buckets.lookup name).map TtlBucket.maxTTL).getD 0) 0 {name | name ∈ buckets}
      wait

/-- Whatever the order of the visits. -/
def ExpiresRight (level : TtlLevel) (buckets : TtlBuckets) (heap : Heap) : Prop :=
  ∀ orders, IsWait level buckets heap (updateNumItems level orders buckets heap).1 ∧
    (updateNumItems level orders buckets heap).2 = expiredHeap level buckets heap

/-- A collection with items and a TTL has the largest TTL of all; a bucket without a TTL has empty
    collections. -/
def Expirable (buckets : TtlBuckets) (heap : Heap) : TtlLevel → Prop
  | .collection => ∀ place other, Exists buckets place → Exists buckets other → other ≠ place →
      0 < (heap place).maxTTL → (heap place).numItems ≠ 0 → (heap other).maxTTL < (heap place).maxTTL
  | .bucket => ∀ place, Exists buckets place → ttlOf .bucket buckets heap place ≤ 0 →
      (heap place).numItems = 0

theorem emptied_eq_self_iff {c : Collection} : c.emptied = c ↔ c.numItems = 0 := by
  constructor
  · intro same
    rw [← same]
    rfl
  · intro empty
    rw [Collection.emptied, ← empty]

/-! ## The visits -/

variable {orders : Orders} {buckets : TtlBuckets} {heap : Heap} {place : Place}

theorem mem_scopeVisits {bucket scope : String} {names : ScopeNames} :
    place ∈ scopeVisits orders bucket scope names ↔
      place.1 = bucket ∧ place.2.1 = scope ∧ place.2.2 ∈ names.collections := by
  rw [scopeVisits, List.mem_map]
  constructor
  · rintro ⟨collection, member, rfl⟩
    exact ⟨rfl, rfl, ((orders.collections bucket scope).perm _).mem_iff.mp member⟩
  · rintro ⟨rfl, rfl, member⟩
    exact ⟨place.2.2, ((orders.collections _ _).perm _).mem_iff.mpr member, rfl⟩

theorem mem_bucketVisits {name : String} {bucket : TtlBucket} :
    place ∈ bucketVisits orders name bucket ↔ place.1 = name ∧
      ∃ names, bucket.scopes.lookup place.2.1 = some names ∧ place.2.2 ∈ names.collections := by
  rw [bucketVisits, mem_visit]
  constructor
  · rintro ⟨scope, names, found, inside⟩
    obtain ⟨rfl, rfl, member⟩ := mem_scopeVisits.mp inside
    exact ⟨rfl, names, found, member⟩
  · rintro ⟨rfl, names, found, member⟩
    exact ⟨place.2.1, names, found, mem_scopeVisits.mpr ⟨rfl, rfl, member⟩⟩

theorem mem_visits : place ∈ visits orders buckets ↔ Exists buckets place := by
  rw [visits, mem_visit]
  constructor
  · rintro ⟨name, bucket, found, inside⟩
    obtain ⟨rfl, rest⟩ := mem_bucketVisits.mp inside
    exact ⟨bucket, found, rest⟩
  · rintro ⟨bucket, found, rest⟩
    exact ⟨place.1, bucket, found, mem_bucketVisits.mpr ⟨rfl, rest⟩⟩

/-- Any collection of a scope may be visited before any other one of it. -/
theorem precedes_scopeVisits {bucket scope : String} {names : ScopeNames} {first second : String}
    (member : first ∈ names.collections) (different : first ≠ second) :
    Precedes (bucket, scope, first) (bucket, scope, second)
      (scopeVisits ⟨.plain, fun _ => .plain, fun _ _ => .first first⟩ bucket scope names) := by
  rw [scopeVisits, KeyOrder.order_first member, List.map_cons]
  refine ⟨[_], _, rfl, List.mem_singleton.mpr rfl, ?_⟩
  intro same
  cases List.mem_singleton.mp same
  exact different rfl

/-- Any collection may be visited before any other one. -/
theorem exists_precedes {other : Place} (first : Exists buckets other) (different : other ≠ place) :
    ∃ orders, Precedes other place (visits orders buckets) := by
  obtain ⟨bucket, found, names, listed, member⟩ := first
  have outside : ∀ orders name, name ≠ place.1 → ∀ bucket, place ∉ bucketVisits orders name bucket :=
    fun orders name apart bucket inside => apart (mem_bucketVisits.mp inside).1.symm
  have scopeOutside : ∀ orders scope, scope ≠ place.2.1 → ∀ names,
      place ∉ scopeVisits orders other.1 scope names :=
    fun orders scope apart names inside => apart (mem_scopeVisits.mp inside).2.1.symm
  by_cases sameBucket : other.1 = place.1
  · by_cases sameScope : other.2.1 = place.2.1
    · have last : other.2.2 ≠ place.2.2 := fun same =>
        different (Prod.ext sameBucket (Prod.ext sameScope same))
      refine ⟨⟨.plain, fun _ => .plain, fun _ _ => .first other.2.2⟩, ?_⟩
      apply precedes_visit found (sameBucket ▸ outside _)
      apply precedes_visit listed (sameScope ▸ scopeOutside _)
      have ahead := @precedes_scopeVisits other.1 other.2.1 _ _ _ member last
      rwa [show (other.1, other.2.1, place.2.2) = place from by rw [sameBucket, sameScope]] at ahead
    · refine ⟨⟨.plain, fun _ => .first other.2.1, fun _ _ => .plain⟩, ?_⟩
      apply precedes_visit found (sameBucket ▸ outside _)
      exact precedes_visit_first listed (mem_scopeVisits.mpr ⟨rfl, rfl, member⟩)
        (scopeOutside _ _ sameScope names)
  · refine ⟨⟨.first other.1, fun _ => .plain, fun _ _ => .plain⟩, ?_⟩
    exact precedes_visit_first found (mem_bucketVisits.mpr ⟨rfl, names, listed, member⟩)
      (outside _ _ sameBucket bucket)

/-! ## The loop for collections -/

/-- The TTLs that the running maximum goes over -/
def maxTTLs (heap : Heap) (place : Place) : Int := (heap place).maxTTL

open Classical in
theorem foldl_expireCollection (heap : Heap) (visited : List Place) :
    IsPeak (maxTTLs heap) 0 {place | place ∈ visited} (visited.foldl expireCollection (0, heap)).1 ∧
      ∀ place, (visited.foldl expireCollection (0, heap)).2 place =
        if IsRecord (maxTTLs heap) 0 visited place then (heap place).emptied else heap place := by
  induction visited using List.reverseRecOn with
  | nil =>
    refine ⟨⟨le_refl _, by simp, .inl rfl⟩, fun place => ?_⟩
    rw [if_neg]
    · rfl
    · rintro ⟨-, before, after, same, -⟩
      simp at same
  | append_singleton visited last ih =>
    obtain ⟨peak, cleared⟩ := ih
    have ttl : ((visited.foldl expireCollection (0, heap)).2 last).maxTTL = maxTTLs heap last := by
      rw [cleared]
      split
      · rfl
      · rfl
    rw [List.foldl_append, List.foldl_cons, List.foldl_nil, expireCollection, ttl]
    by_cases above : maxTTLs heap last > (visited.foldl expireCollection (0, heap)).1
    · rw [if_pos above]
      have smaller : ∀ other ∈ visited, maxTTLs heap other < maxTTLs heap last := fun other member =>
        (peak.upper other member).trans_lt above
      refine ⟨⟨peak.atLeast.trans above.le, ?_, .inr ⟨last, by simp, rfl⟩⟩, fun place => ?_⟩
      · intro item member
        rcases List.mem_append.mp member with inside | inside
        · exact (smaller item inside).le
        · rw [List.mem_singleton.mp inside]
      · by_cases here : place = last
        · subst here
          rw [if_pos (isRecord_concat.mpr (.inr ⟨rfl, peak.atLeast.trans_lt above, smaller⟩))]
          show Function.update _ place _ place = _
          rw [Function.update_self, cleared]
          split
          · rfl
          · rfl
        · show Function.update _ last _ place = _
          rw [Function.update_of_ne here, cleared]
          apply if_congr _ rfl rfl
          rw [isRecord_concat]
          simp [here]
    · rw [if_neg above]
      have notLast : ∀ place, ¬ (place = last ∧ 0 < maxTTLs heap last ∧
          ∀ other ∈ visited, maxTTLs heap other < maxTTLs heap last) := by
        rintro place ⟨-, positive, smaller⟩
        rcases peak.attained with zero | ⟨item, member, same⟩
        · omega
        · have := smaller item member
          omega
      refine ⟨⟨peak.atLeast, ?_, ?_⟩, fun place => ?_⟩
      · intro item member
        rcases List.mem_append.mp member with inside | inside
        · exact peak.upper item inside
        · rw [List.mem_singleton.mp inside]
          exact not_lt.mp above
      · rcases peak.attained with zero | ⟨item, member, same⟩
        · exact .inl zero
        · exact .inr ⟨item, List.mem_append_left _ member, same⟩
      · rw [cleared]
        apply if_congr _ rfl rfl
        rw [isRecord_concat, or_iff_left (notLast place)]

theorem expiresRight_collection_iff :
    ExpiresRight .collection buckets heap ↔ Expirable buckets heap .collection := by
  classical
  constructor
  · intro right place other present otherPresent different positive filled
    by_contra notSmaller
    obtain ⟨orders, precedes⟩ := exists_precedes otherPresent different
    have noRecord : ¬ IsRecord (maxTTLs heap) 0 (visits orders buckets) place := by
      rintro ⟨-, before, after, same, smaller⟩
      exact notSmaller (smaller other (precedes.mem_before same))
    have kept : (updateNumItems .collection orders buckets heap).2 place = heap place := by
      rw [updateNumItems, (foldl_expireCollection heap _).2, if_neg noRecord]
    have wanted : expiredHeap .collection buckets heap place = (heap place).emptied :=
      if_pos ⟨present, positive⟩
    have result := congrFun (right orders).2 place
    rw [kept, wanted] at result
    exact filled (emptied_eq_self_iff.mp result.symm)
  · intro expirable orders
    obtain ⟨peak, cleared⟩ := foldl_expireCollection heap (visits orders buckets)
    have places : {place | place ∈ visits orders buckets} = {place | Exists buckets place} :=
      Set.ext fun place => mem_visits
    rw [places] at peak
    refine ⟨peak, ?_⟩
    funext place
    rw [updateNumItems, cleared, expiredHeap]
    by_cases affected : Exists buckets place ∧ 0 < ttlOf .collection buckets heap place
    · rw [if_pos affected]
      split
      · rfl
      · rename_i noRecord
        obtain ⟨before, after, same, fresh⟩ :=
          List.eq_append_cons_of_mem ((@mem_visits orders buckets place).mpr affected.1)
        -- If it has items, its TTL is the largest, and it is met as a record.
        have empty : (heap place).numItems = 0 := by
          by_contra filled
          refine noRecord ⟨affected.2, before, after, same, fun other inside => ?_⟩
          have present : Exists buckets other := by
            apply (@mem_visits orders buckets other).mp
            rw [same]
            exact List.mem_append_left _ inside
          apply expirable place other affected.1 present _ affected.2 filled
          rintro rfl
          exact fresh inside
        exact (emptied_eq_self_iff.mpr empty).symm
    · rw [if_neg affected, if_neg]
      rintro ⟨positive, before, after, same, -⟩
      apply affected
      refine ⟨(@mem_visits orders buckets place).mp ?_, positive⟩
      rw [same]
      simp

/-! ## The loop for buckets -/

theorem foldl_clearItems (places : List Place) (heap : Heap) (place : Place) :
    places.foldl clearItems heap place = if place ∈ places then (heap place).emptied else heap place := by
  induction places generalizing heap with
  | nil => simp
  | cons first places ih =>
    rw [List.foldl_cons, ih]
    by_cases here : place = first
    · subst here
      have again : (clearItems heap place place) = (heap place).emptied := Function.update_self ..
      rw [again, if_pos List.mem_cons_self]
      split
      · rfl
      · rfl
    · have other : clearItems heap first place = heap place := Function.update_of_ne here ..
      rw [other]
      apply if_congr _ rfl rfl
      simp [here]

open Classical in
theorem foldl_expireBucket (heap : Heap) {names : List String} (known : ∀ name ∈ names, name ∈ buckets) :
    IsPeak (fun name => ((buckets.lookup name).map TtlBucket.maxTTL).getD 0) 0 {name | name ∈ names}
        (names.foldl (expireBucket orders buckets) (0, heap)).1 ∧
      ∀ place, (names.foldl (expireBucket orders buckets) (0, heap)).2 place =
        if place.1 ∈ names ∧ Exists buckets place then (heap place).emptied else heap place := by
  induction names using List.reverseRecOn with
  | nil => exact ⟨⟨le_refl _, by simp, .inl rfl⟩, by simp⟩
  | append_singleton names last ih =>
    obtain ⟨peak, cleared⟩ := ih fun name member => known name (by simp [member])
    obtain ⟨bucket, found⟩ := Option.isSome_iff_exists.mp
      (AList.lookup_isSome.mpr (known last (by simp)))
    rw [List.foldl_append, List.foldl_cons, List.foldl_nil, expireBucket, found]
    have ttl : ((buckets.lookup last).map TtlBucket.maxTTL).getD 0 = bucket.maxTTL := by
      rw [found]
      rfl
    constructor
    · have larger : (if bucket.maxTTL > (names.foldl (expireBucket orders buckets) (0, heap)).1 then
          bucket.maxTTL else (names.foldl (expireBucket orders buckets) (0, heap)).1) =
            max (names.foldl (expireBucket orders buckets) (0, heap)).1 bucket.maxTTL := by
        split <;> omega
      simp only [larger]
      refine ⟨peak.atLeast.trans (le_max_left _ _), ?_, ?_⟩
      · intro name member
        rcases List.mem_append.mp member with inside | inside
        · exact (peak.upper name inside).trans (le_max_left _ _)
        · rw [List.mem_singleton.mp inside, ttl]
          exact le_max_right _ _
      · rcases max_choice (names.foldl (expireBucket orders buckets) (0, heap)).1 bucket.maxTTL
          with before | now
        · rw [before]
          rcases peak.attained with zero | ⟨item, member, same⟩
          · exact .inl zero
          · exact .inr ⟨item, List.mem_append_left _ member, same⟩
        · rw [now]
          exact .inr ⟨last, by simp, ttl.symm⟩
    · intro place
      show (bucketVisits orders last bucket).foldl clearItems _ place = _
      rw [foldl_clearItems, cleared]
      have inBlock : place ∈ bucketVisits orders last bucket ↔ place.1 = last ∧ Exists buckets place := by
        apply mem_bucketVisits.trans
        constructor
        · rintro ⟨rfl, listed⟩
          exact ⟨rfl, bucket, found, listed⟩
        · rintro ⟨rfl, own, same, listed⟩
          rw [found] at same
          cases same
          exact ⟨rfl, listed⟩
      simp only [inBlock]
      by_cases present : Exists buckets place
      · by_cases now : place.1 = last
        · simp only [now, present, and_self, if_true, List.mem_append, List.mem_singleton, or_true]
          split
          · rfl
          · rfl
        · simp [now, present]
      · simp [present]

theorem updateNumItems_bucket (orders : Orders) (buckets : TtlBuckets) (heap : Heap) :
    IsWait .bucket buckets heap (updateNumItems .bucket orders buckets heap).1 ∧
      ∀ place, (Exists buckets place →
          (updateNumItems .bucket orders buckets heap).2 place = (heap place).emptied) ∧
        (¬ Exists buckets place → (updateNumItems .bucket orders buckets heap).2 place = heap place) := by
  have members : ∀ name, name ∈ orders.buckets.order buckets.keys ↔ name ∈ buckets := fun name =>
    ((orders.buckets.perm _).mem_iff).trans AList.mem_keys.symm
  obtain ⟨peak, cleared⟩ := @foldl_expireBucket orders _ heap _ fun name => (members name).mp
  have names : {name | name ∈ orders.buckets.order buckets.keys} = {name | name ∈ buckets} :=
    Set.ext members
  rw [names] at peak
  refine ⟨peak, fun place => ⟨fun present => ?_, fun absent => ?_⟩⟩
  · obtain ⟨bucket, found, -⟩ := id present
    have known : place.1 ∈ buckets := by
      rw [← AList.lookup_isSome, found]
      exact Option.isSome_some
    rw [updateNumItems, cleared, if_pos ⟨(members _).mpr known, present⟩]
  · rw [updateNumItems, cleared, if_neg fun both => absent both.2]

theorem expiresRight_bucket_iff :
    ExpiresRight .bucket buckets heap ↔ Expirable buckets heap .bucket := by
  constructor
  · intro right place present none
    have wanted : expiredHeap .bucket buckets heap place = heap place :=
      if_neg fun both => absurd both.2 (not_lt.mpr none)
    have result := congrFun (right .plain).2 place
    rw [wanted, ((updateNumItems_bucket _ buckets heap).2 place).1 present] at result
    exact emptied_eq_self_iff.mp result
  · intro expirable orders
    obtain ⟨wait, cleared⟩ := updateNumItems_bucket orders buckets heap
    refine ⟨wait, ?_⟩
    funext place
    by_cases present : Exists buckets place
    · rw [(cleared place).1 present, expiredHeap]
      by_cases positive : 0 < ttlOf .bucket buckets heap place
      · rw [if_pos ⟨present, positive⟩]
      · rw [if_neg fun both => positive both.2]
        exact emptied_eq_self_iff.mpr (expirable place present (not_lt.mp positive))
    · rw [(cleared place).2 present, expiredHeap, if_neg fun both => present both.1]

theorem expiresRight_iff (level : TtlLevel) (buckets : TtlBuckets) (heap : Heap) :
    ExpiresRight level buckets heap ↔ Expirable buckets heap level := by
  cases level with
  | collection => exact expiresRight_collection_iff
  | bucket => exact expiresRight_bucket_iff

/-- Two collections with items in one scope, the TTL of `a` the larger one -/
def twoTtls : TtlBuckets × Heap :=
  (⟨[⟨"bucket", 0, ⟨[⟨"_default", ["a", "b"], by decide⟩], by simp [List.NodupKeys]⟩⟩],
      by simp [List.NodupKeys]⟩,
    fun place => Collection.new
      { numItems := some 10, maxTTL := some (if place.2.2 = "a" then 20 else 10) })

/-- The collection `b` expires within the time that is waited, and keeps its items. -/
theorem update_num_items_skips_smaller :
    ¬ ExpiresRight .collection twoTtls.1 twoTtls.2 ∧
      (updateNumItems .collection .plain twoTtls.1 twoTtls.2).1 = 20 ∧
      ((updateNumItems .collection .plain twoTtls.1 twoTtls.2).2
        ("bucket", "_default", "b")).numItems = 10 := by
  refine ⟨?_, by decide, by decide⟩
  intro right
  have present : ∀ collection ∈ ["a", "b"], Exists twoTtls.1 ("bucket", "_default", collection) :=
    fun collection member => ⟨_, rfl, _, rfl, member⟩
  have smaller := expiresRight_collection_iff.mp right ("bucket", "_default", "b")
    ("bucket", "_default", "a") (present "b" (by decide)) (present "a" (by decide)) (by decide)
    (by decide) (by decide)
  exact absurd smaller (by decide)

end Taf.Bucket
