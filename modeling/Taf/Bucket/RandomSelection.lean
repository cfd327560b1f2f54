import Taf.Lib.Draw
import Taf.Lib.Split
import Taf.Lib.Run
import Taf.Lib.Visits
import Taf.Bucket.TtlExpiry
import Taf.Bucket.Manifest

/-! # Random buckets, scopes and collections

`get_random_buckets`, `get_random_scopes` and `get_random_collections` of `BucketUtils` with their
exclusions.  Scopes are drawn from the buckets that were drawn, collections from the scopes that were
drawn; in between they are texts `bucket:scope` and `bucket:scope:collection`.  `none` is an exception.
In which order the candidates stand does not matter, since any of them may be drawn. -/

namespace Taf.RandomSelection

open Taf.Lib Taf.Bucket Taf.Manifest

/-- A name of the server, which allows no colon in it (`invalid_chars` of `get_random_name`) -/
def Plain (name : String) : Prop := ':' ∉ name.toList

/-- The buckets with their scopes and collections -/
structure NamedBuckets where
  buckets : AList fun _ : String => Manifest.Bucket
  plainBucket : ∀ name ∈ buckets, Plain name
  plainScope : ∀ name bucket, buckets.lookup name = some bucket → ∀ scope ∈ bucket.scopes, Plain scope
  plainCollection : ∀ name bucket, buckets.lookup name = some bucket →
    ∀ scopeName scope, bucket.scopes.lookup scopeName = some scope →
      ∀ collection ∈ scope.collections, Plain collection

abbrev SelectedScopes := AList fun _ : String => AList fun _ : String => Unit

/-- The dictionary of a selection, which also says what to exclude -/
abbrev Selected := AList fun _ : String => SelectedScopes

variable (all : NamedBuckets)

/-! ## The selections -/

def getRandomBuckets (chance : Chance String) (reqNum : Wanted) (excludeFrom : Selected) :
    Option Selected := do
  let available := all.buckets.keys
  let left := chance.listOfSet (available.filter (· ∉ excludeFrom.keys))
  let names ← reqNum.take chance available.length available left
  return names.foldl (fun selected name => selected.insert name ∅) ∅

/-- What `get_active_scopes` and the difference of the sets leave of a bucket -/
def scopeCandidates (avoidDefault considerOnlyDropped : Bool) (bucket : Manifest.Bucket) : List String :=
  let active := bucket.activeScopeNames
  let scopes := if considerOnlyDropped then bucket.scopes.keys.filter (· ∉ active) else active
  scopes.filter fun scope => !(scope = "_system" || (scope = "_default" && avoidDefault))

def excludedScopes (excludeFrom : Selected) : List String :=
  excludeFrom.entries.flatMap fun entry => entry.2.keys.map fun scope => joinText ':' [entry.1, scope]

/-- `selected_buckets[bucket_name]["scopes"][scope_name] = ...` for a text that is split -/
def addScope (selected : Selected) (text : String) : Option Selected :=
  match splitText ':' text with
  | bucket :: scope :: _ => do
    let scopes ← selected.lookup bucket
    return selected.insert bucket (scopes.insert scope ∅)
  | _ => none

def availableScopes (avoidDefault considerOnlyDropped : Bool) (selected : Selected) :
    Option (List (List String)) :=
  selected.keys.mapM fun name => do
    let bucket ← all.buckets.lookup name
    return (scopeCandidates avoidDefault considerOnlyDropped bucket).map fun scope =>
      joinText ':' [name, scope]

def getRandomScopes (forBuckets chance : Chance String) (reqNum considerBuckets : Wanted)
    (avoidDefault considerOnlyDropped : Bool) (excludeFrom : Selected) : Option Selected := do
  let selected ← getRandomBuckets all forBuckets considerBuckets ∅
  let available ← availableScopes all avoidDefault considerOnlyDropped selected
  let left := chance.listOfSet (available.flatten.filter (· ∉ excludedScopes excludeFrom))
  let names ← reqNum.take chance available.flatten.length left left
  names.foldlM addScope selected

def collectionCandidates (considerOnlyDropped : Bool) (scope : Scope) : List String :=
  let active := scope.activeNames
  if considerOnlyDropped then scope.collections.keys.filter (· ∉ active) else active

def excludedCollections (excludeFrom : Selected) : List String :=
  excludeFrom.entries.flatMap fun entry => entry.2.entries.flatMap fun inner =>
    inner.2.keys.map fun collection => joinText ':' [entry.1, inner.1, collection]

def addCollection (selected : Selected) (text : String) : Option Selected :=
  match splitText ':' text with
  | bucket :: scope :: collection :: _ => do
    let scopes ← selected.lookup bucket
    let collections ← scopes.lookup scope
    return selected.insert bucket (scopes.insert scope (collections.insert collection ()))
  | _ => none

/-- The scopes of a selection, in the order of its loops -/
def scopesOf (selected : Selected) : List (String × String) :=
  selected.entries.flatMap fun entry => entry.2.keys.map fun scope => (entry.1, scope)

def availableCollections (considerOnlyDropped : Bool) (selected : Selected) :
    Option (List (List String)) :=
  (scopesOf selected).mapM fun place => do
    let bucket ← all.buckets.lookup place.1
    let scope ← bucket.scopes.lookup place.2
    return (collectionCandidates considerOnlyDropped scope).map fun collection =>
      joinText ':' [place.1, place.2, collection]

def getRandomCollections (forBuckets forScopes chance : Chance String)
    (reqNum considerScopes considerBuckets : Wanted) (considerOnlyDropped : Bool)
    (excludeFrom : Selected) : Option Selected := do
  let selected ← getRandomScopes all forBuckets forScopes considerScopes considerBuckets false false ∅
  let available ← availableCollections all considerOnlyDropped selected
  let left := chance.listOfSet (available.flatten.filter (· ∉ excludedCollections excludeFrom))
  let names ← reqNum.take chance available.flatten.length left left
  names.foldlM addCollection selected

/-! ## What is meant to be selected -/

def HasScope (selected : Selected) (place : String × String) : Prop :=
  ∃ scopes, selected.lookup place.1 = some scopes ∧ place.2 ∈ scopes

def HasCollection (selected : Selected) (place : Place) : Prop :=
  ∃ scopes, selected.lookup place.1 = some scopes ∧
    ∃ collections, scopes.lookup place.2.1 = some collections ∧ place.2.2 ∈ collections

def bucketNames : Set String := {name | name ∈ all.buckets}

/-- The scopes of some buckets that are there, or that were dropped, without the system scope -/
def openScopes (avoidDefault considerOnlyDropped : Bool) (considered : Set String) :
    Set (String × String) :=
  {place | place.1 ∈ considered ∧ ∃ bucket, all.buckets.lookup place.1 = some bucket ∧
    ∃ scope, bucket.scopes.lookup place.2 = some scope ∧ scope.isDropped = considerOnlyDropped ∧
      place.2 ≠ "_system" ∧ ¬ (place.2 = "_default" ∧ avoidDefault = true)}

/-- The collections of some scopes that are there, or that were dropped -/
def openCollections (considerOnlyDropped : Bool) (considered : Set (String × String)) : Set Place :=
  {place | (place.1, place.2.1) ∈ considered ∧ ∃ bucket, all.buckets.lookup place.1 = some bucket ∧
    ∃ scope, bucket.scopes.lookup place.2.1 = some scope ∧
      ∃ collection, scope.collections.lookup place.2.2 = some collection ∧
        collection.isDropped = considerOnlyDropped}

def BucketsRight (reqNum : Wanted) (excludeFrom : Selected) : Prop :=
  ∀ chance, ∃ selected, getRandomBuckets all chance reqNum excludeFrom = some selected ∧
    Draws reqNum (bucketNames all \ {name | name ∈ excludeFrom}) {name | name ∈ selected}

def ScopesRight (reqNum considerBuckets : Wanted) (avoidDefault considerOnlyDropped : Bool)
    (excludeFrom : Selected) : Prop :=
  ∀ forBuckets chance, ∃ selected, getRandomScopes all forBuckets chance reqNum considerBuckets
      avoidDefault considerOnlyDropped excludeFrom = some selected ∧
    Draws considerBuckets (bucketNames all) {name | name ∈ selected} ∧
    Draws reqNum (openScopes all avoidDefault considerOnlyDropped {name | name ∈ selected} \
      {place | HasScope excludeFrom place}) {place | HasScope selected place}

def CollectionsRight (reqNum considerScopes considerBuckets : Wanted) (considerOnlyDropped : Bool)
    (excludeFrom : Selected) : Prop :=
  ∀ forBuckets forScopes chance, ∃ selected, getRandomCollections all forBuckets forScopes chance reqNum
      considerScopes considerBuckets considerOnlyDropped excludeFrom = some selected ∧
    Draws considerBuckets (bucketNames all) {name | name ∈ selected} ∧
    Draws considerScopes (openScopes all false false {name | name ∈ selected})
      {place | HasScope selected place} ∧
    Draws reqNum (openCollections all considerOnlyDropped {place | HasScope selected place} \
      {place | HasCollection excludeFrom place}) {place | HasCollection selected place}

/-! ## When it is -/

/-- The number does not reach the buckets and does not exceed those that are left, or none is
    excluded. -/
def BucketsFit (reqNum : Wanted) (excludeFrom : Selected) : Prop :=
  (∀ name ∈ all.buckets, name ∉ excludeFrom) ∨
    ∃ k, reqNum = .num k ∧ k ≤ (bucketNames all \ {name | name ∈ excludeFrom}).ncard

/-- The number is none between the scopes that are left and all of them. -/
def ScopesFit (reqNum considerBuckets : Wanted) (avoidDefault considerOnlyDropped : Bool)
    (excludeFrom : Selected) : Prop :=
  ∀ considered, Draws considerBuckets (bucketNames all) considered →
    reqNum.Fits (openScopes all avoidDefault considerOnlyDropped considered).ncard
      (openScopes all avoidDefault considerOnlyDropped considered \
        {place | HasScope excludeFrom place}).ncard

def CollectionsFit (reqNum considerScopes considerBuckets : Wanted) (considerOnlyDropped : Bool)
    (excludeFrom : Selected) : Prop :=
  ∀ considered scopes, Draws considerBuckets (bucketNames all) considered →
    Draws considerScopes (openScopes all false false considered) scopes →
      reqNum.Fits (openCollections all considerOnlyDropped scopes).ncard
        (openCollections all considerOnlyDropped scopes \ {place | HasCollection excludeFrom place}).ncard

/-! ## Buckets -/

variable {all}

theorem lookup_foldl_insert (names : List String) (selected : Selected) (name : String) :
    (names.foldl (fun selected name => selected.insert name ∅) selected).lookup name =
      if name ∈ names then some ∅ else selected.lookup name := by
  induction names generalizing selected with
  | nil => simp
  | cons first names ih =>
    rw [List.foldl_cons, ih]
    by_cases here : name = first
    · subst here
      simp
    · simp [AList.lookup_insert_ne here, here]

/-- A selection of buckets without any scope -/
def Bare (selected : Selected) : Prop :=
  ∀ name scopes, selected.lookup name = some scopes → scopes = ∅

theorem bare_foldl_insert (names : List String) :
    Bare (names.foldl (fun selected name => selected.insert name ∅) ∅) := by
  intro name scopes found
  rw [lookup_foldl_insert] at found
  split at found
  · cases found
    rfl
  · cases found

theorem setOf_foldl_insert (names : List String) :
    {name | name ∈ names.foldl (fun selected name => selected.insert name ∅) (∅ : Selected)} =
      {name | name ∈ names} := by
  ext name
  rw [Set.mem_ofPred_eq, ← AList.lookup_isSome, lookup_foldl_insert]
  by_cases member : name ∈ names
  · simp [member]
  · simp [member]

theorem bucketNames_eq : bucketNames all = {name | name ∈ all.buckets.keys} := rfl

theorem getRandomBuckets_eq (chance : Chance String) (reqNum : Wanted) (excludeFrom : Selected) :
    getRandomBuckets all chance reqNum excludeFrom =
      (reqNum.take chance all.buckets.keys.length all.buckets.keys
        (chance.listOfSet (all.buckets.keys.filter (· ∉ excludeFrom.keys)))).map fun names =>
          names.foldl (fun selected name => selected.insert name ∅) ∅ := by
  rw [getRandomBuckets]
  cases reqNum.take chance all.buckets.keys.length all.buckets.keys
    (chance.listOfSet (all.buckets.keys.filter (· ∉ excludeFrom.keys))) with
  | none => rfl
  | some names => rfl

theorem left_eq (excludeFrom : Selected) :
    {name | name ∈ all.buckets.keys.filter (· ∉ excludeFrom.keys)} =
      bucketNames all \ {name | name ∈ excludeFrom} := by
  ext name
  simp [bucketNames_eq, AList.mem_keys]

theorem ncard_left (excludeFrom : Selected) :
    (bucketNames all \ {name | name ∈ excludeFrom}).ncard =
      (all.buckets.keys.filter (· ∉ excludeFrom.keys)).length := by
  rw [← left_eq, ncard_list (all.buckets.keys_nodup.filter _)]

/-- Where no bucket is excluded, as it is for scopes and collections -/
theorem getRandomBuckets_free {excludeFrom : Selected} (free : ∀ name ∈ all.buckets, name ∉ excludeFrom)
    (chance : Chance String) (reqNum : Wanted) : ∃ selected,
      getRandomBuckets all chance reqNum excludeFrom = some selected ∧
        Draws reqNum (bucketNames all) {name | name ∈ selected} ∧ Bare selected := by
  have left : all.buckets.keys.filter (· ∉ excludeFrom.keys) = all.buckets.keys := by
    apply List.filter_eq_self.mpr
    intro name member
    simpa [AList.mem_keys] using free name (AList.mem_keys.mpr member)
  obtain ⟨names, taken, unique, inside, size⟩ := @take_of_fits _ _ chance _ reqNum _ _
    all.buckets.keys_nodup (le_refl _) (List.Perm.refl _) fits_self
  rw [getRandomBuckets_eq, left, taken]
  refine ⟨_, rfl, ?_, bare_foldl_insert names⟩
  rw [setOf_foldl_insert, bucketNames_eq]
  exact Draws.of_list all.buckets.keys_nodup unique inside size

/-- Any buckets may be drawn. -/
theorem exists_getRandomBuckets {reqNum : Wanted} {considered : Set String}
    (draws : Draws reqNum (bucketNames all) considered) : ∃ chance selected,
      getRandomBuckets all chance reqNum ∅ = some selected ∧ {name | name ∈ selected} = considered ∧
        Bare selected := by
  obtain ⟨chosen, unique, inside, size, rfl⟩ := draws.exists_list all.buckets.keys_nodup
  obtain ⟨chance, whole, names, taken, perm⟩ := exists_take all.buckets.keys_nodup unique inside size
  have left : all.buckets.keys.filter (· ∉ (∅ : Selected).keys) = all.buckets.keys := by simp
  refine ⟨chance, names.foldl (fun selected name => selected.insert name ∅) ∅, ?_, ?_,
    bare_foldl_insert names⟩
  · rw [getRandomBuckets_eq, left, whole, taken]
    rfl
  · rw [setOf_foldl_insert]
    ext name
    exact perm.mem_iff

theorem not_bucketsRight_of_whole {reqNum : Wanted} {excludeFrom : Selected} {name : String}
    (present : name ∈ all.buckets) (excluded : name ∈ excludeFrom)
    (whole : ∀ chance : Chance String, ∀ left, reqNum.take chance all.buckets.keys.length
      all.buckets.keys left = some all.buckets.keys) : ¬ BucketsRight all reqNum excludeFrom := by
  intro right
  obtain ⟨selected, got, inside, -⟩ := right ⟨fun population k => population.take k,
    fun population k few => ⟨(List.take_sublist k population).subperm, List.length_take_of_le few⟩,
    .plain⟩
  rw [getRandomBuckets_eq, whole] at got
  cases got
  rw [setOf_foldl_insert] at inside
  exact (inside (AList.mem_keys.mp present)).2 excluded

theorem bucketsFit_of_bucketsRight {reqNum : Wanted} {excludeFrom : Selected}
    (right : BucketsRight all reqNum excludeFrom) : BucketsFit all reqNum excludeFrom := by
  by_contra unfit
  obtain ⟨overlap, unfit⟩ := not_or.mp unfit
  push Not at overlap
  obtain ⟨name, present, excluded⟩ := overlap
  cases reqNum with
  | all => exact not_bucketsRight_of_whole present excluded (fun chance left => rfl) right
  | num k =>
    by_cases enough : all.buckets.keys.length ≤ k
    · apply not_bucketsRight_of_whole present excluded _ right
      exact fun chance left => if_pos enough
    · have many : ¬ k ≤ (all.buckets.keys.filter (· ∉ excludeFrom.keys)).length := fun few =>
        unfit ⟨k, rfl, by rwa [ncard_left]⟩
      obtain ⟨selected, got, -⟩ := right ⟨fun population k => population.take k,
        fun population k few => ⟨(List.take_sublist k population).subperm, List.length_take_of_le few⟩,
        .plain⟩
      have unfit : ¬ (Wanted.num k).Fits all.buckets.keys.length
          (all.buckets.keys.filter (· ∉ excludeFrom.keys)).length := not_or.mpr ⟨enough, many⟩
      rw [getRandomBuckets_eq, take_of_not_fits (all.buckets.keys_nodup.filter _) unfit] at got
      cases got

theorem bucketsRight_of_free {reqNum : Wanted} {excludeFrom : Selected}
    (free : ∀ name ∈ all.buckets, name ∉ excludeFrom) : BucketsRight all reqNum excludeFrom := by
  intro chance
  obtain ⟨selected, got, draws, -⟩ := getRandomBuckets_free free chance reqNum
  have none : bucketNames all \ {name | name ∈ excludeFrom} = bucketNames all :=
    sdiff_eq_left.mpr (Set.disjoint_left.mpr free)
  exact ⟨selected, got, by rwa [none]⟩

theorem bucketsRight_iff (reqNum : Wanted) (excludeFrom : Selected) :
    BucketsRight all reqNum excludeFrom ↔ BucketsFit all reqNum excludeFrom := by
  constructor
  · exact bucketsFit_of_bucketsRight
  · rintro (free | ⟨k, rfl, few⟩)
    · exact bucketsRight_of_free free
    · rw [ncard_left] at few
      by_cases enough : all.buckets.keys.length ≤ k
      · -- Nothing is excluded where as many are left as there are.
        apply bucketsRight_of_free
        have kept := List.length_filter_eq_length_iff.mp
          (le_antisymm (List.length_filter_le _ _) (enough.trans few))
        intro name present
        simpa [AList.mem_keys] using kept name (AList.mem_keys.mp present)
      · intro chance
        have nodup := all.buckets.keys_nodup.filter (· ∉ excludeFrom.keys)
        obtain ⟨names, drawn, unique, inside, size⟩ := @drawn_of_le _ _ chance _ k nodup few
        rw [getRandomBuckets_eq, Wanted.take, if_neg enough, drawn]
        refine ⟨_, rfl, ?_⟩
        rw [setOf_foldl_insert, ← left_eq]
        apply Draws.of_list nodup unique inside
        rw [size, Wanted.limit, min_eq_left few]

/-! ## Scopes -/

def scopeText (place : String × String) : String := joinText ':' [place.1, place.2]

theorem mem_active {β : Type} {dict : AList fun _ : String => β} {dropped : β → Bool} {name : String} :
    name ∈ (dict.entries.filter fun entry => !dropped entry.2).map Sigma.fst ↔
      ∃ value, dict.lookup name = some value ∧ dropped value = false := by
  simp only [List.mem_map, List.mem_filter, Bool.not_eq_true']
  constructor
  · rintro ⟨entry, ⟨member, active⟩, rfl⟩
    exact ⟨entry.2, AList.mem_lookup_iff.mpr member, active⟩
  · rintro ⟨value, found, active⟩
    exact ⟨⟨name, value⟩, ⟨AList.mem_lookup_iff.mp found, active⟩, rfl⟩

/-- The names that are active, or all other ones -/
theorem mem_candidates {β : Type} {dict : AList fun _ : String => β} {dropped : β → Bool}
    {onlyDropped : Bool} {active : List String} {name : String}
    (isActive : ∀ name, name ∈ active ↔ ∃ value, dict.lookup name = some value ∧ dropped value = false) :
    name ∈ (if onlyDropped then dict.keys.filter (· ∉ active) else active) ↔
      ∃ value, dict.lookup name = some value ∧ dropped value = onlyDropped := by
  cases onlyDropped with
  | false => exact isActive name
  | true =>
    simp only [if_true, List.mem_filter, decide_eq_true_eq]
    constructor
    · rintro ⟨member, inactive⟩
      obtain ⟨value, found⟩ := Option.isSome_iff_exists.mp
        (AList.lookup_isSome.mpr (AList.mem_keys.mpr member))
      refine ⟨value, found, ?_⟩
      by_contra alive
      exact inactive ((isActive name).mpr ⟨value, found, by simpa using alive⟩)
    · rintro ⟨value, found, isDropped⟩
      refine ⟨mem_keys_of_lookup found, fun member => ?_⟩
      obtain ⟨other, same, alive⟩ := (isActive name).mp member
      rw [found] at same
      cases same
      rw [isDropped] at alive
      cases alive

theorem nodup_candidates {β : Type} {dict : AList fun _ : String => β} {onlyDropped : Bool}
    {active : List String} (unique : active.Nodup) :
    (if onlyDropped then dict.keys.filter (· ∉ active) else active).Nodup := by
  cases onlyDropped with
  | false => exact unique
  | true => exact dict.keys_nodup.filter _

section Scopes

variable {avoidDefault considerOnlyDropped : Bool} {bucket : Manifest.Bucket} {selected : Selected}

theorem mem_scopeCandidates {name : String} :
    name ∈ scopeCandidates avoidDefault considerOnlyDropped bucket ↔
      ∃ scope, bucket.scopes.lookup name = some scope ∧ scope.isDropped = considerOnlyDropped ∧
        name ≠ "_system" ∧ ¬ (name = "_default" ∧ avoidDefault = true) := by
  have active : ∀ name, name ∈ bucket.activeScopeNames ↔
      ∃ scope, bucket.scopes.lookup name = some scope ∧ scope.isDropped = false := fun name => mem_active
  rw [scopeCandidates, List.mem_filter, mem_candidates active]
  simp only [Bool.not_eq_true', Bool.or_eq_false_iff, decide_eq_false_iff_not, Bool.and_eq_false_iff]
  constructor
  · rintro ⟨⟨scope, found, dropped⟩, system, default⟩
    refine ⟨scope, found, dropped, system, ?_⟩
    rintro ⟨isDefault, avoided⟩
    simp [isDefault, avoided] at default
  · rintro ⟨scope, found, dropped, system, default⟩
    refine ⟨⟨scope, found, dropped⟩, system, ?_⟩
    by_cases isDefault : name = "_default"
    · exact .inr (by simpa [isDefault] using default)
    · exact .inl isDefault

theorem nodup_scopeCandidates : (scopeCandidates avoidDefault considerOnlyDropped bucket).Nodup :=
  (nodup_candidates (nodup_filter_keys _ _)).filter _

/-- The scopes that are open in the buckets of a selection, as a list -/
def openScopesList (all : NamedBuckets) (avoidDefault considerOnlyDropped : Bool) (selected : Selected) :
    List (String × String) :=
  selected.keys.flatMap fun name => (all.buckets.lookup name).toList.flatMap fun bucket =>
    (scopeCandidates avoidDefault considerOnlyDropped bucket).map fun scope => (name, scope)

theorem setOf_openScopesList : {place | place ∈ openScopesList all avoidDefault considerOnlyDropped selected} =
    openScopes all avoidDefault considerOnlyDropped {name | name ∈ selected} := by
  ext place
  simp only [openScopesList, List.mem_flatMap, Option.mem_toList, List.mem_map, Set.mem_ofPred_eq, openScopes]
  constructor
  · rintro ⟨name, member, bucket, found, scope, candidate, rfl⟩
    exact ⟨AList.mem_keys.mpr member, bucket, found, mem_scopeCandidates.mp candidate⟩
  · rintro ⟨member, bucket, found, candidate⟩
    exact ⟨place.1, AList.mem_keys.mp member, bucket, found, place.2, mem_scopeCandidates.mpr candidate, rfl⟩

theorem nodup_openScopesList : (openScopesList all avoidDefault considerOnlyDropped selected).Nodup := by
  rw [openScopesList]
  apply nodup_flatMap_labelled Prod.fst
  · rw [List.map_id]
    exact selected.keys_nodup
  · intro name _
    cases all.buckets.lookup name with
    | none => exact List.nodup_nil
    | some bucket =>
      simp only [Option.toList_some, List.flatMap_cons, List.flatMap_nil, List.append_nil]
      exact nodup_scopeCandidates.map fun one other same => (Prod.mk.inj same).2
  · intro name _ place inside
    obtain ⟨_, _, inside⟩ := List.mem_flatMap.mp inside
    obtain ⟨_, _, rfl⟩ := List.mem_map.mp inside
    rfl

theorem availableScopes_eq (known : ∀ name ∈ selected, name ∈ all.buckets) : ∃ available,
    availableScopes all avoidDefault considerOnlyDropped selected = some available ∧
      available.flatten = (openScopesList all avoidDefault considerOnlyDropped selected).map scopeText := by
  refine ⟨selected.keys.map fun name => ((all.buckets.lookup name).toList.flatMap fun bucket =>
    (scopeCandidates avoidDefault considerOnlyDropped bucket).map fun scope => (name, scope)).map scopeText,
    ?_, ?_⟩
  · apply mapM_eq_some_map
    intro name member
    obtain ⟨bucket, found⟩ := Option.isSome_iff_exists.mp
      (AList.lookup_isSome.mpr (known name (AList.mem_keys.mpr member)))
    simp [found, scopeText]
  · rw [openScopesList, List.map_flatMap, List.flatMap_def]

theorem plain_of_open {considered : Set String} {place : String × String}
    (isOpen : place ∈ openScopes all avoidDefault considerOnlyDropped considered) :
    Plain place.1 ∧ Plain place.2 := by
  obtain ⟨-, bucket, found, scope, inside, -⟩ := isOpen
  exact ⟨all.plainBucket _ (AList.mem_keys.mpr (mem_keys_of_lookup found)),
    all.plainScope _ bucket found _ (AList.mem_keys.mpr (mem_keys_of_lookup inside))⟩

theorem scopeText_inj {place : String × String} (first : Plain place.1) (second : Plain place.2)
    (other : String × String) : scopeText other = scopeText place ↔ other = place := by
  have plain : ∀ part ∈ [place.1, place.2], ':' ∉ part.toList := by
    intro part member
    simp only [List.mem_cons, List.not_mem_nil, or_false] at member
    rcases member with rfl | rfl
    · exact first
    · exact second
  have inj := @joinText_inj ':' _ [other.1, other.2] plain rfl (by simp)
  rw [scopeText, scopeText, inj]
  simp [Prod.ext_iff]

theorem told_openScopesList :
    Told scopeText (openScopesList all avoidDefault considerOnlyDropped selected) := by
  intro place member other same
  have isOpen : place ∈ openScopes all avoidDefault considerOnlyDropped {name | name ∈ selected} :=
    setOf_openScopesList ▸ member
  obtain ⟨first, second⟩ := plain_of_open isOpen
  exact (scopeText_inj first second other).mp same

theorem mem_excludedScopes {excludeFrom : Selected} {place : String × String} (first : Plain place.1)
    (second : Plain place.2) : scopeText place ∈ excludedScopes excludeFrom ↔ HasScope excludeFrom place := by
  simp only [excludedScopes, List.mem_flatMap, List.mem_map]
  constructor
  · rintro ⟨entry, member, scope, inside, same⟩
    cases (scopeText_inj first second (entry.1, scope)).mp same
    exact ⟨entry.2, AList.mem_lookup_iff.mpr member, AList.mem_keys.mpr inside⟩
  · rintro ⟨scopes, found, inside⟩
    exact ⟨⟨place.1, scopes⟩, AList.mem_lookup_iff.mp found, place.2, AList.mem_keys.mp inside, rfl⟩

theorem addScope_eq {place : String × String} {scopes : SelectedScopes} (first : Plain place.1)
    (second : Plain place.2) (found : selected.lookup place.1 = some scopes) :
    addScope selected (scopeText place) = some (selected.insert place.1 (scopes.insert place.2 ∅)) := by
  have parts : splitText ':' (scopeText place) = [place.1, place.2] := by
    apply splitText_joinText
    · simp only [List.mem_cons, List.not_mem_nil, or_false, forall_eq_or_imp, forall_eq]
      exact ⟨first, second⟩
    · simp
  rw [addScope, parts]
  simp [found]

theorem hasScope_insert {place other : String × String} {scopes : SelectedScopes}
    (found : selected.lookup place.1 = some scopes) :
    HasScope (selected.insert place.1 (scopes.insert place.2 ∅)) other ↔
      HasScope selected other ∨ other = place := by
  by_cases same : other.1 = place.1
  · obtain ⟨bucket, name⟩ := other
    obtain rfl : bucket = place.1 := same
    simp [HasScope, found, Prod.ext_iff, or_comm]
  · have different : other ≠ place := fun equal => same (congrArg Prod.fst equal)
    simp [HasScope, AList.lookup_insert_ne same, different]

/-- No scope of the selection has a collection. -/
def Unfilled (selected : Selected) : Prop := ∀ place, ¬ HasCollection selected place

theorem Unfilled.insert {place : String × String} {scopes : SelectedScopes} (unfilled : Unfilled selected)
    (found : selected.lookup place.1 = some scopes) :
    Unfilled (selected.insert place.1 (scopes.insert place.2 ∅)) := by
  rintro other ⟨its, lookup, collections, inside, member⟩
  rcases lookup_insert_eq_some.mp lookup with ⟨here, rfl⟩ | ⟨-, before⟩
  · rcases lookup_insert_eq_some.mp inside with ⟨-, rfl⟩ | ⟨-, before⟩
    · exact absurd member (AList.notMem_empty _)
    · exact unfilled other ⟨scopes, here ▸ found, collections, before, member⟩
  · exact unfilled other ⟨its, before, collections, inside, member⟩

theorem foldlM_addScope {chosen : List (String × String)} (unfilled : Unfilled selected)
    (plain : ∀ place ∈ chosen, Plain place.1 ∧ Plain place.2)
    (known : ∀ place ∈ chosen, place.1 ∈ selected) : ∃ result,
      (chosen.map scopeText).foldlM addScope selected = some result ∧
        (∀ name, name ∈ result ↔ name ∈ selected) ∧ Unfilled result ∧
        ∀ place, HasScope result place ↔ HasScope selected place ∨ place ∈ chosen := by
  induction chosen generalizing selected with
  | nil => exact ⟨selected, rfl, fun name => Iff.rfl, unfilled, by simp⟩
  | cons place chosen ih =>
    obtain ⟨scopes, found⟩ := Option.isSome_iff_exists.mp
      (AList.lookup_isSome.mpr (known place List.mem_cons_self))
    obtain ⟨first, second⟩ := plain place List.mem_cons_self
    have names : ∀ name, name ∈ selected.insert place.1 (scopes.insert place.2 ∅) ↔ name ∈ selected := by
      intro name
      rw [AList.mem_insert]
      constructor
      · rintro (rfl | before)
        · exact known place List.mem_cons_self
        · exact before
      · exact .inr
    obtain ⟨result, folded, sameNames, stillUnfilled, scopesOfResult⟩ := ih (unfilled.insert found)
      (fun other member => plain other (List.mem_cons_of_mem _ member))
      (fun other member => (names _).mpr (known other (List.mem_cons_of_mem _ member)))
    refine ⟨result, ?_, fun name => (sameNames name).trans (names name), stillUnfilled, fun other => ?_⟩
    · rw [List.map_cons, List.foldlM_cons, addScope_eq first second found]
      exact folded
    · rw [scopesOfResult, hasScope_insert found, List.mem_cons, or_assoc]

theorem Bare.unfilled (bare : Bare selected) : Unfilled selected := by
  rintro place ⟨scopes, found, collections, inside, -⟩
  rw [bare _ _ found] at inside
  cases inside

theorem Bare.not_hasScope (bare : Bare selected) (place : String × String) : ¬ HasScope selected place := by
  rintro ⟨scopes, found, inside⟩
  rw [bare _ _ found] at inside
  exact AList.notMem_empty _ inside

/-- What is drawn for the buckets that were selected is what is selected in the end. -/
theorem foldlM_drawn {chosen : List (String × String)} (bare : Bare selected)
    (isOpen : {place | place ∈ chosen} ⊆
      openScopes all avoidDefault considerOnlyDropped {name | name ∈ selected}) : ∃ result,
      (chosen.map scopeText).foldlM addScope selected = some result ∧
        {name | name ∈ result} = {name | name ∈ selected} ∧ Unfilled result ∧
        {place | HasScope result place} = {place | place ∈ chosen} := by
  obtain ⟨result, folded, names, unfilled, scopes⟩ := foldlM_addScope bare.unfilled
    (fun place member => plain_of_open (isOpen member)) (fun place member => (isOpen member).1)
  refine ⟨result, folded, Set.ext names, unfilled, Set.ext fun place => ?_⟩
  exact (scopes place).trans (or_iff_right (bare.not_hasScope place))

section Steps

variable {forBuckets chance : Chance String} {reqNum considerBuckets : Wanted} {excludeFrom : Selected}

theorem getRandomScopes_eq (got : getRandomBuckets all forBuckets considerBuckets ∅ = some selected)
    (known : ∀ name ∈ selected, name ∈ all.buckets) :
    getRandomScopes all forBuckets chance reqNum considerBuckets avoidDefault considerOnlyDropped
        excludeFrom =
      (reqNum.take chance
        ((openScopesList all avoidDefault considerOnlyDropped selected).map scopeText).length
        (chance.listOfSet (((openScopesList all avoidDefault considerOnlyDropped selected).map
          scopeText).filter (· ∉ excludedScopes excludeFrom)))
        (chance.listOfSet (((openScopesList all avoidDefault considerOnlyDropped selected).map
          scopeText).filter (· ∉ excludedScopes excludeFrom)))).bind
            fun names => names.foldlM addScope selected := by
  obtain ⟨available, listed, texts⟩ := availableScopes_eq known
  rw [getRandomScopes, got]
  show (availableScopes all avoidDefault considerOnlyDropped selected).bind _ = _
  rw [listed]
  show (reqNum.take chance available.flatten.length _ _).bind _ = _
  rw [texts]

theorem mean_excludedScopes : ∀ place ∈ openScopesList all avoidDefault considerOnlyDropped selected,
    scopeText place ∈ excludedScopes excludeFrom ↔ place ∈ {place | HasScope excludeFrom place} := by
  intro place member
  have isOpen : place ∈ openScopes all avoidDefault considerOnlyDropped {name | name ∈ selected} :=
    setOf_openScopesList ▸ member
  obtain ⟨first, second⟩ := plain_of_open isOpen
  exact mem_excludedScopes first second

theorem getRandomScopes_of_fits (got : getRandomBuckets all forBuckets considerBuckets ∅ = some selected)
    (bare : Bare selected) (known : ∀ name ∈ selected, name ∈ all.buckets)
    (fits : reqNum.Fits (openScopes all avoidDefault considerOnlyDropped {name | name ∈ selected}).ncard
      (openScopes all avoidDefault considerOnlyDropped {name | name ∈ selected} \
        {place | HasScope excludeFrom place}).ncard) : ∃ result,
      getRandomScopes all forBuckets chance reqNum considerBuckets avoidDefault considerOnlyDropped
        excludeFrom = some result ∧ {name | name ∈ result} = {name | name ∈ selected} ∧ Unfilled result ∧
      Draws reqNum (openScopes all avoidDefault considerOnlyDropped {name | name ∈ selected} \
        {place | HasScope excludeFrom place}) {place | HasScope result place} := by
  rw [← setOf_openScopesList] at fits ⊢
  obtain ⟨chosen, taken, draws⟩ := @take_named _ _ chance _ _ _ _ _ _ told_openScopesList
    nodup_openScopesList mean_excludedScopes fits
  have isOpen : {place | place ∈ chosen} ⊆
      openScopes all avoidDefault considerOnlyDropped {name | name ∈ selected} := by
    rw [← setOf_openScopesList]
    exact fun place member => (draws.1 member).1
  obtain ⟨result, folded, names, unfilled, scopes⟩ := foldlM_drawn bare isOpen
  refine ⟨result, ?_, names, unfilled, by rwa [scopes]⟩
  rw [getRandomScopes_eq got known, taken]
  exact folded

theorem getRandomScopes_of_not_fits
    (got : getRandomBuckets all forBuckets considerBuckets ∅ = some selected)
    (known : ∀ name ∈ selected, name ∈ all.buckets)
    (unfit : ¬ reqNum.Fits (openScopes all avoidDefault considerOnlyDropped {name | name ∈ selected}).ncard
      (openScopes all avoidDefault considerOnlyDropped {name | name ∈ selected} \
        {place | HasScope excludeFrom place}).ncard) :
    getRandomScopes all forBuckets chance reqNum considerBuckets avoidDefault considerOnlyDropped
      excludeFrom = none := by
  rw [← setOf_openScopesList] at unfit
  rw [getRandomScopes_eq got known,
    take_named_of_not_fits told_openScopesList nodup_openScopesList mean_excludedScopes unfit]
  rfl

end Steps

theorem not_mem_empty (name : String) : name ∉ (∅ : Selected) := AList.notMem_empty name

theorem scopesFit_of_scopesRight {reqNum considerBuckets : Wanted} {excludeFrom : Selected}
    (right : ScopesRight all reqNum considerBuckets avoidDefault considerOnlyDropped excludeFrom) :
    ScopesFit all reqNum considerBuckets avoidDefault considerOnlyDropped excludeFrom := by
  intro considered draws
  by_contra unfit
  obtain ⟨forBuckets, selected, got, rfl, -⟩ := exists_getRandomBuckets draws
  obtain ⟨result, returned, -⟩ := right forBuckets forBuckets
  rw [getRandomScopes_of_not_fits got (fun name member => draws.1 member) unfit] at returned
  cases returned

theorem scopesRight_iff (reqNum considerBuckets : Wanted) (avoidDefault considerOnlyDropped : Bool)
    (excludeFrom : Selected) :
    ScopesRight all reqNum considerBuckets avoidDefault considerOnlyDropped excludeFrom ↔
      ScopesFit all reqNum considerBuckets avoidDefault considerOnlyDropped excludeFrom := by
  constructor
  · exact scopesFit_of_scopesRight
  · intro fit forBuckets chance
    obtain ⟨selected, got, draws, bare⟩ := @getRandomBuckets_free all ∅
      (fun name _ => not_mem_empty name) forBuckets considerBuckets
    obtain ⟨result, returned, names, -, scopes⟩ := @getRandomScopes_of_fits _ _ _ _ _ chance _ _ _ got bare
      (fun name member => draws.1 member) (fit _ draws)
    exact ⟨result, returned, names ▸ draws, names ▸ scopes⟩

/-- Any scopes may be drawn. -/
theorem exists_getRandomScopes {considerScopes considerBuckets : Wanted} {considered : Set String}
    {scopes : Set (String × String)} (draws : Draws considerBuckets (bucketNames all) considered)
    (inside : Draws considerScopes (openScopes all avoidDefault considerOnlyDropped considered) scopes) :
    ∃ forBuckets forScopes result, getRandomScopes all forBuckets forScopes considerScopes considerBuckets
        avoidDefault considerOnlyDropped ∅ = some result ∧ {name | name ∈ result} = considered ∧
      Unfilled result ∧ {place | HasScope result place} = scopes := by
  obtain ⟨forBuckets, selected, got, rfl, bare⟩ := exists_getRandomBuckets draws
  rw [← setOf_openScopesList] at inside
  obtain ⟨forScopes, chosen, taken, rfl⟩ := exists_take_named told_openScopesList nodup_openScopesList inside
  rw [setOf_openScopesList] at inside
  obtain ⟨result, folded, names, unfilled, same⟩ := foldlM_drawn bare inside.1
  refine ⟨forBuckets, forScopes, result, ?_, names, unfilled, same⟩
  have none : ((openScopesList all avoidDefault considerOnlyDropped selected).map scopeText).filter
      (· ∉ excludedScopes ∅) =
        (openScopesList all avoidDefault considerOnlyDropped selected).map scopeText := by
    apply List.filter_eq_self.mpr
    intro text _
    exact decide_eq_true List.not_mem_nil
  rw [getRandomScopes_eq got fun name member => draws.1 member, none, taken]
  exact folded

end Scopes

end Taf.RandomSelection
