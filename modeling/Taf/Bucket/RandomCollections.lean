import Taf.Bucket.RandomSelection

/-! # Random collections

What `get_random_collections` draws from the scopes that were drawn, and with it when the three
selections honour their exclusions. -/

namespace Taf.RandomSelection

open Taf.Lib Taf.Bucket Taf.Manifest

variable {all : NamedBuckets}

section Collections

variable {considerOnlyDropped : Bool} {selected : Selected}

def collectionText (place : Place) : String := joinText ':' [place.1, place.2.1, place.2.2]

theorem mem_collectionCandidates {scope : Scope} {name : String} :
    name ∈ collectionCandidates considerOnlyDropped scope ↔
      ∃ collection, scope.collections.lookup name = some collection ∧
        collection.isDropped = considerOnlyDropped :=
  have active : ∀ name, name ∈ scope.activeNames ↔ ∃ collection,
      scope.collections.lookup name = some collection ∧ collection.isDropped = false :=
    fun _ => mem_active
  mem_candidates active

theorem mem_scopesOf {place : String × String} : place ∈ scopesOf selected ↔ HasScope selected place := by
  simp only [scopesOf, List.mem_flatMap, List.mem_map]
  constructor
  · rintro ⟨entry, member, scope, inside, rfl⟩
    exact ⟨entry.2, AList.mem_lookup_iff.mpr member, AList.mem_keys.mpr inside⟩
  · rintro ⟨scopes, found, inside⟩
    exact ⟨⟨place.1, scopes⟩, AList.mem_lookup_iff.mp found, place.2, AList.mem_keys.mp inside, rfl⟩

theorem nodup_scopesOf : (scopesOf selected).Nodup := by
  rw [scopesOf]
  apply nodup_flatMap_labelled Prod.fst
  · show (selected.entries.map Sigma.fst).Nodup
    exact selected.keys_nodup
  · intro entry _
    exact entry.2.keys_nodup.map fun one other same => (Prod.mk.inj same).2
  · intro entry _ place inside
    obtain ⟨_, _, rfl⟩ := List.mem_map.mp inside
    rfl

def trackedScope (all : NamedBuckets) (place : String × String) : Option Scope := do
  let bucket ← all.buckets.lookup place.1
  bucket.scopes.lookup place.2

theorem trackedScope_eq_some {place : String × String} {scope : Scope} :
    trackedScope all place = some scope ↔ ∃ bucket, all.buckets.lookup place.1 = some bucket ∧
      bucket.scopes.lookup place.2 = some scope :=
  Option.bind_eq_some_iff

/-- The collections that are open in the scopes of a selection, as a list -/
def openCollectionsList (all : NamedBuckets) (considerOnlyDropped : Bool) (selected : Selected) :
    List Place :=
  (scopesOf selected).flatMap fun place => (trackedScope all place).toList.flatMap fun scope =>
    (collectionCandidates considerOnlyDropped scope).map fun collection => (place.1, place.2, collection)

theorem setOf_openCollectionsList :
    {place | place ∈ openCollectionsList all considerOnlyDropped selected} =
      openCollections all considerOnlyDropped {place | HasScope selected place} := by
  ext place
  simp only [openCollectionsList, List.mem_flatMap, Option.mem_toList, List.mem_map, Set.mem_ofPred_eq,
    openCollections, mem_scopesOf]
  constructor
  · rintro ⟨inner, member, scope, tracked, collection, candidate, rfl⟩
    obtain ⟨bucket, found, inside⟩ := trackedScope_eq_some.mp tracked
    exact ⟨member, bucket, found, scope, inside, mem_collectionCandidates.mp candidate⟩
  · rintro ⟨member, bucket, found, scope, inside, candidate⟩
    exact ⟨(place.1, place.2.1), member, scope, trackedScope_eq_some.mpr ⟨bucket, found, inside⟩,
      place.2.2, mem_collectionCandidates.mpr candidate, rfl⟩

theorem nodup_openCollectionsList : (openCollectionsList all considerOnlyDropped selected).Nodup := by
  rw [openCollectionsList]
  apply nodup_flatMap_labelled fun place : Place => (place.1, place.2.1)
  · show ((scopesOf selected).map id).Nodup
    rw [List.map_id]
    exact nodup_scopesOf
  · intro place _
    cases trackedScope all place with
    | none => exact List.nodup_nil
    | some scope =>
      simp only [Option.toList_some, List.flatMap_cons, List.flatMap_nil, List.append_nil]
      exact (nodup_candidates (nodup_filter_keys _ _)).map fun one other same =>
        (Prod.mk.inj (Prod.mk.inj same).2).2
  · intro place _ inner inside
    obtain ⟨_, _, inside⟩ := List.mem_flatMap.mp inside
    obtain ⟨_, _, rfl⟩ := List.mem_map.mp inside
    rfl

theorem availableCollections_eq (known : ∀ place, HasScope selected place → (trackedScope all place).isSome) :
    ∃ available, availableCollections all considerOnlyDropped selected = some available ∧
      available.flatten = (openCollectionsList all considerOnlyDropped selected).map collectionText := by
  refine ⟨(scopesOf selected).map fun place => ((trackedScope all place).toList.flatMap fun scope =>
    (collectionCandidates considerOnlyDropped scope).map fun collection =>
      (place.1, place.2, collection)).map collectionText, ?_, ?_⟩
  · apply mapM_eq_some_map
    intro place member
    obtain ⟨scope, tracked⟩ := Option.isSome_iff_exists.mp (known place (mem_scopesOf.mp member))
    obtain ⟨bucket, found, inside⟩ := trackedScope_eq_some.mp tracked
    simp [found, inside, tracked, collectionText]
  · rw [openCollectionsList, List.map_flatMap, List.flatMap_def]

theorem plain_of_openCollection {considered : Set (String × String)} {place : Place}
    (isOpen : place ∈ openCollections all considerOnlyDropped considered) :
    ∀ part ∈ [place.1, place.2.1, place.2.2], ':' ∉ part.toList := by
  obtain ⟨-, bucket, found, scope, inside, collection, listed, -⟩ := isOpen
  intro part member
  simp only [List.mem_cons, List.not_mem_nil, or_false] at member
  rcases member with rfl | rfl | rfl
  · exact all.plainBucket _ (AList.mem_keys.mpr (mem_keys_of_lookup found))
  · exact all.plainScope _ bucket found _ (AList.mem_keys.mpr (mem_keys_of_lookup inside))
  · exact all.plainCollection _ bucket found _ scope inside _
      (AList.mem_keys.mpr (mem_keys_of_lookup listed))

theorem collectionText_inj {place : Place}
    (plain : ∀ part ∈ [place.1, place.2.1, place.2.2], ':' ∉ part.toList) (other : Place) :
    collectionText other = collectionText place ↔ other = place := by
  have inj := @joinText_inj ':' _ [other.1, other.2.1, other.2.2] plain rfl (by simp)
  rw [collectionText, collectionText, inj]
  simp [Prod.ext_iff]

theorem plain_of_mem_openCollectionsList {place : Place}
    (member : place ∈ openCollectionsList all considerOnlyDropped selected) :
    ∀ part ∈ [place.1, place.2.1, place.2.2], ':' ∉ part.toList := by
  have isOpen : place ∈ openCollections all considerOnlyDropped {place | HasScope selected place} :=
    setOf_openCollectionsList ▸ member
  exact plain_of_openCollection isOpen

theorem told_openCollectionsList :
    Told collectionText (openCollectionsList all considerOnlyDropped selected) := by
  intro place member other same
  exact (collectionText_inj (plain_of_mem_openCollectionsList member) other).mp same

theorem mean_excludedCollections {excludeFrom : Selected} :
    ∀ place ∈ openCollectionsList all considerOnlyDropped selected,
      collectionText place ∈ excludedCollections excludeFrom ↔
        place ∈ {place | HasCollection excludeFrom place} := by
  intro place member
  simp only [excludedCollections, List.mem_flatMap, List.mem_map, Set.mem_ofPred_eq]
  constructor
  · rintro ⟨entry, inBuckets, inner, inScopes, collection, inside, same⟩
    cases (collectionText_inj (plain_of_mem_openCollectionsList member)
      (entry.1, inner.1, collection)).mp same
    exact ⟨entry.2, AList.mem_lookup_iff.mpr inBuckets, inner.2, AList.mem_lookup_iff.mpr inScopes,
      AList.mem_keys.mpr inside⟩
  · rintro ⟨scopes, found, collections, inScopes, inside⟩
    exact ⟨⟨place.1, scopes⟩, AList.mem_lookup_iff.mp found, ⟨place.2.1, collections⟩,
      AList.mem_lookup_iff.mp inScopes, place.2.2, AList.mem_keys.mp inside, rfl⟩

/-- A collection is added to a scope of the selection. -/
theorem addCollection_spec {place : Place}
    (plain : ∀ part ∈ [place.1, place.2.1, place.2.2], ':' ∉ part.toList)
    (known : HasScope selected (place.1, place.2.1)) : ∃ result,
      addCollection selected (collectionText place) = some result ∧
        (∀ name, name ∈ result ↔ name ∈ selected) ∧
        (∀ inner, HasScope result inner ↔ HasScope selected inner) ∧
        ∀ other, HasCollection result other ↔ HasCollection selected other ∨ other = place := by
  obtain ⟨scopes, found, inside⟩ := known
  obtain ⟨collections, listed⟩ := Option.isSome_iff_exists.mp (AList.lookup_isSome.mpr inside)
  have parts : splitText ':' (collectionText place) = [place.1, place.2.1, place.2.2] :=
    splitText_joinText plain (by simp)
  refine ⟨selected.insert place.1 (scopes.insert place.2.1 (collections.insert place.2.2 ())), ?_, ?_, ?_, ?_⟩
  · rw [addCollection, parts]
    simp [found, listed]
  · intro name
    rw [AList.mem_insert, or_iff_right_iff_imp]
    rintro rfl
    exact AList.mem_keys.mpr (mem_keys_of_lookup found)
  · rintro ⟨bucket, scope⟩
    by_cases same : bucket = place.1
    · subst same
      have present : scope = place.2.1 → scope ∈ scopes := fun equal => equal ▸ inside
      simpa [HasScope, found] using present
    · simp [HasScope, AList.lookup_insert_ne same]
  · rintro ⟨bucket, scope, collection⟩
    by_cases same : bucket = place.1
    · subst same
      by_cases sameScope : scope = place.2.1
      · subst sameScope
        simp [HasCollection, found, listed, Prod.ext_iff, or_comm]
      · simp [HasCollection, found, AList.lookup_insert_ne sameScope, Prod.ext_iff, sameScope]
    · simp [HasCollection, AList.lookup_insert_ne same, Prod.ext_iff, same]

theorem foldlM_addCollection {chosen : List Place}
    (plain : ∀ place ∈ chosen, ∀ part ∈ [place.1, place.2.1, place.2.2], ':' ∉ part.toList)
    (known : ∀ place ∈ chosen, HasScope selected (place.1, place.2.1)) : ∃ result,
      (chosen.map collectionText).foldlM addCollection selected = some result ∧
        (∀ name, name ∈ result ↔ name ∈ selected) ∧
        (∀ inner, HasScope result inner ↔ HasScope selected inner) ∧
        ∀ place, HasCollection result place ↔ HasCollection selected place ∨ place ∈ chosen := by
  induction chosen generalizing selected with
  | nil => exact ⟨selected, rfl, fun name => Iff.rfl, fun inner => Iff.rfl, by simp⟩
  | cons place chosen ih =>
    obtain ⟨next, added, names, scopes, collections⟩ := addCollection_spec
      (plain place List.mem_cons_self) (known place List.mem_cons_self)
    obtain ⟨result, folded, names', scopes', collections'⟩ := @ih next
      (fun other member => plain other (List.mem_cons_of_mem _ member))
      (fun other member => (scopes _).mpr (known other (List.mem_cons_of_mem _ member)))
    refine ⟨result, ?_, fun name => (names' name).trans (names name),
      fun inner => (scopes' inner).trans (scopes inner), fun other => ?_⟩
    · rw [List.map_cons, List.foldlM_cons, added]
      exact folded
    · rw [collections', collections, List.mem_cons, or_assoc]

section Steps

variable {forBuckets forScopes chance : Chance String} {reqNum considerScopes considerBuckets : Wanted}
  {excludeFrom : Selected}

theorem getRandomCollections_eq (got : getRandomScopes all forBuckets forScopes considerScopes
      considerBuckets false false ∅ = some selected)
    (known : ∀ place, HasScope selected place → (trackedScope all place).isSome) :
    getRandomCollections all forBuckets forScopes chance reqNum considerScopes considerBuckets
        considerOnlyDropped excludeFrom =
      (reqNum.take chance ((openCollectionsList all considerOnlyDropped selected).map collectionText).length
        (chance.listOfSet (((openCollectionsList all considerOnlyDropped selected).map
          collectionText).filter (· ∉ excludedCollections excludeFrom)))
        (chance.listOfSet (((openCollectionsList all considerOnlyDropped selected).map
          collectionText).filter (· ∉ excludedCollections excludeFrom)))).bind
            fun names => names.foldlM addCollection selected := by
  obtain ⟨available, listed, texts⟩ := availableCollections_eq known
  rw [getRandomCollections, got]
  show (availableCollections all considerOnlyDropped selected).bind _ = _
  rw [listed]
  show (reqNum.take chance available.flatten.length _ _).bind _ = _
  rw [texts]

theorem getRandomCollections_of_fits (got : getRandomScopes all forBuckets forScopes considerScopes
      considerBuckets false false ∅ = some selected) (unfilled : Unfilled selected)
    (known : ∀ place, HasScope selected place → (trackedScope all place).isSome)
    (fits : reqNum.Fits (openCollections all considerOnlyDropped {place | HasScope selected place}).ncard
      (openCollections all considerOnlyDropped {place | HasScope selected place} \
        {place | HasCollection excludeFrom place}).ncard) : ∃ result,
      getRandomCollections all forBuckets forScopes chance reqNum considerScopes considerBuckets
        considerOnlyDropped excludeFrom = some result ∧ {name | name ∈ result} = {name | name ∈ selected} ∧
      {place | HasScope result place} = {place | HasScope selected place} ∧
      Draws reqNum (openCollections all considerOnlyDropped {place | HasScope selected place} \
        {place | HasCollection excludeFrom place}) {place | HasCollection result place} := by
  rw [← setOf_openCollectionsList] at fits ⊢
  obtain ⟨chosen, taken, draws⟩ := @take_named _ _ chance _ _ _ _ _ _ told_openCollectionsList
    nodup_openCollectionsList mean_excludedCollections fits
  have inside : ∀ place ∈ chosen, HasScope selected (place.1, place.2.1) := by
    intro place member
    have isOpen : place ∈ openCollections all considerOnlyDropped {place | HasScope selected place} :=
      setOf_openCollectionsList ▸ (draws.1 member).1
    exact isOpen.1
  obtain ⟨result, folded, names, scopes, collections⟩ := foldlM_addCollection
    (fun place member => plain_of_mem_openCollectionsList (draws.1 member).1) inside
  have same : {place | HasCollection result place} = {place | place ∈ chosen} :=
    Set.ext fun place => (collections place).trans (or_iff_right (unfilled place))
  refine ⟨result, ?_, Set.ext names, Set.ext scopes, by rwa [same]⟩
  rw [getRandomCollections_eq got known, taken]
  exact folded

theorem getRandomCollections_of_not_fits (got : getRandomScopes all forBuckets forScopes considerScopes
      considerBuckets false false ∅ = some selected)
    (known : ∀ place, HasScope selected place → (trackedScope all place).isSome)
    (unfit : ¬ reqNum.Fits
      (openCollections all considerOnlyDropped {place | HasScope selected place}).ncard
      (openCollections all considerOnlyDropped {place | HasScope selected place} \
        {place | HasCollection excludeFrom place}).ncard) :
    getRandomCollections all forBuckets forScopes chance reqNum considerScopes considerBuckets
      considerOnlyDropped excludeFrom = none := by
  rw [← setOf_openCollectionsList] at unfit
  rw [getRandomCollections_eq got known,
    take_named_of_not_fits told_openCollectionsList nodup_openCollectionsList mean_excludedCollections unfit]
  rfl

end Steps

theorem tracked_of_open {avoidDefault dropped : Bool} {considered : Set String} {place : String × String}
    (isOpen : place ∈ openScopes all avoidDefault dropped considered) : (trackedScope all place).isSome := by
  obtain ⟨-, bucket, found, scope, inside, -⟩ := isOpen
  rw [trackedScope_eq_some.mpr ⟨bucket, found, inside⟩]
  exact Option.isSome_some

theorem collectionsFit_of_collectionsRight {reqNum considerScopes considerBuckets : Wanted}
    {excludeFrom : Selected} (right : CollectionsRight all reqNum considerScopes considerBuckets
      considerOnlyDropped excludeFrom) :
    CollectionsFit all reqNum considerScopes considerBuckets considerOnlyDropped excludeFrom := by
  intro considered scopes draws inside
  by_contra unfit
  obtain ⟨forBuckets, forScopes, selected, got, -, -, rfl⟩ := exists_getRandomScopes draws inside
  obtain ⟨result, returned, -⟩ := right forBuckets forScopes forScopes
  rw [getRandomCollections_of_not_fits got (fun place member => tracked_of_open (inside.1 member)) unfit]
    at returned
  cases returned

theorem collectionsRight_iff (reqNum considerScopes considerBuckets : Wanted) (considerOnlyDropped : Bool)
    (excludeFrom : Selected) :
    CollectionsRight all reqNum considerScopes considerBuckets considerOnlyDropped excludeFrom ↔
      CollectionsFit all reqNum considerScopes considerBuckets considerOnlyDropped excludeFrom := by
  constructor
  · exact collectionsFit_of_collectionsRight
  · intro fit forBuckets forScopes chance
    obtain ⟨chosen, got, draws, bare⟩ := @getRandomBuckets_free all ∅
      (fun name _ => not_mem_empty name) forBuckets considerBuckets
    have noneOut : openScopes all false false {name | name ∈ chosen} \
        {place | HasScope ∅ place} = openScopes all false false {name | name ∈ chosen} :=
      sdiff_eq_left.mpr (Set.disjoint_left.mpr fun place _ => Bare.not_hasScope (by rintro _ _ ⟨⟩) place)
    have fits : considerScopes.Fits (openScopes all false false {name | name ∈ chosen}).ncard
        (openScopes all false false {name | name ∈ chosen} \ {place | HasScope ∅ place}).ncard := by
      rw [noneOut]
      exact fits_self
    obtain ⟨selected, returned, names, unfilled, scopes⟩ := @getRandomScopes_of_fits _ _ _ _ _ forScopes
      _ _ _ got bare (fun name member => draws.1 member) fits
    rw [noneOut, ← names] at scopes
    rw [← names] at draws
    obtain ⟨result, collected, names', scopes', collections⟩ := @getRandomCollections_of_fits _ _ _ _ _
      chance _ _ _ excludeFrom returned unfilled (fun place member => tracked_of_open (scopes.1 member))
      (fit _ _ draws scopes)
    exact ⟨result, collected, names' ▸ draws, names' ▸ scopes' ▸ scopes, scopes' ▸ collections⟩

end Collections

theorem random_selection_iff (all : NamedBuckets) (reqNum considerScopes considerBuckets : Wanted)
    (avoidDefault considerOnlyDropped : Bool) (excludeFrom : Selected) :
    (BucketsRight all reqNum excludeFrom ↔ BucketsFit all reqNum excludeFrom) ∧
      (ScopesRight all reqNum considerBuckets avoidDefault considerOnlyDropped excludeFrom ↔
        ScopesFit all reqNum considerBuckets avoidDefault considerOnlyDropped excludeFrom) ∧
      (CollectionsRight all reqNum considerScopes considerBuckets considerOnlyDropped excludeFrom ↔
        CollectionsFit all reqNum considerScopes considerBuckets considerOnlyDropped excludeFrom) :=
  ⟨bucketsRight_iff _ _, scopesRight_iff _ _ _ _ _, collectionsRight_iff _ _ _ _ _⟩

/-- A bucket without scopes -/
def noScopes : Manifest.Bucket := { historyRetentionCollectionDefault := "false", magma := false }

def twoNames : AList fun _ : String => Manifest.Bucket :=
  AList.insert "a" noScopes (AList.insert "b" noScopes ∅)

theorem lookup_twoNames {name : String} {bucket : Manifest.Bucket}
    (found : twoNames.lookup name = some bucket) : bucket = noScopes := by
  rcases lookup_insert_eq_some.mp found with ⟨-, same⟩ | ⟨-, found⟩
  · exact same
  · rcases lookup_insert_eq_some.mp found with ⟨-, same⟩ | ⟨-, found⟩
    · exact same
    · cases found

def twoBuckets : NamedBuckets where
  buckets := twoNames
  plainBucket := by
    have plain : ∀ name ∈ twoNames.keys, ':' ∉ name.toList := by decide
    exact fun name member => plain name (AList.mem_keys.mp member)
  plainScope := by
    intro name bucket found scope member
    rw [lookup_twoNames found] at member
    exact absurd member (AList.notMem_empty scope)
  plainCollection := by
    intro name bucket found scopeName scope inside
    rw [lookup_twoNames found] at inside
    cases inside

/-- A request for all buckets selects the one that is excluded, and a request for one of them raises
    where both are excluded. -/
theorem random_buckets_take_excluded :
    ¬ BucketsRight twoBuckets .all (AList.insert "a" ∅ ∅) ∧
      ∀ chance, (∃ selected, getRandomBuckets twoBuckets chance .all (AList.insert "a" ∅ ∅) = some selected ∧
          "a" ∈ selected) ∧
        getRandomBuckets twoBuckets chance (.num 1) (AList.insert "b" ∅ (AList.insert "a" ∅ ∅)) = none := by
  refine ⟨?_, fun chance => ⟨⟨_, rfl, by decide⟩, ?_⟩⟩
  · intro right
    rcases bucketsFit_of_bucketsRight right with free | ⟨k, all, -⟩
    · exact free "a" (by decide) (by decide)
    · cases all
  · rw [getRandomBuckets_eq, take_of_not_fits]
    · rfl
    · decide
    · exact not_or.mpr ⟨by decide, by decide⟩

end Taf.RandomSelection
