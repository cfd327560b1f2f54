import Taf.Bucket.CrudSpec
import Taf.Bucket.TtlExpiry

/-! # Items that expire with their documents

`DocLoaderUtils.update_num_items_based_on_expired_docs` for the TTL level `document`.  A loader
specification holds, for each collection, the operations that were loaded with their ranges.  Documents
that were created with a TTL are taken off the end of the window of their collection; of the ranges
that were touched, updated or replaced the first one that the loops meet in a scope is taken off the
start, and no other one of that scope. -/

namespace Taf.Bucket

open Taf.Lib

/-- What a loader specification knows of an operation: its TTL and the range of its generator -/
structure LoadedOp where
  docTtl : ℕ
  start : Int
  stop : Int
  ordered : start ≤ stop

abbrev LoadedCollection := AList fun _ : CrudOp => LoadedOp

abbrev LoadedScope := AList fun _ : String => LoadedCollection

abbrev LoadedBucket := AList fun _ : String => LoadedScope

abbrev LoaderSpec := AList fun _ : String => LoadedBucket

structure SpecOrders extends Orders where
  ops : Place → KeyOrder CrudOp

/-- An operation of the specification, and the collection it is for -/
structure SpecItem where
  place : Place
  op : CrudOp
  data : LoadedOp

namespace SpecItem

def affectedItems (item : SpecItem) : Int := item.data.stop - item.data.start

def expires (item : SpecItem) : Bool :=
  item.data.docTtl ≠ 0 &&
    [CrudOp.doc .create, .doc .touch, .doc .update, .doc .replace].contains item.op

end SpecItem

structure DocExpiry where
  docExpiryTime : ℕ
  numItemsUpdated : Bool
  heap : Heap

/-! ## The loops -/

namespace Collection

def expireCreated (c : Collection) (affected : Int) : Collection :=
  { c with docIndex := (c.docIndex.1, c.docIndex.2 - affected), numItems := c.numItems - affected }

def expireMutated (c : Collection) (affected : Int) : Collection :=
  { c with docIndex := (c.docIndex.1 + affected, c.docIndex.2), numItems := c.numItems - affected }

end Collection

/-- The body of the innermost loop -/
def expireOp (state : DocExpiry) (item : SpecItem) : DocExpiry :=
  let time := if item.data.docTtl > state.docExpiryTime then item.data.docTtl else state.docExpiryTime
  let collection := state.heap item.place
  if item.expires then
    if item.op = .doc .create then
      ⟨time, state.numItemsUpdated,
        Function.update state.heap item.place (collection.expireCreated item.affectedItems)⟩
    else if state.numItemsUpdated then ⟨time, state.numItemsUpdated, state.heap⟩
    else
      ⟨time, true, Function.update state.heap item.place (collection.expireMutated item.affectedItems)⟩
  else ⟨time, state.numItemsUpdated, state.heap⟩

def collectionItems (orders : SpecOrders) (place : Place) (loaded : LoadedCollection) : List SpecItem :=
  visit (orders.ops place) loaded fun op data => [⟨place, op, data⟩]

def scopeItems (orders : SpecOrders) (bucket scope : String) (loaded : LoadedScope) : List SpecItem :=
  visit (orders.collections bucket scope) loaded fun collection =>
    collectionItems orders (bucket, scope, collection)

/-- `num_items_updated` starts anew in every scope. -/
def expireScope (state : DocExpiry) (items : List SpecItem) : DocExpiry :=
  items.foldl expireOp { state with numItemsUpdated := false }

/-- The scopes in the order of the loops, each with its operations -/
def scopeRuns (orders : SpecOrders) (spec : LoaderSpec) : List (List SpecItem) :=
  visit orders.buckets spec fun bucket loaded =>
    visit (orders.scopes bucket) loaded fun scope loaded => [scopeItems orders bucket scope loaded]

def updateNumItemsOfDocuments (orders : SpecOrders) (spec : LoaderSpec) (heap : Heap) : DocExpiry :=
  (scopeRuns orders spec).foldl expireScope ⟨0, false, heap⟩

/-! ## What is meant to expire -/

/-- The indices that an operation of a collection leaves to expire -/
noncomputable def expiringRange (loaded : LoadedCollection) (op : CrudOp) : Finset Int :=
  match loaded.lookup op with
  | some data => if data.docTtl ≠ 0 then Finset.Ico data.start data.stop else ∅
  | none => ∅

noncomputable def createdSize (loaded : LoadedCollection) : Int := (expiringRange loaded (.doc .create)).card

noncomputable def mutatedSize (loaded : LoadedCollection) : Int :=
  (expiringRange loaded (.doc .touch) ∪ expiringRange loaded (.doc .update) ∪
    expiringRange loaded (.doc .replace)).card

/-- What a specification says about a collection -/
def loadedAt (spec : LoaderSpec) (place : Place) : LoadedCollection :=
  (do (← (← spec.lookup place.1).lookup place.2.1).lookup place.2.2).getD ∅

/-- A collection without so many documents at both ends of its window -/
def Collection.without (c : Collection) (front back : Int) : Collection :=
  { c with
    docIndex := (c.docIndex.1 + front, c.docIndex.2 - back)
    numItems := c.numItems - back - front }

/-- Every collection has lost its own documents, whatever the order of the loops. -/
def LosesExpired (spec : LoaderSpec) (heap : Heap) : Prop :=
  ∀ orders place, (updateNumItemsOfDocuments orders spec heap).heap place =
    (heap place).without (mutatedSize (loadedAt spec place)) (createdSize (loadedAt spec place))

/-- An operation that touches, updates or replaces documents with a TTL -/
def ExpiringMutation (loaded : LoadedCollection) (data : LoadedOp) : Prop :=
  data.docTtl ≠ 0 ∧ ∃ op ∈ [CrudOp.doc .touch, .doc .update, .doc .replace], loaded.lookup op = some data

/-- Such a range of a collection is as large as all of them together, and the other collections of
    the scope have none. -/
def OneMutation (loaded : LoadedScope) : Prop :=
  ∀ collection own data, loaded.lookup collection = some own → ExpiringMutation own data →
    data.stop - data.start = mutatedSize own ∧
      ∀ other ≠ collection, ∀ its, loaded.lookup other = some its → mutatedSize its = 0

/-! ## What one scope loses -/

namespace Collection

theorem without_without (c : Collection) (front back front' back' : Int) :
    (c.without front back).without front' back' = c.without (front + front') (back + back') := by
  simp only [without, Collection.mk.injEq, Prod.mk.injEq, true_and, and_true]
  omega

theorem without_inj {c : Collection} {front back front' back' : Int} :
    c.without front back = c.without front' back' ↔ front = front' ∧ back = back' := by
  simp only [without, Collection.mk.injEq, Prod.mk.injEq, true_and, and_true]
  omega

theorem without_zero (c : Collection) : c.without 0 0 = c := by simp [without]

theorem expireCreated_eq (c : Collection) (affected : Int) :
    c.expireCreated affected = c.without 0 affected := by simp [expireCreated, without]

theorem expireMutated_eq (c : Collection) (affected : Int) :
    c.expireMutated affected = c.without affected 0 := by simp [expireMutated, without]

end Collection

namespace SpecItem

def isCreation (item : SpecItem) : Bool := item.expires && item.op = .doc .create

def isMutation (item : SpecItem) : Bool := item.expires && item.op ≠ .doc .create

end SpecItem

/-- What an operation takes off the end of the window of a collection -/
def backOf (place : Place) (item : SpecItem) : Int :=
  if item.isCreation ∧ item.place = place then item.affectedItems else 0

/-- What the operations of a scope take off the start -/
def frontOf (place : Place) (items : List SpecItem) : Int :=
  match items.find? SpecItem.isMutation with
  | some item => if item.place = place then item.affectedItems else 0
  | none => 0

theorem expireOp_heap (state : DocExpiry) (item : SpecItem) (place : Place) :
    (expireOp state item).heap place = (state.heap place).without
      (if state.numItemsUpdated then 0 else frontOf place [item]) (backOf place item) := by
  by_cases here : item.place = place
  · subst here
    by_cases expires : item.expires = true
    · by_cases create : item.op = .doc .create
      · simp [expireOp, frontOf, backOf, SpecItem.isMutation, SpecItem.isCreation, expires, create,
          Collection.expireCreated_eq]
      · by_cases updated : state.numItemsUpdated = true
        · simp [expireOp, backOf, SpecItem.isCreation, expires, create, updated,
            Collection.without_zero]
        · simp [expireOp, frontOf, backOf, SpecItem.isMutation, SpecItem.isCreation, expires, create,
            updated, Collection.expireMutated_eq]
    · simp [expireOp, frontOf, backOf, SpecItem.isMutation, SpecItem.isCreation, expires,
        Collection.without_zero]
  · have untouched : (expireOp state item).heap place = state.heap place := by
      by_cases expires : item.expires = true
      · by_cases create : item.op = .doc .create
        · simp [expireOp, expires, create, Function.update_of_ne (Ne.symm here)]
        · by_cases updated : state.numItemsUpdated = true
          · simp [expireOp, expires, create, updated]
          · simp [expireOp, expires, create, updated, Function.update_of_ne (Ne.symm here)]
      · simp [expireOp, expires]
    have front : frontOf place [item] = 0 := by
      by_cases mutation : item.isMutation = true
      · simp [frontOf, mutation, here]
      · simp [frontOf, mutation]
    have back : backOf place item = 0 := if_neg fun both => here both.2
    rw [untouched, front, back, ite_self, Collection.without_zero]

theorem expireOp_numItemsUpdated (state : DocExpiry) (item : SpecItem) :
    (expireOp state item).numItemsUpdated = (state.numItemsUpdated || item.isMutation) := by
  by_cases expires : item.expires = true
  · by_cases create : item.op = .doc .create
    · simp [expireOp, SpecItem.isMutation, expires, create]
    · by_cases updated : state.numItemsUpdated = true
      · simp [expireOp, expires, create, updated]
      · simp [expireOp, SpecItem.isMutation, expires, create, updated]
  · simp [expireOp, SpecItem.isMutation, expires]

theorem frontOf_cons (place : Place) (item : SpecItem) (items : List SpecItem) :
    frontOf place (item :: items) =
      frontOf place [item] + if item.isMutation then 0 else frontOf place items := by
  by_cases mutation : item.isMutation = true
  · simp [frontOf, mutation]
  · simp [frontOf, mutation]

theorem foldl_expireOp (items : List SpecItem) (state : DocExpiry) (place : Place) :
    (items.foldl expireOp state).heap place = (state.heap place).without
      (if state.numItemsUpdated then 0 else frontOf place items) (items.map (backOf place)).sum := by
  induction items generalizing state with
  | nil => simp [frontOf, Collection.without_zero]
  | cons item items ih =>
    rw [List.foldl_cons, ih, expireOp_heap, Collection.without_without, expireOp_numItemsUpdated,
      List.map_cons, List.sum_cons, frontOf_cons place item items]
    congr 1
    cases state.numItemsUpdated with
    | true => simp
    | false => cases item.isMutation <;> simp

theorem expireScope_heap (state : DocExpiry) (items : List SpecItem) (place : Place) :
    (expireScope state items).heap place =
      (state.heap place).without (frontOf place items) (items.map (backOf place)).sum := by
  rw [expireScope, foldl_expireOp]
  rfl

theorem foldl_expireScope (runs : List (List SpecItem)) (state : DocExpiry) (place : Place) :
    (runs.foldl expireScope state).heap place = (state.heap place).without
      (runs.map (frontOf place)).sum (runs.map fun items => (items.map (backOf place)).sum).sum := by
  induction runs generalizing state with
  | nil => simp [Collection.without_zero]
  | cons items runs ih =>
    rw [List.foldl_cons, ih, expireScope_heap, Collection.without_without]
    simp

/-! ## What a collection loses -/

section Totals

variable {orders : SpecOrders} {spec : LoaderSpec} {place : Place} {item : SpecItem}

theorem mem_collectionItems {loaded : LoadedCollection} : item ∈ collectionItems orders place loaded ↔
    item.place = place ∧ loaded.lookup item.op = some item.data := by
  rw [collectionItems, mem_visit]
  constructor
  · rintro ⟨op, data, found, member⟩
    cases List.mem_singleton.mp member
    exact ⟨rfl, found⟩
  · rintro ⟨rfl, found⟩
    exact ⟨item.op, item.data, found, List.mem_singleton.mpr rfl⟩

theorem mem_scopeItems {bucket scope : String} {loaded : LoadedScope} :
    item ∈ scopeItems orders bucket scope loaded ↔ item.place.1 = bucket ∧ item.place.2.1 = scope ∧
      ∃ own, loaded.lookup item.place.2.2 = some own ∧ own.lookup item.op = some item.data := by
  rw [scopeItems, mem_visit]
  constructor
  · rintro ⟨collection, own, found, member⟩
    obtain ⟨same, inside⟩ := mem_collectionItems.mp member
    rw [same]
    exact ⟨rfl, rfl, own, found, inside⟩
  · rintro ⟨rfl, rfl, own, found, inside⟩
    exact ⟨item.place.2.2, own, found, mem_collectionItems.mpr ⟨rfl, inside⟩⟩

theorem backOf_of_ne (apart : item.place ≠ place) : backOf place item = 0 :=
  if_neg fun both => apart both.2

theorem frontOf_of_ne {items : List SpecItem} (apart : ∀ item ∈ items, item.place ≠ place) :
    frontOf place items = 0 := by
  rw [frontOf]
  split
  · rename_i item found
    exact if_neg (apart item (List.mem_of_find?_eq_some found))
  · rfl

theorem affectedItems_eq_card (data : LoadedOp) :
    data.stop - data.start = (Finset.Ico data.start data.stop).card := by
  rw [Int.card_Ico, Int.toNat_of_nonneg (sub_nonneg.mpr data.ordered)]

theorem sum_collectionItems (loaded : LoadedCollection) :
    ((collectionItems orders place loaded).map (backOf place)).sum = createdSize loaded := by
  have others : ∀ op ≠ CrudOp.doc .create, ∀ data, ∀ item ∈ [SpecItem.mk place op data],
      backOf place item = 0 := by
    intro op different data item member
    cases List.mem_singleton.mp member
    simp [backOf, SpecItem.isCreation, different]
  rw [collectionItems, sum_visit others, createdSize, expiringRange]
  cases loaded.lookup (.doc .create) with
  | none => rfl
  | some data =>
    by_cases ttl : data.docTtl = 0
    · simp [backOf, SpecItem.isCreation, SpecItem.expires, ttl]
    · have size := affectedItems_eq_card data
      simpa [backOf, SpecItem.isCreation, SpecItem.expires, ttl, SpecItem.affectedItems] using size

theorem sum_scopeItems {bucket scope : String} (loaded : LoadedScope) (collection : String) :
    ((scopeItems orders bucket scope loaded).map (backOf (bucket, scope, collection))).sum =
      createdSize ((loaded.lookup collection).getD ∅) := by
  have others : ∀ other ≠ collection, ∀ own, ∀ item ∈ collectionItems orders (bucket, scope, other) own,
      backOf (bucket, scope, collection) item = 0 := by
    intro other different own item member
    apply backOf_of_ne
    intro same
    rw [(mem_collectionItems.mp member).1] at same
    cases same
    exact different rfl
  rw [scopeItems, sum_visit others]
  cases loaded.lookup collection with
  | none => rfl
  | some own => exact sum_collectionItems own

/-- What a specification says about a scope -/
def scopeAt (spec : LoaderSpec) (bucket scope : String) : Option LoadedScope :=
  (spec.lookup bucket).bind fun loaded => loaded.lookup scope

/-- A total over the scopes to which only the scope of a collection contributes -/
theorem sum_scopeRuns {amount : List SpecItem → Int}
    (silent : ∀ items, (∀ item ∈ items, item.place ≠ place) → amount items = 0) :
    ((scopeRuns orders spec).map amount).sum = ((scopeAt spec place.1 place.2.1).map fun loaded =>
      amount (scopeItems orders place.1 place.2.1 loaded)).getD 0 := by
  have otherBuckets : ∀ bucket ≠ place.1, ∀ loaded, ∀ items ∈ visit (orders.scopes bucket) loaded
      (fun scope loaded => [scopeItems orders bucket scope loaded]), amount items = 0 := by
    intro bucket different loaded items member
    obtain ⟨scope, own, -, only⟩ := mem_visit.mp member
    cases List.mem_singleton.mp only
    apply silent
    rintro item inside rfl
    exact different (mem_scopeItems.mp inside).1.symm
  have otherScopes : ∀ scope ≠ place.2.1, ∀ loaded,
      ∀ items ∈ [scopeItems orders place.1 scope loaded], amount items = 0 := by
    intro scope different loaded items only
    cases List.mem_singleton.mp only
    apply silent
    rintro item inside rfl
    exact different (mem_scopeItems.mp inside).2.1.symm
  rw [scopeRuns, sum_visit otherBuckets, scopeAt]
  cases spec.lookup place.1 with
  | none => rfl
  | some loaded =>
    show ((visit _ loaded _).map amount).sum = _
    rw [sum_visit otherScopes]
    simp

theorem loadedAt_eq (spec : LoaderSpec) (place : Place) : loadedAt spec place =
    ((scopeAt spec place.1 place.2.1).bind fun loaded => loaded.lookup place.2.2).getD ∅ := by
  rw [loadedAt, scopeAt]
  cases spec.lookup place.1 with
  | none => rfl
  | some loaded => rfl

theorem updateNumItemsOfDocuments_heap (orders : SpecOrders) (spec : LoaderSpec) (heap : Heap)
    (place : Place) : (updateNumItemsOfDocuments orders spec heap).heap place = (heap place).without
      (((scopeAt spec place.1 place.2.1).map fun loaded =>
        frontOf place (scopeItems orders place.1 place.2.1 loaded)).getD 0)
      (createdSize (loadedAt spec place)) := by
  have back : ∀ items : List SpecItem, (∀ item ∈ items, item.place ≠ place) →
      (items.map (backOf place)).sum = 0 := by
    intro items apart
    apply List.sum_eq_zero
    intro number member
    obtain ⟨item, inside, rfl⟩ := List.mem_map.mp member
    exact backOf_of_ne (apart item inside)
  rw [updateNumItemsOfDocuments, foldl_expireScope, sum_scopeRuns fun _ => frontOf_of_ne,
    sum_scopeRuns back, loadedAt_eq]
  cases scopeAt spec place.1 place.2.1 with
  | none => rfl
  | some loaded =>
    show Collection.without _ _ ((scopeItems orders _ _ loaded).map (backOf _)).sum = _
    rw [sum_scopeItems loaded place.2.2]
    rfl

end Totals

/-! ## The first range of a scope -/

section FirstRange

variable {orders : SpecOrders} {bucket scope : String} {loaded : LoadedScope}

theorem isMutation_iff (item : SpecItem) : item.isMutation = true ↔ item.data.docTtl ≠ 0 ∧
    item.op ∈ [CrudOp.doc .touch, .doc .update, .doc .replace] := by
  simp only [SpecItem.isMutation, SpecItem.expires, List.contains_iff_mem, Bool.and_eq_true,
    decide_eq_true_eq, List.mem_cons, List.not_mem_nil, or_false]
  constructor
  · rintro ⟨⟨ttl, create | rest⟩, different⟩
    · exact absurd create different
    · exact ⟨ttl, rest⟩
  · rintro ⟨ttl, rest⟩
    refine ⟨⟨ttl, .inr rest⟩, ?_⟩
    rintro create
    rw [create] at rest
    simp at rest

theorem mutatedSize_eq_zero {own : LoadedCollection} (none : ∀ data, ¬ ExpiringMutation own data) :
    mutatedSize own = 0 := by
  have empty : ∀ op ∈ [CrudOp.doc .touch, .doc .update, .doc .replace], expiringRange own op = ∅ := by
    intro op member
    rw [expiringRange]
    split
    · rename_i data found
      by_cases ttl : data.docTtl = 0
      · exact if_neg (not_not.mpr ttl)
      · exact absurd ⟨ttl, op, member, found⟩ (none data)
    · rfl
  rw [mutatedSize, empty _ (by simp), empty _ (by simp), empty _ (by simp)]
  rfl

/-- The scope loses what it should, whatever the order. -/
def FrontRight (bucket scope : String) (loaded : LoadedScope) : Prop :=
  ∀ orders collection, frontOf (bucket, scope, collection) (scopeItems orders bucket scope loaded) =
    mutatedSize ((loaded.lookup collection).getD ∅)

theorem frontRight_of_oneMutation (one : OneMutation loaded) : FrontRight bucket scope loaded := by
  intro orders collection
  rw [frontOf]
  cases met : (scopeItems orders bucket scope loaded).find? SpecItem.isMutation with
  | some item =>
    obtain ⟨inBucket, inScope, own, found, listed⟩ := mem_scopeItems.mp (List.mem_of_find?_eq_some met)
    obtain ⟨ttl, mutates⟩ := (isMutation_iff item).mp (List.find?_some met)
    obtain ⟨size, rest⟩ := one _ own item.data found ⟨ttl, item.op, mutates, listed⟩
    show (if item.place = (bucket, scope, collection) then item.affectedItems else 0) = _
    by_cases here : item.place.2.2 = collection
    · have same : item.place = (bucket, scope, collection) := by rw [← inBucket, ← inScope, ← here]
      rw [if_pos same, ← here, found]
      exact size
    · rw [if_neg fun same => here (by rw [same])]
      cases other : loaded.lookup collection with
      | some its => exact (rest collection (Ne.symm here) its other).symm
      | none => rfl
  | none =>
    show 0 = _
    cases other : loaded.lookup collection with
    | none => rfl
    | some own =>
      apply Eq.symm
      apply mutatedSize_eq_zero
      rintro data ⟨ttl, op, mutates, listed⟩
      have member : SpecItem.mk (bucket, scope, collection) op data ∈
          scopeItems orders bucket scope loaded := mem_scopeItems.mpr ⟨rfl, rfl, own, other, listed⟩
      exact List.find?_eq_none.mp met _ member ((isMutation_iff _).mpr ⟨ttl, mutates⟩)

/-- Any operation of a scope may be the first one. -/
theorem exists_first {collection : String} {own : LoadedCollection} {op : CrudOp} {data : LoadedOp}
    (found : loaded.lookup collection = some own) (listed : own.lookup op = some data) :
    ∃ orders rest, scopeItems orders bucket scope loaded = ⟨(bucket, scope, collection), op, data⟩ :: rest := by
  refine ⟨⟨⟨.plain, fun _ => .plain, fun _ _ => .first collection⟩, fun _ => .first op⟩, ?_⟩
  obtain ⟨others, first⟩ := visit_first found
  obtain ⟨rest, second⟩ := visit_first listed
  rw [scopeItems, first, collectionItems, second]
  exact ⟨_, rfl⟩

theorem oneMutation_of_frontRight (right : FrontRight bucket scope loaded) : OneMutation loaded := by
  rintro collection own data found ⟨ttl, op, mutates, listed⟩
  obtain ⟨orders, rest, first⟩ := @exists_first bucket scope loaded _ _ _ _ found listed
  have front : ∀ other, frontOf (bucket, scope, other) (scopeItems orders bucket scope loaded) =
      if collection = other then data.stop - data.start else 0 := by
    intro other
    rw [frontOf, first, List.find?_cons_of_pos ((isMutation_iff _).mpr ⟨ttl, mutates⟩)]
    simp [SpecItem.affectedItems]
  constructor
  · have size := right orders collection
    rw [front, if_pos rfl, found] at size
    exact size
  · intro other different its inside
    have none := right orders other
    rw [front, if_neg (Ne.symm different), inside] at none
    exact none.symm

end FirstRange

/-- In every scope at most one collection has ranges that were touched, updated or replaced with a
    TTL, and these are one range. -/
def OneMutationEach (spec : LoaderSpec) : Prop :=
  ∀ bucket scope loaded, scopeAt spec bucket scope = some loaded → OneMutation loaded

theorem heap_eq_iff (orders : SpecOrders) (spec : LoaderSpec) (heap : Heap) (place : Place) :
    (updateNumItemsOfDocuments orders spec heap).heap place =
        (heap place).without (mutatedSize (loadedAt spec place)) (createdSize (loadedAt spec place)) ↔
      ((scopeAt spec place.1 place.2.1).map fun loaded =>
        frontOf place (scopeItems orders place.1 place.2.1 loaded)).getD 0 =
          mutatedSize (loadedAt spec place) := by
  rw [updateNumItemsOfDocuments_heap, Collection.without_inj, and_iff_left rfl]

theorem oneMutationEach_of_losesExpired {spec : LoaderSpec} {heap : Heap} (loses : LosesExpired spec heap) :
    OneMutationEach spec := by
  intro bucket scope loaded found
  apply @oneMutation_of_frontRight bucket scope
  intro orders collection
  have size := (heap_eq_iff orders spec heap (bucket, scope, collection)).mp (loses orders _)
  rw [loadedAt_eq, found] at size
  exact size

theorem losesExpired_iff (spec : LoaderSpec) (heap : Heap) :
    LosesExpired spec heap ↔ OneMutationEach spec := by
  constructor
  · exact oneMutationEach_of_losesExpired
  · intro one orders place
    rw [heap_eq_iff, loadedAt_eq]
    cases found : scopeAt spec place.1 place.2.1 with
    | none => rfl
    | some loaded => exact frontRight_of_oneMutation (one _ _ loaded found) orders place.2.2

/-- Ten documents are updated with a TTL in each of two collections of a scope. -/
def twoUpdates : LoaderSpec :=
  let updated : LoadedCollection := AList.singleton (.doc .update) ⟨5, 0, 10, by decide⟩
  AList.singleton "bucket"
    (AList.singleton "_default" ((AList.singleton "b" updated).insert "a" updated))

/-- Only one of the two collections loses them. -/
theorem update_num_items_once_per_scope :
    (∀ heap, ¬ LosesExpired twoUpdates heap) ∧
      ∀ collection ∈ ["a", "b"], ((updateNumItemsOfDocuments ⟨.plain, fun _ => .plain⟩ twoUpdates fun _ =>
        Collection.new { numItems := some 100 }).heap ("bucket", "_default", collection)).numItems =
          if collection = "a" then 90 else 100 := by
  refine ⟨?_, by decide⟩
  intro heap loses
  have one := oneMutationEach_of_losesExpired loses "bucket" "_default" _ rfl
  obtain ⟨size, none⟩ := one "a" _ _ rfl ⟨(by decide : 5 ≠ 0), .doc .update, by decide, rfl⟩
  exact absurd (size.trans (none "b" (by decide) _ rfl)) (by decide)

end Taf.Bucket
