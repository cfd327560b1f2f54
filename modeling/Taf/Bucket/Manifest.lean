import Taf.Lib.Run
import Taf.Bucket.Collection

/-! # Scopes and collections against the server's manifest

`ScopeUtils` and `CollectionUtils` keep a copy of the scopes and collections of a
bucket.  A dropped scope or collection stays in its dictionary with a flag and is
revived in place when it is created again, with all the collections it ever had.  The
server is an abstract `ServerManifest`: which scopes exist and, of each, which collections.
The copy refines the manifest through every history of calls; what carries the proof
is that a dropped scope has dropped collections only. -/

namespace Taf.Manifest

open Taf.Lib Taf.Bucket

/-! ## The tracked bucket -/

structure Scope where
  name : String
  collections : AList fun _ : String => Collection := ∅
  isDropped : Bool := false
  -- How often the scope was re-created (the source's field `recreated`).
  recreations : Nat := 0

/-- The part of `Bucket` that tracks scopes and collections. -/
structure Bucket where
  historyRetentionCollectionDefault : String
  -- `storageBackend == Bucket.StorageBackend.magma`
  magma : Bool
  scopes : AList fun _ : String => Scope := ∅
  manifestUid : Nat := 0

namespace Scope

def recreated (scope : Scope) : Scope :=
  { scope with isDropped := false, recreations := scope.recreations + 1 }

def activeNames (scope : Scope) : List String :=
  (scope.collections.entries.filter fun entry => !entry.2.isDropped).map Sigma.fst

def activeCollections (scope : Scope) : List Collection :=
  (scope.collections.entries.filter fun entry => !entry.2.isDropped).map Sigma.snd

def withCollection (scope : Scope) (name : String) (collection : Collection) : Scope :=
  { scope with collections := scope.collections.insert name collection }

end Scope

namespace Bucket

variable (b : Bucket)

def withScope (name : String) (scope : Scope) : Bucket :=
  { b with scopes := b.scopes.insert name scope }

/-- `history` of a new collection, where the spec does not name it. -/
def defaultHistory : String :=
  if b.magma then b.historyRetentionCollectionDefault else "false"

/-- `Bucket.__init__`: the default scope, and the system scope with the collections of the
    cluster's profile. -/
def new (history : String) (magma serverless : Bool) : Bucket :=
  let empty : Bucket := { historyRetentionCollectionDefault := history, magma := magma }
  let system := ["_query", "_mobile"] ++ if serverless then ["_eventing", "_transactions"] else []
  let default : Scope := { name := "_default" }
  let systemScope : Scope := { name := "_system" }
  (empty.withScope "_default" (default.withCollection "_default"
      (Collection.new { name := some "_default", history := some empty.defaultHistory }))).withScope
    "_system" (system.foldl (fun scope name =>
      scope.withCollection name (Collection.new { name := some name })) systemScope)

def activeScopeNames : List String :=
  (b.scopes.entries.filter fun entry => !entry.2.isDropped).map Sigma.fst

def activeScopes : List Scope :=
  (b.scopes.entries.filter fun entry => !entry.2.isDropped).map Sigma.snd

/-- `get_active_collections`; `none` is the `AttributeError` for an unknown scope. -/
def getActiveCollections (scopeName : String) : Option (List Collection) :=
  (b.scopes.lookup scopeName).map Scope.activeCollections

def getActiveCollectionNames (scopeName : String) : Option (List String) :=
  (b.scopes.lookup scopeName).map Scope.activeNames

def incrementManifestUid : Bucket := { b with manifestUid := b.manifestUid + 1 }

def createScopeObject (scopeName : String) : Bucket :=
  match b.scopes.lookup scopeName with
  | some scope => b.withScope scopeName scope.recreated
  | none => b.withScope scopeName { name := scopeName }

/-- `create_collection_object`; `none` is the `AttributeError` for an unknown scope. -/
def createCollectionObject (scopeName collectionName : String) (spec : CollectionSpec) :
    Option Bucket := do
  let scope ← b.scopes.lookup scopeName
  let spec :=
    { spec with
      name := some collectionName
      history := some (spec.history.getD b.defaultHistory) }
  let collection :=
    match scope.collections.lookup collectionName with
    | some collection => collection.recreated spec
    | none => Collection.new spec
  return b.withScope scopeName (scope.withCollection collectionName collection)

/-- `mark_collection_as_dropped`; `none` is the `AttributeError`. -/
def markCollectionAsDropped (scopeName collectionName : String) : Option Bucket := do
  let scope ← b.scopes.lookup scopeName
  let collection ← scope.collections.lookup collectionName
  return b.withScope scopeName
    (scope.withCollection collectionName { collection with isDropped := true })

/-- `mark_scope_as_dropped`: the loop goes over the collections of the scope object, but marks
    them through `scope.name`. -/
def markScopeAsDropped (scopeName : String) : Option Bucket := do
  let scope ← b.scopes.lookup scopeName
  let marked ← scope.collections.keys.foldlM
    (fun bucket name => bucket.markCollectionAsDropped scope.name name) b
  let scope ← marked.scopes.lookup scopeName
  return marked.withScope scopeName { scope with isDropped := true }

end Bucket

/-! ## The four calls -/

inductive ManifestCall where
  | createScope (scopeName : String)
  | dropScope (scopeName : String)
  | createCollection (scopeName collectionName : String) (spec : CollectionSpec)
  | dropCollection (scopeName collectionName : String)

/-- The exception that the call raises when its REST request fails. -/
def ManifestCall.failure : ManifestCall → String
  | .createScope _ => "create_scope failed"
  | .dropScope _ => "delete_scope failed"
  | .createCollection .. => "create_collection failed"
  | .dropCollection .. => "delete_collection"

def ManifestCall.update (b : Bucket) : ManifestCall → Option Bucket
  | .createScope scopeName => some (b.createScopeObject scopeName)
  | .dropScope scopeName => b.markScopeAsDropped scopeName
  | .createCollection scopeName collectionName spec =>
    b.createCollectionObject scopeName collectionName spec
  | .dropCollection scopeName collectionName =>
    b.markCollectionAsDropped scopeName collectionName

/-- `create_scope`, `drop_scope`, `create_collection` and `drop_collection` with the status of the
    REST request: the bucket afterwards and the exception, if one is raised. -/
def ManifestCall.perform (call : ManifestCall) (status : Bool) (b : Bucket) :
    Bucket × Option String :=
  if !status then (b, some call.failure)
  else
    let b := b.incrementManifestUid
    match call.update b with
    | some updated => (updated, none)
    | none => (b, some "AttributeError")

/-! ## The server -/

/-- The scopes that exist, each with the set of its collections. -/
abbrev ServerManifest := String → Option (Finset String)

namespace ServerManifest

variable (m : ServerManifest)

def allows : ManifestCall → Bool
  | .createScope scopeName => (m scopeName).isNone
  | .dropScope scopeName => (m scopeName).isSome
  | .createCollection scopeName collectionName _ =>
    match m scopeName with
    | some collections => collectionName ∉ collections
    | none => false
  | .dropCollection scopeName collectionName =>
    match m scopeName with
    | some collections => collectionName ∈ collections
    | none => false

def apply : ManifestCall → ServerManifest
  | .createScope scopeName => Function.update m scopeName (some ∅)
  | .dropScope scopeName => Function.update m scopeName none
  | .createCollection scopeName collectionName _ =>
    Function.update m scopeName ((m scopeName).map (insert collectionName))
  | .dropCollection scopeName collectionName =>
    Function.update m scopeName ((m scopeName).map fun collections => collections.erase collectionName)

def new (serverless : Bool) : ServerManifest := fun scopeName =>
  if scopeName = "_default" then some {"_default"}
  else if scopeName = "_system" then
    some ({"_query", "_mobile"} ∪ if serverless then {"_eventing", "_transactions"} else ∅)
  else none

end ServerManifest

/-! ## What the copy shows -/

namespace Scope

def activeSet (scope : Scope) : Finset String := scope.activeNames.toFinset

def shown (scope : Scope) : Option (Finset String) :=
  if scope.isDropped then none else some scope.activeSet

/-- The names are the keys, and a dropped scope has dropped collections only. -/
structure Good (key : String) (scope : Scope) : Prop where
  name : scope.name = key
  collection : ∀ {c collection}, scope.collections.lookup c = some collection →
    collection.name = some c
  dropped : scope.isDropped = true → ∀ {c collection},
    scope.collections.lookup c = some collection → collection.isDropped = true

theorem mem_activeSet {scope : Scope} {c : String} :
    c ∈ scope.activeSet ↔
      ∃ collection, scope.collections.lookup c = some collection ∧ collection.isDropped = false := by
  simp only [activeSet, activeNames, List.mem_toFinset, List.mem_map, List.mem_filter,
    Bool.not_eq_true']
  constructor
  · intro ⟨entry, ⟨member, active⟩, sameName⟩
    subst sameName
    exact ⟨entry.2, AList.mem_lookup_iff.mpr member, active⟩
  · intro ⟨collection, found, active⟩
    exact ⟨⟨c, collection⟩, ⟨AList.mem_lookup_iff.mp found, active⟩, rfl⟩

theorem activeSet_of_dropped {key : String} {scope : Scope} (good : scope.Good key)
    (isDropped : scope.isDropped = true) : scope.activeSet = ∅ := by
  refine Finset.eq_empty_of_forall_notMem fun c member => ?_
  obtain ⟨collection, found, active⟩ := mem_activeSet.mp member
  rw [good.dropped isDropped found] at active
  cases active

theorem good_new (name : String) : ({ name := name } : Scope).Good name := by
  refine ⟨rfl, ?_, ?_⟩
  · intro c collection lookup
    cases lookup
  · intro _ c collection lookup
    cases lookup

theorem lookup_withCollection (scope : Scope) (name c : String) (collection : Collection) :
    (scope.withCollection name collection).collections.lookup c =
      if c = name then some collection else scope.collections.lookup c := by
  by_cases same : c = name
  · subst same
    simp [withCollection]
  · simp [withCollection, same]

theorem activeSet_withCollection (scope : Scope) (name : String) (collection : Collection) :
    (scope.withCollection name collection).activeSet =
      if collection.isDropped then scope.activeSet.erase name else insert name scope.activeSet := by
  ext c
  rw [mem_activeSet, lookup_withCollection]
  by_cases same : c = name
  · subst same
    cases dropped : collection.isDropped <;> simp [dropped]
  · cases collection.isDropped <;> simp [same, mem_activeSet]

theorem Good.withCollection {key : String} {scope : Scope} (good : scope.Good key) {name : String}
    {collection : Collection} (named : collection.name = some name)
    (dropped : scope.isDropped = true → collection.isDropped = true) :
    (scope.withCollection name collection).Good key := by
  refine ⟨good.name, ?_, ?_⟩
  · intro c other found
    rw [lookup_withCollection] at found
    split_ifs at found with same
    · cases found
      rw [same, named]
    · exact good.collection found
  · intro isDropped c other found
    rw [lookup_withCollection] at found
    split_ifs at found with same
    · cases found
      exact dropped isDropped
    · exact good.dropped isDropped found

end Scope

namespace Bucket

/-- The manifest as the tracked objects show it. -/
def shown (b : Bucket) : ServerManifest := fun name => (b.scopes.lookup name).bind Scope.shown

def Inv (b : Bucket) : Prop :=
  ∀ name scope, b.scopes.lookup name = some scope → scope.Good name

variable {b : Bucket}

theorem lookup_withScope (b : Bucket) (name other : String) (scope : Scope) :
    (b.withScope name scope).scopes.lookup other =
      if other = name then some scope else b.scopes.lookup other := by
  by_cases same : other = name
  · subst same
    simp [withScope]
  · simp [withScope, same]

theorem shown_withScope (b : Bucket) (name : String) (scope : Scope) :
    (b.withScope name scope).shown = Function.update b.shown name scope.shown := by
  funext other
  by_cases same : other = name
  · subst same
    simp [shown, lookup_withScope]
  · simp [shown, lookup_withScope, same]

theorem Inv.withScope (inv : b.Inv) {name : String} {scope : Scope} (good : scope.Good name) :
    (b.withScope name scope).Inv := by
  intro other found lookup
  rw [lookup_withScope] at lookup
  split_ifs at lookup with same
  · cases lookup
    rw [same]
    exact good
  · exact inv other found lookup

/-! ## The updates refine the server's steps -/

theorem shown_eq_none {name : String} (missing : b.shown name = none) :
    b.scopes.lookup name = none ∨
      ∃ scope, b.scopes.lookup name = some scope ∧ scope.isDropped = true := by
  unfold shown at missing
  cases found : b.scopes.lookup name with
  | none => exact .inl rfl
  | some scope =>
    refine .inr ⟨scope, rfl, ?_⟩
    simpa [found, Scope.shown] using missing

theorem shown_eq_some {name : String} {collections : Finset String}
    (present : b.shown name = some collections) :
    ∃ scope, b.scopes.lookup name = some scope ∧ scope.isDropped = false ∧
      scope.activeSet = collections := by
  unfold shown at present
  cases found : b.scopes.lookup name with
  | none => simp [found] at present
  | some scope =>
    refine ⟨scope, rfl, ?_⟩
    simpa [found, Scope.shown] using present

theorem createScopeObject_refines (inv : b.Inv) {name : String} (missing : b.shown name = none) :
    (b.createScopeObject name).Inv ∧
      (b.createScopeObject name).shown = Function.update b.shown name (some ∅) ∧
      (b.createScopeObject name).manifestUid = b.manifestUid := by
  unfold createScopeObject
  obtain absent | ⟨scope, found, isDropped⟩ := shown_eq_none missing
  · rw [absent]
    refine ⟨inv.withScope (Scope.good_new name), ?_, rfl⟩
    rw [shown_withScope]
    rfl
  · have good := inv name scope found
    rw [found]
    refine ⟨inv.withScope ⟨good.name, good.collection, ?_⟩, ?_, rfl⟩
    · intro revived
      cases revived
    · -- The revived scope keeps its old collections, which are all marked as dropped.
      have nothing : scope.activeSet = ∅ := Scope.activeSet_of_dropped good isDropped
      have empty : scope.recreated.shown = some ∅ := congrArg some nothing
      rw [shown_withScope, empty]

theorem createCollectionObject_refines (inv : b.Inv) {scopeName name : String}
    {collections : Finset String} (present : b.shown scopeName = some collections)
    (spec : CollectionSpec) :
    ∃ b', b.createCollectionObject scopeName name spec = some b' ∧ b'.Inv ∧
      b'.shown = Function.update b.shown scopeName (some (insert name collections)) ∧
      b'.manifestUid = b.manifestUid := by
  obtain ⟨scope, found, active, rfl⟩ := shown_eq_some present
  have good := inv scopeName scope found
  -- A new and a revived collection differ only in the object that is put under the name.
  have settle : ∀ collection : Collection, collection.name = some name →
      collection.isDropped = false →
      (b.withScope scopeName (scope.withCollection name collection)).Inv ∧
        (b.withScope scopeName (scope.withCollection name collection)).shown =
          Function.update b.shown scopeName (some (insert name scope.activeSet)) := by
    intro collection named alive
    refine ⟨inv.withScope (good.withCollection named ?_), ?_⟩
    · intro isDropped
      rw [active] at isDropped
      cases isDropped
    · have shownSo : (scope.withCollection name collection).shown =
          some (insert name scope.activeSet) := by
        unfold Scope.shown
        rw [Scope.activeSet_withCollection, alive]
        simp [Scope.withCollection, active]
      rw [shown_withScope, shownSo]
  simp only [createCollectionObject, found, Option.pure_def, Option.bind_eq_bind, Option.bind_some]
  cases previous : scope.collections.lookup name with
  | none =>
    refine ⟨_, rfl, ?_⟩
    obtain ⟨inv', shown'⟩ := settle (Collection.new { spec with
      name := some name, history := some (spec.history.getD b.defaultHistory) }) rfl rfl
    exact ⟨inv', shown', rfl⟩
  | some collection =>
    have named : collection.name = some name := good.collection previous
    refine ⟨_, rfl, ?_⟩
    obtain ⟨inv', shown'⟩ := settle (collection.recreated { spec with
      name := some name, history := some (spec.history.getD b.defaultHistory) }) named rfl
    exact ⟨inv', shown', rfl⟩

theorem markCollectionAsDropped_eq {scopeName name : String} {scope : Scope}
    {collection : Collection} (found : b.scopes.lookup scopeName = some scope)
    (foundCollection : scope.collections.lookup name = some collection) :
    b.markCollectionAsDropped scopeName name = some (b.withScope scopeName
      (scope.withCollection name { collection with isDropped := true })) := by
  simp [markCollectionAsDropped, found, foundCollection]

theorem markCollectionAsDropped_refines (inv : b.Inv) {scopeName name : String}
    {collections : Finset String} (present : b.shown scopeName = some collections)
    (member : name ∈ collections) :
    ∃ b', b.markCollectionAsDropped scopeName name = some b' ∧ b'.Inv ∧
      b'.shown = Function.update b.shown scopeName (some (collections.erase name)) ∧
      b'.manifestUid = b.manifestUid := by
  obtain ⟨scope, found, active, rfl⟩ := shown_eq_some present
  obtain ⟨collection, foundCollection, _⟩ := Scope.mem_activeSet.mp member
  have good := inv scopeName scope found
  have named : collection.name = some name := good.collection foundCollection
  refine ⟨_, markCollectionAsDropped_eq found foundCollection, ?_, ?_, rfl⟩
  · exact inv.withScope (good.withCollection named fun _ => rfl)
  · have shownSo : (scope.withCollection name { collection with isDropped := true }).shown =
        some (scope.activeSet.erase name) := by
      unfold Scope.shown
      rw [Scope.activeSet_withCollection]
      simp [Scope.withCollection, active]
    rw [shown_withScope, shownSo]

/-- What the loop of `mark_scope_as_dropped` has reached after some names. -/
structure Marked (b b' : Bucket) (scopeName : String) (scope scope' : Scope)
    (names : List String) : Prop where
  inv : b'.Inv
  manifestUid : b'.manifestUid = b.manifestUid
  others : ∀ other, other ≠ scopeName → b'.scopes.lookup other = b.scopes.lookup other
  found : b'.scopes.lookup scopeName = some scope'
  sameCollections : ∀ c, c ∈ scope'.collections ↔ c ∈ scope.collections
  dropped : ∀ c collection, scope'.collections.lookup c = some collection →
    (c ∈ names ∨ ∀ before, scope.collections.lookup c = some before → before.isDropped = true) →
    collection.isDropped = true

theorem foldlM_mark (inv : b.Inv) {scopeName : String} {scope : Scope}
    (found : b.scopes.lookup scopeName = some scope) (names : List String)
    (known : ∀ name ∈ names, name ∈ scope.collections) :
    ∃ b' scope', names.foldlM (fun bucket name => bucket.markCollectionAsDropped scopeName name) b =
      some b' ∧ Marked b b' scopeName scope scope' names := by
  -- The bucket and the scope object both change with every round, so the induction goes over all
  -- of them; `Marked` relates the last round to the first.
  induction names generalizing b scope with
  | nil =>
    refine ⟨b, scope, rfl, inv, rfl, fun _ _ => rfl, found, fun _ => Iff.rfl, ?_⟩
    intro c collection lookup reason
    exact reason.resolve_left (by simp) collection lookup
  | cons name names ih =>
    obtain ⟨collection, foundCollection⟩ := Option.isSome_iff_exists.mp
      (AList.lookup_isSome.mpr (known name List.mem_cons_self))
    have good := inv scopeName scope found
    have named : collection.name = some name := good.collection foundCollection
    let marked := scope.withCollection name { collection with isDropped := true }
    have markedGood : marked.Good scopeName := good.withCollection named fun _ => rfl
    have keys : ∀ c, c ∈ marked.collections ↔ c ∈ scope.collections := by
      intro c
      simp only [marked, Scope.withCollection, AList.mem_insert, or_iff_right_iff_imp]
      rintro rfl
      exact known c List.mem_cons_self
    obtain ⟨b', scope', folded, rest⟩ := ih (inv.withScope markedGood)
      (b.lookup_withScope scopeName scopeName marked |>.trans (if_pos rfl))
      (fun next member => (keys next).mpr (known next (List.mem_cons_of_mem name member)))
    refine ⟨b', scope', ?_, rest.inv, rest.manifestUid, ?_, rest.found, ?_, ?_⟩
    · rw [List.foldlM_cons, markCollectionAsDropped_eq found foundCollection]
      exact folded
    · intro other different
      rw [rest.others other different, lookup_withScope, if_neg different]
    · intro c
      rw [rest.sameCollections, keys]
    · intro c collection' lookup reason
      refine rest.dropped c collection' lookup ?_
      by_cases same : c = name
      · refine .inr fun before beforeLookup => ?_
        rw [Scope.lookup_withCollection, if_pos same] at beforeLookup
        cases beforeLookup
        rfl
      · refine reason.imp (fun member => (List.mem_cons.mp member).resolve_left same) ?_
        intro wasDropped before beforeLookup
        rw [Scope.lookup_withCollection, if_neg same] at beforeLookup
        exact wasDropped before beforeLookup

theorem markScopeAsDropped_refines (inv : b.Inv) {scopeName : String}
    {collections : Finset String} (present : b.shown scopeName = some collections) :
    ∃ b', b.markScopeAsDropped scopeName = some b' ∧ b'.Inv ∧
      b'.shown = Function.update b.shown scopeName none ∧ b'.manifestUid = b.manifestUid := by
  obtain ⟨scope, found, _, _⟩ := shown_eq_some present
  have good := inv scopeName scope found
  obtain ⟨marked, scope', folded, loop⟩ := foldlM_mark inv found scope.collections.keys
    (fun name member => AList.mem_keys.mpr member)
  have good' := loop.inv scopeName scope' loop.found
  refine ⟨marked.withScope scopeName { scope' with isDropped := true }, ?_, ?_, ?_, loop.manifestUid⟩
  · simp [markScopeAsDropped, found, good.name, folded, loop.found]
  · refine loop.inv.withScope ⟨good'.name, good'.collection, ?_⟩
    -- The loop went over all keys of the scope, so nothing in it is left active.
    intro _ c collection lookup
    have known : c ∈ scope.collections :=
      (loop.sameCollections c).mp (AList.lookup_isSome.mp (Option.isSome_iff_exists.mpr ⟨_, lookup⟩))
    exact loop.dropped c collection lookup (.inl (AList.mem_keys.mp known))
  · rw [shown_withScope]
    funext other
    by_cases same : other = scopeName
    · subst same
      simp [Scope.shown]
    · simp [same, shown, loop.others other same]

end Bucket

/-! ## Whole histories -/

/-- The tracked bucket, the server, and the number of calls that succeeded. -/
structure Tracked where
  bucket : Bucket
  server : ServerManifest
  succeeded : Nat

namespace Tracked

def start (history : String) (magma serverless : Bool) : Tracked where
  bucket := Bucket.new history magma serverless
  server := ServerManifest.new serverless
  succeeded := 0

def step (s : Tracked) (call : ManifestCall) : Tracked :=
  let status := s.server.allows call
  { bucket := (call.perform status s.bucket).1
    server := if status then s.server.apply call else s.server
    succeeded := if status then s.succeeded + 1 else s.succeeded }

structure Inv (s : Tracked) : Prop where
  bucket : s.bucket.Inv
  shown : s.bucket.shown = s.server
  manifestUid : s.bucket.manifestUid = s.succeeded

end Tracked

theorem update_refines {b : Bucket} (inv : b.Inv) {call : ManifestCall}
    (allowed : b.shown.allows call = true) :
    ∃ b', call.update b = some b' ∧ b'.Inv ∧ b'.shown = b.shown.apply call ∧
      b'.manifestUid = b.manifestUid := by
  cases call with
  | createScope scopeName =>
    have missing : b.shown scopeName = none := by simpa [ServerManifest.allows] using allowed
    exact ⟨_, rfl, b.createScopeObject_refines inv missing⟩
  | dropScope scopeName =>
    obtain ⟨collections, present⟩ := Option.isSome_iff_exists.mp allowed
    exact b.markScopeAsDropped_refines inv present
  | createCollection scopeName collectionName spec =>
    cases present : b.shown scopeName with
    | none => simp [ServerManifest.allows, present] at allowed
    | some collections =>
      simp only [ServerManifest.apply, present, Option.map_some]
      exact b.createCollectionObject_refines inv present spec
  | dropCollection scopeName collectionName =>
    cases present : b.shown scopeName with
    | none => simp [ServerManifest.allows, present] at allowed
    | some collections =>
      have member : collectionName ∈ collections := by
        simpa [ServerManifest.allows, present] using allowed
      simp only [ServerManifest.apply, present, Option.map_some]
      exact b.markCollectionAsDropped_refines inv present member

theorem perform_allowed {b : Bucket} (inv : b.Inv) {call : ManifestCall}
    (allowed : b.shown.allows call = true) :
    ∃ b', call.perform true b = (b', none) ∧ b'.Inv ∧ b'.shown = b.shown.apply call ∧
      b'.manifestUid = b.manifestUid + 1 := by
  obtain ⟨b', updated, inv', shown', uid⟩ := update_refines (b := b.incrementManifestUid) inv allowed
  exact ⟨b', by simp [ManifestCall.perform, updated], inv', shown', uid⟩

theorem Tracked.Inv.step {s : Tracked} (inv : s.Inv) (call : ManifestCall) : (s.step call).Inv := by
  cases status : s.server.allows call with
  | false =>
    have unchanged : s.step call = s := by simp [Tracked.step, status, ManifestCall.perform]
    rw [unchanged]
    exact inv
  | true =>
    obtain ⟨b', performed, inv', shown', uid⟩ :=
      perform_allowed inv.bucket (inv.shown.symm ▸ status)
    refine ⟨?_, ?_, ?_⟩
    · simpa [Tracked.step, status, performed] using inv'
    · simp [Tracked.step, status, performed, shown', inv.shown]
    · simp [Tracked.step, status, performed, uid, inv.manifestUid]

theorem withNewCollections {key : String} (names : List String) {scope : Scope}
    (good : scope.Good key) (alive : scope.isDropped = false) :
    let filled := names.foldl (fun scope name =>
      scope.withCollection name (Collection.new { name := some name })) scope
    filled.Good key ∧ filled.isDropped = false ∧
      filled.activeSet = scope.activeSet ∪ names.toFinset := by
  induction names generalizing scope with
  | nil => simpa using ⟨good, alive⟩
  | cons name names ih =>
    let collection := Collection.new { name := some name }
    have goodNext : (scope.withCollection name collection).Good key :=
      good.withCollection rfl fun isDropped => absurd isDropped (by simp [alive])
    obtain ⟨good', alive', active'⟩ := ih goodNext alive
    refine ⟨good', alive', active'.trans ?_⟩
    rw [Scope.activeSet_withCollection]
    simp [collection, Collection.new, Finset.insert_union]

theorem Tracked.start_inv (history : String) (magma serverless : Bool) :
    (Tracked.start history magma serverless).Inv := by
  let empty : Bucket := { historyRetentionCollectionDefault := history, magma := magma }
  have emptyInv : empty.Inv := fun _ _ lookup => by cases lookup
  let default : Scope := { name := "_default" }
  have defaultGood : (default.withCollection "_default" (Collection.new
      { name := some "_default", history := some empty.defaultHistory })).Good "_default" :=
    (Scope.good_new "_default").withCollection rfl fun isDropped => by cases isDropped
  obtain ⟨systemGood, systemAlive, systemActive⟩ := withNewCollections
    (["_query", "_mobile"] ++ if serverless then ["_eventing", "_transactions"] else [])
    (Scope.good_new "_system") rfl
  refine ⟨(emptyInv.withScope defaultGood).withScope systemGood, ?_, rfl⟩
  have defaultShown : (default.withCollection "_default" (Collection.new
      { name := some "_default", history := some empty.defaultHistory })).shown =
      some {"_default"} := by
    rfl
  unfold Tracked.start Bucket.new
  rw [Bucket.shown_withScope, Bucket.shown_withScope]
  funext name
  by_cases isSystem : name = "_system"
  · subst isSystem
    rw [Function.update_self, Scope.shown, systemAlive, systemActive]
    cases serverless <;> rfl
  · rw [Function.update_of_ne isSystem]
    by_cases isDefault : name = "_default"
    · subst isDefault
      rw [Function.update_self, defaultShown]
      rfl
    · rw [Function.update_of_ne isDefault]
      simp [ServerManifest.new, isDefault, isSystem, Bucket.shown]

/-- The tracked objects agree with the server, whatever is asked of them. -/
structure Tracked.Refines (s : Tracked) : Prop where
  scopeNames : ∀ name, name ∈ s.bucket.activeScopeNames ↔ (s.server name).isSome = true
  scopeNodup : s.bucket.activeScopeNames.Nodup
  scopes : s.bucket.activeScopes.map Scope.name = s.bucket.activeScopeNames
  collectionNames : ∀ scopeName collections, s.server scopeName = some collections →
    ∃ names objects, s.bucket.getActiveCollectionNames scopeName = some names ∧ names.Nodup ∧
      names.toFinset = collections ∧ s.bucket.getActiveCollections scopeName = some objects ∧
      objects.map Collection.name = names.map some
  manifestUid : s.bucket.manifestUid = s.succeeded
  succeeds : ∀ call, s.server.allows call = true → (call.perform true s.bucket).2 = none
  fails : ∀ call, s.server.allows call = false →
    call.perform false s.bucket = (s.bucket, some call.failure)

theorem Bucket.mem_activeScopeNames {b : Bucket} {name : String} :
    name ∈ b.activeScopeNames ↔ (b.shown name).isSome = true := by
  simp only [Bucket.activeScopeNames, List.mem_map, List.mem_filter, Bool.not_eq_true',
    Bucket.shown, Option.isSome_bind]
  constructor
  · intro ⟨entry, ⟨member, alive⟩, sameName⟩
    subst sameName
    rw [AList.mem_lookup_iff.mpr member]
    simp [Scope.shown, alive]
  · intro shown
    cases found : b.scopes.lookup name with
    | none => simp [found] at shown
    | some scope =>
      refine ⟨⟨name, scope⟩, ⟨AList.mem_lookup_iff.mp found, ?_⟩, rfl⟩
      simpa [found, Scope.shown] using shown

theorem nodup_filter_keys {β : String → Type*} (dict : AList β) (keep : Sigma β → Bool) :
    ((dict.entries.filter keep).map Sigma.fst).Nodup :=
  (List.filter_sublist.map Sigma.fst).nodup dict.keys_nodup

theorem Bucket.Inv.activeScopes_names {b : Bucket} (inv : b.Inv) :
    b.activeScopes.map Scope.name = b.activeScopeNames := by
  rw [Bucket.activeScopes, Bucket.activeScopeNames, List.map_map]
  apply List.map_congr_left
  intro entry member
  have found : b.scopes.lookup entry.1 = some entry.2 :=
    AList.mem_lookup_iff.mpr (List.mem_of_mem_filter member)
  exact (inv entry.1 entry.2 found).name

theorem Tracked.Inv.refines {s : Tracked} (inv : s.Inv) : s.Refines where
  scopeNames := by
    intro name
    rw [← inv.shown]
    exact Bucket.mem_activeScopeNames
  scopeNodup := nodup_filter_keys _ _
  scopes := inv.bucket.activeScopes_names
  collectionNames := by
    intro scopeName collections present
    rw [← inv.shown] at present
    obtain ⟨scope, found, _, active⟩ := Bucket.shown_eq_some present
    refine ⟨scope.activeNames, scope.activeCollections, ?_, nodup_filter_keys _ _, active, ?_, ?_⟩
    · simp [Bucket.getActiveCollectionNames, found]
    · simp [Bucket.getActiveCollections, found]
    · rw [Scope.activeCollections, Scope.activeNames, List.map_map, List.map_map]
      refine List.map_congr_left fun entry member => ?_
      exact (inv.bucket scopeName scope found).collection
        (AList.mem_lookup_iff.mpr (List.mem_filter.mp member).1)
  manifestUid := inv.manifestUid
  succeeds := by
    intro call allowed
    obtain ⟨b', performed, _⟩ := perform_allowed inv.bucket (inv.shown.symm ▸ allowed)
    rw [performed]
  fails := fun _ _ => rfl

/-- After every history of calls the tracked scopes and collections are those of the server. -/
theorem run_refines_manifest (history : String) (magma serverless : Bool)
    (calls : List ManifestCall) :
    (run Tracked.step (Tracked.start history magma serverless) calls).Refines := by
  have inv : (run Tracked.step (Tracked.start history magma serverless) calls).Inv :=
    run_invariant (fun _ call inv => inv.step call) (Tracked.start_inv history magma serverless) calls
  exact inv.refines

end Taf.Manifest
