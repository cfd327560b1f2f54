import Taf.Bucket.CreatedBuckets

/-! # When the tracked buckets agree with the server

The task reports a collection that the server refused, and neither a scope that it refused nor a
default collection that it kept nor a request that nobody answered.  So a successful creation may leave tracked buckets that have
more than the server has; this module says exactly when. -/

namespace Taf.Bucket.Creation

open Taf.Lib Taf.Manifest Taf.Bucket.Expansion

/-! ## The bucket before its scopes are created -/

section Start

variable (rest : BucketRest) (serverless : Bool) (params : Params)

/-- The task behind `Bucket.set_defaults` -/
def newTask : Task := { bucket := setDefaults (bucketObject serverless params), server := .new serverless }

/-- The answer to the request to drop the default collection -/
def dropAnswer : Answer := rest.answer (.dropCollection defaultScope defaultCollection)

/-- The task when the default collection is as the spec wants it -/
def preparedTask (collections : Collections) : Task :=
  if defaultCollection ∈ collections then newTask serverless params
  else
    let (_, task) := (newTask serverless params).request rest (.dropCollection defaultScope defaultCollection)
    { task with bucket := popDefaultCollection task.bucket }

/-- What the creation relies on: a bucket object with the scopes of a new bucket -/
structure Prepared (existing : Finset String) (bucket : Bucket) : Prop where
  default : ∃ scope, bucket.scopes.lookup defaultScope = some scope ∧ scope.Good defaultScope ∧
    scope.isDropped = false ∧ scope.activeSet = existing
  others : ∀ name, name ≠ defaultScope → bucket.shown name = ServerManifest.new serverless name
  absent : ∀ name, name ≠ defaultScope → name ≠ systemScope → bucket.scopes.lookup name = none

/-- Another default scope changes nothing else. -/
theorem Prepared.withScope {serverless : Bool} {existing existing' : Finset String} {bucket : Bucket}
    (prepared : Prepared serverless existing bucket) {scope : Scope} (good : scope.Good defaultScope)
    (alive : scope.isDropped = false) (active : scope.activeSet = existing') :
    Prepared serverless existing' (bucket.withScope defaultScope scope) where
  default := ⟨scope, by rw [Bucket.lookup_withScope, if_pos rfl], good, alive, active⟩
  others name different := by
    rw [Bucket.shown_withScope, Function.update_of_ne different]
    exact prepared.others name different
  absent name different notSystem := by
    rw [Bucket.lookup_withScope, if_neg different]
    exact prepared.absent name different notSystem

theorem prepared_bucketObject : Prepared serverless {defaultCollection} (bucketObject serverless params) := by
  have inv := Tracked.start_inv "true" true serverless
  have shown : (bucketObject serverless params).shown = .new serverless := inv.shown
  have present : (bucketObject serverless params).shown defaultScope = some {defaultCollection} := by
    rw [shown]
    rfl
  obtain ⟨scope, found, alive, active⟩ := Bucket.shown_eq_some present
  refine ⟨⟨scope, found, inv.bucket defaultScope scope found, alive, active⟩, ?_, ?_⟩
  · intro name _
    rw [shown]
  · intro name notDefault notSystem
    change (Bucket.new "true" true serverless).scopes.lookup name = none
    unfold Bucket.new
    rw [Bucket.lookup_withScope, Bucket.lookup_withScope]
    exact (if_neg notSystem).trans (if_neg notDefault)

theorem prepared_newTask : Prepared serverless {defaultCollection} (newTask serverless params).bucket := by
  have prepared := prepared_bucketObject serverless params
  obtain ⟨scope, found, good, alive, active⟩ := prepared.default
  have member : defaultCollection ∈ scope.activeSet := by
    rw [active]
    exact Finset.mem_singleton_self _
  obtain ⟨collection, here, kept⟩ := Scope.mem_activeSet.mp member
  change Prepared serverless _ (setDefaults (bucketObject serverless params))
  unfold setDefaults
  split
  · simp only [found, here]
    have named : collection.name = some defaultCollection := good.collection here
    refine prepared.withScope (good.withCollection named fun isDropped => ?_) alive ?_
    · rw [alive] at isDropped
      cases isDropped
    · rw [Scope.activeSet_withCollection, active]
      simp [kept]
  · exact prepared

theorem prepared_popDefaultCollection {serverless : Bool} {bucket : Bucket}
    (prepared : Prepared serverless {defaultCollection} bucket) :
    Prepared serverless ∅ (popDefaultCollection bucket) := by
  obtain ⟨scope, found, good, alive, active⟩ := prepared.default
  rw [popDefaultCollection, found]
  refine prepared.withScope ⟨good.name, ?_, ?_⟩ alive ?_
  · intro name collection here
    exact good.collection (lookup_erase_eq_some.mp here).2
  · intro isDropped
    rw [alive] at isDropped
    cases isDropped
  · ext name
    have before : name ∈ scope.activeSet ↔ name = defaultCollection := by rw [active, Finset.mem_singleton]
    rw [Scope.mem_activeSet] at before ⊢
    by_cases same : name = defaultCollection
    · subst same
      simp
    · rw [AList.lookup_erase_ne same]
      simp [before, same]

/-- What the server has of the default scope behind the request to drop its collection -/
def keptDefault (collections : Collections) : Finset String :=
  if defaultCollection ∈ collections ∨ (dropAnswer rest).taken = false then
    {defaultCollection}
  else ∅

theorem preparedTask_server (collections : Collections) :
    (preparedTask rest serverless params collections).server =
      Function.update (ServerManifest.new serverless) defaultScope (some (keptDefault rest collections)) := by
  have unchanged : Function.update (ServerManifest.new serverless) defaultScope (some {defaultCollection}) =
      ServerManifest.new serverless := Function.update_eq_self_iff.mpr rfl
  unfold preparedTask keptDefault dropAnswer
  by_cases wanted : defaultCollection ∈ collections
  · simp [wanted, newTask, unchanged]
  · have here : ServerManifest.new serverless defaultScope = some {defaultCollection} := rfl
    rw [request_eq]
    cases taken : (rest.answer (.dropCollection defaultScope defaultCollection)).taken with
    | false => simp [wanted, newTask, unchanged]
    | true => simp [wanted, newTask, ServerManifest.allows, ServerManifest.apply, here]

theorem request_same (task : Task) (call : ManifestCall) :
    (task.request rest call).2.bucket = task.bucket ∧ (task.request rest call).2.result = task.result := by
  rw [request_eq]
  exact ⟨rfl, rfl⟩

/-- The drop of an unwanted default collection raises exactly if its request gets no status. -/
theorem prepared_of_call (collections : Collections) :
    (if defaultCollection ∈ collections then .ok (newTask serverless params)
      else dropDefaultCollection rest (newTask serverless params)) =
    if defaultCollection ∉ collections ∧ (dropAnswer rest).status = none then .error .requestFailed
    else .ok (preparedTask rest serverless params collections) := by
  unfold preparedTask dropAnswer
  by_cases wanted : defaultCollection ∈ collections
  · simp [wanted]
  · have here : (newTask serverless params).server defaultScope = some {defaultCollection} := rfl
    have allowed : (newTask serverless params).server.allows (.dropCollection defaultScope defaultCollection) = true := by
      simp [ServerManifest.allows, here]
    simp only [dropDefaultCollection, request_eq, if_pos allowed, wanted]
    cases rest.answer (.dropCollection defaultScope defaultCollection) <;> simp [Answer.status]

theorem prepared_preparedTask (collections : Collections) :
    Prepared serverless (if defaultCollection ∈ collections then {defaultCollection} else ∅)
      (preparedTask rest serverless params collections).bucket := by
  have new := prepared_newTask serverless params
  unfold preparedTask
  split
  · exact new
  · rw [request_eq]
    exact prepared_popDefaultCollection new

theorem preparedTask_result (collections : Collections) :
    (preparedTask rest serverless params collections).result = true := by
  unfold preparedTask
  split
  · rfl
  · exact (request_same rest _ _).2

end Start

/-! ## The bucket object while the task runs -/

/-- Nothing differs but the uid of the manifest. -/
def OnlyUid (bucket bucket' : Bucket) : Prop := ∃ uid, bucket' = { bucket with manifestUid := uid }

section Run

variable (rest : BucketRest) (bucketName : String)

theorem createCollectionFromSpec_onlyUid (scopeName : String) (task : Task) (name : String) (params : Params) :
    OnlyUid task.bucket (createCollectionFromSpec rest bucketName scopeName task name params).bucket := by
  have same := (request_same rest task (.createCollection scopeName name (collectionSpec name params))).1
  simp only [createCollectionFromSpec]
  split
  case h_1 _ after answered =>
    rw [answered] at same
    exact ⟨task.bucket.manifestUid + 1, congrArg Bucket.incrementManifestUid same⟩
  case h_2 _ after answered =>
    rw [answered] at same
    exact ⟨task.bucket.manifestUid, same⟩
  case h_3 _ after answered =>
    rw [answered] at same
    exact ⟨task.bucket.manifestUid, same⟩

theorem createCollectionsOfScope_onlyUid (scopeName : String) (scope : ScopeSpec) (task : Task) :
    OnlyUid task.bucket (createCollectionsOfScope rest bucketName scopeName scope task).bucket := by
  unfold createCollectionsOfScope
  refine List.foldlRecOn (motive := fun after : Task => OnlyUid task.bucket after.bucket) _ _
    ⟨task.bucket.manifestUid, rfl⟩ ?_
  intro after ⟨uid, same⟩ entry _
  split
  · exact ⟨uid, same⟩
  · obtain ⟨uid', same'⟩ := createCollectionFromSpec_onlyUid rest bucketName scopeName after entry.1 entry.2
    exact ⟨uid', by rw [same', same]⟩

theorem createScopeFromSpec_onlyUid (task : Task) (scopeName : String) (scope : ScopeSpec) :
    OnlyUid task.bucket (createScopeFromSpec rest bucketName task scopeName scope).bucket := by
  by_cases isDefault : scopeName = defaultScope
  · simp only [createScopeFromSpec, isDefault, ne_eq, not_true, if_false]
    exact createCollectionsOfScope_onlyUid rest bucketName defaultScope scope task
  · simp only [createScopeFromSpec, isDefault, ne_eq, not_false_eq_true, if_true]
    have same := (request_same rest task (.createScope scopeName)).1
    split
    case h_1 _ after answered =>
      rw [answered] at same
      obtain ⟨uid, bucket⟩ := createCollectionsOfScope_onlyUid rest bucketName scopeName scope
        { after with bucket := after.bucket.incrementManifestUid }
      refine ⟨uid, bucket.trans ?_⟩
      rw [← same]
      rfl
    case h_2 _ after answered =>
      rw [answered] at same
      exact ⟨task.bucket.manifestUid, same⟩
    case h_3 _ after answered =>
      rw [answered] at same
      exact ⟨task.bucket.manifestUid, same⟩

theorem createScopes_onlyUid (scopes : Scopes) (task : Task) : OnlyUid task.bucket
    (scopes.entries.foldl (fun task entry => createScopeFromSpec rest bucketName task entry.1 entry.2) task).bucket := by
  refine List.foldlRecOn (motive := fun after : Task => OnlyUid task.bucket after.bucket) _ _
    ⟨task.bucket.manifestUid, rfl⟩ ?_
  intro after ⟨uid, same⟩ entry _
  obtain ⟨uid', same'⟩ := createScopeFromSpec_onlyUid rest bucketName after entry.1 entry.2
  exact ⟨uid', by rw [same', same]⟩

/-- The server behind the loop over the scopes -/
theorem createScopes_server (scopes : Scopes) (task : Task) (name : String) :
    (scopes.entries.foldl (fun task entry => createScopeFromSpec rest bucketName task entry.1 entry.2) task).server
        name =
      ((scopes.lookup name).map fun scope => afterScope rest name scope (task.server name)).getD (task.server name) :=
  foldl_view Task.server (fun task entry => createScopeFromSpec_server rest bucketName entry.1 task entry.2)
    scopes.nodupKeys task name

end Run

theorem Prepared.onlyUid {serverless : Bool} {existing : Finset String} {bucket bucket' : Bucket}
    (prepared : Prepared serverless existing bucket) (onlyUid : OnlyUid bucket bucket') :
    Prepared serverless existing bucket' := by
  obtain ⟨uid, rfl⟩ := onlyUid
  exact ⟨prepared.default, prepared.others, prepared.absent⟩

/-! ## The task and the tracking -/

/-- A spec as the expansion returns it.  The scope of the system is not a user's to name. -/
structure Ready (spec : BucketSpec) (scopes : Scopes) : Prop where
  given : spec.scopes = some scopes
  default : ∃ scope, scopes.lookup defaultScope = some scope
  complete : ∀ name scope, scopes.lookup name = some scope → scope.collections ≠ none
  noSystem : systemScope ∉ scopes
  usingImport : spec.params.lookup .createCollectionsUsingManifestImport ≠ none

/-- The spec asks for the import of a manifest. -/
def UsesImport (spec : BucketSpec) : Prop := spec.params.lookup .createCollectionsUsingManifestImport = some true

/-- No collection is refused that the task asks for. -/
def Reported (rest : BucketRest) (spec : BucketSpec) (scopes : Scopes) : Prop :=
  UsesImport spec ∨ ∀ name scope, scopes.lookup name = some scope → Accepts rest name scope

/-- The default collection is wanted. -/
def WantsDefault (scopes : Scopes) : Prop :=
  ∃ scope, scopes.lookup defaultScope = some scope ∧ defaultCollection ∈ scope.collections.getD ∅

/-- The server takes everything over that the spec says, which has default collections in the default
    scope only. -/
structure TakesOver (rest : BucketRest) (scopes : Scopes) : Prop where
  default : ¬ WantsDefault scopes → (dropAnswer rest).taken = true
  created : ∀ name scope, scopes.lookup name = some scope → name ≠ defaultScope →
    (rest.answer (.createScope name)).taken = true ∧ defaultCollection ∉ scope.collections.getD ∅
  collections : ∀ name scope, scopes.lookup name = some scope → TakesAll rest name scope

/-- The manifest that the spec describes, with the scope of the system -/
def manifestOf (serverless : Bool) (scopes : Scopes) : ServerManifest := fun name =>
  ((scopes.lookup name).map fun scope => (scope.collections.getD ∅).keys.toFinset).or
    (ServerManifest.new serverless name)

section Task

variable {rest : BucketRest} {serverless : Bool} {spec : BucketSpec} {scopes : Scopes} {bucketName : String}

/-- The server creates the bucket, answers the drop of an unwanted default collection, and accepts the
    manifest where one is imported. -/
structure Served (rest : BucketRest) (spec : BucketSpec) (scopes : Scopes) : Prop where
  created : rest.createsBucket = true
  answered : ¬ WantsDefault scopes → (dropAnswer rest).status ≠ none
  accepted : UsesImport spec → rest.importFailure = none

theorem wantsDefault_iff {scope : ScopeSpec} {collections : Collections}
    (found : scopes.lookup defaultScope = some scope) (given : scope.collections = some collections) :
    WantsDefault scopes ↔ defaultCollection ∈ collections := by
  unfold WantsDefault
  rw [found]
  constructor
  · rintro ⟨scope', same, wanted⟩
    cases same
    rw [given] at wanted
    exact wanted
  · intro wanted
    refine ⟨scope, rfl, ?_⟩
    rw [given]
    exact wanted

/-- The task step by step, on a spec that has everything it reads -/
theorem call_ready (rest : BucketRest) (serverless : Bool) (bucketName : String) (ready : Ready spec scopes) :
    ∃ scope collections flag, scopes.lookup defaultScope = some scope ∧ scope.collections = some collections ∧
      spec.params.lookup .createCollectionsUsingManifestImport = some flag ∧
      call rest bucketName serverless spec =
        if rest.createsBucket = false then .error (.bucketCreation bucketName)
        else if defaultCollection ∉ collections ∧ (dropAnswer rest).status = none then .error .requestFailed
        else if flag then
          createCollectionsUsingManifestImport rest scopes (preparedTask rest serverless spec.params collections)
        else .ok (scopes.entries.foldl (fun task entry => createScopeFromSpec rest bucketName task entry.1 entry.2)
          (preparedTask rest serverless spec.params collections)) := by
  obtain ⟨scope, found⟩ := ready.default
  obtain ⟨collections, given⟩ := Option.ne_none_iff_exists'.mp (ready.complete defaultScope scope found)
  obtain ⟨flag, isFlag⟩ := Option.ne_none_iff_exists'.mp ready.usingImport
  refine ⟨scope, collections, flag, found, given, isFlag, ?_⟩
  rw [call, ready.given, isFlag]
  split
  · rfl
  · change (known (scopes.lookup defaultScope) >>= _) = _
    rw [found]
    change (known scope.collections >>= _) = _
    rw [given]
    change ((if defaultCollection ∈ collections then .ok (newTask serverless spec.params)
      else dropDefaultCollection rest (newTask serverless spec.params)) >>= _) = _
    rw [prepared_of_call]
    split <;> rfl

/-- The task of a bucket that is served, by the branch it takes -/
theorem call_eq (serverless : Bool) (bucketName : String) (ready : Ready spec scopes) (served : Served rest spec scopes) :
    ∃ scope collections task, scopes.lookup defaultScope = some scope ∧ scope.collections = some collections ∧
      call rest bucketName serverless spec = .ok task ∧
      ((UsesImport spec ∧ task = { preparedTask rest serverless spec.params collections with
          server := imported (preparedTask rest serverless spec.params collections).server scopes }) ∨
        (¬ UsesImport spec ∧ task = scopes.entries.foldl
          (fun task entry => createScopeFromSpec rest bucketName task entry.1 entry.2)
          (preparedTask rest serverless spec.params collections))) := by
  obtain ⟨scope, collections, flag, found, given, isFlag, reached⟩ := call_ready rest serverless bucketName ready
  have complete : ∀ entry ∈ scopes.entries, entry.2.collections.isSome := by
    intro entry member
    exact Option.isSome_iff_ne_none.mpr (ready.complete entry.1 entry.2 (AList.mem_lookup_iff.mpr member))
  have dropped : ¬ (defaultCollection ∉ collections ∧ (dropAnswer rest).status = none) := by
    rintro ⟨unwanted, silent⟩
    exact served.answered (fun wants => unwanted ((wantsDefault_iff found given).mp wants)) silent
  rw [if_neg (by simp [served.created]), if_neg dropped] at reached
  cases flag with
  | true =>
    rw [if_pos rfl, createCollectionsUsingManifestImport, if_pos complete, served.accepted isFlag] at reached
    exact ⟨scope, collections, _, found, given, reached, .inl ⟨isFlag, rfl⟩⟩
  | false =>
    refine ⟨scope, collections, _, found, given, reached, .inr ⟨?_, rfl⟩⟩
    rw [UsesImport, isFlag]
    simp

/-- A task that returns has been served. -/
theorem served_of_call {task : Task} (ready : Ready spec scopes)
    (called : call rest bucketName serverless spec = .ok task) : Served rest spec scopes := by
  obtain ⟨scope, collections, flag, found, given, isFlag, reached⟩ := call_ready rest serverless bucketName ready
  rw [reached] at called
  split at called
  case isTrue => cases called
  case isFalse created =>
    split at called
    case isTrue => cases called
    case isFalse dropped =>
      refine ⟨by simpa using created, ?_, ?_⟩
      · intro unwanted silent
        exact dropped ⟨fun wanted => unwanted ((wantsDefault_iff found given).mpr wanted), silent⟩
      · intro uses
        have flagged : flag = true := Option.some.inj (isFlag.symm.trans uses)
        rw [flagged, if_pos rfl, createCollectionsUsingManifestImport] at called
        split at called
        · split at called
          case h_1 => cases called
          case h_2 none => exact none
        · cases called

/-- Behind the tracking a prepared bucket shows what the spec describes. -/
theorem trackSpec_shown (ready : Ready spec scopes) {bucket : Bucket} {existing : Finset String}
    (prepared : Prepared serverless existing bucket) (within : ∀ scope, scopes.lookup defaultScope = some scope →
      existing ⊆ (scope.collections.getD ∅).keys.toFinset) :
    ∃ after, trackSpec spec bucket = .ok after ∧ after.defaultHistory = bucket.defaultHistory ∧
      after.shown = manifestOf serverless scopes ∧
      ∀ name scope, scopes.lookup name = some scope → ∃ tracked, after.scopes.lookup name = some tracked ∧
        ∀ c params, (scope.collections.getD ∅).lookup c = some params →
          ∃ collection, tracked.collections.lookup c = some collection ∧
            Follows after.defaultHistory params collection := by
  obtain ⟨default, defaultFound, defaultGood, defaultAlive, defaultActive⟩ := prepared.default
  have notSystem : ∀ name scope, scopes.lookup name = some scope → name ≠ systemScope := by
    intro name scope found isSystem
    subst isSystem
    exact ready.noSystem (AList.lookup_isSome.mp (by rw [found]; rfl))
  have trackable : ∀ name scope, scopes.lookup name = some scope →
      Trackable name scope (bucket.scopes.lookup name) := by
    intro name scope found
    refine ⟨ready.complete name scope found, ?_, fun notDefault => prepared.absent name notDefault
      (notSystem name scope found)⟩
    intro isDefault
    subst isDefault
    exact ⟨default, defaultFound, defaultGood, defaultAlive⟩
  obtain ⟨after, tracked, history, made, untouched⟩ := trackSpec_spec ready.given trackable
  refine ⟨after, tracked, history, ?_, ?_⟩
  · funext name
    rw [manifestOf]
    cases found : scopes.lookup name with
    | some scope =>
      obtain ⟨object, here, objectTracked⟩ := made name scope found
      have active := objectTracked.activeSet
      have shown : after.shown name = some object.activeSet := by
        simp [Bucket.shown, here, Scope.shown, objectTracked.isDropped]
      rw [shown, active]
      by_cases isDefault : name = defaultScope
      · subst isDefault
        rw [defaultFound, Option.getD_some, defaultActive, Finset.union_eq_right.mpr (within scope found)]
        rfl
      · rw [prepared.absent name isDefault (notSystem name scope found), Option.getD_none]
        simp [Scope.activeSet, Scope.activeNames]
    | none =>
      have notDefault : name ≠ defaultScope := by
        intro isDefault
        obtain ⟨scope, present⟩ := ready.default
        rw [isDefault, present] at found
        cases found
      have same : after.shown name = bucket.shown name := by
        rw [Bucket.shown, untouched name (AList.lookup_eq_none.mp found)]
        rfl
      rw [same, prepared.others name notDefault]
      rfl
  · intro name scope found
    obtain ⟨object, here, objectTracked⟩ := made name scope found
    exact ⟨object, here, history ▸ objectTracked.given⟩

/-- An import makes the manifest that the spec describes. -/
theorem imported_eq (ready : Ready spec scopes) {m : ServerManifest}
    (others : ∀ name, name ≠ defaultScope → m name = ServerManifest.new serverless name) :
    imported m scopes = manifestOf serverless scopes := by
  funext name
  rw [imported, manifestOf]
  by_cases isSystem : name = systemScope
  · subst isSystem
    rw [if_pos rfl, AList.lookup_eq_none.mpr ready.noSystem, others systemScope (by decide)]
    rfl
  · rw [if_neg isSystem]
    cases found : scopes.lookup name with
    | some scope => rfl
    | none =>
      have notDefault : name ≠ defaultScope := by
        intro isDefault
        obtain ⟨scope, present⟩ := ready.default
        rw [isDefault, present] at found
        cases found
      have absent : ServerManifest.new serverless name = none := by
        unfold ServerManifest.new
        exact (if_neg notDefault).trans (if_neg isSystem)
      rw [absent]
      rfl

theorem mem_addedNames {scopeName name : String} {scope : ScopeSpec} :
    name ∈ addedNames rest scopeName scope ↔ Asks rest scopeName ∧ name ≠ defaultCollection ∧
      ∃ params, (scope.collections.getD ∅).lookup name = some params ∧
        (collectionAnswer rest scopeName name params).taken = true := by
  unfold addedNames
  by_cases asks : Asks rest scopeName
  · rw [if_pos asks, and_iff_right asks]
    simp only [takenNames, List.mem_toFinset, List.mem_map, List.mem_filter, decide_eq_true_eq]
    constructor
    · rintro ⟨entry, ⟨member, notDefault, taken⟩, same⟩
      subst same
      exact ⟨notDefault, entry.2, AList.mem_lookup_iff.mpr member, taken⟩
    · rintro ⟨notDefault, params, found, taken⟩
      exact ⟨⟨name, params⟩, ⟨AList.mem_lookup_iff.mp found, notDefault, taken⟩, rfl⟩
  · simp [asks]

/-- The added collections beside a possible default one are all exactly if each is taken. -/
theorem union_added_eq_iff {scopeName : String} {scope : ScopeSpec} {kept : Finset String}
    (onlyDefault : kept ⊆ {defaultCollection}) :
    kept ∪ addedNames rest scopeName scope = (scope.collections.getD ∅).keys.toFinset ↔
      (defaultCollection ∈ kept ↔ defaultCollection ∈ scope.collections.getD ∅) ∧ TakesAll rest scopeName scope := by
  rw [TakesAll, Finset.ext_iff]
  constructor
  · intro same
    refine ⟨?_, ?_⟩
    · have here := same defaultCollection
      simpa [mem_addedNames, AList.mem_keys] using here
    · intro entry member notDefault
      have here := (same entry.1).mpr (List.mem_toFinset.mpr (List.mem_keys_of_mem member))
      rw [Finset.mem_union] at here
      cases here with
      | inl isKept => exact absurd (Finset.mem_singleton.mp (onlyDefault isKept)) notDefault
      | inr added =>
        obtain ⟨asks, -, params, found, taken⟩ := mem_addedNames.mp added
        have given : (scope.collections.getD ∅).lookup entry.1 = some entry.2 := AList.mem_lookup_iff.mpr member
        rw [given] at found
        cases found
        exact ⟨asks, taken⟩
  · rintro ⟨sameDefault, all⟩ name
    rw [Finset.mem_union, List.mem_toFinset, ← AList.mem_keys, mem_addedNames]
    by_cases isDefault : name = defaultCollection
    · subst isDefault
      simp [sameDefault]
    · have notKept : name ∉ kept := fun member => isDefault (Finset.mem_singleton.mp (onlyDefault member))
      constructor
      · intro has
        obtain ⟨-, -, params, found, -⟩ := has.resolve_left notKept
        exact AList.lookup_isSome.mp (by rw [found]; rfl)
      · intro member
        obtain ⟨params, found⟩ := Option.isSome_iff_exists.mp (AList.lookup_isSome.mpr member)
        obtain ⟨asks, taken⟩ := all ⟨name, params⟩ (AList.mem_lookup_iff.mp found) isDefault
        exact .inr ⟨asks, isDefault, params, found, taken⟩

variable (rest serverless) in
/-- When the server has all of a scope of the spec -/
theorem afterScope_eq_iff (ready : Ready spec scopes) {scope : ScopeSpec} {collections : Collections}
    (found : scopes.lookup defaultScope = some scope) (given : scope.collections = some collections)
    {name : String} {spec' : ScopeSpec} (present : scopes.lookup name = some spec') :
    afterScope rest name spec' ((preparedTask rest serverless spec.params collections).server name) =
        some (spec'.collections.getD ∅).keys.toFinset ↔
      (name = defaultScope → ¬ WantsDefault scopes → (dropAnswer rest).taken = true) ∧
      (name ≠ defaultScope → (rest.answer (.createScope name)).taken = true ∧
        defaultCollection ∉ spec'.collections.getD ∅) ∧ TakesAll rest name spec' := by
  have keptOnly : keptDefault rest collections ⊆ {defaultCollection} := by
    unfold keptDefault
    split <;> simp
  have same : scope.collections.getD ∅ = collections := by rw [given]; rfl
  rw [preparedTask_server, afterScope]
  by_cases isDefault : name = defaultScope
  · subst isDefault
    rw [found] at present
    cases present
    rw [if_neg (not_not_intro rfl), Function.update_self, Option.map_some, Option.some.injEq,
      union_added_eq_iff keptOnly, keptDefault, same, wantsDefault_iff found given]
    by_cases wanted : defaultCollection ∈ collections
    · simp [wanted]
    · cases (dropAnswer rest).taken <;> simp [wanted]
  · have notSystem : name ≠ systemScope := by
      intro isSystem
      subst isSystem
      exact ready.noSystem (AList.lookup_isSome.mp (by rw [present]; rfl))
    have absent : ServerManifest.new serverless name = none := by
      unfold ServerManifest.new
      exact (if_neg isDefault).trans (if_neg notSystem)
    rw [if_pos isDefault, Function.update_of_ne isDefault, absent]
    have all : ∅ ∪ addedNames rest name spec' = (spec'.collections.getD ∅).keys.toFinset ↔
        (defaultCollection ∈ (∅ : Finset String) ↔ defaultCollection ∈ spec'.collections.getD ∅) ∧
          TakesAll rest name spec' := union_added_eq_iff (Finset.empty_subset _)
    rw [Finset.empty_union] at all
    by_cases taken : (rest.answer (.createScope name)).taken = true
    · rw [if_pos ⟨rfl, taken⟩, Option.some.injEq, all]
      simp [isDefault, taken]
    · simp [isDefault, taken]

/-- The server behind the task, where no manifest is imported -/
theorem createScopes_manifest_iff (ready : Ready spec scopes) {scope : ScopeSpec} {collections : Collections}
    (found : scopes.lookup defaultScope = some scope) (given : scope.collections = some collections) :
    (scopes.entries.foldl (fun task entry => createScopeFromSpec rest bucketName task entry.1 entry.2)
        (preparedTask rest serverless spec.params collections)).server = manifestOf serverless scopes ↔
      TakesOver rest scopes := by
  have here {name : String} {spec' : ScopeSpec} (present : scopes.lookup name = some spec') :=
    afterScope_eq_iff rest serverless ready found given present
  rw [funext_iff]
  constructor
  · intro agree
    have each : ∀ name spec', scopes.lookup name = some spec' → _ := fun name spec' present =>
      (here present).mp (by
        have := agree name
        rw [createScopes_server, manifestOf, present] at this
        exact this)
    refine ⟨?_, ?_, ?_⟩
    · exact (each defaultScope scope found).1 rfl
    · intro name spec' present
      exact (each name spec' present).2.1
    · intro name spec' present
      exact (each name spec' present).2.2
  · intro takesOver name
    rw [createScopes_server, manifestOf]
    cases present : scopes.lookup name with
    | some spec' =>
      refine (here present).mpr ⟨?_, takesOver.created name spec' present,
        takesOver.collections name spec' present⟩
      intro _
      exact takesOver.default
    | none =>
      have notDefault : name ≠ defaultScope := by
        intro isDefault
        rw [isDefault, found] at present
        cases present
      change (preparedTask rest serverless spec.params collections).server name = _
      rw [preparedTask_server, Function.update_of_ne notDefault]
      rfl

/-- The result of the task, where no manifest is imported -/
theorem createScopes_result (ready : Ready spec scopes) (collections : Collections) :
    (scopes.entries.foldl (fun task entry => createScopeFromSpec rest bucketName task entry.1 entry.2)
        (preparedTask rest serverless spec.params collections)).result = true ↔
      ∀ name scope, scopes.lookup name = some scope → Accepts rest name scope := by
  have start : ∀ entry ∈ scopes.entries,
      (entry.1 ≠ defaultScope → (preparedTask rest serverless spec.params collections).server entry.1 = none) ∧
      (entry.1 = defaultScope → ∃ existing,
        (preparedTask rest serverless spec.params collections).server entry.1 = some existing ∧
          existing ⊆ {defaultCollection}) := by
    intro entry member
    rw [preparedTask_server]
    refine ⟨?_, ?_⟩
    · intro notDefault
      have notSystem : entry.1 ≠ systemScope := by
        intro isSystem
        exact ready.noSystem (isSystem ▸ AList.mem_keys.mpr (List.mem_keys_of_mem member))
      rw [Function.update_of_ne notDefault, ServerManifest.new]
      exact (if_neg notDefault).trans (if_neg notSystem)
    · intro isDefault
      refine ⟨keptDefault rest collections, by rw [isDefault, Function.update_self], ?_⟩
      unfold keptDefault
      split <;> simp
  have elsewhere : ∀ (task : Task) (entry : Σ _ : String, ScopeSpec) name, name ≠ entry.1 →
      (createScopeFromSpec rest bucketName task entry.1 entry.2).server name = task.server name := by
    intro task entry name different
    rw [createScopeFromSpec_server, Function.update_of_ne different]
  have result := foldl_holds_iff Task.server
    (fun entry before => (entry.1 ≠ defaultScope → before = none) ∧
      (entry.1 = defaultScope → ∃ existing, before = some existing ∧ existing ⊆ {defaultCollection}))
    (fun task => task.result = true) elsewhere
    (fun _ entry missing => createScopeFromSpec_result rest bucketName entry.1 missing.1 missing.2)
    scopes.nodupKeys start
  rw [result, and_iff_right (preparedTask_result rest serverless spec.params collections)]
  constructor
  · intro each name scope found
    exact each ⟨name, scope⟩ (AList.mem_lookup_iff.mp found)
  · intro each entry member
    exact each entry.1 entry.2 (AList.mem_lookup_iff.mpr member)

/-- What the task and the tracking make of a bucket that is served -/
theorem call_spec (serverless : Bool) (bucketName : String) (ready : Ready spec scopes)
    (served : Served rest spec scopes) :
    ∃ task tracked, call rest bucketName serverless spec = .ok task ∧ trackSpec spec task.bucket = .ok tracked ∧
      (task.result = true ↔ Reported rest spec scopes) ∧
      tracked.shown = manifestOf serverless scopes ∧
      (task.server = manifestOf serverless scopes ↔ UsesImport spec ∨ TakesOver rest scopes) ∧
      ∀ name scope, scopes.lookup name = some scope → ∃ object, tracked.scopes.lookup name = some object ∧
        ∀ c params, (scope.collections.getD ∅).lookup c = some params →
          ∃ collection, object.collections.lookup c = some collection ∧
            Follows tracked.defaultHistory params collection := by
  obtain ⟨scope, collections, task, found, given, called, branch⟩ :=
    call_eq serverless bucketName ready served
  have prepared := prepared_preparedTask rest serverless spec.params collections
  have within : ∀ scope, scopes.lookup defaultScope = some scope →
      (if defaultCollection ∈ collections then {defaultCollection} else ∅) ⊆
        (scope.collections.getD ∅).keys.toFinset := by
    intro scope' found'
    rw [found] at found'
    cases found'
    rw [given]
    split
    case isTrue member => exact Finset.singleton_subset_iff.mpr (List.mem_toFinset.mpr (AList.mem_keys.mp member))
    case isFalse => exact Finset.empty_subset _
  cases branch with
  | inl imports =>
    obtain ⟨usesImport, rfl⟩ := imports
    obtain ⟨tracked, followed, history, shown, objects⟩ := trackSpec_shown ready prepared within
    have others : ∀ name, name ≠ defaultScope →
        (preparedTask rest serverless spec.params collections).server name = ServerManifest.new serverless name := by
      intro name notDefault
      rw [preparedTask_server, Function.update_of_ne notDefault]
    refine ⟨_, tracked, called, followed, ?_, shown, ?_, objects⟩
    · exact iff_of_true (preparedTask_result rest serverless spec.params collections) (.inl usesImport)
    · exact iff_of_true (imported_eq ready others) (.inl usesImport)
  | inr creates =>
    obtain ⟨noImport, rfl⟩ := creates
    have prepared' := prepared.onlyUid (createScopes_onlyUid rest bucketName scopes
      (preparedTask rest serverless spec.params collections))
    obtain ⟨tracked, followed, history, shown, objects⟩ := trackSpec_shown ready prepared' within
    refine ⟨_, tracked, called, followed, ?_, shown, ?_, objects⟩
    · rw [createScopes_result ready collections, Reported, or_iff_right noImport]
    · rw [createScopes_manifest_iff ready found given, or_iff_right noImport]

end Task

end Taf.Bucket.Creation
