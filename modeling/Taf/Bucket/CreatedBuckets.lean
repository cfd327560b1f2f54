import Taf.Lib.Run
import Taf.Bucket.SpecCreation

/-! # What a spec becomes on the server and in the tracked buckets

The server has what it took, and the tracked bucket has what the spec names.  Both are
described scope by scope, since a scope of the spec is handled once and touches nothing but
itself. -/

namespace Taf.Bucket.Creation

open Taf.Lib Taf.Manifest Taf.Bucket.Expansion

/-! ## What the server took -/

section Server

variable (rest : BucketRest) (bucketName scopeName : String)

/-- The task asks for the collections of the scope. -/
def Asks : Prop := scopeName = defaultScope ∨ rest.answer (.createScope scopeName) = .accepted

instance : Decidable (Asks rest scopeName) := inferInstanceAs (Decidable (_ ∨ _))

/-- The answer to the request for a collection -/
def collectionAnswer (name : String) (params : Params) : Answer :=
  rest.answer (.createCollection scopeName name (collectionSpec name params))

/-- The collections that the server takes when it is asked for them -/
def takenNames (entries : List (Σ _ : String, Params)) : Finset String :=
  ((entries.filter fun entry =>
    entry.1 ≠ defaultCollection ∧ (collectionAnswer rest scopeName entry.1 entry.2).taken).map Sigma.fst).toFinset

/-- The collections of the scope that the server gets -/
def addedNames (scope : ScopeSpec) : Finset String :=
  if Asks rest scopeName then takenNames rest scopeName (scope.collections.getD ∅).entries else ∅

/-- What becomes of a scope of the manifest when the spec names it -/
def afterScope (scope : ScopeSpec) (before : Option (Finset String)) : Option (Finset String) :=
  if scopeName ≠ defaultScope then
    if before = none ∧ (rest.answer (.createScope scopeName)).taken then some (addedNames rest scopeName scope)
    else before
  else before.map (· ∪ addedNames rest scopeName scope)

/-- A request as its status and its server -/
theorem request_eq (task : Task) (call : ManifestCall) :
    task.request rest call =
      (if task.server.allows call then (rest.answer call).status else (rest.answer call).status.map fun _ => false,
        { task with server := if task.server.allows call ∧ (rest.answer call).taken then task.server.apply call
            else task.server }) := by
  unfold Task.request
  by_cases allowed : task.server.allows call = true
  · cases taken : (rest.answer call).taken <;> simp [allowed, taken]
  · simp [allowed]

theorem createCollectionFromSpec_server (task : Task) (name : String) (params : Params) :
    (createCollectionFromSpec rest bucketName scopeName task name params).server =
      Function.update task.server scopeName ((task.server scopeName).map fun collections =>
        if (collectionAnswer rest scopeName name params).taken then insert name collections else collections) := by
  have behind : (createCollectionFromSpec rest bucketName scopeName task name params).server =
      (task.request rest (.createCollection scopeName name (collectionSpec name params))).2.server := by
    simp only [createCollectionFromSpec]
    split
    all_goals
      rename_i answered
      rw [answered]
  rw [behind, request_eq]
  unfold collectionAnswer
  cases present : task.server scopeName with
  | none => simp [ServerManifest.allows, present]
  | some collections =>
    cases taken : (rest.answer (.createCollection scopeName name (collectionSpec name params))).taken with
    | false => simp [present]
    | true =>
      by_cases member : name ∈ collections
      · simp [ServerManifest.allows, present, member]
      · simp [ServerManifest.allows, ServerManifest.apply, present, member]

theorem createCollections_server (entries : List (Σ _ : String, Params)) (task : Task) :
    (entries.foldl (fun task entry => if entry.1 = defaultCollection then task
      else createCollectionFromSpec rest bucketName scopeName task entry.1 entry.2) task).server =
      Function.update task.server scopeName
        ((task.server scopeName).map (· ∪ takenNames rest scopeName entries)) := by
  induction entries generalizing task with
  | nil => simp [takenNames]
  | cons entry entries ih =>
    rw [List.foldl_cons, ih]
    by_cases isDefault : entry.1 = defaultCollection
    · have same : takenNames rest scopeName (entry :: entries) = takenNames rest scopeName entries := by
        simp [takenNames, isDefault]
      rw [if_pos isDefault, same]
    · rw [if_neg isDefault, createCollectionFromSpec_server, Function.update_idem, Function.update_self,
        Option.map_map]
      congr 2
      funext collections
      cases taken : (collectionAnswer rest scopeName entry.1 entry.2).taken with
      | false => simp [takenNames, isDefault, taken]
      | true => simp [takenNames, isDefault, taken, Finset.insert_union, Finset.union_insert]

theorem createScopeFromSpec_server (task : Task) (scope : ScopeSpec) :
    (createScopeFromSpec rest bucketName task scopeName scope).server =
      Function.update task.server scopeName (afterScope rest scopeName scope (task.server scopeName)) := by
  by_cases isDefault : scopeName = defaultScope
  · simp only [createScopeFromSpec, afterScope, addedNames, ne_eq, isDefault, not_true, if_false,
      if_pos (show Asks rest defaultScope from .inl rfl)]
    exact createCollections_server rest bucketName defaultScope _ task
  · simp only [createScopeFromSpec, afterScope, addedNames, ne_eq, isDefault, not_false_eq_true, if_true, request_eq]
    cases present : task.server scopeName with
    | some existing =>
      cases rest.answer (.createScope scopeName) <;> simp [Answer.status, ServerManifest.allows, present]
    | none =>
      cases answered : rest.answer (.createScope scopeName) with
      | accepted =>
        rw [if_pos (show Asks rest scopeName from .inr answered)]
        simp [Answer.status, Answer.taken, ServerManifest.allows, ServerManifest.apply, present,
          createCollectionsOfScope, createCollections_server]
      | refused => simp [Answer.status, Answer.taken, ServerManifest.allows, present]
      | silent taken =>
        have unasked : ¬ Asks rest scopeName := by simp [Asks, isDefault, answered]
        rw [if_neg unasked]
        cases taken <;>
          simp [Answer.status, Answer.taken, ServerManifest.allows, ServerManifest.apply, present]

end Server

/-! ## What the task reports -/

section Result

variable (rest : BucketRest) (bucketName scopeName : String)

/-- Every collection of the scope is asked for and taken. -/
def TakesAll (scope : ScopeSpec) : Prop :=
  ∀ entry ∈ (scope.collections.getD ∅).entries, entry.1 ≠ defaultCollection →
    Asks rest scopeName ∧ (collectionAnswer rest scopeName entry.1 entry.2).taken = true

/-- No request for a collection is refused.  The collections of a refused scope are not asked for. -/
def Accepts (scope : ScopeSpec) : Prop :=
  Asks rest scopeName → ∀ entry ∈ (scope.collections.getD ∅).entries, entry.1 ≠ defaultCollection →
    collectionAnswer rest scopeName entry.1 entry.2 ≠ .refused

theorem createCollectionFromSpec_result {task : Task} {name : String} (params : Params)
    (missing : (task.server scopeName).map (name ∈ ·) = some False) :
    (createCollectionFromSpec rest bucketName scopeName task name params).result = true ↔
      task.result = true ∧ collectionAnswer rest scopeName name params ≠ .refused := by
  obtain ⟨collections, present, absent⟩ := Option.map_eq_some_iff.mp missing
  have allowed : task.server.allows (.createCollection scopeName name (collectionSpec name params)) = true := by
    simp [ServerManifest.allows, present, of_eq_false absent]
  simp only [createCollectionFromSpec, collectionAnswer, request_eq, if_pos allowed]
  cases rest.answer (.createCollection scopeName name (collectionSpec name params)) <;> simp [Answer.status]

/-- The collections are handled one by one, where the scope exists and has none of them. -/
theorem createCollections_result {collections : Collections} {task : Task} {existing : Finset String}
    (present : task.server scopeName = some existing)
    (new : ∀ entry ∈ collections.entries, entry.1 ≠ defaultCollection → entry.1 ∉ existing) :
    (collections.entries.foldl (fun task entry => if entry.1 = defaultCollection then task
        else createCollectionFromSpec rest bucketName scopeName task entry.1 entry.2) task).result = true ↔
      task.result = true ∧ ∀ entry ∈ collections.entries,
        entry.1 ≠ defaultCollection → collectionAnswer rest scopeName entry.1 entry.2 ≠ .refused := by
  refine foldl_holds_iff (fun (task : Task) name => (task.server scopeName).map (name ∈ ·))
    (fun entry has => entry.1 ≠ defaultCollection → has = some False) (fun task => task.result = true)
    ?_ ?_ collections.nodupKeys ?_
  · intro task entry name different
    by_cases isDefault : entry.1 = defaultCollection
    · rw [if_pos isDefault]
    · simp only [if_neg isDefault, createCollectionFromSpec_server, Function.update_self, Option.map_map]
      congr 1
      funext collections
      cases taken : (collectionAnswer rest scopeName entry.1 entry.2).taken with
      | false => simp
      | true => simp [different]
  · intro task entry missing
    by_cases isDefault : entry.1 = defaultCollection
    · simp [isDefault]
    · rw [if_neg isDefault, createCollectionFromSpec_result rest bucketName scopeName entry.2 (missing isDefault)]
      simp [isDefault]
  · intro entry member notDefault
    simp [present, new entry member notDefault]

theorem createScopeFromSpec_result {task : Task} {scope : ScopeSpec}
    (missing : scopeName ≠ defaultScope → task.server scopeName = none)
    (present : scopeName = defaultScope → ∃ existing, task.server scopeName = some existing ∧
      existing ⊆ {defaultCollection}) :
    (createScopeFromSpec rest bucketName task scopeName scope).result = true ↔
      task.result = true ∧ Accepts rest scopeName scope := by
  by_cases isDefault : scopeName = defaultScope
  · obtain ⟨existing, here, onlyDefault⟩ := present isDefault
    have new : ∀ entry ∈ (scope.collections.getD ∅).entries, entry.1 ≠ defaultCollection → entry.1 ∉ existing := by
      intro entry _ notDefault member
      exact notDefault (Finset.mem_singleton.mp (onlyDefault member))
    rw [createScopeFromSpec, if_neg (not_not_intro isDefault), createCollectionsOfScope,
      createCollections_result rest bucketName scopeName here new]
    simp [Accepts, Asks, isDefault]
  · have allowed : task.server.allows (.createScope scopeName) = true := by
      simp [ServerManifest.allows, missing isDefault]
    simp only [createScopeFromSpec, if_pos isDefault, request_eq, if_pos allowed, Accepts, Asks, isDefault, false_or]
    cases answered : rest.answer (.createScope scopeName) with
    | accepted =>
      let opened : Task :=
        { task with
          server := task.server.apply (.createScope scopeName)
          bucket := task.bucket.incrementManifestUid }
      have empty : opened.server scopeName = some ∅ := Function.update_self _ _ _
      have none : ∀ entry ∈ (scope.collections.getD ∅).entries,
          entry.1 ≠ defaultCollection → entry.1 ∉ (∅ : Finset String) := by simp
      have each := createCollections_result rest bucketName scopeName empty none
      simp only [Answer.status, Answer.taken, allowed]
      exact each.trans (by simp [opened])
    | refused => simp [Answer.status]
    | silent taken => simp [Answer.status]

end Result

/-! ## The tracked objects -/

/-- The tracked collection is the one that the spec describes. -/
structure Follows (history : String) (params : Params) (collection : Collection) : Prop where
  numItems : collection.numItems = ((params.lookup .numItems).getD (0 : ℕ) : ℕ)
  maxTTL : collection.maxTTL = ((params.lookup (.other "maxTTL")).bind number).getD 0
  history : collection.history = history
  docIndex : collection.docIndex = (0, 0)
  isDropped : collection.isDropped = false

/-- A scope object that exists, with the collections that `before` has and those of the spec -/
structure ScopeTracked (history scopeName : String) (collections : Collections) (before scope : Scope) : Prop where
  good : scope.Good scopeName
  isDropped : scope.isDropped = false
  given : ∀ name params, collections.lookup name = some params →
    ∃ collection, scope.collections.lookup name = some collection ∧ Follows history params collection
  others : ∀ name, name ∉ collections → scope.collections.lookup name = before.collections.lookup name

/-- Nothing but the scope differs, and the scope exists. -/
structure OnlyScope (bucket : Bucket) (scopeName : String) (bucket' : Bucket) : Prop where
  history : bucket'.defaultHistory = bucket.defaultHistory
  others : ∀ other, other ≠ scopeName → bucket'.scopes.lookup other = bucket.scopes.lookup other
  scope : ∃ scope, bucket'.scopes.lookup scopeName = some scope ∧ scope.Good scopeName ∧ scope.isDropped = false

section Tracking

variable {bucket : Bucket} {scopeName : String} {scope : Scope}

theorem trackCollection_spec (found : bucket.scopes.lookup scopeName = some scope) (good : scope.Good scopeName)
    (name : String) (params : Params) : ∃ collection, collection.name = some name ∧
      Follows bucket.defaultHistory params collection ∧
      trackCollection scopeName bucket name params =
        .ok (bucket.withScope scopeName (scope.withCollection name collection)) := by
  have items : ((collectionSpec name params).numItems).getD 0 = ((params.lookup .numItems).getD (0 : ℕ) : ℕ) := by
    unfold collectionSpec
    cases params.lookup .numItems <;> rfl
  simp only [trackCollection, Bucket.createCollectionObject, found, Option.pure_def, Option.bind_eq_bind,
    Option.bind_some]
  cases previous : scope.collections.lookup name with
  | none => exact ⟨_, rfl, { numItems := items, maxTTL := rfl, history := rfl, docIndex := rfl, isDropped := rfl }, rfl⟩
  | some collection =>
    have named : collection.name = some name := good.collection previous
    exact ⟨collection.recreated { collectionSpec name params with history := some bucket.defaultHistory },
      named, { numItems := items, maxTTL := rfl, history := rfl, docIndex := rfl, isDropped := rfl }, rfl⟩

theorem OnlyScope.trackCollection {bucket' : Bucket} (only : OnlyScope bucket scopeName bucket') (name : String)
    (params : Params) : ∃ after, trackCollection scopeName bucket' name params = .ok after ∧
      OnlyScope bucket scopeName after ∧
      (∀ other, other ≠ name → (after.scopes.lookup scopeName).bind (·.collections.lookup other) =
        (bucket'.scopes.lookup scopeName).bind (·.collections.lookup other)) ∧
      ∃ collection, (after.scopes.lookup scopeName).bind (·.collections.lookup name) = some collection ∧
        Follows bucket.defaultHistory params collection := by
  obtain ⟨scope, found, good, alive⟩ := only.scope
  obtain ⟨collection, named, follows, tracked⟩ := trackCollection_spec found good name params
  refine ⟨_, tracked, ⟨only.history, ?_, ?_⟩, ?_, collection, ?_, only.history ▸ follows⟩
  · intro other different
    rw [Bucket.lookup_withScope, if_neg different]
    exact only.others other different
  · refine ⟨_, by rw [Bucket.lookup_withScope, if_pos rfl], good.withCollection named ?_, alive⟩
    intro isDropped
    rw [alive] at isDropped
    cases isDropped
  · intro other different
    simp [Bucket.lookup_withScope, Scope.lookup_withCollection, different, found]
  · simp [Bucket.lookup_withScope, Scope.lookup_withCollection]

theorem trackCollections_spec (found : bucket.scopes.lookup scopeName = some scope) (good : scope.Good scopeName)
    (alive : scope.isDropped = false) (collections : Collections) :
    ∃ after, collections.entries.foldlM (fun b entry => trackCollection scopeName b entry.1 entry.2) bucket = .ok after ∧
      OnlyScope bucket scopeName after ∧ ∃ scope', after.scopes.lookup scopeName = some scope' ∧
        ScopeTracked bucket.defaultHistory scopeName collections scope scope' := by
  obtain ⟨after, looped, only, made, untouched⟩ := foldlM_view
    (fun b name => (b.scopes.lookup scopeName).bind fun scope : Scope => scope.collections.lookup name)
    (OnlyScope bucket scopeName) (fun _ _ => True)
    (fun entry _ found => ∃ collection, found = some collection ∧ Follows bucket.defaultHistory entry.2 collection)
    (fun b entry only _ => only.trackCollection entry.1 entry.2) collections.nodupKeys
    ⟨rfl, fun _ _ => rfl, scope, found, good, alive⟩ (fun _ _ => trivial)
  obtain ⟨scope', found', good', alive'⟩ := only.scope
  refine ⟨after, looped, only, scope', found', ⟨good', alive', ?_, ?_⟩⟩
  · intro name params given
    have here := made ⟨name, params⟩ (AList.mem_lookup_iff.mp given)
    simpa [found'] using here
  · intro name absent
    have here := untouched name (fun member => absent (AList.mem_keys.mpr member))
    simpa [found', found] using here

theorem ScopeTracked.activeSet {history : String} {collections : Collections} {before after : Scope}
    (tracked : ScopeTracked history scopeName collections before after) :
    after.activeSet = before.activeSet ∪ collections.keys.toFinset := by
  ext name
  rw [Finset.mem_union, List.mem_toFinset, ← AList.mem_keys, Scope.mem_activeSet]
  by_cases member : name ∈ collections
  · obtain ⟨params, given⟩ := Option.isSome_iff_exists.mp (AList.lookup_isSome.mpr member)
    obtain ⟨collection, here, follows⟩ := tracked.given name params given
    simp [here, follows.isDropped, member]
  · rw [tracked.others name member, Scope.mem_activeSet]
    simp [member]

/-- What the loop over the scopes needs of the tracked bucket -/
structure Trackable (scopeName : String) (spec : ScopeSpec) (before : Option Scope) : Prop where
  complete : spec.collections ≠ none
  default : scopeName = defaultScope → ∃ scope, before = some scope ∧ scope.Good scopeName ∧ scope.isDropped = false
  new : scopeName ≠ defaultScope → before = none

theorem trackScope_spec {spec : ScopeSpec} (trackable : Trackable scopeName spec (bucket.scopes.lookup scopeName)) :
    ∃ after, trackScope bucket scopeName spec = .ok after ∧ after.defaultHistory = bucket.defaultHistory ∧
      (∀ other, other ≠ scopeName → after.scopes.lookup other = bucket.scopes.lookup other) ∧
      ∃ scope, after.scopes.lookup scopeName = some scope ∧
        ScopeTracked bucket.defaultHistory scopeName (spec.collections.getD ∅)
          ((bucket.scopes.lookup scopeName).getD { name := scopeName }) scope := by
  obtain ⟨collections, given⟩ := Option.ne_none_iff_exists'.mp trackable.complete
  rw [trackScope, given]
  by_cases isDefault : scopeName = defaultScope
  · obtain ⟨scope, found, good, alive⟩ := trackable.default isDefault
    obtain ⟨after, looped, only, made⟩ := trackCollections_spec found good alive collections
    rw [if_neg (not_not_intro isDefault), found]
    exact ⟨after, looped, only.history, only.others, made⟩
  · have absent := trackable.new isDefault
    have created : bucket.createScopeObject scopeName = bucket.withScope scopeName { name := scopeName } := by
      rw [Bucket.createScopeObject, absent]
    have found : (bucket.createScopeObject scopeName).scopes.lookup scopeName = some { name := scopeName } := by
      rw [created, Bucket.lookup_withScope, if_pos rfl]
    obtain ⟨after, looped, only, made⟩ := trackCollections_spec found (Scope.good_new scopeName) rfl collections
    rw [if_pos isDefault, absent]
    have sameHistory : (bucket.createScopeObject scopeName).defaultHistory = bucket.defaultHistory := by
      rw [created]
      rfl
    refine ⟨after, looped, only.history.trans sameHistory, ?_, sameHistory ▸ made⟩
    intro other different
    rw [only.others other different, created, Bucket.lookup_withScope, if_neg different]

theorem trackSpec_spec {spec : BucketSpec} {scopes : Scopes} (given : spec.scopes = some scopes)
    (trackable : ∀ name scope, scopes.lookup name = some scope → Trackable name scope (bucket.scopes.lookup name)) :
    ∃ after, trackSpec spec bucket = .ok after ∧ after.defaultHistory = bucket.defaultHistory ∧
      (∀ name scope, scopes.lookup name = some scope → ∃ tracked, after.scopes.lookup name = some tracked ∧
        ScopeTracked bucket.defaultHistory name (scope.collections.getD ∅)
          ((bucket.scopes.lookup name).getD { name := name }) tracked) ∧
      ∀ name, name ∉ scopes → after.scopes.lookup name = bucket.scopes.lookup name := by
  have each : ∀ (b : Bucket) (entry : Σ _ : String, ScopeSpec), b.defaultHistory = bucket.defaultHistory →
      Trackable entry.1 entry.2 (b.scopes.lookup entry.1) →
      ∃ after, trackScope b entry.1 entry.2 = .ok after ∧ after.defaultHistory = bucket.defaultHistory ∧
        (∀ other, other ≠ entry.1 → after.scopes.lookup other = b.scopes.lookup other) ∧
        ∃ scope, after.scopes.lookup entry.1 = some scope ∧ ScopeTracked bucket.defaultHistory entry.1
          (entry.2.collections.getD ∅) ((b.scopes.lookup entry.1).getD { name := entry.1 }) scope := by
    intro b entry sameHistory ready
    obtain ⟨after, looped, history, others, made⟩ := trackScope_spec ready
    exact ⟨after, looped, history.trans sameHistory, others, sameHistory ▸ made⟩
  obtain ⟨after, looped, history, made, untouched⟩ := foldlM_view (fun (b : Bucket) name => b.scopes.lookup name)
    (fun b => b.defaultHistory = bucket.defaultHistory) (fun entry before => Trackable entry.1 entry.2 before)
    (fun entry before tracked => ∃ scope, tracked = some scope ∧
      ScopeTracked bucket.defaultHistory entry.1 (entry.2.collections.getD ∅)
        (before.getD { name := entry.1 }) scope)
    each scopes.nodupKeys rfl fun entry member => trackable entry.1 entry.2 (AList.mem_lookup_iff.mpr member)
  refine ⟨after, ?_, history, ?_, ?_⟩
  · rw [trackSpec, given]
    exact looped
  · intro name scope found
    exact made ⟨name, scope⟩ (AList.mem_lookup_iff.mp found)
  · intro name absent
    exact untouched name fun member => absent (AList.mem_keys.mpr member)

end Tracking

end Taf.Bucket.Creation
