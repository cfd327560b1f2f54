import Taf.Bucket.ScopeSpecPools

/-! # What the report of a spec says

The report of `perform_tasks_from_spec` is compared with the change it describes: the scopes
and collections that are active before and after the call.  The two phases that drop come
first, and after them entities are only added; each phase reports what its calls were for,
and a call that returns had its effect on the server.  What goes wrong is one detail of the
second phase: for a dropped scope it lists every collection that the scope object tracks, so
a collection that was dropped earlier is reported as dropped again. -/

namespace Taf.ScopeSpec

open Taf.Lib Taf.Bucket Taf.Manifest

/-! ## The phases that create -/

namespace Progress

variable {choices : Choices} {spec : InputSpec} {p q r : Progress}

theorem setOf_mem_append {α : Type} (xs ys : List α) :
    {x | x ∈ xs ++ ys} = {x | x ∈ xs} ∪ {x | x ∈ ys} := by
  ext x
  simp

theorem new_paired (places : List (String × String × String)) :
    List.Forall₂ Job.CreatesCollection
      (places.map fun new =>
        { bucket := new.1, call := .createCollection new.2.1 new.2.2 { name := some new.2.2 } })
      places := by
  rw [List.forall₂_map_left_iff, List.forall₂_same]
  intro new _
  exact ⟨rfl, _, rfl⟩

/-- From `p` to `q` entities were only added, and these were reported. -/
def Adds (p q : Progress) : Prop :=
  ∃ scopes collections,
    q.opsDetails =
      { p.opsDetails with
        scopesAdded := p.opsDetails.scopesAdded ++ scopes
        collectionsAdded := p.opsDetails.collectionsAdded ++ collections } ∧
    p.cluster.Grown {place | place ∈ scopes} {place | place ∈ collections} q.cluster

theorem Adds.refl (inv : p.cluster.Inv) : p.Adds p :=
  ⟨[], [], by simp, by simpa using inv.grown_refl⟩

theorem Adds.trans (first : p.Adds q) (second : q.Adds r) : p.Adds r := by
  obtain ⟨scopes, collections, reported, grown⟩ := first
  obtain ⟨scopes', collections', reported', grown'⟩ := second
  refine ⟨scopes ++ scopes', collections ++ collections', by simp [reported', reported], ?_⟩
  rw [setOf_mem_append, setOf_mem_append]
  exact grown.trans grown'

theorem Adds.inv (adds : p.Adds q) : q.cluster.Inv := by
  obtain ⟨_, _, _, grown⟩ := adds
  exact grown.inv

theorem createScope_adds (inv : p.cluster.Inv) {bucketName : String}
    (returned : p.createScope choices spec bucketName = some q) : p.Adds q := by
  unfold createScope at returned
  obtain ⟨created, createdOk, returned⟩ := Option.bind_eq_some_iff.mp returned
  obtain ⟨cluster, pooled, returned⟩ := Option.bind_eq_some_iff.mp returned
  cases returned
  let scopeName := "scope-" ++ p.scopeCounter.repr
  have scopeGrown : p.cluster.Grown {(bucketName, scopeName)} ∅ created :=
    inv.perform_createScope createdOk
  have paired := new_paired (((List.range spec.collectionsToAddForNewScopes.toNat).map fun i =>
    "collection-" ++ (p.collectionCounter + i).repr).map fun name => (bucketName, scopeName, name))
  rw [List.map_map] at paired
  have collectionsGrown := scopeGrown.inv.pool_collections pooled paired
  refine ⟨[(bucketName, scopeName)], _, rfl, ?_⟩
  have whole := scopeGrown.trans collectionsGrown
  rw [Set.union_empty, Set.empty_union] at whole
  simpa using whole

theorem createScopes_adds (inv : p.cluster.Inv) (returned : p.createScopes choices spec = some q) :
    p.Adds q := by
  unfold createScopes at returned
  obtain ⟨buckets, _, returned⟩ := Option.bind_eq_some_iff.mp returned
  refine @foldlM_behind _ _ _ _ (fun _ reached => p.Adds reached) _ _ returned (.refl inv) ?_
  intro _ middle bucketName _ next created reached
  exact reached.trans (createScope_adds reached.inv created)

theorem createCollections_adds (inv : p.cluster.Inv)
    (returned : p.createCollections choices spec = some q) : p.Adds q := by
  unfold createCollections at returned
  obtain ⟨selected, _, returned⟩ := Option.bind_eq_some_iff.mp returned
  dsimp only at returned
  split at returned
  · obtain ⟨cluster, pooled, returned⟩ := Option.bind_eq_some_iff.mp returned
    cases returned
    refine ⟨[], _, by rw [List.append_nil], ?_⟩
    simpa using inv.pool_collections pooled (new_paired _)
  · cases returned

theorem recreateScopes_adds (inv : p.cluster.Inv)
    (returned : p.recreateScopes choices spec = some q) : p.Adds q := by
  unfold recreateScopes at returned
  obtain ⟨selected, _, returned⟩ := Option.bind_eq_some_iff.mp returned
  obtain ⟨scopes, _, returned⟩ := Option.bind_eq_some_iff.mp returned
  obtain ⟨lists, listed, returned⟩ := Option.bind_eq_some_iff.mp returned
  obtain ⟨cluster, recreated, returned⟩ := Option.bind_eq_some_iff.mp returned
  cases returned
  refine ⟨scopes, lists.flatten, rfl, ?_⟩
  have reported : {place | place ∈ lists.flatten} =
      {other | other ∈ p.cluster.knownCollections ∧ (other.1, other.2.1) ∈ scopes} := by
    ext other
    exact Cluster.mem_trackedCollections listed other
  rw [reported]
  exact inv.recreateScopes_grown recreated

theorem recreateCollections_adds (inv : p.cluster.Inv)
    (returned : p.recreateCollections choices spec = some q) : p.Adds q := by
  unfold recreateCollections at returned
  obtain ⟨selected, _, returned⟩ := Option.bind_eq_some_iff.mp returned
  obtain ⟨jobs, built, returned⟩ := Option.bind_eq_some_iff.mp returned
  obtain ⟨cluster, pooled, returned⟩ := Option.bind_eq_some_iff.mp returned
  cases returned
  refine ⟨[], selected.collections, by rw [List.append_nil], ?_⟩
  have paired : List.Forall₂ Job.CreatesCollection jobs selected.collections := by
    refine List.Forall₂.flip ((forall₂_of_mapM built).imp ?_)
    intro place job jobBuilt
    obtain ⟨scope, found, jobBuilt⟩ := Option.bind_eq_some_iff.mp jobBuilt
    obtain ⟨collection, foundCollection, jobBuilt⟩ := Option.bind_eq_some_iff.mp jobBuilt
    exact inv.recreateCollection_creates found foundCollection jobBuilt
  simpa using inv.pool_collections pooled paired

/-! ## The phases that drop -/

theorem dropCollections_drops (inv : p.cluster.Inv)
    (returned : p.dropCollections choices spec = some q) :
    ∃ collections,
      q.opsDetails =
        { p.opsDetails with
          collectionsDropped := p.opsDetails.collectionsDropped ++ collections } ∧
      p.cluster.Shrunk ∅ {place | place ∈ collections} q.cluster := by
  unfold dropCollections at returned
  obtain ⟨selected, _, returned⟩ := Option.bind_eq_some_iff.mp returned
  obtain ⟨cluster, pooled, returned⟩ := Option.bind_eq_some_iff.mp returned
  cases returned
  refine ⟨selected.collections, rfl, ?_⟩
  have shrunk := inv.pool_shrunk pooled (by
    intro job member
    obtain ⟨place, _, rfl⟩ := List.mem_map.mp member
    rfl)
  have noScopes : {place | ∃ job ∈ selected.collections.map (fun place =>
      ({ bucket := place.1, call := .dropCollection place.2.1 place.2.2 } : Job)),
        job.DropsScope place} = ∅ := by
    ext ⟨bucketName, scopeName⟩
    simp [Job.DropsScope]
  have targets : {place | ∃ job ∈ selected.collections.map (fun place =>
      ({ bucket := place.1, call := .dropCollection place.2.1 place.2.2 } : Job)),
        job.DropsCollection place} = {place | place ∈ selected.collections} := by
    ext ⟨bucketName, scopeName, name⟩
    simp [Job.DropsCollection]
  rwa [noScopes, targets] at shrunk

theorem dropScopes_drops (inv : p.cluster.Inv) (returned : p.dropScopes choices spec = some q) :
    ∃ scopes collections, p.scopesToDrop choices spec = some scopes ∧
      q.opsDetails =
        { p.opsDetails with
          scopesDropped := p.opsDetails.scopesDropped ++ scopes
          collectionsDropped := p.opsDetails.collectionsDropped ++ collections } ∧
      (∀ other, other ∈ collections ↔
        other ∈ p.cluster.knownCollections ∧ (other.1, other.2.1) ∈ scopes) ∧
      p.cluster.Shrunk {place | place ∈ scopes} ∅ q.cluster := by
  unfold dropScopes at returned
  obtain ⟨scopes, chosen, returned⟩ := Option.bind_eq_some_iff.mp returned
  obtain ⟨lists, listed, returned⟩ := Option.bind_eq_some_iff.mp returned
  obtain ⟨cluster, pooled, returned⟩ := Option.bind_eq_some_iff.mp returned
  cases returned
  refine ⟨scopes, lists.flatten, chosen, rfl, Cluster.mem_trackedCollections listed, ?_⟩
  have shrunk := inv.pool_shrunk pooled (by
    intro job member
    obtain ⟨place, _, rfl⟩ := List.mem_map.mp member
    rfl)
  have targets : {place | ∃ job ∈ scopes.map (fun place =>
      ({ bucket := place.1, call := .dropScope place.2 } : Job)), job.DropsScope place} =
        {place | place ∈ scopes} := by
    ext ⟨bucketName, scopeName⟩
    simp [Job.DropsScope]
  have noCollections : {place | ∃ job ∈ scopes.map (fun place =>
      ({ bucket := place.1, call := .dropScope place.2 } : Job)), job.DropsCollection place} = ∅ := by
    ext ⟨bucketName, scopeName, name⟩
    simp [Job.DropsCollection]
  rwa [targets, noCollections] at shrunk

end Progress

/-! ## The report -/

/-- The scopes that are dropped, read off the choices. -/
def Choices.droppedScopes (choices : Choices) (spec : InputSpec) (cl : Cluster) :
    List (String × String) :=
  let buckets := cl.getRandomBuckets (spec.bucketConsideredForOps.getD (.num 1)) choices.dropScopes
  if "buckets" ∈ buckets.getD [] then [("scopes", "collections")] else choices.dropScopes.scopes

/-- The scope object has a collection that is marked as dropped. -/
def Cluster.HasDropped (cl : Cluster) (place : String × String) : Prop :=
  ∃ scope, cl.trackedScope place = some scope ∧
    ∃ name collection, scope.collections.lookup name = some collection ∧ collection.isDropped = true

/-- The report describes the change from `before` to `after`. -/
structure Describes (before : Cluster) (opsDetails : OpsDetails) (after : Cluster) : Prop where
  scopesDropped : ∀ place ∈ opsDetails.scopesDropped, place ∈ before.activeScopes
  collectionsDropped : ∀ place ∈ opsDetails.collectionsDropped, place ∈ before.activeCollections
  scopesAdded : ∀ place ∈ opsDetails.scopesAdded, place ∈ after.activeScopes
  collectionsAdded : ∀ place ∈ opsDetails.collectionsAdded, place ∈ after.activeCollections
  scopes : (before.activeScopes \ {place | place ∈ opsDetails.scopesDropped}) ∪
    {place | place ∈ opsDetails.scopesAdded} = after.activeScopes
  collections : (before.activeCollections \ {place | place ∈ opsDetails.collectionsDropped}) ∪
    {place | place ∈ opsDetails.collectionsAdded} = after.activeCollections

theorem select_eq_some {α : Type} [DecidableEq α] {reqNum : Request}
    {available exclude chosen selected : List α}
    (answered : select reqNum available exclude chosen = some selected) : selected = chosen := by
  have listed {left : List α} (answered : listOfSet left chosen = some selected) :
      selected = chosen := by
    unfold listOfSet at answered
    split at answered
    · exact (Option.some.inj answered).symm
    · cases answered
  unfold select at answered
  cases reqNum with
  | all => exact listed answered
  | num n =>
    dsimp only at answered
    split at answered
    · exact listed answered
    · unfold sample at answered
      split at answered
      · exact (Option.some.inj answered).symm
      · cases answered

theorem scopesToDrop_eq {choices : Choices} {spec : InputSpec} {p : Progress}
    {scopes : List (String × String)} (chosen : p.scopesToDrop choices spec = some scopes) :
    scopes = choices.droppedScopes spec p.cluster := by
  unfold Progress.scopesToDrop Cluster.getRandomScopes at chosen
  obtain ⟨selected, selectedOk, unwrapped⟩ := Option.bind_eq_some_iff.mp chosen
  obtain ⟨buckets, bucketsOk, selectedOk⟩ := Option.bind_eq_some_iff.mp selectedOk
  obtain ⟨names, namesOk, selectedOk⟩ := Option.bind_eq_some_iff.mp selectedOk
  cases selectedOk
  have same := select_eq_some namesOk
  unfold Choices.droppedScopes
  rw [bucketsOk]
  unfold dropScopesSpec at unwrapped
  dsimp only [Option.getD_some] at unwrapped ⊢
  split at unwrapped
  · rename_i wrapper
    rw [if_pos wrapper]
    split at unwrapped
    · exact (Option.some.inj unwrapped).symm
    · cases unwrapped
  · rename_i noWrapper
    rw [if_neg noWrapper, ← same]
    exact (Option.some.inj unwrapped).symm

theorem droppedScopes_congr (choices : Choices) (spec : InputSpec) {cl cl' : Cluster}
    (sameNames : cl'.names = cl.names) :
    choices.droppedScopes spec cl' = choices.droppedScopes spec cl := by
  unfold Choices.droppedScopes Cluster.getRandomBuckets
  rw [sameNames]

theorem Cluster.hasDropped_iff {cl : Cluster} {place : String × String} :
    cl.HasDropped place ↔ ∃ name, (place.1, place.2, name) ∈ cl.knownCollections ∧
      (place.1, place.2, name) ∉ cl.activeCollections := by
  constructor
  · intro ⟨scope, found, name, collection, foundCollection, dropped⟩
    obtain ⟨member, found⟩ := trackedScope_eq_some found
    have key : name ∈ scope.collections :=
      AList.lookup_isSome.mp (Option.isSome_iff_exists.mpr ⟨collection, foundCollection⟩)
    refine ⟨name, ⟨member, scope, found, key⟩, ?_⟩
    intro ⟨_, names, asked, listed⟩
    unfold Bucket.getActiveCollectionNames at asked
    rw [found] at asked
    cases asked
    obtain ⟨other, foundOther, active⟩ := Scope.mem_activeSet.mp (List.mem_toFinset.mpr listed)
    rw [foundCollection] at foundOther
    cases foundOther
    rw [dropped] at active
    cases active
  · intro ⟨name, ⟨member, scope, found, key⟩, notActive⟩
    obtain ⟨collection, foundCollection⟩ :=
      Option.isSome_iff_exists.mp (AList.lookup_isSome.mpr key)
    refine ⟨scope, ?_, name, collection, foundCollection, ?_⟩
    · unfold trackedScope getBucketObj
      rw [if_pos member]
      exact found
    · cases dropped : collection.isDropped with
      | true => rfl
      | false =>
        refine absurd ⟨member, scope.activeNames, ?_, ?_⟩ notActive
        · unfold Bucket.getActiveCollectionNames
          rw [found]
          rfl
        · exact List.mem_toFinset.mp (Scope.mem_activeSet.mpr ⟨collection, foundCollection, dropped⟩)

/-- What the six phases come to: `dropped` are the collections that were dropped one by one,
    `listed` those that are reported for the dropped scopes. -/
structure Outcome (cl : Cluster) (scopes : List (String × String)) (final : Progress)
    (dropped listed : List (String × String × String)) : Prop where
  scopesDropped : final.opsDetails.scopesDropped = scopes
  collectionsDropped : final.opsDetails.collectionsDropped = dropped ++ listed
  scopesWereActive : {place | place ∈ scopes} ⊆ cl.activeScopes
  droppedWereActive : {place | place ∈ dropped} ⊆ cl.activeCollections
  mem_listed : ∀ place, place ∈ listed ↔
    place ∈ cl.knownCollections ∧ (place.1, place.2.1) ∈ scopes
  activeScopes : final.cluster.activeScopes =
    (cl.activeScopes \ {place | place ∈ scopes}) ∪ {place | place ∈ final.opsDetails.scopesAdded}
  activeCollections : final.cluster.activeCollections =
    (cl.activeCollections \ ({place | place ∈ dropped} ∪ {place | (place.1, place.2.1) ∈ scopes})) ∪
      {place | place ∈ final.opsDetails.collectionsAdded}

section Report

variable {choices : Choices} {spec : InputSpec} {cl : Cluster} {scopeCounter collectionCounter : Nat}
  {final : Progress}

theorem outcome_of_returned (inv : cl.Inv)
    (returned : performTasksFromSpec choices spec cl scopeCounter collectionCounter = some final) :
    ∃ dropped listed, Outcome cl (choices.droppedScopes spec cl) final dropped listed := by
  unfold performTasksFromSpec at returned
  obtain ⟨afterA, phaseA, returned⟩ := Option.bind_eq_some_iff.mp returned
  obtain ⟨afterB, phaseB, returned⟩ := Option.bind_eq_some_iff.mp returned
  obtain ⟨afterC, phaseC, returned⟩ := Option.bind_eq_some_iff.mp returned
  obtain ⟨afterD, phaseD, returned⟩ := Option.bind_eq_some_iff.mp returned
  obtain ⟨afterE, phaseE, phaseF⟩ := Option.bind_eq_some_iff.mp returned
  obtain ⟨dropped, reportA, shrunkA⟩ := Progress.dropCollections_drops inv phaseA
  obtain ⟨scopes, listed, chosen, reportB, mem_listed, shrunkB⟩ :=
    Progress.dropScopes_drops shrunkA.inv phaseB
  have addsC := Progress.createScopes_adds shrunkB.inv phaseC
  have addsD := addsC.trans (Progress.createCollections_adds addsC.inv phaseD)
  have addsE := addsD.trans (Progress.recreateScopes_adds addsD.inv phaseE)
  obtain ⟨newScopes, newCollections, reportF, grown⟩ :=
    addsE.trans (Progress.recreateCollections_adds addsE.inv phaseF)
  have report : final.opsDetails = ⟨newScopes, scopes, newCollections, dropped ++ listed⟩ := by
    rw [reportF, reportB, reportA]
    rfl
  have sameScopes : scopes = choices.droppedScopes spec cl :=
    (scopesToDrop_eq chosen).trans (droppedScopes_congr choices spec shrunkA.names)
  have scopesBefore : afterA.cluster.activeScopes = cl.activeScopes := by
    rw [shrunkA.activeScopes, Set.sdiff_empty]
  refine ⟨dropped, listed, ?_⟩
  rw [← sameScopes]
  refine ⟨by rw [report], by rw [report], ?_, shrunkA.collectionsWereActive, ?_, ?_, ?_⟩
  · rw [← scopesBefore]
    exact shrunkB.scopesWereActive
  · intro place
    rw [mem_listed, shrunkA.known]
  · rw [report, grown.activeScopes, shrunkB.activeScopes, scopesBefore]
  · rw [report, grown.activeCollections, shrunkB.activeCollections, shrunkA.activeCollections,
      Set.sdiff_sdiff]
    simp only [Set.mem_empty_iff_false, Set.empty_union]
    congr 1
    ext place
    simp

/-- The report describes the change exactly when no dropped scope has an older dropped collection. -/
theorem report_describes_iff (reachable : cl.Reachable)
    (returned : performTasksFromSpec choices spec cl scopeCounter collectionCounter = some final) :
    Describes cl final.opsDetails final.cluster ↔
      ∀ place ∈ choices.droppedScopes spec cl, ¬ cl.HasDropped place := by
  obtain ⟨dropped, listed, outcome⟩ := outcome_of_returned reachable.inv returned
  constructor
  · intro describes place member hasDropped
    obtain ⟨name, known, notActive⟩ := Cluster.hasDropped_iff.mp hasDropped
    have inListed := (outcome.mem_listed (place.1, place.2, name)).mpr ⟨known, member⟩
    refine notActive (describes.collectionsDropped _ ?_)
    rw [outcome.collectionsDropped]
    exact List.mem_append_right dropped inListed
  · intro noneDropped
    refine ⟨?_, ?_, ?_, ?_, ?_, ?_⟩
    · intro place member
      rw [outcome.scopesDropped] at member
      exact outcome.scopesWereActive member
    · intro place member
      rw [outcome.collectionsDropped] at member
      cases List.mem_append.mp member with
      | inl direct => exact outcome.droppedWereActive direct
      | inr inListed =>
        obtain ⟨known, inScopes⟩ := (outcome.mem_listed place).mp inListed
        by_contra notActive
        exact noneDropped _ inScopes (Cluster.hasDropped_iff.mpr ⟨place.2.2, known, notActive⟩)
    · intro place member
      rw [outcome.activeScopes]
      exact .inr member
    · intro place member
      rw [outcome.activeCollections]
      exact .inr member
    · rw [outcome.activeScopes, outcome.scopesDropped]
    · rw [outcome.activeCollections, outcome.collectionsDropped]
      congr 1
      ext place
      -- An active collection is known, so it is listed as soon as its scope is dropped.
      have listedIff (active : place ∈ cl.activeCollections) :
          place ∈ listed ↔ (place.1, place.2.1) ∈ choices.droppedScopes spec cl := by
        rw [outcome.mem_listed]
        exact and_iff_right (reachable.inv.active_known active)
      simp only [Set.mem_sdiff, Set.mem_union, Set.mem_ofPred_eq, List.mem_append]
      tauto

end Report

/-! ## A scope with a collection that was dropped before -/

/-- One bucket after some calls. -/
def oneBucket (calls : List ManifestCall) : Cluster where
  names := ["default"]
  nodup := by decide
  tracked := fun _ => run Tracked.step (Tracked.start "false" false false) calls
  nonDedupedHistory := fun _ => false

theorem oneBucket_reachable (calls : List ManifestCall) : (oneBucket calls).Reachable :=
  fun _ _ => ⟨_, _, _, calls, rfl⟩

def inOrder : Order := ⟨id, fun _ => .refl _⟩

/-- All scopes but the default one are dropped, and dropped scopes are created again. -/
def dropAndRecreate : InputSpec where
  scopesToDrop := .all
  scopesToAddPerBucket := 1
  collectionsToAddForNewScopes := 1
  scopesToRecreate := .all

def dropAndRecreateChoices : Choices where
  order := inOrder
  dropScopes := { scopes := [("default", "scope-0")] }
  createCollections := { scopes := [("default", "scope-1"), ("default", "_default")] }
  recreateScopes := { scopes := [("default", "scope-0")] }
  recreateCollections :=
    { scopes := [("default", "scope-0"), ("default", "scope-1"), ("default", "_default")] }

/-- A scope with one collection, which is active. -/
def freshScope : Cluster :=
  oneBucket [.createScope "scope-0", .createCollection "scope-0" "collection-0" {}]

theorem report_describes_freshScope :
    ∃ final, performTasksFromSpec dropAndRecreateChoices dropAndRecreate freshScope 1 1 = some final ∧
      Describes freshScope final.opsDetails final.cluster := by
  have returns : (performTasksFromSpec dropAndRecreateChoices dropAndRecreate freshScope 1 1).isSome =
      true := by decide +kernel
  obtain ⟨final, returned⟩ := Option.isSome_iff_exists.mp returns
  have reachable : freshScope.Reachable := oneBucket_reachable _
  refine ⟨final, returned, (report_describes_iff reachable returned).mpr ?_⟩
  have chosen : dropAndRecreateChoices.droppedScopes dropAndRecreate freshScope =
      [("default", "scope-0")] := by decide +kernel
  have active : (freshScope.trackedScope ("default", "scope-0")).map (fun scope =>
      scope.collections.entries.all fun entry => !entry.2.isDropped) = some true := by decide +kernel
  rw [chosen]
  intro place member ⟨scope, found, name, collection, foundCollection, dropped⟩
  rw [List.mem_singleton.mp member] at found
  rw [found, Option.map_some, Option.some.injEq, List.all_eq_true] at active
  have alive := active ⟨name, collection⟩ (AList.mem_lookup_iff.mp foundCollection)
  rw [dropped] at alive
  cases alive

/-- A scope whose only collection has been dropped. -/
def staleScope : Cluster :=
  oneBucket [.createScope "scope-0", .createCollection "scope-0" "collection-0" {},
    .dropCollection "scope-0" "collection-0"]

/-- The dropped collection is reported as dropped once more. -/
theorem staleScope_not_described :
    staleScope.Reachable ∧ ∃ final,
      performTasksFromSpec dropAndRecreateChoices dropAndRecreate staleScope 1 1 = some final ∧
        ¬ Describes staleScope final.opsDetails final.cluster := by
  have reports : (performTasksFromSpec dropAndRecreateChoices dropAndRecreate staleScope 1 1).map
      (fun final => final.opsDetails.collectionsDropped) =
        some [("default", "scope-0", "collection-0")] := by decide +kernel
  have nothingActive :
      (staleScope.tracked "default").bucket.getActiveCollectionNames "scope-0" = some [] := by
    decide +kernel
  obtain ⟨final, returned, listed⟩ := Option.map_eq_some_iff.mp reports
  refine ⟨oneBucket_reachable _, final, returned, ?_⟩
  intro describes
  have reported : ("default", "scope-0", "collection-0") ∈ final.opsDetails.collectionsDropped := by
    rw [listed]
    exact List.mem_singleton_self _
  obtain ⟨_, names, asked, member⟩ := describes.collectionsDropped _ reported
  dsimp only at asked
  rw [nothingActive] at asked
  cases asked
  cases member

end Taf.ScopeSpec
