import Taf.Bucket.ManifestChanges
import Taf.Bucket.ScopeSpec

/-! # Pools of calls

The active scopes and collections of a list of buckets, as sets, and what the jobs of a
thread pool do to them.  A pool that drops takes the targets of its jobs out (`Shrunk`), a
pool that creates puts them in (`Grown`), in whatever order the jobs run; both compose. -/

namespace Taf.ScopeSpec

open Taf.Lib Taf.Bucket Taf.Manifest

/-! ## What is active in the buckets -/

namespace Cluster

variable (cl : Cluster)

def activeScopes : Set (String × String) :=
  {place | place.1 ∈ cl.names ∧ place.2 ∈ (cl.tracked place.1).bucket.activeScopeNames}

def activeCollections : Set (String × String × String) :=
  {place | place.1 ∈ cl.names ∧ ∃ names,
    (cl.tracked place.1).bucket.getActiveCollectionNames place.2.1 = some names ∧ place.2.2 ∈ names}

/-- The collections that a scope object knows, dropped or not. -/
def knownCollections : Set (String × String × String) :=
  {place | place.1 ∈ cl.names ∧ (cl.tracked place.1).bucket.Tracks place.2.1 place.2.2}

/-- Every bucket has gone through some history of calls. -/
def Reachable : Prop :=
  ∀ name ∈ cl.names, ∃ history magma serverless calls,
    cl.tracked name = run Tracked.step (Tracked.start history magma serverless) calls

def Inv : Prop := ∀ name ∈ cl.names, (cl.tracked name).Inv

variable {cl}

theorem Reachable.inv (reachable : cl.Reachable) : cl.Inv := by
  intro name member
  obtain ⟨history, magma, serverless, calls, reached⟩ := reachable name member
  rw [reached]
  exact run_invariant (fun _ call inv => inv.step call) (Tracked.start_inv history magma serverless)
    calls

theorem Inv.mem_activeScopes (inv : cl.Inv) {place : String × String} :
    place ∈ cl.activeScopes ↔
      place.1 ∈ cl.names ∧ (cl.tracked place.1).server.HasScope place.2 := by
  show place.1 ∈ cl.names ∧ place.2 ∈ (cl.tracked place.1).bucket.activeScopeNames ↔ _
  exact and_congr_right fun member => (inv place.1 member).mem_activeScopeNames

theorem Inv.mem_activeCollections (inv : cl.Inv) {place : String × String × String} :
    place ∈ cl.activeCollections ↔
      place.1 ∈ cl.names ∧ (cl.tracked place.1).server.HasCollection place.2.1 place.2.2 := by
  show place.1 ∈ cl.names ∧ (∃ names, (cl.tracked place.1).bucket.getActiveCollectionNames
    place.2.1 = some names ∧ place.2.2 ∈ names) ↔ _
  exact and_congr_right fun member => (inv place.1 member).mem_activeCollections

theorem Inv.active_known (inv : cl.Inv) : cl.activeCollections ⊆ cl.knownCollections := by
  intro place active
  obtain ⟨member, active⟩ := inv.mem_activeCollections.mp active
  exact ⟨member, (inv place.1 member).tracks_of_hasCollection active⟩

end Cluster

/-! ## One call -/

namespace Job

variable (job : Job)

def CreatesScope (place : String × String) : Prop :=
  job.bucket = place.1 ∧ job.call = .createScope place.2

def DropsScope (place : String × String) : Prop :=
  job.bucket = place.1 ∧ job.call = .dropScope place.2

def CreatesCollection (place : String × String × String) : Prop :=
  job.bucket = place.1 ∧ ∃ spec, job.call = .createCollection place.2.1 place.2.2 spec

def DropsCollection (place : String × String × String) : Prop :=
  job.bucket = place.1 ∧ job.call = .dropCollection place.2.1 place.2.2

def creates : Bool :=
  match job.call with
  | .createScope _ | .createCollection .. => true
  | .dropScope _ | .dropCollection .. => false

variable {job}

theorem not_creates (drops : job.creates = false) :
    (∀ place, ¬ job.CreatesScope place) ∧ ∀ place, ¬ job.CreatesCollection place := by
  unfold creates at drops
  constructor
  · intro place ⟨_, call⟩
    rw [call] at drops
    cases drops
  · intro place ⟨_, spec, call⟩
    rw [call] at drops
    cases drops

theorem not_drops (creating : job.creates = true) :
    (∀ place, ¬ job.DropsScope place) ∧ ∀ place, ¬ job.DropsCollection place := by
  unfold creates at creating
  constructor
  · intro place ⟨_, call⟩
    rw [call] at creating
    cases creating
  · intro place ⟨_, call⟩
    rw [call] at creating
    cases creating

end Job

namespace Cluster

variable {cl next : Cluster} {job : Job}

/-- What a call does to the sets. -/
structure Performed (cl : Cluster) (job : Job) (next : Cluster) : Prop where
  inv : next.Inv
  names : next.names = cl.names
  scopes : ∀ place, place ∈ next.activeScopes ↔
    (place ∈ cl.activeScopes ∧ ¬ job.DropsScope place) ∨ job.CreatesScope place
  collections : ∀ place, place ∈ next.activeCollections ↔
    (place ∈ cl.activeCollections ∧ ¬ job.DropsCollection place ∧
      ¬ job.DropsScope (place.1, place.2.1)) ∨ job.CreatesCollection place
  known : ∀ place, place ∈ next.knownCollections ↔
    place ∈ cl.knownCollections ∨ job.CreatesCollection place
  scopeWasActive : ∀ place, job.DropsScope place → place ∈ cl.activeScopes
  collectionWasActive : ∀ place, job.DropsCollection place → place ∈ cl.activeCollections

theorem Inv.perform (inv : cl.Inv) (returned : cl.perform job = some next) :
    cl.Performed job next := by
  unfold Cluster.perform at returned
  obtain ⟨bucket, found, returned⟩ := Option.bind_eq_some_iff.mp returned
  unfold getBucketObj at found
  split at found
  case isFalse => cases found
  rename_i member
  cases found
  split at returned
  case h_1 => cases returned
  rename_i silent
  cases returned
  obtain ⟨allowed, stepInv, server, tracks⟩ := (inv job.bucket member).step_returned silent
  -- Only the bucket of the job has changed.
  have nextInv : Inv { cl with
      tracked := Function.update cl.tracked job.bucket ((cl.tracked job.bucket).step job.call) } := by
    intro name nameMember
    by_cases same : name = job.bucket
    · subst same
      simpa using stepInv
    · simpa [same] using inv name nameMember
  refine ⟨nextInv, rfl, ?_, ?_, ?_, ?_, ?_⟩
  · intro place
    rw [nextInv.mem_activeScopes, inv.mem_activeScopes]
    unfold Job.DropsScope Job.CreatesScope
    by_cases same : place.1 = job.bucket
    · simp [same, member, server, ServerManifest.hasScope_apply]
    · simp [same, Ne.symm same]
  · intro place
    rw [nextInv.mem_activeCollections, inv.mem_activeCollections]
    unfold Job.DropsScope Job.DropsCollection Job.CreatesCollection
    by_cases same : place.1 = job.bucket
    · simp [same, member, server, ServerManifest.hasCollection_apply allowed]
    · simp [same, Ne.symm same]
  · intro place
    show place.1 ∈ cl.names ∧ _ ↔ (place.1 ∈ cl.names ∧ _) ∨ job.bucket = place.1 ∧ _
    by_cases same : place.1 = job.bucket
    · simp [same, member, tracks]
    · simp [same, Ne.symm same]
  · intro place ⟨here, drops⟩
    rw [inv.mem_activeScopes, ← here]
    rw [drops] at allowed
    exact ⟨member, allowed⟩
  · intro place ⟨here, drops⟩
    rw [inv.mem_activeCollections, ← here]
    refine ⟨member, ?_⟩
    rw [drops] at allowed
    unfold ServerManifest.HasCollection
    cases present : (cl.tracked job.bucket).server place.2.1 with
    | none => simp [ServerManifest.allows, present] at allowed
    | some collections => exact ⟨collections, rfl, by simpa [ServerManifest.allows, present] using allowed⟩

/-! ## Whole pools -/

/-- `next` is `cl` without the scopes `scopes` and the collections `collections`. -/
structure Shrunk (cl : Cluster) (scopes : Set (String × String))
    (collections : Set (String × String × String)) (next : Cluster) : Prop where
  inv : next.Inv
  names : next.names = cl.names
  activeScopes : next.activeScopes = cl.activeScopes \ scopes
  activeCollections : next.activeCollections =
    cl.activeCollections \ (collections ∪ {place | (place.1, place.2.1) ∈ scopes})
  known : next.knownCollections = cl.knownCollections
  scopesWereActive : scopes ⊆ cl.activeScopes
  collectionsWereActive : collections ⊆ cl.activeCollections

/-- `next` is `cl` with the scopes `scopes` and the collections `collections`. -/
structure Grown (cl : Cluster) (scopes : Set (String × String))
    (collections : Set (String × String × String)) (next : Cluster) : Prop where
  inv : next.Inv
  activeScopes : next.activeScopes = cl.activeScopes ∪ scopes
  activeCollections : next.activeCollections = cl.activeCollections ∪ collections
  known : next.knownCollections = cl.knownCollections ∪ collections

theorem Inv.shrunk_refl (inv : cl.Inv) : cl.Shrunk ∅ ∅ cl := by
  refine ⟨inv, rfl, ?_, ?_, rfl, Set.empty_subset _, Set.empty_subset _⟩ <;> simp

theorem Inv.grown_refl (inv : cl.Inv) : cl.Grown ∅ ∅ cl := by
  refine ⟨inv, ?_, ?_, ?_⟩ <;> simp

section Composition

variable {last : Cluster} {scopes scopes' : Set (String × String)}
  {collections collections' : Set (String × String × String)}

theorem Shrunk.trans (first : cl.Shrunk scopes collections next)
    (second : next.Shrunk scopes' collections' last) :
    cl.Shrunk (scopes ∪ scopes') (collections ∪ collections') last where
  inv := second.inv
  names := second.names.trans first.names
  activeScopes := by
    rw [second.activeScopes, first.activeScopes, Set.sdiff_sdiff]
  activeCollections := by
    rw [second.activeCollections, first.activeCollections, Set.sdiff_sdiff]
    congr 1
    ext place
    simp only [Set.mem_union, Set.mem_ofPred_eq]
    tauto
  known := second.known.trans first.known
  scopesWereActive := by
    have later := second.scopesWereActive
    rw [first.activeScopes] at later
    exact Set.union_subset first.scopesWereActive (later.trans Set.sdiff_subset)
  collectionsWereActive := by
    have later := second.collectionsWereActive
    rw [first.activeCollections] at later
    exact Set.union_subset first.collectionsWereActive (later.trans Set.sdiff_subset)

theorem Grown.trans (first : cl.Grown scopes collections next)
    (second : next.Grown scopes' collections' last) :
    cl.Grown (scopes ∪ scopes') (collections ∪ collections') last where
  inv := second.inv
  activeScopes := by
    rw [second.activeScopes, first.activeScopes, Set.union_assoc]
  activeCollections := by
    rw [second.activeCollections, first.activeCollections, Set.union_assoc]
  known := by
    rw [second.known, first.known, Set.union_assoc]

end Composition

theorem Performed.shrunk (performed : cl.Performed job next) (drops : job.creates = false) :
    cl.Shrunk {place | job.DropsScope place} {place | job.DropsCollection place} next := by
  obtain ⟨noScope, noCollection⟩ := Job.not_creates drops
  refine ⟨performed.inv, performed.names, ?_, ?_, ?_, performed.scopeWasActive,
    performed.collectionWasActive⟩
  · ext place
    simp [performed.scopes place, noScope place]
  · ext place
    simp [performed.collections place, noCollection place]
  · ext place
    simp [performed.known place, noCollection place]

theorem Performed.grown (performed : cl.Performed job next) (creates : job.creates = true) :
    cl.Grown {place | job.CreatesScope place} {place | job.CreatesCollection place} next := by
  obtain ⟨noScope, noCollection⟩ := Job.not_drops creates
  refine ⟨performed.inv, ?_, ?_, ?_⟩
  · ext place
    simp [performed.scopes place, noScope place]
  · ext place
    simp [performed.collections place, noScope (place.1, place.2.1), noCollection place]
  · ext place
    simp [performed.known place]

/-- The places that the jobs of a list are for. -/
theorem targets_append {α : Type} (target : Job → α → Prop) (jobs : List Job) (job : Job) :
    {place | ∃ j ∈ jobs ++ [job], target j place} =
      {place | ∃ j ∈ jobs, target j place} ∪ {place | target job place} := by
  ext place
  simp [or_and_right, exists_or]

theorem targets_perm {α : Type} (target : Job → α → Prop) {jobs jobs' : List Job}
    (perm : jobs.Perm jobs') :
    {place | ∃ j ∈ jobs, target j place} = {place | ∃ j ∈ jobs', target j place} := by
  ext place
  simp [perm.mem_iff]

section Pool

variable {order : Order} {jobs : List Job}

theorem Inv.pool_shrunk (inv : cl.Inv) (returned : cl.pool order jobs = some next)
    (drops : ∀ job ∈ jobs, job.creates = false) :
    cl.Shrunk {place | ∃ job ∈ jobs, job.DropsScope place}
      {place | ∃ job ∈ jobs, job.DropsCollection place} next := by
  rw [← targets_perm _ (order.perm jobs), ← targets_perm _ (order.perm jobs)]
  refine @foldlM_behind _ _ _ _ (fun behind reached =>
    cl.Shrunk {place | ∃ job ∈ behind, job.DropsScope place}
      {place | ∃ job ∈ behind, job.DropsCollection place} reached) _ _ returned ?_ ?_
  · simpa using inv.shrunk_refl
  · intro behind middle job member next performed reached
    rw [targets_append, targets_append]
    exact reached.trans ((reached.inv.perform performed).shrunk
      (drops job ((order.perm jobs).mem_iff.mp member)))

theorem Inv.pool_grown (inv : cl.Inv) (returned : cl.pool order jobs = some next)
    (creates : ∀ job ∈ jobs, job.creates = true) :
    cl.Grown {place | ∃ job ∈ jobs, job.CreatesScope place}
      {place | ∃ job ∈ jobs, job.CreatesCollection place} next := by
  rw [← targets_perm _ (order.perm jobs), ← targets_perm _ (order.perm jobs)]
  refine @foldlM_behind _ _ _ _ (fun behind reached =>
    cl.Grown {place | ∃ job ∈ behind, job.CreatesScope place}
      {place | ∃ job ∈ behind, job.CreatesCollection place} reached) _ _ returned ?_ ?_
  · simpa using inv.grown_refl
  · intro behind middle job member next performed reached
    rw [targets_append, targets_append]
    exact reached.trans ((reached.inv.perform performed).grown
      (creates job ((order.perm jobs).mem_iff.mp member)))

end Pool

/-! ## Pools that create collections -/

theorem creates_paired {jobs : List Job} {places : List (String × String × String)}
    (paired : List.Forall₂ Job.CreatesCollection jobs places) :
    (∀ job ∈ jobs, job.creates = true) ∧ {place | ∃ job ∈ jobs, job.CreatesScope place} = ∅ ∧
      {place | ∃ job ∈ jobs, job.CreatesCollection place} = {place | place ∈ places} := by
  induction paired with
  | nil => simp
  | @cons job place jobs places here _ ih =>
    obtain ⟨allCreate, noScope, targets⟩ := ih
    obtain ⟨bucket, spec, call⟩ := here
    refine ⟨?_, ?_, ?_⟩
    · intro other member
      cases member with
      | head => simp [Job.creates, call]
      | tail _ member => exact allCreate other member
    · ext scope
      have later := congrArg (scope ∈ ·) noScope
      simp only [Set.mem_ofPred_eq, Set.mem_empty_iff_false, eq_iff_iff, iff_false] at later
      simpa [Job.CreatesScope, call] using later
    · ext other
      have later := congrArg (other ∈ ·) targets
      simp only [Set.mem_ofPred_eq, eq_iff_iff] at later
      simp only [Set.mem_ofPred_eq, List.mem_cons, exists_eq_or_imp, later]
      refine or_congr_left ?_
      unfold Job.CreatesCollection
      rw [bucket, call]
      simp [Prod.ext_iff, eq_comm]

theorem Inv.pool_collections (inv : cl.Inv) {order : Order} {jobs : List Job}
    {places : List (String × String × String)} (returned : cl.pool order jobs = some next)
    (paired : List.Forall₂ Job.CreatesCollection jobs places) :
    cl.Grown ∅ {place | place ∈ places} next := by
  obtain ⟨creates, noScope, targets⟩ := creates_paired paired
  have grown := inv.pool_grown returned creates
  rwa [noScope, targets] at grown

theorem Inv.perform_createScope (inv : cl.Inv) {place : String × String}
    (returned : cl.perform { bucket := place.1, call := .createScope place.2 } = some next) :
    cl.Grown {place} ∅ next := by
  have grown := (inv.perform returned).grown rfl
  have scopes : {other | Job.CreatesScope { bucket := place.1, call := .createScope place.2 } other} =
      {place} := by
    ext other
    simp [Job.CreatesScope, Prod.ext_iff, eq_comm]
  have collections :
      {other | Job.CreatesCollection { bucket := place.1, call := .createScope place.2 } other} = ∅ := by
    ext other
    simp [Job.CreatesCollection]
  rwa [scopes, collections] at grown

/-! ## The dictionaries of the scope objects -/

theorem trackedScope_eq_some {place : String × String} {scope : Scope}
    (found : cl.trackedScope place = some scope) :
    place.1 ∈ cl.names ∧ (cl.tracked place.1).bucket.scopes.lookup place.2 = some scope := by
  unfold trackedScope at found
  obtain ⟨bucket, bucketFound, found⟩ := Option.bind_eq_some_iff.mp found
  unfold getBucketObj at bucketFound
  split at bucketFound
  · rename_i member
    cases bucketFound
    exact ⟨member, found⟩
  · cases bucketFound

theorem mem_keys_iff_known {place : String × String} {scope : Scope}
    (found : cl.trackedScope place = some scope) (other : String × String × String) :
    other ∈ scope.collections.keys.map (fun name => (place.1, place.2, name)) ↔
      other ∈ cl.knownCollections ∧ (other.1, other.2.1) = place := by
  obtain ⟨member, found⟩ := trackedScope_eq_some found
  rw [List.mem_map]
  constructor
  · rintro ⟨name, key, rfl⟩
    exact ⟨⟨member, scope, found, AList.mem_keys.mpr key⟩, rfl⟩
  · intro ⟨⟨_, scope', found', key⟩, same⟩
    subst same
    rw [found] at found'
    cases found'
    exact ⟨other.2.2, AList.mem_keys.mp key, rfl⟩

/-- What the report lists for scopes. -/
theorem mem_trackedCollections {scopes : List (String × String)}
    {lists : List (List (String × String × String))}
    (listed : scopes.mapM cl.trackedCollections = some lists) (other : String × String × String) :
    other ∈ lists.flatten ↔ other ∈ cl.knownCollections ∧ (other.1, other.2.1) ∈ scopes := by
  have paired := forall₂_of_mapM listed
  clear listed
  induction paired with
  | nil => simp
  | @cons place names scopes lists here _ ih =>
    unfold trackedCollections at here
    obtain ⟨scope, found, made⟩ := Option.bind_eq_some_iff.mp here
    cases made
    have later : other ∈ lists.flatten ↔
        other ∈ cl.knownCollections ∧ (other.1, other.2.1) ∈ scopes := ih
    rw [List.flatten_cons, List.mem_append, mem_keys_iff_known found, later, List.mem_cons]
    tauto

/-- The call that `recreate_collection` builds is for the collection it was built from. -/
theorem Inv.recreateCollection_creates (inv : cl.Inv) {place : String × String} {scope : Scope}
    {name : String} {collection : Collection} {job : Job}
    (found : cl.trackedScope place = some scope)
    (foundCollection : scope.collections.lookup name = some collection)
    (built : cl.recreateCollection place collection = some job) :
    job.CreatesCollection (place.1, place.2, name) := by
  obtain ⟨member, found⟩ := trackedScope_eq_some found
  have named := ((inv place.1 member).bucket place.2 scope found).collection foundCollection
  unfold recreateCollection at built
  rw [named] at built
  cases built
  exact ⟨rfl, _, rfl⟩

theorem Inv.recreateScope_grown (inv : cl.Inv) {order : Order} {place : String × String}
    (returned : cl.recreateScope order place = some next) :
    cl.Grown {place} {other | other ∈ cl.knownCollections ∧ (other.1, other.2.1) = place} next := by
  unfold recreateScope at returned
  obtain ⟨scope, found, returned⟩ := Option.bind_eq_some_iff.mp returned
  obtain ⟨created, createdOk, returned⟩ := Option.bind_eq_some_iff.mp returned
  obtain ⟨jobs, jobsOk, returned⟩ := Option.bind_eq_some_iff.mp returned
  obtain ⟨member, foundScope⟩ := trackedScope_eq_some found
  have named : scope.name = place.2 := ((inv place.1 member).bucket place.2 scope foundScope).name
  rw [named] at createdOk
  have scopeGrown := inv.perform_createScope createdOk
  have paired : List.Forall₂ Job.CreatesCollection jobs
      (scope.collections.keys.map fun name => (place.1, place.2, name)) := by
    rw [AList.keys, List.keys, List.map_map, List.forall₂_map_right_iff]
    have inDict : ∀ entry ∈ scope.collections.entries,
        scope.collections.lookup entry.1 = some entry.2 := fun entry entryMember =>
      AList.mem_lookup_iff.mpr entryMember
    have built := (List.forall₂_and_left _ _).mpr ⟨inDict, forall₂_of_mapM jobsOk⟩
    refine List.Forall₂.flip (built.imp ?_)
    intro entry job ⟨foundCollection, built⟩
    exact inv.recreateCollection_creates found foundCollection built
  have whole := scopeGrown.trans (scopeGrown.inv.pool_collections returned paired)
  rw [Set.union_empty, Set.empty_union] at whole
  have targets : {other | other ∈ scope.collections.keys.map fun name => (place.1, place.2, name)} =
      {other | other ∈ cl.knownCollections ∧ (other.1, other.2.1) = place} := by
    ext other
    exact mem_keys_iff_known found other
  rwa [targets] at whole

/-- Scopes that are re-created one after the other get back what they knew before the first. -/
theorem Inv.recreateScopes_grown (inv : cl.Inv) {order : Order} {scopes : List (String × String)}
    (returned : scopes.foldlM (Cluster.recreateScope order) cl = some next) :
    cl.Grown {place | place ∈ scopes}
      {other | other ∈ cl.knownCollections ∧ (other.1, other.2.1) ∈ scopes} next := by
  refine @foldlM_behind _ _ _ _ (fun behind reached => cl.Grown {place | place ∈ behind}
    {other | other ∈ cl.knownCollections ∧ (other.1, other.2.1) ∈ behind} reached) _ _ returned ?_ ?_
  · simpa using inv.grown_refl
  · intro behind middle place _ next recreated reached
    -- What was created again was known already.
    have known : middle.knownCollections = cl.knownCollections := by
      rw [reached.known, Set.union_eq_left]
      exact fun _ member => member.1
    have grown := reached.trans (reached.inv.recreateScope_grown recreated)
    rw [known] at grown
    have scopes : {place | place ∈ behind} ∪ {place} = {other | other ∈ behind ++ [place]} := by
      ext other
      simp [or_comm]
    have collections :
        {other | other ∈ cl.knownCollections ∧ (other.1, other.2.1) ∈ behind} ∪
          {other | other ∈ cl.knownCollections ∧ (other.1, other.2.1) = place} =
        {other | other ∈ cl.knownCollections ∧ (other.1, other.2.1) ∈ behind ++ [place]} := by
      ext other
      simp only [Set.mem_union, Set.mem_ofPred_eq, List.mem_append, List.mem_singleton]
      tauto
    rwa [scopes, collections] at grown

end Cluster

end Taf.ScopeSpec
