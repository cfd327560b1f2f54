import Taf.Bucket.CreationAgreement
import Taf.Bucket.ScopeExpansion

/-! # All buckets of a spec

The buckets that are tracked behind `create_buckets_using_json_data`, and what its result says
about them. -/

namespace Taf.Bucket.Creation

open Taf.Lib Taf.Manifest Taf.Bucket.Expansion

/-- What is known of a bucket of the spec that is tracked -/
structure Agreement (rest : BucketRest) (serverless : Bool) (spec : BucketSpec) (bucket : Bucket)
    (manifest : ServerManifest) : Prop where
  reported : Reported rest spec spec.givenScopes
  shown : bucket.shown = manifestOf serverless spec.givenScopes
  agrees : bucket.shown = manifest ↔ UsesImport spec ∨ TakesOver rest spec.givenScopes
  objects : ∀ name scope, spec.givenScopes.lookup name = some scope → ∃ object,
    bucket.scopes.lookup name = some object ∧ ∀ c params, scope.givenCollections.lookup c = some params →
      ∃ collection, object.collections.lookup c = some collection ∧
        Follows bucket.defaultHistory params collection

section Cluster

variable {rest : String → BucketRest} {serverless : Bool} {specs : Buckets} {cluster : Cluster}

/-- The task of one bucket and what is tracked of it -/
theorem createBucketFromDictSpec_spec {entry : Σ _ : String, BucketSpec} {task : String × Task}
    (ready : Ready entry.2 entry.2.givenScopes)
    (returned : createBucketFromDictSpec rest serverless entry.1 entry.2 = .ok task) :
    task.1 = entry.1 ∧ Served (rest entry.1) entry.2 entry.2.givenScopes ∧
      (task.2.result = true ↔ Reported (rest entry.1) entry.2 entry.2.givenScopes) ∧
      ∃ tracked, trackSpec entry.2 task.2.bucket = .ok tracked ∧
        (task.2.result = true → Agreement (rest entry.1) serverless entry.2 tracked task.2.server) := by
  rw [createBucketFromDictSpec, bind_eq_ok] at returned
  obtain ⟨after, called, same⟩ := returned
  cases same
  have served := served_of_call ready called
  obtain ⟨task, tracked, called', followed, result, shown, agrees, objects⟩ :=
    call_spec serverless entry.1 ready served
  rw [called] at called'
  cases called'
  refine ⟨rfl, served, result, tracked, followed, fun succeeded => ⟨result.mp succeeded, shown, ?_, objects⟩⟩
  rw [← agrees, shown]
  exact eq_comm

theorem createBucketFromDictSpec_returns (serverless : Bool) {name : String} {spec : BucketSpec}
    (ready : Ready spec spec.givenScopes) (served : Served (rest name) spec spec.givenScopes) :
    ∃ task, createBucketFromDictSpec rest serverless name spec = .ok task := by
  obtain ⟨task, tracked, called, _⟩ := call_spec serverless name ready served
  exact ⟨(name, task), bind_eq_ok.mpr ⟨task, called, rfl⟩⟩

/-- A bucket behind its round of the tracking; the round does not raise here. -/
def trackedBucket (specs : Buckets) (bucket : String × Bucket) : String × Bucket :=
  match trackBucket specs bucket with
  | .ok after => after
  | .error _ => bucket

theorem trackBucket_old {bucket : String × Bucket} (old : bucket.1 ∉ specs) :
    trackBucket specs bucket = .ok bucket := by
  rw [trackBucket, AList.lookup_eq_none.mpr old]

theorem trackBucket_new {name : String} {spec : BucketSpec} {bucket after : Bucket}
    (found : specs.lookup name = some spec) (followed : trackSpec spec bucket = .ok after) :
    trackBucket specs (name, bucket) = .ok (name, after) := by
  rw [trackBucket, found]
  exact bind_eq_ok.mpr ⟨after, followed, rfl⟩

/-- A task with the entry of the spec that it was started for -/
structure TaskOf (rest : String → BucketRest) (serverless : Bool) (specs : Buckets) (entry : Σ _ : String, BucketSpec)
    (task : String × Task) : Prop where
  named : task.1 = entry.1
  served : Served (rest entry.1) entry.2 entry.2.givenScopes
  result : task.2.result = true ↔ Reported (rest entry.1) entry.2 entry.2.givenScopes
  tracked : ∃ after, trackBucket specs (task.1, task.2.bucket) = .ok (entry.1, after) ∧
    (task.2.result = true → Agreement (rest entry.1) serverless entry.2 after task.2.server)

theorem taskOf {entry : Σ _ : String, BucketSpec} {task : String × Task} (member : entry ∈ specs.entries)
    (ready : ∀ name spec, specs.lookup name = some spec → Ready spec spec.givenScopes)
    (returned : createBucketFromDictSpec rest serverless entry.1 entry.2 = .ok task) :
    TaskOf rest serverless specs entry task := by
  have found : specs.lookup entry.1 = some entry.2 := AList.mem_lookup_iff.mpr member
  obtain ⟨named, served, result, after, followed, agreement⟩ :=
    createBucketFromDictSpec_spec (ready entry.1 entry.2 found) returned
  refine ⟨named, served, result, after, ?_, agreement⟩
  rw [named]
  exact trackBucket_new found followed

/-- The tasks carry the names of the spec, each once. -/
theorem tasks_names {entries : List (Σ _ : String, BucketSpec)} {tasks : List (String × Task)}
    (returned : entries.mapM (fun entry => createBucketFromDictSpec rest serverless entry.1 entry.2) = .ok tasks) :
    tasks.map Prod.fst = entries.keys := by
  have pairs := forall₂_of_mapM_ok returned
  clear returned
  induction pairs with
  | nil => rfl
  | cons made _ ih =>
    rw [createBucketFromDictSpec, bind_eq_ok] at made
    obtain ⟨_, _, same⟩ := made
    cases same
    rw [List.map_cons, List.keys_cons, ih]

/-- The loop over the tracked buckets leaves the old ones alone, and it gets through the new ones. -/
theorem trackBuckets_eq {tasks : List (String × Task)} (new : ∀ bucket ∈ cluster.buckets, bucket.1 ∉ specs)
    (ofTask : ∀ task ∈ tasks, ∃ entry ∈ specs.entries, TaskOf rest serverless specs entry task) :
    (cluster.buckets ++ (tasks.filter fun task => task.2.result).map fun task => (task.1, task.2.bucket)).mapM
        (trackBucket specs) =
      .ok (cluster.buckets ++ (tasks.filter fun task => task.2.result).map fun task =>
        trackedBucket specs (task.1, task.2.bucket)) := by
  rw [mapM_eq_ok_map (g := trackedBucket specs), List.map_append, List.map_map]
  · congr 2
    refine (List.map_congr_left fun bucket member => ?_).trans (List.map_id _)
    rw [trackedBucket, trackBucket_old (new bucket member)]
    rfl
  · intro bucket member
    have followed : ∃ after, trackBucket specs bucket = .ok after := by
      cases List.mem_append.mp member with
      | inl old => exact ⟨bucket, trackBucket_old (new bucket old)⟩
      | inr created =>
        obtain ⟨task, succeeded, same⟩ := List.mem_map.mp created
        obtain ⟨entry, _, taskOf⟩ := ofTask task (List.mem_of_mem_filter succeeded)
        obtain ⟨after, followed, _⟩ := taskOf.tracked
        exact ⟨_, same ▸ followed⟩
    obtain ⟨after, followed⟩ := followed
    rw [trackedBucket, followed]

theorem TaskOf.trackedBucket_eq {entry : Σ _ : String, BucketSpec} {task : String × Task}
    (taskOf : TaskOf rest serverless specs entry task) :
    ∃ after, trackedBucket specs (task.1, task.2.bucket) = (entry.1, after) ∧
      (task.2.result = true → Agreement (rest entry.1) serverless entry.2 after task.2.server) := by
  obtain ⟨after, followed, agreement⟩ := taskOf.tracked
  exact ⟨after, by rw [trackedBucket, followed], agreement⟩

/-- The cluster has behind the tasks what each of them leaves on the server. -/
theorem lookup_server {tasks : List (String × Task)} {task : String × Task} (here : task ∈ tasks)
    (returned : specs.entries.mapM (fun entry => createBucketFromDictSpec rest serverless entry.1 entry.2) =
      .ok tasks) :
    (assignAll (tasks.map fun task => (task.1, task.2.server)) cluster.server).lookup task.1 =
      some task.2.server := by
  have distinct : ((tasks.map fun task => (task.1, task.2.server)).map Prod.fst).Nodup := by
    rw [List.map_map]
    change (tasks.map Prod.fst).Nodup
    rw [tasks_names returned]
    exact specs.nodupKeys
  exact lookup_assignAll_of_mem distinct (List.mem_map.mpr ⟨task, here, rfl⟩)

end Cluster

/-! ## A scope that is refused -/

/-- A travel bucket with one collection in a scope of its own -/
def travelSpec : Buckets :=
  (∅ : Buckets).insert "travel" ⟨.singleton .createCollectionsUsingManifestImport false,
    some (((∅ : Scopes).insert "inventory" ⟨∅, some (.singleton "airline" (.singleton .numItems (5 : ℕ)))⟩).insert
      defaultScope ⟨∅, some (.singleton defaultCollection ∅)⟩)⟩

/-- A server that creates no scopes -/
def withoutScopes : BucketRest where
  createsBucket := true
  answer call := match call with
    | .createScope _ => .refused
    | _ => .accepted
  content _ := "Forbidden"
  importFailure := none

theorem ready_travelSpec : ∀ name spec, travelSpec.lookup name = some spec → Ready spec spec.givenScopes := by
  intro name spec found
  cases lookup_insert_eq_some.mp found with
  | inr impossible => cases impossible.2
  | inl here =>
    rw [here.2]
    refine ⟨rfl, ⟨_, rfl⟩, ?_, by decide, Option.some_ne_none false⟩
    intro name scope found
    cases lookup_insert_eq_some.mp found with
    | inl default =>
      rw [default.2]
      exact Option.some_ne_none _
    | inr other =>
      cases lookup_insert_eq_some.mp other.2 with
      | inl inventory =>
        rw [inventory.2]
        exact Option.some_ne_none _
      | inr impossible => cases impossible.2

end Taf.Bucket.Creation
