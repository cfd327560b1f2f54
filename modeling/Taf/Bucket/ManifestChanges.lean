import Taf.Bucket.Manifest

/-! # What one call changes

A call that returns was allowed by the server.  This module says what it did to the scopes
and collections that exist, and to the dictionaries of the tracked objects, which no call
takes anything out of. -/

namespace Taf.Manifest

open Taf.Lib Taf.Bucket

/-! ## One call on the server -/

namespace ServerManifest

variable {m : ServerManifest} {call : ManifestCall}

def HasScope (m : ServerManifest) (s : String) : Prop := (m s).isSome = true

def HasCollection (m : ServerManifest) (s c : String) : Prop :=
  ∃ collections, m s = some collections ∧ c ∈ collections

theorem hasScope_apply (m : ServerManifest) (call : ManifestCall) (s : String) :
    (m.apply call).HasScope s ↔ (m.HasScope s ∧ call ≠ .dropScope s) ∨ call = .createScope s := by
  unfold HasScope
  cases call with
  | createScope name =>
    by_cases same : s = name
    · subst same
      simp [apply]
    · simp [apply, same, Ne.symm same]
  | dropScope name =>
    by_cases same : s = name
    · subst same
      simp [apply]
    · simp [apply, same, Ne.symm same]
  | createCollection name c spec =>
    by_cases same : s = name
    · subst same
      simp [apply]
    · simp [apply, same]
  | dropCollection name c =>
    by_cases same : s = name
    · subst same
      simp [apply]
    · simp [apply, same]

theorem hasCollection_apply (allowed : m.allows call = true) (s c : String) :
    (m.apply call).HasCollection s c ↔
      (m.HasCollection s c ∧ call ≠ .dropCollection s c ∧ call ≠ .dropScope s) ∨
        ∃ spec, call = .createCollection s c spec := by
  unfold HasCollection
  cases call with
  | createScope name =>
    by_cases same : s = name
    · subst same
      have missing : m s = none := by simpa [allows] using allowed
      simp [apply, missing]
    · simp [apply, same]
  | dropScope name =>
    by_cases same : s = name
    · subst same
      simp [apply]
    · simp [apply, same, Ne.symm same]
  | createCollection name new spec =>
    by_cases same : s = name
    · subst same
      cases present : m s with
      | none => simp [allows, present] at allowed
      | some collections => simp [apply, present, or_comm, eq_comm]
    · simp [apply, same, Ne.symm same]
  | dropCollection name old =>
    by_cases same : s = name
    · subst same
      cases present : m s with
      | none => simp [allows, present] at allowed
      | some collections => simp [apply, present, and_comm, eq_comm]
    · simp [apply, same, Ne.symm same]

end ServerManifest

/-! ## One call on the tracked objects -/

namespace Bucket

variable {b b' : Bucket}

/-- The scope object has the collection in its dictionary, dropped or not. -/
def Tracks (b : Bucket) (s c : String) : Prop :=
  ∃ scope, b.scopes.lookup s = some scope ∧ c ∈ scope.collections

theorem tracks_withScope (name : String) (scope : Scope) (s c : String) :
    (b.withScope name scope).Tracks s c ↔
      (s = name ∧ c ∈ scope.collections) ∨ (s ≠ name ∧ b.Tracks s c) := by
  unfold Tracks
  rw [lookup_withScope]
  by_cases same : s = name
  · simp [same]
  · simp [same]

/-- Putting back a scope with the collections it had changes nothing. -/
theorem tracks_withScope_same {name : String} {scope scope' : Scope}
    (found : b.scopes.lookup name = some scope)
    (same : ∀ c, c ∈ scope'.collections ↔ c ∈ scope.collections) (s c : String) :
    (b.withScope name scope').Tracks s c ↔ b.Tracks s c := by
  rw [tracks_withScope, same]
  by_cases here : s = name
  · subst here
    simp [Tracks, found]
  · simp [here]

theorem tracks_createScopeObject (name s c : String) :
    (b.createScopeObject name).Tracks s c ↔ b.Tracks s c := by
  unfold createScopeObject
  cases found : b.scopes.lookup name with
  | some scope =>
    have same (c : String) : c ∈ scope.recreated.collections ↔ c ∈ scope.collections := Iff.rfl
    exact tracks_withScope_same found same s c
  | none =>
    rw [tracks_withScope]
    by_cases here : s = name
    · subst here
      simp [Tracks, found]
    · simp [here]

theorem tracks_createCollectionObject {name new : String} {spec : CollectionSpec}
    (created : b.createCollectionObject name new spec = some b') (s c : String) :
    b'.Tracks s c ↔ b.Tracks s c ∨ (s = name ∧ c = new) := by
  unfold createCollectionObject at created
  obtain ⟨scope, found, created⟩ := Option.bind_eq_some_iff.mp created
  cases created
  rw [tracks_withScope]
  by_cases here : s = name
  · subst here
    simp [Tracks, found, Scope.withCollection, or_comm]
  · simp [here]

theorem tracks_markCollectionAsDropped {name old : String}
    (marked : b.markCollectionAsDropped name old = some b') (s c : String) :
    b'.Tracks s c ↔ b.Tracks s c := by
  unfold markCollectionAsDropped at marked
  obtain ⟨scope, found, marked⟩ := Option.bind_eq_some_iff.mp marked
  obtain ⟨collection, foundCollection, marked⟩ := Option.bind_eq_some_iff.mp marked
  cases marked
  apply tracks_withScope_same found
  intro c
  have known : old ∈ scope.collections :=
    AList.lookup_isSome.mp (Option.isSome_iff_exists.mpr ⟨collection, foundCollection⟩)
  simp only [Scope.withCollection, AList.mem_insert, or_iff_right_iff_imp]
  intro same
  rw [same]
  exact known

theorem tracks_markScopeAsDropped {name : String}
    (marked : b.markScopeAsDropped name = some b') (s c : String) :
    b'.Tracks s c ↔ b.Tracks s c := by
  unfold markScopeAsDropped at marked
  obtain ⟨scope, found, marked⟩ := Option.bind_eq_some_iff.mp marked
  obtain ⟨looped, loopOk, marked⟩ := Option.bind_eq_some_iff.mp marked
  obtain ⟨scope', found', marked⟩ := Option.bind_eq_some_iff.mp marked
  cases marked
  have loop : looped.Tracks s c ↔ b.Tracks s c := by
    refine @foldlM_behind _ _ _ _ (fun _ bucket => bucket.Tracks s c ↔ b.Tracks s c) _ _ loopOk
      Iff.rfl ?_
    intro _ bucket old _ next nextOk reached
    rw [tracks_markCollectionAsDropped nextOk, reached]
  have same (c : String) :
      c ∈ ({ scope' with isDropped := true } : Scope).collections ↔ c ∈ scope'.collections := Iff.rfl
  exact (tracks_withScope_same found' same s c).trans loop

/-- No call takes a collection out of the dictionaries. -/
theorem tracks_update {call : ManifestCall} (updated : call.update b = some b') (s c : String) :
    b'.Tracks s c ↔ b.Tracks s c ∨ ∃ spec, call = .createCollection s c spec := by
  cases call with
  | createScope name =>
    cases updated
    simpa using tracks_createScopeObject name s c
  | dropScope name => simpa using tracks_markScopeAsDropped updated s c
  | createCollection name new spec =>
    rw [tracks_createCollectionObject updated]
    simp [eq_comm]
  | dropCollection name old => simpa using tracks_markCollectionAsDropped updated s c

end Bucket

/-! ## One call on both -/

namespace Tracked

variable {t : Tracked}

theorem Inv.mem_activeScopeNames (inv : t.Inv) {s : String} :
    s ∈ t.bucket.activeScopeNames ↔ t.server.HasScope s := by
  rw [Bucket.mem_activeScopeNames, inv.shown]
  rfl

theorem Inv.mem_activeCollections (inv : t.Inv) {s c : String} :
    (∃ names, t.bucket.getActiveCollectionNames s = some names ∧ c ∈ names) ↔
      t.server.HasCollection s c := by
  unfold ServerManifest.HasCollection Bucket.getActiveCollectionNames
  rw [← inv.shown]
  constructor
  · rintro ⟨names, asked, member⟩
    obtain ⟨scope, found, rfl⟩ := Option.map_eq_some_iff.mp asked
    have active : c ∈ scope.activeSet := List.mem_toFinset.mpr member
    cases dropped : scope.isDropped with
    | true =>
      rw [Scope.activeSet_of_dropped (inv.bucket s scope found) dropped] at active
      cases active
    | false => exact ⟨scope.activeSet, by simp [Bucket.shown, found, Scope.shown, dropped], active⟩
  · rintro ⟨collections, present, member⟩
    obtain ⟨scope, found, _, rfl⟩ := Bucket.shown_eq_some present
    exact ⟨scope.activeNames, by rw [found]; rfl, List.mem_toFinset.mp member⟩

/-- A collection that is active is in the dictionary of its scope. -/
theorem Inv.tracks_of_hasCollection (inv : t.Inv) {s c : String} (active : t.server.HasCollection s c) :
    t.bucket.Tracks s c := by
  obtain ⟨collections, present, member⟩ := active
  rw [← inv.shown] at present
  obtain ⟨scope, found, _, rfl⟩ := Bucket.shown_eq_some present
  obtain ⟨collection, foundCollection, _⟩ := Scope.mem_activeSet.mp member
  exact ⟨scope, found, AList.lookup_isSome.mp (Option.isSome_iff_exists.mpr ⟨_, foundCollection⟩)⟩

/-- A call that does not raise was allowed; this is what it did. -/
theorem Inv.step_returned (inv : t.Inv) {call : ManifestCall}
    (returned : (call.perform (t.server.allows call) t.bucket).2 = none) :
    t.server.allows call = true ∧ (t.step call).Inv ∧ (t.step call).server = t.server.apply call ∧
      ∀ s c, (t.step call).bucket.Tracks s c ↔
        t.bucket.Tracks s c ∨ ∃ spec, call = .createCollection s c spec := by
  cases allowed : t.server.allows call with
  | false => simp [allowed, ManifestCall.perform] at returned
  | true =>
    rw [← inv.shown] at allowed
    obtain ⟨b', updated, -⟩ := @update_refines t.bucket.incrementManifestUid inv.bucket call allowed
    rw [inv.shown] at allowed
    refine ⟨rfl, inv.step call, by simp [Tracked.step, allowed], ?_⟩
    intro s c
    have stepped : (t.step call).bucket = b' := by
      simp [Tracked.step, allowed, ManifestCall.perform, updated]
    rw [stepped, Bucket.tracks_update updated]
    rfl

end Tracked

end Taf.Manifest
