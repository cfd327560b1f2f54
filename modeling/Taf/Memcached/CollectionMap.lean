import Mathlib
import Taf.Memcached.CollectionId

/-! # Collection names

`_update_collection_map` of `lib/mc_bin_client.py` over the whole history of manifests.  It writes
into the inner dictionaries of `collection_map` only: the scopes of the map are those that were
there before, and a new client has none. -/

namespace Taf.Memcached

open Taf.Lib

/-- An entry of a scope's `collections`, the uid as its hexadecimal digits. -/
structure ManifestCollection where
  name : String
  uid : List (Fin 16)
  hexadecimal : uid ≠ []

/-- `int(collection['uid'], 16)` -/
def ManifestCollection.number (collection : ManifestCollection) : Nat :=
  collection.uid.foldl (fun number digit => 16 * number + digit) 0

structure ManifestScope where
  name : String
  collections : List ManifestCollection

/-- `parsed['scopes']` -/
abbrev Manifest := List ManifestScope

/-- The body of the `try`: the first lookup that fails ends it, and what was written stays. -/
def addCollections (scope : String) (map : CollectionMap) : List ManifestCollection → CollectionMap
  | [] => map
  | collection :: collections =>
    match map.lookup scope with
    | none => map
    | some names =>
      addCollections scope (map.insert scope (names.insert collection.name collection.number))
        collections

def Client.updateCollectionMap (client : Client) (manifest : Manifest) : Client :=
  { client with
    collectionMap := manifest.foldl (fun map scope => addCollections scope.name map scope.collections)
      client.collectionMap }

/-! ## The scopes of the map never change -/

theorem isSome_lookup_addCollections (scope name : String) (map : CollectionMap)
    (collections : List ManifestCollection) :
    ((addCollections scope map collections).lookup name).isSome = (map.lookup name).isSome := by
  induction collections generalizing map with
  | nil => rfl
  | cons collection collections ih =>
    rw [addCollections]
    cases found : map.lookup scope with
    | none => rfl
    | some names =>
      dsimp only
      rw [ih]
      by_cases same : name = scope
      · rw [same, AList.lookup_insert, found]
        rfl
      · rw [AList.lookup_insert_ne same]

theorem isSome_lookup_update (client : Client) (manifest : Manifest) (name : String) :
    ((client.updateCollectionMap manifest).collectionMap.lookup name).isSome =
      (client.collectionMap.lookup name).isSome := by
  show ((manifest.foldl _ client.collectionMap).lookup name).isSome = _
  induction manifest generalizing client with
  | nil => rfl
  | cons scope manifest ih =>
    rw [List.foldl_cons]
    have rest := ih { client with
      collectionMap := addCollections scope.name client.collectionMap scope.collections }
    rw [rest, isSome_lookup_addCollections]

theorem isSome_lookup_run (client : Client) (manifests : List Manifest) (name : String) :
    ((run Client.updateCollectionMap client manifests).collectionMap.lookup name).isSome =
      (client.collectionMap.lookup name).isSome := by
  apply @run_invariant _ _ Client.updateCollectionMap fun current =>
    (current.collectionMap.lookup name).isSome = (client.collectionMap.lookup name).isSome
  · intro current manifest same
    rw [isSome_lookup_update, same]
  · rfl

/-! ## Resolution -/

variable (python : Python)

/-- A name of a scope and a collection that stand together in the manifest. -/
def Listed (manifest : Manifest) (scope collection : String) : Prop :=
  ∃ entry ∈ manifest, entry.name = scope ∧ ∃ listed ∈ entry.collections, listed.name = collection

/-- Every collection of the manifest is resolved to its uid, and every other pair is refused. -/
def ResolvesAs (client : Client) (manifest : Manifest) : Prop :=
  (∀ scope ∈ manifest, ∀ collection ∈ scope.collections,
    client.resolve (some scope.name) (.name collection.name) = .ok collection.number) ∧
  ∀ scope collection, ¬ Listed manifest scope collection → ∀ key, ∃ error,
    encodeCollectionId python client key (some scope) (.name collection) = .error error

/-- The client as `hello` leaves it, before the first manifest. -/
def freshClient (host : String) (features : List Nat) (supported : Bool) : Client :=
  { Client.new host with features := features, collectionsSupported := supported }

theorem resolve_run_fresh (host : String) (features : List Nat) (supported : Bool)
    (manifests : List Manifest) (scope collection : String) :
    (run Client.updateCollectionMap (freshClient host features supported) manifests).resolve
      (some scope) (.name collection) = .error .keyError := by
  have same := isSome_lookup_run (freshClient host features supported) manifests scope
  have absent : ((freshClient host features supported).collectionMap.lookup scope).isSome = false :=
    rfl
  rw [absent, Option.isSome_eq_false_iff, Option.isNone_iff_eq_none] at same
  rw [Client.resolve, Option.bind_some, same]
  rfl

theorem encode_error_of_resolve {python : Python} {client : Client} {scope : Option String}
    {collection : CollectionRef} {error : PyError}
    (refused : client.resolve scope collection = .error error) (key : PyText) :
    ∃ error, encodeCollectionId python client key scope collection = .error error := by
  cases encoded : encodeCollectionId python client key scope collection with
  | error error => exact ⟨error, rfl⟩
  | ok text =>
    obtain ⟨-, -, number, -, -, resolved, -⟩ := encodeCollectionId_eq_ok.mp encoded
    rw [refused] at resolved
    cases resolved

/-- Nothing is ever resolved, so that the last manifest is served exactly when it has no
    collections. -/
theorem resolvesAs_last_iff (host : String) (features : List Nat) (supported : Bool)
    (manifests : List Manifest) (last : Manifest) :
    ResolvesAs python (run Client.updateCollectionMap (freshClient host features supported)
      (manifests ++ [last])) last ↔ ∀ scope ∈ last, scope.collections = [] := by
  have refused := resolve_run_fresh host features supported (manifests ++ [last])
  constructor
  · intro resolves scope member
    cases listed : scope.collections with
    | nil => rfl
    | cons collection collections =>
      have resolved := resolves.1 scope member collection (by simp [listed])
      rw [refused] at resolved
      cases resolved
  · intro bare
    refine ⟨?_, fun scope collection _ key => encode_error_of_resolve (refused scope collection) key⟩
    intro scope member collection listed
    rw [bare scope member] at listed
    exact absurd listed List.not_mem_nil

/-- `{"name": "_default", "collections": [{"name": "_default", "uid": "0"}]}` -/
def defaultManifest : Manifest :=
  [{ name := "_default", collections := [{ name := "_default", uid := [0], hexadecimal := by simp }] }]

theorem default_collection_unresolved : ¬ ResolvesAs .two
    (run Client.updateCollectionMap (freshClient "127.0.0.1" [featureCollections] true)
      [defaultManifest]) defaultManifest := by
  intro resolves
  have resolved := resolves.1 _ List.mem_cons_self _ List.mem_cons_self
  rw [resolve_run_fresh] at resolved
  cases resolved

end Taf.Memcached
