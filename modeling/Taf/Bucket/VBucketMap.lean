import Taf.Lib.Run

/-! # The tracked vBucket map

Two parsers read the answers of the server into one `Bucket`: `get_bucket_from_cluster`
of the REST helper and `parse_get_bucket_json`, through which `get_all_buckets` goes.
Both append to `vbuckets` and `forward_map`, and only the first one empties a list before
that.  `Tracking` puts the last maps that were received beside the bucket. -/

namespace Taf.VBucketMap

open Taf.Lib

/-! ## Answers and the bucket -/

/-- The part of `vBucketServerMap` that is read. -/
structure ServerMap where
  serverList : List String
  vBucketMap : List (List Int)
  vBucketMapForward : Option (List (List Int)) := none
  numReplicas : Option Int := none
  deriving DecidableEq

/-- `Bucket.vBucket`; without a server the master is the empty text. -/
structure VBucket where
  master : Option String := none
  replica : List String := []
  id : Int := -1
  deriving DecidableEq

structure Bucket where
  servers : Finset String := ∅
  replicaNumber : Option Int := none
  vbuckets : List VBucket := []
  forwardMap : List VBucket := []
  deriving DecidableEq

/-- Python's subscript: a negative index counts from the end. -/
def pyIndex {α : Type*} (items : List α) (index : Int) : Option α :=
  if 0 ≤ index then items[index.toNat]?
  else if -(items.length : Int) ≤ index then items[(items.length + index).toNat]?
  else none

/-! ## The parsers -/

/-- One round of the loop over a map; `none` is an `IndexError`. -/
def parseRow (serverList : List String) (counter : Nat) : List Int → Option VBucket
  | [] => none
  | first :: rest => do
    let master ← pyIndex serverList first
    let replica ← (rest.filter (· ≠ -1)).mapM (pyIndex serverList)
    return { master := some master, replica := replica, id := counter }

def parseRows (serverList : List String) : Nat → List (List Int) → Option (List VBucket)
  | _, [] => some []
  | counter, row :: rows => do
    let info ← parseRow serverList counter row
    let others ← parseRows serverList (counter + 1) rows
    return info :: others

/-- `if 'vBucketMapForward' in vBucketServerMap`: what is appended to `forward_map`. -/
def parseForward (map : ServerMap) : Option (List VBucket) :=
  match map.vBucketMapForward with
  | none => some []
  | some rows => parseRows map.serverList 0 rows

def getBucketFromCluster (bucket : Bucket) : Option ServerMap → Option Bucket
  | none => some bucket
  | some map => do
    let forward ← parseForward map
    let vbuckets ← parseRows map.serverList 0 map.vBucketMap
    return { servers := bucket.servers ∪ map.serverList.toFinset
             replicaNumber := map.numReplicas.or bucket.replicaNumber
             forwardMap := bucket.forwardMap ++ forward
             vbuckets := vbuckets }

def parseGetBucketJson (bucket : Bucket) : Option ServerMap → Option Bucket
  | none => some bucket
  | some map => do
    let forward ← parseForward map
    let vbuckets ← parseRows map.serverList 0 map.vBucketMap
    return { bucket with
             replicaNumber := map.numReplicas.or bucket.replicaNumber
             forwardMap := bucket.forwardMap ++ forward
             vbuckets := bucket.vbuckets ++ vbuckets }

/-! ## What the lists should show -/

def expectedRow (serverList : List String) (row : List Int) (id : Nat) : VBucket where
  master := if row.head? = some (-1) then none else row.head?.bind (pyIndex serverList)
  replica := (row.tail.filter (· ≠ -1)).filterMap (pyIndex serverList)
  id := id

def expectedMap (serverList : List String) (rows : List (List Int)) : List VBucket :=
  rows.zipIdx.map fun (row, id) => expectedRow serverList row id

/-- Every row names a master. -/
def HasMasters (rows : List (List Int)) : Prop :=
  ∀ row ∈ rows, row.head? ≠ some (-1)

instance (rows : List (List Int)) : Decidable (HasMasters rows) :=
  inferInstanceAs (Decidable (∀ row ∈ rows, row.head? ≠ some (-1)))

theorem filterMap_of_mapM {α β : Type*} {f : α → Option β} {items : List α} {images : List β}
    (mapped : items.mapM f = some images) : items.filterMap f = images := by
  induction items generalizing images with
  | nil =>
    cases mapped
    rfl
  | cons item items ih =>
    simp only [List.mapM_cons, Option.bind_eq_bind, Option.bind_eq_some_iff] at mapped
    obtain ⟨image, found, others, rest, same⟩ := mapped
    cases same
    rw [List.filterMap_cons_some found, ih rest]

theorem parseRow_spec {serverList : List String} {counter : Nat} {row : List Int} {info : VBucket}
    (parsed : parseRow serverList counter row = some info) :
    info = expectedRow serverList row counter ↔ row.head? ≠ some (-1) := by
  cases row with
  | nil => cases parsed
  | cons first rest =>
    simp only [parseRow, Option.bind_eq_bind, Option.bind_eq_some_iff] at parsed
    obtain ⟨master, found, replica, replicas, same⟩ := parsed
    cases same
    simp only [expectedRow, List.tail_cons, filterMap_of_mapM replicas, List.head?_cons,
      Option.bind_some, found, VBucket.mk.injEq]
    by_cases noServer : first = -1
    · simp [noServer]
    · simp [noServer]

/-- A map that was parsed shows its rows exactly if every row names a master. -/
theorem parseRows_spec {serverList : List String} {counter : Nat} {rows : List (List Int)}
    {parsed : List VBucket} (returned : parseRows serverList counter rows = some parsed) :
    parsed.length = rows.length ∧
      (parsed = (rows.zipIdx counter).map (fun (row, id) => expectedRow serverList row id) ↔
        HasMasters rows) := by
  induction rows generalizing counter parsed with
  | nil =>
    cases returned
    simp [HasMasters]
  | cons row rows ih =>
    simp only [parseRows, Option.bind_eq_bind, Option.bind_eq_some_iff] at returned
    obtain ⟨info, first, others, rest, same⟩ := returned
    cases same
    obtain ⟨length, shows⟩ := ih rest
    refine ⟨by simp [length], ?_⟩
    rw [List.zipIdx_cons, List.map_cons, List.cons_eq_cons, shows, parseRow_spec first]
    simp only [HasMasters, List.forall_mem_cons]

/-! ## Refreshing -/

inductive Source where
  | getBucketFromCluster
  | getAllBuckets
  deriving DecidableEq

structure Refresh where
  source : Source
  -- `none` where the answer has no `vBucketServerMap`.
  answer : Option ServerMap
  deriving DecidableEq

structure Tracking where
  bucket : Bucket := {}
  -- The last `vBucketMap` and `vBucketMapForward` with the servers they came with.
  lastMap : List String × List (List Int) := ([], [])
  lastForward : List String × List (List Int) := ([], [])

namespace Tracking

def refresh (t : Tracking) (r : Refresh) : Option Bucket :=
  match r.source with
  | .getBucketFromCluster => getBucketFromCluster t.bucket r.answer
  | .getAllBuckets => parseGetBucketJson t.bucket r.answer

/-- A refresh that raises is not one of the runs that are looked at. -/
def Succeeds (t : Tracking) (r : Refresh) : Prop := (t.refresh r).isSome

instance (t : Tracking) (r : Refresh) : Decidable (t.Succeeds r) :=
  inferInstanceAs (Decidable ((t.refresh r).isSome = true))

def step (t : Tracking) (r : Refresh) : Tracking where
  bucket := (t.refresh r).getD t.bucket
  lastMap := match r.answer with
    | none => t.lastMap
    | some map => (map.serverList, map.vBucketMap)
  lastForward := match r.answer.bind fun map => map.vBucketMapForward.map (map.serverList, ·) with
    | none => t.lastForward
    | some received => received

/-- The bucket shows the last maps that were received. -/
structure UpToDate (t : Tracking) : Prop where
  vbuckets : t.bucket.vbuckets = expectedMap t.lastMap.1 t.lastMap.2
  forwardMap : t.bucket.forwardMap = expectedMap t.lastForward.1 t.lastForward.2

/-- Every row names a master, and what the parser appends to is empty. -/
def Fresh (t : Tracking) (r : Refresh) : Prop :=
  ∀ map, r.answer = some map →
    HasMasters map.vBucketMap ∧
    (r.source = .getAllBuckets → t.bucket.vbuckets = []) ∧
    ∀ rows, map.vBucketMapForward = some rows → HasMasters rows ∧ t.bucket.forwardMap = []

/-- What is appended to a list shows a map exactly if the list was empty and the map has masters. -/
theorem append_shows_iff {serverList : List String} {rows : List (List Int)}
    {before parsed : List VBucket} (returned : parseRows serverList 0 rows = some parsed) :
    before ++ parsed = expectedMap serverList rows ↔ before = [] ∧ HasMasters rows := by
  obtain ⟨length, shows⟩ := parseRows_spec returned
  constructor
  · intro same
    have total := congrArg List.length same
    simp only [List.length_append, length, expectedMap, List.length_map, List.length_zipIdx] at total
    have empty : before = [] := List.eq_nil_of_length_eq_zero (by omega)
    rw [empty, List.nil_append] at same
    exact ⟨empty, shows.mp same⟩
  · intro ⟨empty, masters⟩
    rw [empty, List.nil_append]
    exact shows.mpr masters

/-- What a refresh that does not raise has done with the answer. -/
theorem refresh_cases {t : Tracking} {r : Refresh} {map : ServerMap} {bucket : Bucket}
    (answer : r.answer = some map) (returned : t.refresh r = some bucket) :
    ∃ forward vbuckets, parseForward map = some forward ∧
      parseRows map.serverList 0 map.vBucketMap = some vbuckets ∧
      bucket.forwardMap = t.bucket.forwardMap ++ forward ∧
      bucket.vbuckets =
        (if r.source = .getAllBuckets then t.bucket.vbuckets else []) ++ vbuckets := by
  simp only [refresh, answer] at returned
  cases source : r.source with
  | getBucketFromCluster =>
    simp only [source, getBucketFromCluster, Option.bind_eq_bind, Option.bind_eq_some_iff] at returned
    obtain ⟨forward, parsedForward, vbuckets, parsed, same⟩ := returned
    cases same
    exact ⟨forward, vbuckets, parsedForward, parsed, rfl, by simp⟩
  | getAllBuckets =>
    simp only [source, parseGetBucketJson, Option.bind_eq_bind, Option.bind_eq_some_iff] at returned
    obtain ⟨forward, parsedForward, vbuckets, parsed, same⟩ := returned
    cases same
    exact ⟨forward, vbuckets, parsedForward, parsed, rfl, by simp⟩

/-- A refresh shows a forward map that it receives exactly if there was none before. -/
theorem forward_shows_iff {t : Tracking} (upToDate : t.UpToDate) {map : ServerMap}
    {forward : List VBucket} (parsed : parseForward map = some forward) {received : _}
    (last : received = match map.vBucketMapForward.map (map.serverList, ·) with
      | none => t.lastForward
      | some received => received) :
    t.bucket.forwardMap ++ forward = expectedMap received.1 received.2 ↔
      ∀ rows, map.vBucketMapForward = some rows → HasMasters rows ∧ t.bucket.forwardMap = [] := by
  cases rows : map.vBucketMapForward with
  | none =>
    simp only [parseForward, rows, Option.some.injEq] at parsed
    simp only [rows, Option.map_none] at last
    rw [← parsed, List.append_nil, last]
    simp [upToDate.forwardMap]
  | some rows' =>
    simp only [parseForward, rows] at parsed
    simp only [rows, Option.map_some] at last
    rw [last]
    simp only [append_shows_iff parsed, Option.some.injEq, forall_eq', and_comm]

theorem upToDate_step_iff {t : Tracking} {r : Refresh} (succeeds : t.Succeeds r)
    (upToDate : t.UpToDate) : (t.step r).UpToDate ↔ t.Fresh r := by
  obtain ⟨bucket, returned⟩ := Option.isSome_iff_exists.mp succeeds
  have newBucket : (t.step r).bucket = bucket := by simp [step, returned]
  cases answer : r.answer with
  | none =>
    have unchanged : bucket = t.bucket := by
      cases source : r.source with
      | getBucketFromCluster =>
        simpa [refresh, source, answer, getBucketFromCluster, eq_comm] using returned
      | getAllBuckets =>
        simpa [refresh, source, answer, parseGetBucketJson, eq_comm] using returned
    refine iff_of_true ⟨?_, ?_⟩ ?_
    · rw [newBucket, unchanged, upToDate.vbuckets]
      simp [step, answer]
    · rw [newBucket, unchanged, upToDate.forwardMap]
      simp [step, answer]
    · intro map received
      rw [answer] at received
      cases received
  | some map =>
    obtain ⟨forward, vbuckets, parsedForward, parsed, forwardMap, newVbuckets⟩ :=
      refresh_cases answer returned
    have lastMap : (t.step r).lastMap = (map.serverList, map.vBucketMap) := by simp [step, answer]
    have forwardIff := @forward_shows_iff t upToDate map forward parsedForward
      (t.step r).lastForward (by simp [step, answer])
    have vbucketsIff := @append_shows_iff _ _
      (if r.source = .getAllBuckets then t.bucket.vbuckets else []) _ parsed
    have emptied : (if r.source = .getAllBuckets then t.bucket.vbuckets else []) = [] ↔
        (r.source = .getAllBuckets → t.bucket.vbuckets = []) := by
      by_cases json : r.source = .getAllBuckets
      · simp [json]
      · simp [json]
    rw [← forwardMap] at forwardIff
    rw [← newVbuckets, emptied] at vbucketsIff
    constructor
    · intro ⟨showsMap, showsForward⟩
      rw [newBucket, lastMap] at showsMap
      rw [newBucket] at showsForward
      intro received isAnswer
      rw [answer, Option.some.injEq] at isAnswer
      subst isAnswer
      obtain ⟨empty, masters⟩ := vbucketsIff.mp showsMap
      exact ⟨masters, empty, forwardIff.mp showsForward⟩
    · intro fresh
      obtain ⟨masters, empty, forwardFresh⟩ := fresh map answer
      refine ⟨?_, ?_⟩
      · rw [newBucket, lastMap]
        exact vbucketsIff.mpr ⟨empty, masters⟩
      · rw [newBucket]
        exact forwardIff.mpr forwardFresh

/-- The bucket shows the last maps throughout a series of refreshes exactly if every row names
    a master and nothing is ever appended to an older map. -/
theorem upToDate_iff_fresh {refreshes : List Refresh}
    (succeed : Guarded step Succeeds {} refreshes) :
    (∀ before after, refreshes = before ++ after → (run step {} before).UpToDate) ↔
      Guarded step Fresh {} refreshes :=
  @Guarded.forall_prefix_iff _ _ step Succeeds (fun _ => True) UpToDate Fresh
    (fun _ _ _ _ => trivial) (fun _ _ _ succeeds upToDate => upToDate_step_iff succeeds upToDate)
    _ trivial ⟨rfl, rfl⟩ _ succeed

/-- One vBucket on the first of two servers with a replica on the second. -/
def oneVBucket : Refresh :=
  { source := .getAllBuckets, answer := some { serverList := ["a", "b"], vBucketMap := [[0, 1]] } }

/-- The same vBucket after a failover of the first server, as the REST helper reads it -/
def movedVBucket : Refresh :=
  { source := .getBucketFromCluster, answer := some { serverList := ["a", "b"], vBucketMap := [[1, -1]] } }

theorem upToDate_of_movedVBucket :
    Guarded step Succeeds {} [oneVBucket, movedVBucket, movedVBucket] ∧
      ∀ before after, [oneVBucket, movedVBucket, movedVBucket] = before ++ after →
        (run step {} before).UpToDate := by
  refine ⟨by decide, (upToDate_iff_fresh (by decide)).mpr ⟨?_, ?_, ?_, trivial⟩⟩
  all_goals
    intro map answer
    cases answer
  · exact ⟨by decide, fun _ => rfl, nofun⟩
  · exact ⟨by decide, nofun, nofun⟩
  · exact ⟨by decide, nofun, nofun⟩

/-- The second look at the same answer leaves two entries for the one vBucket. -/
theorem oneVBucket_twice_not_upToDate :
    ¬ ∀ refreshes, Guarded step Succeeds {} refreshes → (run step {} refreshes).UpToDate := by
  intro always
  have shown := (always [oneVBucket, oneVBucket] (by decide)).vbuckets
  revert shown
  decide

end Tracking

end Taf.VBucketMap
