import Taf.Lib.Dict
import Taf.Lib.PyJson
import Taf.Lib.Run
import Taf.Lib.Text

/-! # The check of the DCP statistics

`collect_compare_dcp_stats` starts with `True` under the name of every bucket.  Where a statistic has
another value than it should have, `False` is written under the bucket itself, an object that is equal
to no name: the verdict under the name stays. -/

namespace Taf.DataAnalysis

open Taf.Lib

/-- A key of `bucketMap` -/
inductive BucketKey (B : Type) where
  | name (name : String)
  | object (bucket : B)
deriving DecidableEq

abbrev BucketMap (B : Type) := AList fun _ : BucketKey B => Bool

/-- What `collect_compare_dcp_stats` is asked to compare -/
structure DcpQuery where
  statName : String
  compareValue : ℤ
  flowControlBufferSize : ℤ
  filterList : List String

abbrev DcpStat := String × String

variable {B S : Type} [DecidableEq B]

/-- A round of the innermost loop; `none` is a `ValueError`. -/
def checkStat (query : DcpQuery) (bucket : B) (bucketMap : BucketMap B) (stat : DcpStat) : Option (BucketMap B) :=
  if occursIn query.statName stat.1 then do
    let doFilter := query.filterList.any fun filterKey => occursIn filterKey stat.1
    let value ← PyJson.parseInt stat.2
    -- the value of a filtered statistic is converted nevertheless
    if doFilter then return bucketMap
    if value = query.compareValue then return bucketMap
    if occursIn "eq_dcpq:mapreduce_view" stat.1 then
      return if query.flowControlBufferSize ≤ value then bucketMap.insert (.object bucket) false else bucketMap
    else return bucketMap.insert (.object bucket) false
  else return bucketMap

/-- `dcpStats server name` is what `Cbstats.dcp_stats` returns for the bucket of that name. -/
def collectCompareDcpStats (query : DcpQuery) (name : B → String) (dcpStats : S → String → List DcpStat)
    (buckets : List B) (servers : List S) : Option (BucketMap B) :=
  buckets.foldlM (fun bucketMap bucket =>
    servers.foldlM (fun bucketMap server =>
      (dcpStats server (name bucket)).foldlM (checkStat query bucket) bucketMap) bucketMap)
    (assignAll (buckets.map fun bucket => (.name (name bucket), true)) ∅)

/-! ## The verdict that is meant -/

def Matches (query : DcpQuery) (stat : DcpStat) : Prop := occursIn query.statName stat.1 = true

/-- The value of an unfiltered statistic is not the one to compare with, and it is not small either if the
    statistic is one of a view. -/
def Violates (query : DcpQuery) (stat : DcpStat) : Prop :=
  Matches query stat ∧ (∀ filterKey ∈ query.filterList, occursIn filterKey stat.1 = false) ∧
    ∃ value, PyJson.parseInt stat.2 = some value ∧ value ≠ query.compareValue ∧
      (occursIn "eq_dcpq:mapreduce_view" stat.1 = true → query.flowControlBufferSize ≤ value)

def Violating (query : DcpQuery) (name : B → String) (dcpStats : S → String → List DcpStat) (servers : List S)
    (bucket : B) : Prop :=
  ∃ server ∈ servers, ∃ stat ∈ dcpStats server (name bucket), Violates query stat

/-- `False` stands under the names of the violating buckets, and nothing stands under anything but a name. -/
structure Reports (query : DcpQuery) (name : B → String) (dcpStats : S → String → List DcpStat) (buckets : List B)
    (servers : List S) (bucketMap : BucketMap B) : Prop where
  verdicts : ∀ bucket ∈ buckets,
    bucketMap.lookup (.name (name bucket)) = some false ↔ Violating query name dcpStats servers bucket
  keys : ∀ key ∈ bucketMap, ∃ bucket ∈ buckets, key = .name (name bucket)

section

variable {query : DcpQuery} {name : B → String} {dcpStats : S → String → List DcpStat} {buckets : List B} {servers : List S}
  {bucketMap next : BucketMap B} {bucket : B} {stat : DcpStat} {key : BucketKey B}

/-! ## One statistic -/

theorem checkStat_returns : (∃ next, checkStat query bucket bucketMap stat = some next) ↔
    (Matches query stat → ∃ value, PyJson.parseInt stat.2 = some value) := by
  rw [checkStat, Matches]
  by_cases isMatch : occursIn query.statName stat.1
  · rw [if_pos isMatch, forall_prop_of_true isMatch]
    cases PyJson.parseInt stat.2 with
    | none => simp
    | some value =>
      simp only [Option.bind_eq_bind, Option.bind_some, Option.pure_def]
      exact iff_of_true (by split_ifs <;> exact ⟨_, rfl⟩) ⟨value, rfl⟩
  · rw [if_neg isMatch]
    exact iff_of_true ⟨bucketMap, rfl⟩ fun matched => absurd matched isMatch

/-- A statistic that violates is written under the object, and nothing else is written. -/
theorem checkStat_some (stepped : checkStat query bucket bucketMap stat = some next) :
    (next = bucketMap ∧ ¬ Violates query stat) ∨ (next = bucketMap.insert (.object bucket) false ∧ Violates query stat) := by
  rw [checkStat] at stepped
  by_cases isMatch : occursIn query.statName stat.1
  · rw [if_pos isMatch] at stepped
    obtain ⟨value, isValue, stepped⟩ := Option.bind_eq_some_iff.mp stepped
    have violates : Violates query stat ↔ (query.filterList.any fun filterKey => occursIn filterKey stat.1) = false ∧
        value ≠ query.compareValue ∧ (occursIn "eq_dcpq:mapreduce_view" stat.1 = true → query.flowControlBufferSize ≤ value) := by
      simp [Violates, Matches, isMatch, isValue]
    rw [violates]
    split_ifs at stepped <;> cases stepped <;> simp_all
  · rw [if_neg isMatch] at stepped
    cases stepped
    exact .inl ⟨rfl, fun violates => isMatch violates.1⟩

/-! ## All statistics -/

/-- The loops over buckets, servers and statistics, written as one -/
def visits (name : B → String) (dcpStats : S → String → List DcpStat) (buckets : List B) (servers : List S) :
    List (B × DcpStat) :=
  buckets.flatMap fun bucket => servers.flatMap fun server => (dcpStats server (name bucket)).map fun stat => (bucket, stat)

def startMap (name : B → String) (buckets : List B) : BucketMap B :=
  assignAll (buckets.map fun bucket => (.name (name bucket), true)) ∅

theorem collect_eq : collectCompareDcpStats query name dcpStats buckets servers =
    (visits name dcpStats buckets servers).foldlM (fun bucketMap visit => checkStat query visit.1 bucketMap visit.2)
      (startMap name buckets) := by
  rw [collectCompareDcpStats, visits, foldlM_flatMap]
  simp only [foldlM_flatMap, List.foldlM_map]
  rfl

omit [DecidableEq B] in
theorem mem_visits {visit : B × DcpStat} : visit ∈ visits name dcpStats buckets servers ↔
    visit.1 ∈ buckets ∧ ∃ server ∈ servers, visit.2 ∈ dcpStats server (name visit.1) := by
  obtain ⟨bucket, stat⟩ := visit
  simp only [visits, List.mem_flatMap, List.mem_map, Prod.mk.injEq]
  constructor
  · rintro ⟨other, isBucket, server, isServer, stat', isStat, rfl, rfl⟩
    exact ⟨isBucket, server, isServer, isStat⟩
  · rintro ⟨isBucket, server, isServer, isStat⟩
    exact ⟨bucket, isBucket, server, isServer, stat, isStat, rfl, rfl⟩

/-- The verdicts under the names are those of the start. -/
theorem lookup_name {visited : List (B × DcpStat)} (returned : visited.foldlM
    (fun bucketMap visit => checkStat query visit.1 bucketMap visit.2) bucketMap = some next) (text : String) :
    next.lookup (.name text) = bucketMap.lookup (.name text) := by
  refine foldlM_behind (R := fun _ reached => reached.lookup (.name text) = bucketMap.lookup (.name text)) returned rfl ?_
  intro _ reached visit _ after stepped same
  rw [← same]
  rcases checkStat_some stepped with ⟨kept, _⟩ | ⟨written, _⟩
  · rw [kept]
  · rw [written, AList.lookup_insert_ne (by simp)]

/-- The objects in the map are the buckets that violate. -/
theorem mem_object {visited : List (B × DcpStat)} (returned : visited.foldlM
    (fun bucketMap visit => checkStat query visit.1 bucketMap visit.2) bucketMap = some next)
    (fresh : .object bucket ∉ bucketMap) :
    .object bucket ∈ next ↔ ∃ visit ∈ visited, visit.1 = bucket ∧ Violates query visit.2 := by
  refine foldlM_behind (R := fun behind reached => .object bucket ∈ reached ↔
    ∃ visit ∈ behind, visit.1 = bucket ∧ Violates query visit.2) returned (by simp [fresh]) ?_
  intro behind reached visit _ after stepped same
  have split : (∃ other ∈ behind ++ [visit], other.1 = bucket ∧ Violates query other.2) ↔
      (∃ other ∈ behind, other.1 = bucket ∧ Violates query other.2) ∨ (visit.1 = bucket ∧ Violates query visit.2) := by
    simp only [List.mem_append, List.mem_singleton, or_and_right, exists_or, exists_eq_left]
  rw [split, ← same]
  rcases checkStat_some stepped with ⟨kept, fine⟩ | ⟨written, violates⟩
  · simp [kept, fine]
  · rw [written, AList.mem_insert]
    simp [violates, or_comm, eq_comm]

theorem lookup_start (isBucket : bucket ∈ buckets) : (startMap name buckets).lookup (.name (name bucket)) = some true := by
  have present : ((startMap name buckets).lookup (.name (name bucket))).isSome :=
    lookup_assignAll_isSome.mpr (.inl (List.mem_map.mpr ⟨_, List.mem_map_of_mem isBucket, rfl⟩))
  obtain ⟨verdict, found⟩ := Option.isSome_iff_exists.mp present
  rcases lookup_assignAll_cases found with assigned | ⟨_, impossible⟩
  · obtain ⟨other, _, same⟩ := List.mem_map.mp assigned
    rw [found, ← (Prod.mk.inj same).2]
  · cases impossible

theorem mem_start (member : key ∈ startMap name buckets) : ∃ bucket ∈ buckets, key = .name (name bucket) := by
  rcases lookup_assignAll_isSome.mp (AList.lookup_isSome.mpr member) with assigned | impossible
  · obtain ⟨pair, isPair, rfl⟩ := List.mem_map.mp assigned
    obtain ⟨bucket, isBucket, rfl⟩ := List.mem_map.mp isPair
    exact ⟨bucket, isBucket, rfl⟩
  · cases impossible

theorem collect_returns_iff : (∃ bucketMap, collectCompareDcpStats query name dcpStats buckets servers = some bucketMap) ↔
    ∀ bucket ∈ buckets, ∀ server ∈ servers, ∀ stat ∈ dcpStats server (name bucket),
      Matches query stat → ∃ value, PyJson.parseInt stat.2 = some value := by
  have each : ∀ (bucketMap : BucketMap B) (visit : B × DcpStat),
      (∃ next, checkStat query visit.1 bucketMap visit.2 = some next) ↔
        (Matches query visit.2 → ∃ value, PyJson.parseInt visit.2.2 = some value) := fun _ _ => checkStat_returns
  rw [collect_eq, foldlM_isSome_iff each]
  constructor
  · intro all bucket isBucket server isServer stat isStat
    exact all (bucket, stat) (mem_visits.mpr ⟨isBucket, server, isServer, isStat⟩)
  · intro all visit member
    obtain ⟨isBucket, server, isServer, isStat⟩ := mem_visits.mp member
    exact all visit.1 isBucket server isServer visit.2 isStat

/-- A map is returned exactly if all values to compare are integers, and it reports the violations exactly if there
    are none. -/
theorem collect_reports_iff (query : DcpQuery) (name : B → String) (dcpStats : S → String → List DcpStat) (buckets : List B)
    (servers : List S) :
    ((∃ bucketMap, collectCompareDcpStats query name dcpStats buckets servers = some bucketMap) ↔
      ∀ bucket ∈ buckets, ∀ server ∈ servers, ∀ stat ∈ dcpStats server (name bucket),
        Matches query stat → ∃ value, PyJson.parseInt stat.2 = some value) ∧
    ∀ bucketMap, collectCompareDcpStats query name dcpStats buckets servers = some bucketMap →
      (Reports query name dcpStats buckets servers bucketMap ↔
        ∀ bucket ∈ buckets, ¬ Violating query name dcpStats servers bucket) := by
  refine ⟨collect_returns_iff, fun bucketMap returned => ?_⟩
  rw [collect_eq] at returned
  have noObject : ∀ bucket, .object bucket ∉ startMap name buckets := by
    intro bucket member
    obtain ⟨_, _, impossible⟩ := mem_start member
    cases impossible
  have isTrue : ∀ bucket ∈ buckets, bucketMap.lookup (.name (name bucket)) = some true := by
    intro bucket isBucket
    rw [lookup_name returned, lookup_start isBucket]
  constructor
  · -- a violation leaves a key that is no name
    rintro reports bucket isBucket ⟨server, isServer, stat, isStat, violates⟩
    have visited : (bucket, stat) ∈ visits name dcpStats buckets servers := mem_visits.mpr ⟨isBucket, server, isServer, isStat⟩
    have written := (mem_object returned (noObject bucket)).mpr ⟨_, visited, rfl, violates⟩
    obtain ⟨_, _, impossible⟩ := reports.keys _ written
    cases impossible
  · -- without a violation the map stays what it is at the start
    intro fine
    constructor
    · intro bucket isBucket
      rw [isTrue bucket isBucket]
      simpa using fine bucket isBucket
    · intro key member
      cases key with
      | name text =>
        rw [← AList.lookup_isSome, lookup_name returned, AList.lookup_isSome] at member
        exact mem_start member
      | object bucket =>
        obtain ⟨visit, visited, rfl, violates⟩ := (mem_object returned (noObject bucket)).mp member
        obtain ⟨isBucket, server, isServer, isStat⟩ := mem_visits.mp visited
        exact absurd ⟨server, isServer, visit.2, isStat, violates⟩ (fine visit.1 isBucket)

/-- One stream has unacknowledged bytes. -/
def unackedStats (_server : Unit) (_name : String) : List DcpStat := [("eq_dcpq:replication:unacked_bytes", "5")]

theorem violation_not_reported : ∃ bucketMap,
    collectCompareDcpStats ⟨"unacked_bytes", 0, 20971520, []⟩ (fun _ : Unit => "default") unackedStats [()] [()] = some bucketMap ∧
      ¬ Reports ⟨"unacked_bytes", 0, 20971520, []⟩ (fun _ : Unit => "default") unackedStats [()] [()] bucketMap := by
  refine ⟨(startMap (fun _ : Unit => "default") [()]).insert (.object ()) false, rfl, fun reports => ?_⟩
  obtain ⟨_, _, impossible⟩ := reports.keys (.object ()) ((AList.mem_insert _).mpr (.inl rfl))
  cases impossible

end

end Taf.DataAnalysis
