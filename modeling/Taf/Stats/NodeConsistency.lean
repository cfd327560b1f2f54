import Taf.Lib.Dict
import Taf.Lib.DictLoops
import Taf.Lib.FirstSeen
import Taf.Lib.PyJson

/-! # Consistency of the nodes

`compare_per_node_for_vbucket_consistency` and `compare_per_node_for_failovers_consistency` of
`bucket_ready_functions.py`.  Both go through buckets, nodes and vBuckets, keep what the first node says
about a vBucket, and note where a later node differs.  A dictionary is iterated in the order of its
entries, so that independence of the order is a statement about two maps with the same contents. -/

namespace Taf.Stats.NodeConsistency

open Taf.Lib

/-- A statistic whose text is a number for `int` -/
structure Decimal where
  text : String
  number : ℤ
  reads : PyJson.parseInt text = some number

/-- Statistics by bucket, node and vBucket -/
abbrev PerNode (S : Type) := AList fun _ : String => AList fun _ : String => AList fun _ : String => S

/-- Statistics by bucket and vBucket -/
abbrev BucketMap (S : Type) := AList fun _ : String => AList fun _ : String => S

/-! ## The loops -/

section

variable {S : Type}

/-- The two inner loops: `map` together with the node that each of its entries comes from -/
def compareNodes (differ : String → String × S → String × S → List String)
    (nodes : AList fun _ : String => AList fun _ : String => S) : FirstSeen String (String × S) String :=
  nodes.entries.foldl (fun seen node =>
    node.2.entries.foldl (fun seen vbucket => seen.see differ (vbucket.1, (node.1, vbucket.2))) seen) FirstSeen.empty

structure Comparison (S : Type) where
  bucketMap : BucketMap S
  logic : Bool
  output : String

/-- One bucket; `output` starts anew with each of them. -/
def compareBucket (differ : String → String → String × S → String × S → List String)
    (comparison : Comparison S) (bucket : String) (nodes : AList fun _ : String => AList fun _ : String => S) :
    Comparison S :=
  let seen := compareNodes (differ bucket) nodes
  { bucketMap := comparison.bucketMap.insert bucket (mapValues Prod.snd seen.first)
    logic := comparison.logic && seen.notes.isEmpty
    output := String.join seen.notes }

/-- The exception carries the text of the last bucket. -/
def comparePerNode (differ : String → String → String × S → String × S → List String) (map1 : PerNode S) :
    Except String (BucketMap S) :=
  let comparison := map1.entries.foldl (fun comparison bucket => compareBucket differ comparison bucket.1 bucket.2)
    ⟨∅, true, ""⟩
  if comparison.logic then .ok comparison.bucketMap else .error comparison.output

end

/-! ## The sequence numbers -/

structure SeqnoStats where
  uuid : String
  absHighSeqno : Decimal
  purgeSeqno : Decimal

/-- What differs between the node that was met first and another one; a difference of the purge sequence
numbers is told with the other ones. -/
def seqnoDiffer (checkAbsHighSeqno checkPurgeSeqno : Bool) (bucket vbucket : String)
    (original change : String × SeqnoStats) : List String :=
  let commonStr := "\n bucket " ++ bucket ++ ", vbucket " ++ vbucket ++ " :: Original in node " ++ original.1 ++
    ". UUID"
  let told (first later : String) := commonStr ++ " " ++ first ++ ", Change in node " ++ change.1 ++ ". UUID " ++ later
  (if original.2.uuid ≠ change.2.uuid then [told original.2.uuid change.2.uuid] else []) ++
  (if checkAbsHighSeqno ∧ original.2.absHighSeqno.number ≠ change.2.absHighSeqno.number then
    [told original.2.absHighSeqno.text change.2.absHighSeqno.text] else []) ++
  (if checkPurgeSeqno ∧ original.2.purgeSeqno.number ≠ change.2.purgeSeqno.number then
    [told original.2.absHighSeqno.text change.2.absHighSeqno.text] else [])

/-- `compare_per_node_for_vbucket_consistency` -/
def comparePerNodeForVbucketConsistency (map1 : PerNode SeqnoStats) (checkAbsHighSeqno checkPurgeSeqno : Bool) :
    Except String (BucketMap SeqnoStats) :=
  comparePerNode (seqnoDiffer checkAbsHighSeqno checkPurgeSeqno) map1

/-! ## The failover logs -/

structure FailoverStats where
  id : String
  seq : Decimal
  numEntries : Decimal

/-- The states are those of `vbucketMap`, which has been collected from the same nodes. -/
def failoverDiffer (state : String → String → String → String) (bucket vbucket : String)
    (original change : String × FailoverStats) : List String :=
  let original_ := original.1 ++ " " ++ state bucket original.1 vbucket
  let change_ := change.1 ++ " " ++ state bucket change.1 vbucket
  let commonStr := "\n bucket " ++ bucket ++ ", vbucket " ++ vbucket ++ " :: Original node " ++ original_
  (if original.2.id ≠ change.2.id then
    [commonStr ++ " :: UUID " ++ original.2.id ++ ", Change node " ++ change_ ++ " UUID " ++ change.2.id] else []) ++
  (if original.2.seq.number ≠ change.2.seq.number then
    [commonStr ++ " :: seq " ++ original.2.seq.text ++ ", Change node " ++ change_ ++ "  :: seq " ++
      change.2.seq.text] else []) ++
  (if original.2.numEntries.number ≠ change.2.numEntries.number then
    [commonStr ++ " :: num_entries " ++ original.2.numEntries.text ++ ", Change node " ++ change_ ++
      " :: num_entries " ++ change.2.numEntries.text] else [])

/-- `compare_per_node_for_failovers_consistency` -/
def comparePerNodeForFailoversConsistency (map1 : PerNode FailoverStats)
    (state : String → String → String → String) : Except String (BucketMap FailoverStats) :=
  comparePerNode (failoverDiffer state) map1

/-! ## Consistency of all pairs -/

section

variable {S : Type}

/-- A node holds a vBucket with these statistics. -/
def HeldBy (map1 : PerNode S) (bucket node vbucket : String) (stats : S) : Prop :=
  ∃ nodes ∈ map1.lookup bucket, ∃ vbuckets ∈ nodes.lookup node, vbuckets.lookup vbucket = some stats

/-- Any two nodes that hold a vBucket of a bucket agree on it. -/
def Consistent (agree : S → S → Prop) (map1 : PerNode S) : Prop :=
  ∀ bucket vbucket node stats node' stats', HeldBy map1 bucket node vbucket stats →
    HeldBy map1 bucket node' vbucket stats' → agree stats stats'

def entryAt (bucketMap : BucketMap S) (bucket vbucket : String) : Option S :=
  (bucketMap.lookup bucket).bind fun map => map.lookup vbucket

/-- The statistics of the first node in the map's order that holds the vBucket -/
def firstMet (map1 : PerNode S) (bucket vbucket : String) : Option S :=
  (map1.lookup bucket).bind fun nodes => nodes.entries.findSome? fun node => node.2.lookup vbucket

/-- Two maps that differ at most in the order of their entries -/
def SameContents (map1 map2 : PerNode S) : Prop :=
  ∀ bucket node vbucket stats, HeldBy map1 bucket node vbucket stats ↔ HeldBy map2 bucket node vbucket stats

/-- What a comparison promises: it raises exactly where two nodes disagree, and otherwise returns for every
vBucket that is held the statistics of the first of its nodes, with which all of them agree.  In another order
of the map it does the same, up to what the nodes are not compared in. -/
structure ComparesAllPairs (agree : S → S → Prop) (compare : PerNode S → Except String (BucketMap S))
    (map1 : PerNode S) : Prop where
  raises : (∃ output, compare map1 = .error output) ↔ ¬ Consistent agree map1
  buckets : ∀ bucketMap, compare map1 = .ok bucketMap → ∀ bucket, bucket ∈ bucketMap ↔ bucket ∈ map1
  vbuckets : ∀ bucketMap, compare map1 = .ok bucketMap → ∀ bucket vbucket,
    (∃ entry, entryAt bucketMap bucket vbucket = some entry) ↔ ∃ node stats, HeldBy map1 bucket node vbucket stats
  common : ∀ bucketMap, compare map1 = .ok bucketMap → ∀ bucket vbucket entry,
    entryAt bucketMap bucket vbucket = some entry → (∃ node, HeldBy map1 bucket node vbucket entry) ∧
      ∀ node stats, HeldBy map1 bucket node vbucket stats → agree entry stats
  first : ∀ bucketMap, compare map1 = .ok bucketMap → ∀ bucket vbucket,
    entryAt bucketMap bucket vbucket = firstMet map1 bucket vbucket
  order : ∀ map2, SameContents map1 map2 →
    ((∃ output, compare map1 = .error output) ↔ ∃ output, compare map2 = .error output) ∧
    ∀ bucketMap bucketMap', compare map1 = .ok bucketMap → compare map2 = .ok bucketMap' →
      ∀ bucket vbucket, Option.Rel agree (entryAt bucketMap bucket vbucket) (entryAt bucketMap' bucket vbucket)

end

/-! ## One bucket -/

section

variable {S : Type} {differ : String → String × S → String × S → List String}
  {nodes : AList fun _ : String => AList fun _ : String => S} {node vbucket : String} {stats : S}

/-- What the two inner loops go through, each vBucket with its node -/
def itemsOf (nodes : AList fun _ : String => AList fun _ : String => S) : List (String × (String × S)) :=
  nodes.entries.flatMap fun node => node.2.entries.map fun vbucket => (vbucket.1, (node.1, vbucket.2))

theorem compareNodes_eq : compareNodes differ nodes = FirstSeen.empty.seeAll differ (itemsOf nodes) := by
  simp only [compareNodes, FirstSeen.seeAll, itemsOf, List.foldl_flatMap, List.foldl_map]

theorem mem_itemsOf : (vbucket, (node, stats)) ∈ itemsOf nodes ↔
    ∃ vbuckets ∈ nodes.lookup node, vbuckets.lookup vbucket = some stats := by
  simp only [itemsOf, List.mem_flatMap, List.mem_map, Prod.mk.injEq]
  constructor
  · intro found
    obtain ⟨⟨name, vbuckets⟩, member, ⟨key, value⟩, entry, rfl, rfl, rfl⟩ := found
    exact ⟨vbuckets, AList.mem_lookup_iff.mpr member, AList.mem_lookup_iff.mpr entry⟩
  · intro found
    obtain ⟨vbuckets, member, entry⟩ := found
    exact ⟨⟨node, vbuckets⟩, AList.mem_lookup_iff.mp member, ⟨vbucket, stats⟩, AList.mem_lookup_iff.mp entry,
      rfl, rfl, rfl⟩

theorem lookup_compareNodes (found : (compareNodes differ nodes).first.lookup vbucket = some (node, stats)) :
    ∃ vbuckets ∈ nodes.lookup node, vbuckets.lookup vbucket = some stats := by
  rw [compareNodes_eq] at found
  obtain known | first := FirstSeen.mem_of_lookup_seeAll found
  · exact absurd known (by simp [FirstSeen.empty])
  · exact mem_itemsOf.mp first

/-- What is kept of a vBucket comes from the first node that holds it. -/
theorem lookup_itemsOf : ((itemsOf nodes).lookup vbucket).map Prod.snd =
    nodes.entries.findSome? fun node => node.2.lookup vbucket := by
  rw [itemsOf]
  induction nodes.entries with
  | nil => rfl
  | cons node entries ih =>
    have own : ((node.2.entries.map fun vbucket => (vbucket.1, (node.1, vbucket.2))).lookup vbucket).map Prod.snd =
        node.2.lookup vbucket := by
      rw [AList.lookup]
      induction node.2.entries with
      | nil => rfl
      | cons entry entries ih =>
        by_cases same : vbucket = entry.1
        · subst same
          rw [List.map_cons, List.lookup_cons_self, List.dlookup_cons_eq]
          rfl
        · rw [List.map_cons, List.lookup_cons, beq_false_of_ne same, List.dlookup_cons_ne _ _ same, ← ih]
    rw [List.flatMap_cons, List.lookup_append, List.findSome?_cons, Option.map_or, own, ih]
    cases node.2.lookup vbucket <;> rfl

theorem lookup_compareNodes_of_held {vbuckets : AList fun _ : String => S} (here : vbuckets ∈ nodes.lookup node)
    (held : vbuckets.lookup vbucket = some stats) :
    ∃ first, (compareNodes differ nodes).first.lookup vbucket = some first := by
  rw [compareNodes_eq]
  exact FirstSeen.lookup_seeAll_of_mem (mem_itemsOf.mpr ⟨vbuckets, here, held⟩)

theorem notes_compareNodes_iff {agree : S → S → Prop} (equiv : Equivalence agree)
    (differ_iff : ∀ vbucket original change, differ vbucket original change = [] ↔ agree original.2 change.2) :
    (compareNodes differ nodes).notes = [] ↔ ∀ vbucket node stats node' stats',
      (∃ vbuckets ∈ nodes.lookup node, vbuckets.lookup vbucket = some stats) →
      (∃ vbuckets ∈ nodes.lookup node', vbuckets.lookup vbucket = some stats') → agree stats stats' := by
  rw [compareNodes_eq, FirstSeen.notes_eq_nil_iff differ_iff (equiv.comap Prod.snd)]
  simp only [← mem_itemsOf]
  constructor
  · intro pairs vbucket node stats node' stats' held held'
    exact pairs _ held _ held' rfl
  · intro pairs item member other member' same
    obtain ⟨vbucket, node, stats⟩ := item
    obtain ⟨vbucket', node', stats'⟩ := other
    cases same
    exact pairs vbucket node stats node' stats' member member'

end

/-! ## All buckets -/

section

variable {S : Type} {differ : String → String → String × S → String × S → List String} {map1 : PerNode S}
  {bucket vbucket : String}

theorem foldl_compareBucket (entries : List (Σ _ : String, AList fun _ : String => AList fun _ : String => S))
    (comparison : Comparison S) :
    (entries.foldl (fun comparison bucket => compareBucket differ comparison bucket.1 bucket.2) comparison).logic =
        (comparison.logic && entries.all fun bucket => (compareNodes (differ bucket.1) bucket.2).notes.isEmpty) ∧
      (entries.foldl (fun comparison bucket => compareBucket differ comparison bucket.1 bucket.2)
          comparison).bucketMap =
        assignAll (entries.map fun bucket =>
          (bucket.1, mapValues Prod.snd (compareNodes (differ bucket.1) bucket.2).first)) comparison.bucketMap := by
  induction entries generalizing comparison with
  | nil => exact ⟨(Bool.and_true _).symm, rfl⟩
  | cons entry entries ih =>
    obtain ⟨logic, bucketMap⟩ := ih (compareBucket differ comparison entry.1 entry.2)
    rw [List.foldl_cons, logic, bucketMap]
    exact ⟨by simp [compareBucket, Bool.and_assoc], rfl⟩

/-- What a comparison without a note returns -/
def firstStats (differ : String → String → String × S → String × S → List String) (map1 : PerNode S) :
    BucketMap S :=
  assignAll (map1.entries.map fun bucket =>
    (bucket.1, mapValues Prod.snd (compareNodes (differ bucket.1) bucket.2).first)) ∅

/-- No bucket has a note. -/
def Quiet (differ : String → String → String × S → String × S → List String) (map1 : PerNode S) : Prop :=
  ∀ bucket ∈ map1.entries, (compareNodes (differ bucket.1) bucket.2).notes = []

theorem comparePerNode_of_quiet (quiet : Quiet differ map1) :
    comparePerNode differ map1 = .ok (firstStats differ map1) := by
  obtain ⟨logic, bucketMap⟩ := @foldl_compareBucket S differ map1.entries ⟨∅, true, ""⟩
  have silent : (map1.entries.all fun bucket => (compareNodes (differ bucket.1) bucket.2).notes.isEmpty) = true :=
    List.all_eq_true.mpr fun bucket member => List.isEmpty_iff.mpr (quiet bucket member)
  rw [comparePerNode, logic, silent, bucketMap]
  rfl

theorem comparePerNode_of_not_quiet (noted : ¬ Quiet differ map1) :
    ∃ output, comparePerNode differ map1 = .error output := by
  obtain ⟨logic, -⟩ := @foldl_compareBucket S differ map1.entries ⟨∅, true, ""⟩
  have loud : (map1.entries.all fun bucket => (compareNodes (differ bucket.1) bucket.2).notes.isEmpty) = false := by
    rw [← Bool.not_eq_true, List.all_eq_true]
    exact fun silent => noted fun bucket member => List.isEmpty_iff.mp (silent bucket member)
  rw [comparePerNode, logic, loud]
  exact ⟨_, rfl⟩

theorem lookup_firstStats : (firstStats differ map1).lookup bucket =
    (map1.lookup bucket).map fun nodes => mapValues Prod.snd (compareNodes (differ bucket) nodes).first := by
  have distinct : ((map1.entries.map fun bucket =>
      (bucket.1, mapValues Prod.snd (compareNodes (differ bucket.1) bucket.2).first)).map Prod.fst).Nodup := by
    rw [List.map_map]
    exact map1.nodupKeys
  cases found : map1.lookup bucket with
  | some nodes =>
    exact lookup_assignAll_of_mem distinct
      (List.mem_map.mpr ⟨⟨bucket, nodes⟩, AList.mem_lookup_iff.mp found, rfl⟩)
  | none =>
    refine lookup_assignAll_of_notMem fun member => ?_
    rw [List.map_map] at member
    exact AList.lookup_eq_none.mp found member

theorem entryAt_firstStats {entry : S} : entryAt (firstStats differ map1) bucket vbucket = some entry ↔
    ∃ nodes ∈ map1.lookup bucket, ∃ node,
      (compareNodes (differ bucket) nodes).first.lookup vbucket = some (node, entry) := by
  rw [entryAt, lookup_firstStats, Option.bind_eq_some_iff]
  simp only [Option.map_eq_some_iff, exists_exists_and_eq_and, lookup_mapValues, Prod.exists, exists_eq_right]
  rfl

/-- Nothing is noted in any bucket exactly where all pairs agree. -/
theorem quiet_iff {agree : S → S → Prop} (equiv : Equivalence agree)
    (differ_iff : ∀ bucket vbucket original change,
      differ bucket vbucket original change = [] ↔ agree original.2 change.2) :
    Quiet differ map1 ↔ Consistent agree map1 := by
  constructor
  · intro quiet bucket vbucket node stats node' stats' held held'
    obtain ⟨nodes, here, held⟩ := held
    obtain ⟨nodes', here', held'⟩ := held'
    cases Option.mem_unique here here'
    have pairs := (notes_compareNodes_iff equiv (differ_iff bucket)).mp
      (quiet ⟨bucket, nodes⟩ (AList.mem_lookup_iff.mp here))
    exact pairs vbucket node stats node' stats' held held'
  · intro consistent bucket member
    refine (notes_compareNodes_iff equiv (differ_iff bucket.1)).mpr fun vbucket node stats node' stats' held held' => ?_
    have here : bucket.2 ∈ map1.lookup bucket.1 := AList.mem_lookup_iff.mpr member
    exact consistent bucket.1 vbucket node stats node' stats' ⟨bucket.2, here, held⟩ ⟨bucket.2, here, held'⟩

theorem Consistent.of_sameContents {agree : S → S → Prop} {map2 : PerNode S} (same : SameContents map1 map2)
    (consistent : Consistent agree map1) : Consistent agree map2 := by
  intro bucket vbucket node stats node' stats' held held'
  exact consistent bucket vbucket node stats node' stats' ((same _ _ _ _).mpr held) ((same _ _ _ _).mpr held')

theorem SameContents.symm {map2 : PerNode S} (same : SameContents map1 map2) : SameContents map2 map1 :=
  fun bucket node vbucket stats => (same bucket node vbucket stats).symm

section

variable {agree : S → S → Prop} (equiv : Equivalence agree) (differ_iff : ∀ bucket vbucket original change,
  differ bucket vbucket original change = [] ↔ agree original.2 change.2)

include equiv differ_iff

theorem comparePerNode_raises_iff :
    (∃ output, comparePerNode differ map1 = .error output) ↔ ¬ Consistent agree map1 := by
  rw [← quiet_iff equiv differ_iff]
  constructor
  · intro raised quiet
    obtain ⟨output, raised⟩ := raised
    rw [comparePerNode_of_quiet quiet] at raised
    exact nomatch raised
  · exact comparePerNode_of_not_quiet

theorem comparePerNode_ok_iff {bucketMap : BucketMap S} :
    comparePerNode differ map1 = .ok bucketMap ↔ Consistent agree map1 ∧ bucketMap = firstStats differ map1 := by
  rw [← quiet_iff equiv differ_iff]
  constructor
  · intro returned
    by_cases quiet : Quiet differ map1
    · rw [comparePerNode_of_quiet quiet] at returned
      exact ⟨quiet, (Except.ok.inj returned).symm⟩
    · obtain ⟨output, raised⟩ := comparePerNode_of_not_quiet quiet
      rw [raised] at returned
      exact nomatch returned
  · intro result
    rw [result.2]
    exact comparePerNode_of_quiet result.1

end

/-- The entry of a vBucket is that of one of its nodes. -/
theorem entryAt_held {entry : S} (found : entryAt (firstStats differ map1) bucket vbucket = some entry) :
    ∃ node, HeldBy map1 bucket node vbucket entry := by
  obtain ⟨nodes, here, node, first⟩ := entryAt_firstStats.mp found
  obtain ⟨vbuckets, held⟩ := lookup_compareNodes first
  exact ⟨node, nodes, here, vbuckets, held⟩

theorem entryAt_of_held {node : String} {stats : S} (held : HeldBy map1 bucket node vbucket stats) :
    ∃ entry, entryAt (firstStats differ map1) bucket vbucket = some entry := by
  obtain ⟨nodes, here, vbuckets, node_, held⟩ := held
  obtain ⟨⟨name, entry⟩, first⟩ := @lookup_compareNodes_of_held S (differ bucket) nodes _ _ _ _ node_ held
  exact ⟨entry, entryAt_firstStats.mpr ⟨nodes, here, name, first⟩⟩

/-- Nodes that agree give agreeing entries in every order of the map. -/
theorem Consistent.rel_entryAt {agree : S → S → Prop} {map2 : PerNode S} (consistent : Consistent agree map1)
    (same : SameContents map1 map2) :
    Option.Rel agree (entryAt (firstStats differ map1) bucket vbucket)
      (entryAt (firstStats differ map2) bucket vbucket) := by
  cases found : entryAt (firstStats differ map1) bucket vbucket with
  | some entry =>
    obtain ⟨node, held⟩ := entryAt_held found
    obtain ⟨entry', found'⟩ := @entryAt_of_held S differ map2 _ _ _ _ ((same _ _ _ _).mp held)
    obtain ⟨node', held'⟩ := entryAt_held found'
    rw [found']
    exact .some (consistent bucket vbucket node entry node' entry' held ((same _ _ _ _).mpr held'))
  | none =>
    cases found' : entryAt (firstStats differ map2) bucket vbucket with
    | some entry' =>
      obtain ⟨node', held'⟩ := entryAt_held found'
      obtain ⟨entry, here⟩ := @entryAt_of_held S differ map1 _ _ _ _ ((same _ _ _ _).mpr held')
      rw [found] at here
      exact nomatch here
    | none => exact .none

theorem entryAt_firstStats_eq : entryAt (firstStats differ map1) bucket vbucket = firstMet map1 bucket vbucket := by
  rw [entryAt, lookup_firstStats, firstMet]
  cases map1.lookup bucket with
  | none => rfl
  | some nodes =>
    change (mapValues Prod.snd (compareNodes (differ bucket) nodes).first).lookup vbucket = _
    rw [lookup_mapValues, compareNodes_eq, FirstSeen.lookup_seeAll, Option.bind_some, ← lookup_itemsOf]
    rfl

/-- A comparison whose notes are about an equivalence compares all pairs. -/
theorem comparesAllPairs {agree : S → S → Prop} (equiv : Equivalence agree)
    (differ_iff : ∀ bucket vbucket original change,
      differ bucket vbucket original change = [] ↔ agree original.2 change.2) :
    ComparesAllPairs agree (comparePerNode differ) map1 where
  raises := comparePerNode_raises_iff equiv differ_iff
  buckets := by
    intro bucketMap returned bucket
    rw [((comparePerNode_ok_iff equiv differ_iff).mp returned).2, ← AList.lookup_isSome, lookup_firstStats,
      Option.isSome_map, AList.lookup_isSome]
  vbuckets := by
    intro bucketMap returned bucket vbucket
    rw [((comparePerNode_ok_iff equiv differ_iff).mp returned).2]
    constructor
    · intro found
      obtain ⟨entry, found⟩ := found
      obtain ⟨node, held⟩ := entryAt_held found
      exact ⟨node, entry, held⟩
    · intro held
      obtain ⟨node, stats, held⟩ := held
      exact entryAt_of_held held
  common := by
    intro bucketMap returned bucket vbucket entry found
    obtain ⟨consistent, rfl⟩ := (comparePerNode_ok_iff equiv differ_iff).mp returned
    obtain ⟨node, held⟩ := entryAt_held found
    exact ⟨⟨node, held⟩, fun node' stats held' => consistent bucket vbucket node entry node' stats held held'⟩
  first := by
    intro bucketMap returned bucket vbucket
    rw [((comparePerNode_ok_iff equiv differ_iff).mp returned).2]
    exact entryAt_firstStats_eq
  order := by
    intro map2 same
    refine ⟨?_, fun bucketMap bucketMap' returned returned' bucket vbucket => ?_⟩
    · rw [comparePerNode_raises_iff equiv differ_iff, comparePerNode_raises_iff equiv differ_iff]
      exact not_congr ⟨Consistent.of_sameContents same, Consistent.of_sameContents same.symm⟩
    · obtain ⟨consistent, rfl⟩ := (comparePerNode_ok_iff equiv differ_iff).mp returned
      obtain ⟨-, rfl⟩ := (comparePerNode_ok_iff equiv differ_iff).mp returned'
      exact consistent.rel_entryAt same

end

/-! ## The two comparisons -/

/-- What two nodes are compared in: the numbers as the checks are on -/
def SeqnoAgree (checkAbsHighSeqno checkPurgeSeqno : Bool) (stats stats' : SeqnoStats) : Prop :=
  stats.uuid = stats'.uuid ∧
    (checkAbsHighSeqno → stats.absHighSeqno.number = stats'.absHighSeqno.number) ∧
    (checkPurgeSeqno → stats.purgeSeqno.number = stats'.purgeSeqno.number)

def FailoverAgree (stats stats' : FailoverStats) : Prop :=
  stats.id = stats'.id ∧ stats.seq.number = stats'.seq.number ∧ stats.numEntries.number = stats'.numEntries.number

theorem seqnoAgree_equivalence (checkAbsHighSeqno checkPurgeSeqno : Bool) :
    Equivalence (SeqnoAgree checkAbsHighSeqno checkPurgeSeqno) where
  refl _ := ⟨rfl, fun _ => rfl, fun _ => rfl⟩
  symm agree := ⟨agree.1.symm, fun on => (agree.2.1 on).symm, fun on => (agree.2.2 on).symm⟩
  trans first second := ⟨first.1.trans second.1, fun on => (first.2.1 on).trans (second.2.1 on),
    fun on => (first.2.2 on).trans (second.2.2 on)⟩

theorem failoverAgree_equivalence : Equivalence FailoverAgree where
  refl _ := ⟨rfl, rfl, rfl⟩
  symm agree := ⟨agree.1.symm, agree.2.1.symm, agree.2.2.symm⟩
  trans first second := ⟨first.1.trans second.1, first.2.1.trans second.2.1, first.2.2.trans second.2.2⟩

theorem seqnoDiffer_eq_nil_iff (checkAbsHighSeqno checkPurgeSeqno : Bool) (bucket vbucket : String)
    (original change : String × SeqnoStats) :
    seqnoDiffer checkAbsHighSeqno checkPurgeSeqno bucket vbucket original change = [] ↔
      SeqnoAgree checkAbsHighSeqno checkPurgeSeqno original.2 change.2 := by
  simp only [seqnoDiffer, SeqnoAgree, List.append_eq_nil_iff, ite_eq_right_iff, List.cons_ne_nil, imp_false,
    not_and, not_not, ne_eq, and_assoc]

theorem failoverDiffer_eq_nil_iff (state : String → String → String → String) (bucket vbucket : String)
    (original change : String × FailoverStats) :
    failoverDiffer state bucket vbucket original change = [] ↔ FailoverAgree original.2 change.2 := by
  simp only [failoverDiffer, FailoverAgree, List.append_eq_nil_iff, ite_eq_right_iff, List.cons_ne_nil, imp_false,
    not_not, ne_eq, and_assoc]

/-- Both functions compare all pairs of nodes in what they are asked to compare. -/
theorem nodeConsistency_allPairs (checkAbsHighSeqno checkPurgeSeqno : Bool) (seqnos : PerNode SeqnoStats)
    (state : String → String → String → String) (failovers : PerNode FailoverStats) :
    ComparesAllPairs (SeqnoAgree checkAbsHighSeqno checkPurgeSeqno)
        (fun map1 => comparePerNodeForVbucketConsistency map1 checkAbsHighSeqno checkPurgeSeqno) seqnos ∧
      ComparesAllPairs FailoverAgree (fun map1 => comparePerNodeForFailoversConsistency map1 state) failovers :=
  ⟨comparesAllPairs (seqnoAgree_equivalence _ _) (seqnoDiffer_eq_nil_iff _ _),
    comparesAllPairs failoverAgree_equivalence (failoverDiffer_eq_nil_iff state)⟩

/-! ## What is not compared is the first node's -/

def seqnoStats (absHighSeqno : Decimal) : SeqnoStats := ⟨"41f3", absHighSeqno, ⟨"0", 0, by decide⟩⟩

/-- Two nodes of a bucket, the first of them with the given number -/
def twoNodes (first second : String × Decimal) (distinct : first.1 ≠ second.1) : PerNode SeqnoStats :=
  AList.singleton "default" ⟨[⟨first.1, AList.singleton "vb_0" (seqnoStats first.2)⟩,
    ⟨second.1, AList.singleton "vb_0" (seqnoStats second.2)⟩], by simp [List.NodupKeys, List.keys, distinct]⟩

theorem heldBy_twoNodes {first second : String × Decimal} {distinct : first.1 ≠ second.1}
    {bucket node vbucket : String} {stats : SeqnoStats} :
    HeldBy (twoNodes first second distinct) bucket node vbucket stats ↔
      (bucket = "default" ∧ vbucket = "vb_0") ∧
        (node = first.1 ∧ stats = seqnoStats first.2 ∨ node = second.1 ∧ stats = seqnoStats second.2) := by
  simp only [HeldBy, ← Option.mem_def, AList.mem_lookup_iff, twoNodes, AList.singleton_entries,
    List.mem_singleton]
  constructor
  · intro held
    obtain ⟨nodes, here, vbuckets, entry, found⟩ := held
    cases here
    simp only [List.mem_pair] at entry
    obtain same | same := entry
    · cases same
      cases List.mem_singleton.mp found
      exact ⟨⟨rfl, rfl⟩, .inl ⟨rfl, rfl⟩⟩
    · cases same
      cases List.mem_singleton.mp found
      exact ⟨⟨rfl, rfl⟩, .inr ⟨rfl, rfl⟩⟩
  · intro named
    obtain ⟨⟨rfl, rfl⟩, ⟨rfl, rfl⟩ | ⟨rfl, rfl⟩⟩ := named
    · exact ⟨_, rfl, _, List.mem_pair.mpr (.inl rfl), List.mem_singleton.mpr rfl⟩
    · exact ⟨_, rfl, _, List.mem_pair.mpr (.inr rfl), List.mem_singleton.mpr rfl⟩

theorem twoNodes_swap {first second : String × Decimal} (distinct : first.1 ≠ second.1) :
    SameContents (twoNodes first second distinct) (twoNodes second first distinct.symm) := by
  intro bucket node vbucket stats
  rw [heldBy_twoNodes, heldBy_twoNodes, Or.comm]

/-- With both checks off two nodes may have different sequence numbers, and the result depends on which of them
comes first. -/
theorem first_node_returned :
    ¬ ∀ (checkAbsHighSeqno checkPurgeSeqno : Bool) (map1 map2 : PerNode SeqnoStats), SameContents map1 map2 →
      ∀ bucketMap bucketMap',
        comparePerNodeForVbucketConsistency map1 checkAbsHighSeqno checkPurgeSeqno = .ok bucketMap →
        comparePerNodeForVbucketConsistency map2 checkAbsHighSeqno checkPurgeSeqno = .ok bucketMap' →
        ∀ bucket vbucket, entryAt bucketMap bucket vbucket = entryAt bucketMap' bucket vbucket := by
  intro independent
  have result : ∀ (first second : String × Decimal) (distinct : first.1 ≠ second.1),
      ∃ bucketMap,
        comparePerNodeForVbucketConsistency (twoNodes first second distinct) false false = .ok bucketMap ∧
        (entryAt bucketMap "default" "vb_0").map SeqnoStats.absHighSeqno = some first.2 := by
    intro first second distinct
    exact ⟨_, rfl, rfl⟩
  let one : String × Decimal := ("10.1.1.1", ⟨"1", 1, by decide⟩)
  let two : String × Decimal := ("10.1.1.2", ⟨"2", 2, by decide⟩)
  have distinct : one.1 ≠ two.1 := by decide
  obtain ⟨bucketMap, returned, entry⟩ := result one two distinct
  obtain ⟨bucketMap', returned', entry'⟩ := result two one distinct.symm
  have same := independent false false _ _ (twoNodes_swap distinct) _ _ returned returned' "default" "vb_0"
  rw [same, entry'] at entry
  exact absurd (congrArg Decimal.number (Option.some.inj entry)) (by decide)

end Taf.Stats.NodeConsistency
