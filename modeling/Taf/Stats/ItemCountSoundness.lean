import Taf.Stats.ItemCount
import Taf.Stats.WaitEvidence

/-! # Soundness of the item count validation

What a validation that returns says about a bucket.  The comparison with the manifest
and with the items of the collections is exact whatever the nodes answer: a round of
the loop cannot return unless they agree with the tracked objects.  The two waits are
not: a task that fails is reported only if `except Exception` lets its exception
through, and a task that succeeds may have compared a sum with leftovers of failed
passes.  The validation is sound exactly where something raises or no wait is misled. -/

namespace Taf.Stats

open Taf.Lib Taf.Bucket Taf.Manifest Taf.Tasks

/-! ## What a validation says -/

/-- `items` of a collection on a node, 0 if the node does not have it. -/
def CollectionData.items (data : CollectionData) (scope collection : String) : Int :=
  (data scope collection).join.getD 0

/-- There is a number for the items of a collection. -/
def CollectionData.HasItems (data : CollectionData) (scope collection : String) : Prop :=
  ∃ items, data scope collection = some (some items)

/-- The items of a triple can be added. -/
def CollectionData.Takes (data : CollectionData) (triple : String × String × Option Int) : Prop :=
  data.HasItems triple.1 triple.2.1 ∧ triple.2.2.isSome

/-- The data have the items that a collection should have. -/
def CollectionData.Shows (data : CollectionData) (scope : Scope) (collection : Collection) : Prop :=
  ∃ name, collection.name = some name ∧ data.HasItems scope.name name ∧
    data.items scope.name name = collection.numItems

/-- The same collections have items. -/
def CollectionData.Like (start data : CollectionData) : Prop :=
  ∀ scope collection, data.HasItems scope collection ↔ start.HasItems scope collection

/-- No collection is listed in a scope named `count`, or behind one. -/
def NodeStats.KeepsCounter (stats : NodeStats) : Prop :=
  ∀ scope ∈ stats.entries.dropWhile fun scope => scope.1 ≠ "count", scope.2.entries = []

/-- There is a number under both keys, and the first one is not above the second. -/
def VbStats.Ordered (stat : VbStats) (keyPair : String × String) : Prop :=
  ∃ first second, (stat.lookup keyPair.1).bind PyJson.parseInt = some first ∧
    (stat.lookup keyPair.2).bind PyJson.parseInt = some second ∧ first ≤ second

/-- The collections of the nodes can be added up: what a node adds has an entry of the first one to be added
    to. -/
structure Mergeable (first : NodeStats) (rest : List NodeStats) : Prop where
  counters : ∀ node ∈ first :: rest, node.KeepsCounter
  additions : ∀ node ∈ rest, ∀ triple ∈ node.triples, first.data.Takes triple

/-- Every collection has its items, and no scope takes the place of the counter. -/
structure NodeStats.Countable (stats : NodeStats) : Prop where
  numbers : ∀ triple ∈ stats.triples, triple.2.2.isSome
  noCount : "count" ∉ stats

def answeredItems (scope collection : String) : Except Raised NodeStats → Int
  | .ok stats => stats.data.items scope collection
  | .error _ => 0

namespace BucketCheck

variable (interp : Interpreter) (check : BucketCheck)

/-- The first node's manifest has exactly the active scopes, each with as many collections as are
    active in it. -/
def ManifestAgrees : Prop :=
  ∃ stats, check.scopeStats = .ok stats ∧
    (∀ name, name ∈ stats ↔ name ∈ check.bucket.activeScopeNames) ∧
    ∀ scope ∈ check.bucket.activeScopes,
      (stats.lookup scope.name).map (fun collections => collections.entries.length) =
        some (check.activeCollectionsOf scope).length

/-- Every KV node answers, and their items of an active collection add up to its `num_items`. -/
def ItemsAgree : Prop :=
  (∀ answer ∈ check.collectionStats, ∃ stats, answer = .ok stats) ∧
    ∀ scope ∈ check.bucket.activeScopes, ∀ collection ∈ check.activeCollectionsOf scope,
      ∃ name, collection.name = some name ∧
        (check.collectionStats.map (answeredItems scope.name name)).sum = collection.numItems

/-- The number of replicas that the nodes of the bucket can hold. -/
def replicas : Int := min (check.replicaNumber : Int) ((check.servers : Int) - 1)

/-- The number of items in the replicas, with those of the active collections in each -/
def replicaNumItems : Int := check.replicas * check.expectedTotalNumItems

def totalNumItems : Int := (check.replicas + 1) * check.expectedTotalNumItems

structure Sound : Prop where
  manifest : check.ManifestAgrees
  items : check.ItemsAgree
  replica : Seen interp check.servers check.replicaNumItems check.replicaWait
  total : Seen interp check.servers check.totalNumItems check.totalWait

/-! ## What makes the validation raise -/

/-- The comparisons of all vBuckets find their numbers in order. -/
def SeqNosOrdered : Prop :=
  ∀ node ∈ check.vbucketStats, ∀ stat ∈ node, ∀ keyPair ∈ comparisonKeyPairs, stat.Ordered keyPair

/-- What the KV nodes (`first :: rest`) and the first node's scopes must be like for the comparison of the
    collections to be through. -/
structure Comparable (first : NodeStats) (rest : List NodeStats) (scopes : NodeStats) : Prop where
  nodes : check.collectionStats = (first :: rest).map .ok
  mergeable : Mergeable first rest
  answered : check.scopeStats = .ok scopes
  countable : scopes.Countable
  scopeCount : scopes.entries.length = check.bucket.activeScopes.length
  collectionCounts : ∀ scope ∈ check.bucket.activeScopes,
    (scopes.lookup scope.name).map (fun collections => collections.entries.length) =
      some (check.activeCollectionsOf scope).length
  items : ∀ scope ∈ check.bucket.activeScopes, ∀ collection ∈ check.activeCollectionsOf scope,
    ∃ name, collection.name = some name ∧ first.data.HasItems scope.name name ∧
      ((first :: rest).map fun node => node.data.items scope.name name).sum = collection.numItems

/-- Something raises in the round of the bucket: the Java exception of a wait that expires where
    `except Exception` does not match it, or one of the checks behind the waits. -/
def Raises : Prop :=
  (interp.catchesJava = false ∧
      (Expires interp check.servers check.replicaNumItems check.replicaWait ∨
        Expires interp check.servers check.totalNumItems check.totalWait)) ∨
    (∃ raised, check.manifestUid = .error raised) ∨ ¬ check.SeqNosOrdered ∨
      ¬ ∃ first rest scopes, check.Comparable first rest scopes

end BucketCheck

/-! ## The sum over the nodes -/

/-- The sum over a dictionary of what only one key contributes. -/
theorem sum_entries {β : Type*} (entries : List (Sigma fun _ : String => β))
    (nodup : entries.NodupKeys) (key : String) (value : β → Int) :
    (entries.map fun entry => if key = entry.1 then value entry.2 else 0).sum =
      ((entries.dlookup key).map value).getD 0 := by
  induction entries with
  | nil => rfl
  | cons entry entries ih =>
    obtain ⟨fresh, restNodup⟩ := List.nodupKeys_cons.mp nodup
    rw [List.map_cons, List.sum_cons, ih restNodup]
    by_cases same : key = entry.1
    · subst same
      have missing : entries.dlookup entry.1 = none := List.dlookup_eq_none.mpr fresh
      have found : (entry :: entries).dlookup entry.1 = some entry.2 :=
        List.dlookup_cons_eq entries entry.1 entry.2
      simp [missing, found]
    · have other : (entry :: entries).dlookup key = entries.dlookup key :=
        List.dlookup_cons_ne entries entry same
      rw [if_neg same, other, Int.zero_add]

/-- What the triple adds to the items of a collection. -/
def tripleItems (scope collection : String) (triple : String × String × Option Int) : Int :=
  if scope = triple.1 then (if collection = triple.2.1 then triple.2.2.getD 0 else 0) else 0

theorem addItems_items {data next : CollectionData} {triple : String × String × Option Int}
    (added : addItems data triple = .ok next) (scope collection : String) :
    next.items scope collection =
      data.items scope collection + tripleItems scope collection triple := by
  unfold addItems at added
  split at added
  next before items found given =>
    cases added
    by_cases here : scope = triple.1 ∧ collection = triple.2.1
    · obtain ⟨sameScope, sameCollection⟩ := here
      subst sameScope sameCollection
      simp [CollectionData.items, tripleItems, found, given]
    · have nothing : tripleItems scope collection triple = 0 := by
        unfold tripleItems
        split_ifs with sameScope sameCollection
        · exact absurd ⟨sameScope, sameCollection⟩ here
        · rfl
        · rfl
      simp [CollectionData.items, here, nothing]
  next => cases added

theorem sum_tripleItems (stats : NodeStats) (scope collection : String) :
    (stats.triples.map (tripleItems scope collection)).sum = stats.data.items scope collection := by
  have perScope : ∀ entry : Sigma fun _ : String => AList fun _ : String => Option Int,
      ((entry.2.entries.map fun col => (entry.1, col.1, col.2)).map
          (tripleItems scope collection)).sum =
        if scope = entry.1 then (entry.2.lookup collection).join.getD 0 else 0 := by
    intro entry
    by_cases same : scope = entry.1
    -- Within the scope only one collection contributes, and over the node only one scope.
    · have inner := sum_entries entry.2.entries entry.2.nodupKeys collection
        (fun items : Option Int => items.getD 0)
      simp only [List.map_map, Function.comp_def, tripleItems, same, if_true, inner]
      change ((entry.2.lookup collection).map _).getD 0 = _
      cases entry.2.lookup collection <;> rfl
    · simp [Function.comp_def, tripleItems, same]
  have outer := sum_entries stats.entries stats.nodupKeys scope
    (fun collections => (collections.lookup collection).join.getD 0)
  rw [NodeStats.triples, List.map_flatMap, List.flatMap_def, List.sum_flatten, List.map_map]
  simp only [Function.comp_def, perScope, outer, CollectionData.items, NodeStats.data]
  change ((stats.lookup scope).map _).getD 0 = _
  cases stats.lookup scope <;> rfl

theorem getCollections_eq_ok {stats : NodeStats} {data : CollectionData}
    (answered : getCollections stats = .ok data) : data = stats.data := by
  unfold getCollections at answered
  split_ifs at answered
  cases answered
  rfl

theorem getCollections_returns_iff {stats : NodeStats} :
    (∃ data, getCollections stats = .ok data) ↔ stats.KeepsCounter := by
  have counted : ((stats.entries.dropWhile fun scope => scope.1 ≠ "count").any fun scope =>
      !scope.2.entries.isEmpty) = true ↔ ¬ stats.KeepsCounter := by
    simp [NodeStats.KeepsCounter]
  unfold getCollections
  split_ifs with loses
  · simp [counted.mp loses]
  · simp [not_not.mp (mt counted.mpr loses)]

theorem addItems_returns_iff {data : CollectionData} {triple : String × String × Option Int} :
    (∃ next, addItems data triple = .ok next) ↔ data.Takes triple := by
  unfold addItems CollectionData.Takes CollectionData.HasItems
  rcases data triple.1 triple.2.1 with _ | _ | before
  · simp
  · simp
  · cases triple.2.2 <;> simp

theorem addItems_like {start data next : CollectionData} {triple : String × String × Option Int}
    (added : addItems data triple = .ok next) (like : start.Like data) : start.Like next := by
  intro scope collection
  rw [← like]
  unfold addItems at added
  split at added
  next before items found given =>
    cases added
    unfold CollectionData.HasItems
    by_cases here : scope = triple.1 ∧ collection = triple.2.1
    · simp [here.1, here.2, found]
    · simp [here]
  next => cases added

theorem addNode_items {data next : CollectionData} {answer : Except Raised NodeStats}
    (added : addNode data answer = .ok next) (scope collection : String) :
    next.items scope collection =
      data.items scope collection + answeredItems scope collection answer := by
  obtain ⟨stats, answered, rest⟩ := bind_eq_ok.mp added
  obtain ⟨_, _, merged⟩ := bind_eq_ok.mp rest
  subst answered
  rw [foldlM_measure merged fun _ _ _ stepped => addItems_items stepped scope collection,
    sum_tripleItems]
  rfl

section Merging

variable {start data next : CollectionData} {answer : Except Raised NodeStats}

/-- Adding a node changes the items of the collections, and not which of them have some. -/
theorem addNode_like (added : addNode data answer = .ok next) (like : start.Like data) : start.Like next := by
  obtain ⟨stats, answered, rest⟩ := bind_eq_ok.mp added
  obtain ⟨_, _, merged⟩ := bind_eq_ok.mp rest
  exact foldlM_invariant merged (fun _ _ _ => addItems_like) like

theorem addItems_all_iff (like : start.Like data) (node : NodeStats) :
    (∃ next, node.triples.foldlM addItems data = .ok next) ↔
      ∀ triple ∈ node.triples, start.Takes triple := by
  have each : ∀ data triple, start.Like data → ((∃ next, addItems data triple = .ok next) ↔
      start.Takes triple) := by
    intro data triple like
    rw [addItems_returns_iff, CollectionData.Takes, CollectionData.Takes, like]
  exact foldlM_returns_iff each (fun _ _ _ => addItems_like) like

theorem addNode_returns_iff (like : start.Like data) : (∃ next, addNode data answer = .ok next) ↔
    ∃ node, answer = .ok node ∧ node.KeepsCounter ∧
      ∀ triple ∈ node.triples, start.Takes triple := by
  constructor
  · rintro ⟨next, added⟩
    obtain ⟨node, answered, rest⟩ := bind_eq_ok.mp added
    obtain ⟨collected, counted, merged⟩ := bind_eq_ok.mp rest
    exact ⟨node, answered, getCollections_returns_iff.mp ⟨collected, counted⟩,
      (addItems_all_iff like node).mp ⟨next, merged⟩⟩
  · rintro ⟨node, rfl, counted, triples⟩
    obtain ⟨collected, counted⟩ := getCollections_returns_iff.mpr counted
    obtain ⟨next, merged⟩ := (addItems_all_iff like node).mpr triples
    exact ⟨next, bind_eq_ok.mpr ⟨node, rfl, bind_eq_ok.mpr ⟨collected, counted, merged⟩⟩⟩

theorem addNodes_returns_iff {first : NodeStats} {answers : List (Except Raised NodeStats)} :
    (first.KeepsCounter ∧ ∃ data, answers.foldlM addNode first.data = .ok data) ↔
      ∃ rest, answers = rest.map .ok ∧ Mergeable first rest := by
  have each : ∀ data answer, first.data.Like data → ((∃ next, addNode data answer = .ok next) ↔
      ∃ node, answer = .ok node ∧ node.KeepsCounter ∧
        ∀ triple ∈ node.triples, first.data.Takes triple) :=
    fun _ _ => addNode_returns_iff
  rw [foldlM_returns_iff each (fun _ _ _ => addNode_like) (fun _ _ => Iff.rfl)]
  constructor
  · rintro ⟨counted, nodes⟩
    obtain ⟨rest, rfl⟩ : answers ∈ Set.range (List.map (.ok : NodeStats → Except Raised NodeStats)) := by
      rw [Set.range_list_map]
      intro answer member
      obtain ⟨node, answered, -⟩ := nodes answer member
      exact ⟨node, answered.symm⟩
    have nodes := List.forall_mem_map.mp nodes
    refine ⟨rest, rfl, List.forall_mem_cons.mpr ⟨counted, fun node member => ?_⟩, fun node member => ?_⟩
    · obtain ⟨same, answered, counted, -⟩ := nodes node member
      cases answered
      exact counted
    · obtain ⟨same, answered, -, triples⟩ := nodes node member
      cases answered
      exact triples
  · rintro ⟨rest, rfl, mergeable⟩
    obtain ⟨counted, others⟩ := List.forall_mem_cons.mp mergeable.counters
    refine ⟨counted, List.forall_mem_map.mpr fun node member => ?_⟩
    exact ⟨node, rfl, others node member, mergeable.additions node member⟩

end Merging

/-- The merged data hold the sums over all nodes, and have items where the first node has some. -/
theorem getDocCountPerCollection_eq_ok {answers : List (Except Raised NodeStats)}
    {data : CollectionData} (merged : getDocCountPerCollection answers = .ok (some data)) :
    ∃ first rest, answers = (first :: rest).map .ok ∧ Mergeable first rest ∧
      first.data.Like data ∧ ∀ scope collection, data.items scope collection =
        ((first :: rest).map fun node => node.data.items scope collection).sum := by
  cases answers with
  | nil => cases merged
  | cons answer answers =>
    unfold getDocCountPerCollection at merged
    obtain ⟨first, answered, merged⟩ := bind_eq_ok.mp merged
    obtain ⟨start, collected, merged⟩ := bind_eq_ok.mp merged
    obtain ⟨last, added, same⟩ := bind_eq_ok.mp merged
    cases same
    subst answered
    have counted := getCollections_returns_iff.mp ⟨start, collected⟩
    rw [getCollections_eq_ok collected] at added
    obtain ⟨rest, rfl, mergeable⟩ := addNodes_returns_iff.mp ⟨counted, data, added⟩
    refine ⟨first, rest, rfl, mergeable, ?_, ?_⟩
    · exact foldlM_invariant added (fun _ _ _ => addNode_like) fun _ _ => Iff.rfl
    · intro scope collection
      rw [foldlM_measure added fun _ _ _ stepped => addNode_items stepped scope collection,
        List.map_cons, List.sum_cons, List.map_map]
      rfl

theorem getDocCountPerCollection_returns {first : NodeStats} {rest : List NodeStats}
    (mergeable : Mergeable first rest) :
    ∃ data, getDocCountPerCollection ((first :: rest).map .ok) = .ok (some data) := by
  obtain ⟨counted, data, added⟩ := addNodes_returns_iff.mpr ⟨rest, rfl, mergeable⟩
  obtain ⟨start, collected⟩ := getCollections_returns_iff.mpr counted
  rw [← getCollections_eq_ok collected] at added
  refine ⟨data, bind_eq_ok.mpr ⟨first, rfl, bind_eq_ok.mpr ⟨start, collected, bind_eq_ok.mpr ⟨data, added, rfl⟩⟩⟩⟩

/-! ## The hierarchy -/

theorem countable_iff {stats : NodeStats} : stats.Countable ↔
    (stats.entries.any fun scope => scope.2.entries.any fun collection => collection.2.isNone) = false ∧
      (stats.entries.dropWhile fun scope => scope.1 ≠ "count") = [] := by
  have numbers : (∀ triple ∈ stats.triples, triple.2.2.isSome) ↔
      (stats.entries.any fun scope => scope.2.entries.any fun collection => collection.2.isNone) = false := by
    simp only [NodeStats.triples, List.forall_mem_flatMap, List.forall_mem_map, List.any_eq_false, Bool.not_eq_true,
      Option.isNone_eq_false_iff]
  have absent : "count" ∉ stats ↔ (stats.entries.dropWhile fun scope => scope.1 ≠ "count") = [] := by
    rw [List.dropWhile_eq_nil_iff, AList.mem_keys, AList.keys, List.keys, List.mem_map]
    simp only [decide_eq_true_eq, not_exists, not_and, ne_eq]
  rw [← numbers, ← absent]
  exact ⟨fun countable => ⟨countable.numbers, countable.noCount⟩, fun countable => ⟨countable.1, countable.2⟩⟩

/-- The scopes are counted exactly if they can be, and then all of them are. -/
theorem getScopes_count_iff {stats : NodeStats} {count : Nat} :
    (∃ scopeData, getScopes stats = .ok scopeData ∧ scopeData.count = some count) ↔
      stats.Countable ∧ stats.entries.length = count := by
  rw [countable_iff]
  unfold getScopes
  split_ifs with unread
  · simp [unread]
  · simp only [Bool.not_eq_true] at unread
    simp only [unread, true_and]
    cases stats.entries.dropWhile fun scope => scope.1 ≠ "count" with
    | nil => simp
    | cons scope more => cases more <;> simp

theorem getScopes_collections {stats : NodeStats} {scopeData : ScopeData}
    (answered : getScopes stats = .ok scopeData) (name : String) : scopeData.collections name =
      (stats.lookup name).map fun collections => collections.entries.length := by
  unfold getScopes at answered
  split_ifs at answered
  simp only at answered
  split at answered
  next => cases answered; rfl
  next => cases answered; rfl
  next => cases answered

namespace BucketCheck

variable {interp : Interpreter} {check : BucketCheck}

theorem checkCollection_true_iff {data : CollectionData} {scope : Scope} {status : Bool}
    {collection : Collection} : checkCollection data scope status collection = .ok true ↔
      status = true ∧ data.Shows scope collection := by
  unfold checkCollection CollectionData.Shows CollectionData.HasItems CollectionData.items
  cases collection.name with
  | none => simp
  | some name =>
    rcases found : data scope.name name with _ | _ | items <;> simp [found]

theorem checkScope_true_iff {scopeData : ScopeData} {data : CollectionData} {status : Bool}
    {scope : Scope} : check.checkScope scopeData data status scope = .ok true ↔
      status = true ∧ scopeData.collections scope.name = some (check.activeCollectionsOf scope).length ∧
      ∀ collection ∈ check.activeCollectionsOf scope, data.Shows scope collection := by
  have checks : ∀ status collection, checkCollection data scope status collection = .ok true ↔
      status = true ∧ data.Shows scope collection :=
    fun _ _ => checkCollection_true_iff
  unfold checkScope
  cases scopeData.collections scope.name with
  | none => simp
  | some count =>
    simp only
    rw [foldlM_status_iff checks, Bool.and_eq_true, beq_iff_eq, Option.some.injEq,
      and_assoc, eq_comm (a := count)]

theorem checkScopes_true_iff {scopeData : ScopeData} {data : CollectionData} {status : Bool} :
    check.bucket.activeScopes.foldlM (check.checkScope scopeData data) status = .ok true ↔
      status = true ∧ ∀ scope ∈ check.bucket.activeScopes,
        scopeData.collections scope.name = some (check.activeCollectionsOf scope).length ∧
        ∀ collection ∈ check.activeCollectionsOf scope, data.Shows scope collection := by
  have checks : ∀ status scope, check.checkScope scopeData data status scope = .ok true ↔
      status = true ∧ scopeData.collections scope.name = some (check.activeCollectionsOf scope).length ∧
      ∀ collection ∈ check.activeCollectionsOf scope, data.Shows scope collection :=
    fun _ _ => checkScope_true_iff
  exact foldlM_status_iff checks

/-- The comparison of the collections is through exactly if the answers are comparable. -/
theorem validateDocCountAsPerCollections_ok_iff : check.validateDocCountAsPerCollections = .ok () ↔
    ∃ first rest scopes, check.Comparable first rest scopes := by
  unfold validateDocCountAsPerCollections validateBucketCollectionHierarchy
  constructor
  · intro passed
    obtain ⟨merged, collected, passed⟩ := bind_eq_ok.mp passed
    cases merged with
    | none => cases passed
    | some data =>
      obtain ⟨status, validated, accepted⟩ := bind_eq_ok.mp passed
      have isTrue : status = true := by
        cases status
        · cases accepted
        · rfl
      subst isTrue
      obtain ⟨scopes, answered, validated⟩ := bind_eq_ok.mp validated
      obtain ⟨scopeData, listed, validated⟩ := bind_eq_ok.mp validated
      obtain ⟨counted, each⟩ := checkScopes_true_iff.mp validated
      obtain ⟨first, rest, nodes, mergeable, like, sums⟩ := getDocCountPerCollection_eq_ok collected
      obtain ⟨countable, scopeCount⟩ := getScopes_count_iff.mp ⟨scopeData, listed, beq_iff_eq.mp counted⟩
      unfold CollectionData.Like at like
      simp only [getScopes_collections listed, CollectionData.Shows, like, sums] at each
      exact ⟨first, rest, scopes, nodes, mergeable, answered, countable, scopeCount,
        fun scope member => (each scope member).1, fun scope member => (each scope member).2⟩
  · rintro ⟨first, rest, scopes, comparable⟩
    obtain ⟨data, collected⟩ := getDocCountPerCollection_returns comparable.mergeable
    obtain ⟨first', rest', nodes, -, like, sums⟩ := getDocCountPerCollection_eq_ok collected
    obtain ⟨rfl, rfl⟩ : first = first' ∧ rest = rest' := by
      have injective : Function.Injective (Except.ok : NodeStats → Except Raised NodeStats) :=
        fun _ _ => Except.ok.inj
      exact List.cons.inj (List.map_injective_iff.mpr injective nodes)
    obtain ⟨scopeData, listed, counted⟩ := getScopes_count_iff.mpr ⟨comparable.countable, comparable.scopeCount⟩
    have validated : check.bucket.activeScopes.foldlM (check.checkScope scopeData data)
        (scopeData.count == some check.bucket.activeScopes.length) = .ok true := by
      unfold CollectionData.Like at like
      rw [checkScopes_true_iff, beq_iff_eq]
      simp only [getScopes_collections listed, CollectionData.Shows, like, sums]
      exact ⟨counted, fun scope member => ⟨comparable.collectionCounts scope member, comparable.items scope member⟩⟩
    rw [comparable.nodes]
    refine bind_eq_ok.mpr ⟨some data, collected, bind_eq_ok.mpr ⟨true, ?_, rfl⟩⟩
    exact bind_eq_ok.mpr ⟨scopes, comparable.answered, bind_eq_ok.mpr ⟨scopeData, listed, validated⟩⟩

/-- As many scopes as are active, and every active one among them: there is no other. -/
theorem mem_iff_of_count {stats : NodeStats}
    (count : check.bucket.activeScopes.length = stats.keys.length)
    (present : ∀ scope ∈ check.bucket.activeScopes, scope.name ∈ stats) (name : String) :
    name ∈ stats ↔ name ∈ check.bucket.activeScopeNames := by
  have nodup : check.bucket.activeScopeNames.Nodup := nodup_filter_keys _ _
  have subset : check.bucket.activeScopeNames ⊆ stats.keys := by
    intro active member
    rw [← check.inv.activeScopes_names] at member
    obtain ⟨scope, scopeMember, sameName⟩ := List.mem_map.mp member
    rw [← sameName]
    exact present scope scopeMember
  have enough : stats.keys.length ≤ check.bucket.activeScopeNames.length := by
    rw [← count, ← check.inv.activeScopes_names, List.length_map]
  -- Distinct names inside a list that is not longer are all of it.
  have same := (nodup.subperm subset).perm_of_length_le enough
  exact (same.mem_iff).symm

/-- The comparison of the collections is exact. -/
theorem Comparable.agrees {first : NodeStats} {rest : List NodeStats} {scopes : NodeStats}
    (comparable : check.Comparable first rest scopes) : check.ManifestAgrees ∧ check.ItemsAgree := by
  have count : check.bucket.activeScopes.length = scopes.keys.length := by
    rw [← comparable.scopeCount]
    exact (List.length_map _).symm
  refine ⟨⟨scopes, comparable.answered, mem_iff_of_count count ?_, comparable.collectionCounts⟩, ?_, ?_⟩
  · intro scope member
    obtain ⟨inside, lookup, _⟩ := Option.map_eq_some_iff.mp (comparable.collectionCounts scope member)
    exact AList.lookup_isSome.mp (by rw [lookup]; rfl)
  · intro answer member
    rw [comparable.nodes] at member
    obtain ⟨node, -, answered⟩ := List.mem_map.mp member
    exact ⟨node, answered.symm⟩
  · intro scope member collection inside
    obtain ⟨name, named, -, sum⟩ := comparable.items scope member collection inside
    refine ⟨name, named, ?_⟩
    rw [comparable.nodes, List.map_map]
    exact sum

/-! ## The waits -/

theorem availableReplicas_eq (check : BucketCheck) : check.availableReplicas = check.replicas := by
  unfold availableReplicas replicas
  split_ifs <;> omega

theorem replicaItems_eq (check : BucketCheck) : check.replicaItems = check.replicaNumItems := by
  rw [replicaItems, replicaNumItems, availableReplicas_eq, mul_comm]

theorem totalItems_eq (check : BucketCheck) : check.totalItems = check.totalNumItems := by
  rw [totalItems, totalNumItems, availableReplicas_eq, mul_comm]

theorem verifyStatsForBucket_ok_iff :
    check.verifyStatsForBucket interp = .ok () ↔
      interp.catchesJava = true ∨
        (¬ Expires interp check.servers check.replicaNumItems check.replicaWait ∧
          ¬ Expires interp check.servers check.totalNumItems check.totalWait) := by
  unfold verifyStatsForBucket
  rw [replicaItems_eq, totalItems_eq]
  obtain ⟨first, awaited⟩ | ⟨first, awaited⟩ :=
    getTaskResult_call interp check.servers check.replicaNumItems check.replicaWait
  · rw [awaited]
    cases caught : interp.catchesJava <;>
      simp [bind, Except.bind, Interpreter.exceptException, caught, first]
  · obtain ⟨second, awaitedToo⟩ | ⟨second, awaitedToo⟩ :=
      getTaskResult_call interp check.servers check.totalNumItems check.totalWait
    · rw [awaited, awaitedToo]
      cases caught : interp.catchesJava <;>
        simp [bind, Except.bind, Interpreter.exceptException, caught, second]
    · rw [awaited, awaitedToo]
      simp [bind, Except.bind, first, second]

theorem comparePair_true_iff {stat : VbStats} {passed : Bool} {keyPair : String × String} :
    comparePair stat passed keyPair = .ok true ↔ passed = true ∧ stat.Ordered keyPair := by
  unfold comparePair VbStats.number VbStats.Ordered
  cases (stat.lookup keyPair.1).bind PyJson.parseInt with
  | none => simp [bind, Except.bind]
  | some first =>
    cases (stat.lookup keyPair.2).bind PyJson.parseInt with
    | none => simp [bind, Except.bind]
    | some second => simp [bind, Except.bind, pure, Except.pure]

theorem validateSeqNoStats_true_iff :
    validateSeqNoStats check.vbucketStats = .ok true ↔ check.SeqNosOrdered := by
  have pairs (stat : VbStats) (passed : Bool) : comparisonKeyPairs.foldlM (comparePair stat) passed = .ok true ↔
      passed = true ∧ ∀ keyPair ∈ comparisonKeyPairs, stat.Ordered keyPair := by
    have each : ∀ passed keyPair, comparePair stat passed keyPair = .ok true ↔
        passed = true ∧ stat.Ordered keyPair := fun _ _ => comparePair_true_iff
    exact foldlM_status_iff each
  have nodes (passed : Bool) (node : List VbStats) :
      node.foldlM (fun passed stat => comparisonKeyPairs.foldlM (comparePair stat) passed) passed = .ok true ↔
        passed = true ∧ ∀ stat ∈ node, ∀ keyPair ∈ comparisonKeyPairs, stat.Ordered keyPair :=
    foldlM_status_iff fun passed stat => pairs stat passed
  exact (foldlM_status_iff nodes).trans (and_iff_right rfl)

theorem validate_ok_iff : check.validate interp = .ok () ↔ ¬ check.Raises interp := by
  unfold validate Raises
  rw [bind_eq_ok, ← validateSeqNoStats_true_iff, ← validateDocCountAsPerCollections_ok_iff]
  constructor
  · rintro ⟨_, verified, passed⟩ raises
    obtain ⟨uid, compared, passed⟩ := bind_eq_ok.mp passed
    obtain ⟨consistent, read, passed⟩ := bind_eq_ok.mp passed
    have isTrue : consistent = true := by
      cases consistent
      · cases passed
      · rfl
    subst isTrue
    obtain ⟨uncaught, expires⟩ | ⟨raised, out⟩ | corrupt | wrong := raises
    · obtain caught | ⟨first, second⟩ := verifyStatsForBucket_ok_iff.mp verified
      · rw [caught] at uncaught
        cases uncaught
      · exact expires.elim first second
    · rw [validateManifestUid, out] at compared
      cases compared
    · exact corrupt read
    · exact wrong passed
  · intro silent
    simp only [not_or, not_and, not_exists, not_not] at silent
    obtain ⟨waits, compared, read, passed⟩ := silent
    refine ⟨(), ?_, ?_⟩
    · rw [verifyStatsForBucket_ok_iff]
      cases caught : interp.catchesJava with
      | true => exact .inl rfl
      | false => exact .inr (waits caught)
    · cases uid : check.manifestUid with
      | error raised => exact absurd uid (compared raised)
      | ok same =>
        rw [validateManifestUid, uid, read]
        exact passed

theorem sound_iff_of_silent (silent : ¬ check.Raises interp) :
    check.Sound interp ↔
      ¬ Misled interp check.servers check.replicaNumItems check.replicaWait ∧
        ¬ Misled interp check.servers check.totalNumItems check.totalWait := by
  obtain ⟨first, rest, scopes, comparable⟩ : ∃ first rest scopes, check.Comparable first rest scopes := by
    by_contra wrong
    exact silent (.inr (.inr (.inr wrong)))
  obtain ⟨manifest, items⟩ := comparable.agrees
  rw [← seen_iff_not_misled, ← seen_iff_not_misled]
  exact ⟨fun sound => ⟨sound.replica, sound.total⟩, fun seen => ⟨manifest, items, seen.1, seen.2⟩⟩

end BucketCheck

/-! ## The validation of all buckets -/

theorem validate_all_ok_iff {interp : Interpreter} {prepared : Except Raised Unit}
    {checks : List BucketCheck} :
    validateDocsPerCollectionsAllBuckets interp prepared checks = .ok () ↔
      prepared = .ok () ∧ ∀ check ∈ checks, ¬ check.Raises interp := by
  unfold validateDocsPerCollectionsAllBuckets
  rw [bind_eq_ok]
  simp only [foldlM_unit_ok, BucketCheck.validate_ok_iff]
  exact ⟨fun ⟨_, ready, silent⟩ => ⟨ready, silent⟩, fun ⟨ready, silent⟩ => ⟨(), ready, silent⟩⟩

/-- A validation that returns is right about every bucket, exactly if something raises or neither wait
    of a bucket is misled. -/
theorem item_count_sound_iff (interp : Interpreter) (prepared : Except Raised Unit)
    (checks : List BucketCheck) :
    (validateDocsPerCollectionsAllBuckets interp prepared checks = .ok () →
        ∀ check ∈ checks, check.Sound interp) ↔
      prepared ≠ .ok () ∨ (∃ check ∈ checks, check.Raises interp) ∨
        ∀ check ∈ checks,
          ¬ Misled interp check.servers check.replicaNumItems check.replicaWait ∧
            ¬ Misled interp check.servers check.totalNumItems check.totalWait := by
  rw [validate_all_ok_iff]
  by_cases returned : prepared = .ok () ∧ ∀ check ∈ checks, ¬ check.Raises interp
  · obtain ⟨ready, silent⟩ := returned
    have someRaises : ¬ ∃ check ∈ checks, check.Raises interp := by
      rintro ⟨check, member, raises⟩
      exact silent check member raises
    simp only [ready, ne_eq, not_true, someRaises, false_or]
    constructor
    · intro sound check member
      exact (BucketCheck.sound_iff_of_silent (silent check member)).mp
        (sound ⟨trivial, silent⟩ check member)
    · intro honest _ check member
      exact (BucketCheck.sound_iff_of_silent (silent check member)).mpr (honest check member)
  · refine iff_of_true (fun ok => absurd ok returned) ?_
    by_cases ready : prepared = .ok ()
    · right
      left
      by_contra none
      exact returned ⟨ready, fun check member raises => none ⟨check, member, raises⟩⟩
    · exact .inl ready

/-! The second wait of the bucket below succeeds on its first poll: the first node has 3 items, the
second node fails, and in the next pass the nodes have 3 and 0.  The 6 that it compares are 3 more
than the nodes had at any time. -/

def orders : Tracked :=
  (Tracked.start "true" true false).step
    (.createCollection "_default" "orders" { numItems := some 3 })

def ordersOnNode (items : Int) : NodeStats :=
  [⟨"_default", [⟨"_default", some 0⟩, ⟨"orders", some items⟩].toAList⟩,
    ⟨"_system", [⟨"_query", some 0⟩, ⟨"_mobile", some 0⟩].toAList⟩].toAList

def replicaPoll : Poll where
  answers := fun _ server => .ok (if server = 0 then 1 else 2)
  inTime := fun _ => true

def interruptedPoll : Poll where
  answers := fun pass server =>
    if server = 0 then .ok 3 else if pass = 0 then .error .exception else .ok 0
  inTime := fun _ => true

def ordersCheck : BucketCheck where
  bucket := orders.bucket
  inv := ((Tracked.start_inv "true" true false).step _).bucket
  replicaNumber := 1
  servers := 2
  replicaWait := ⟨[replicaPoll], fun _ => false⟩
  totalWait := ⟨[interruptedPoll], fun _ => false⟩
  manifestUid := .ok 2
  vbucketStats := []
  collectionStats := [.ok (ordersOnNode 1), .ok (ordersOnNode 2)]
  scopeStats := .ok (ordersOnNode 1)

/-- With neither kind of `except Exception` does every validation that returns hold. -/
theorem interrupted_poll_passes :
    ¬ ∃ interp : Interpreter, ∀ prepared checks,
      validateDocsPerCollectionsAllBuckets interp prepared checks = .ok () →
        ∀ check ∈ checks, check.Sound interp := by
  intro ⟨interp, sound⟩
  have returns : validateDocsPerCollectionsAllBuckets interp (.ok ()) [ordersCheck] = .ok () := rfl
  obtain ⟨poll, made, pass, complete, _⟩ :=
    (sound (.ok ()) [ordersCheck] returns ordersCheck List.mem_cons_self).total
  have only : poll = interruptedPoll := List.mem_singleton.mp made
  subst only
  have second : completePass interp 2 interruptedPoll 10 0 = some (1, 3) := rfl
  have expected : ordersCheck.totalNumItems = 6 := rfl
  rw [expected] at complete
  cases second.symm.trans complete

end Taf.Stats
