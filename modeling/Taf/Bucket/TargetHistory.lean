import Taf.DocGen.TargetVbucket
import Taf.Bucket.CollectionStore

/-! # Loading the documents of given vBuckets

With `target_vbuckets` the window of a collection counts documents, while the generators
search for their keys from that count on and run past it wherever a key lies in another
vBucket.  The window describes the store only as long as the search has nothing to skip. -/

namespace Taf.Bucket

open Taf.Lib Taf.DocGen

section
variable (env : KeyEnv) (key : String) (targets : List Nat)

/-- The arguments with which `get_doc_generator` calls `doc_generator`. -/
def DocGen.args (gen : DocGen) : GeneratorArgs where
  key := gen.key
  start := gen.start
  stop := gen.stop
  targetVbucket := gen.targetVbucket

/-- A `get_doc_generator` call; the fuel is for the search of the constructor. -/
structure TargetCall where
  op : DocOp
  numItems : Int
  fuel : Nat
  deriving DecidableEq

/-- The keys of the generator that a call returns. -/
def targetKeys (s : LoadState) (call : TargetCall) : Option (List String) :=
  let gen := (getDocGenerator call.op s.collection call.numItems key (some targets)).1
  (gen.args.docGenerator env call.fuel).map Drained.keys

/-- The call, followed by the operation on every key. -/
def targetStep (s : LoadState) (call : TargetCall) : LoadState :=
  match targetKeys env key targets s call with
  | none => s
  | some keys =>
    ⟨(getDocGenerator call.op s.collection call.numItems key (some targets)).2,
      run applyAction s.store (onKeys call.op.effect keys)⟩

/-- The constructor returns, and only a create asks for more than the documents of the window. -/
def TargetAllowed (s : LoadState) (call : TargetCall) : Prop :=
  (targetKeys env key targets s call).isSome ∧ 0 ≤ call.numItems ∧
    (call.op = .create ∨ call.numItems ≤ s.collection.docIndex.2 - s.collection.docIndex.1)

instance (s : LoadState) (call : TargetCall) : Decidable (TargetAllowed env key targets s call) :=
  inferInstanceAs (Decidable (_ ∧ _))

/-- A create yields new keys only, every other operation only keys of the store. -/
def TargetHits (s : LoadState) (call : TargetCall) : Prop :=
  ∀ keys, targetKeys env key targets s call = some keys → ∀ k ∈ keys, hits call.op s.store k

/-- Every history of a new collection that keeps to the number of live documents. -/
def TargetHistoriesHit : Prop :=
  ∀ spec calls, Guarded (targetStep env key targets) (TargetAllowed env key targets)
      ⟨Collection.new spec, ∅⟩ calls →
    Guarded (targetStep env key targets) (TargetHits env key targets) ⟨Collection.new spec, ∅⟩ calls

/-- The counter of a key that lies in one of the targets. -/
def targetHit (counter : Int) : Bool :=
  ({ key := key, start := 0, stop := 0 } : GeneratorArgs).inTarget env targets counter

def targetKey (counter : Int) : String := kvNextKey key 8 counter

/-- There are targets, and below a counter that lies in them all counters do. -/
def TargetsFromStart : Prop :=
  targets ≠ [] ∧ ∀ below hit : Nat, below < hit →
    targetHit env key targets hit = true → targetHit env key targets below = true

variable {env key targets}

theorem targetKey_distinct : KeysDistinct (targetKey key) := by
  intro i j iNonneg jNonneg same
  have equal := DocumentGenerator.kvNextKey_injective same
  omega

theorem getDocGenerator_targets (op : DocOp) (c : Collection) (numItems : Int)
    (targets : List Nat) :
    (getDocGenerator op c numItems key (some targets)).1 =
      ⟨key, op.firstIndex c, numItems, some targets⟩ := by
  cases op <;> simp [getDocGenerator, docRange, DocOp.firstIndex, targetStop]

/-- A call with targets searches from its first index on for as many keys as it is asked for. -/
theorem targetKeys_eq (given : targets ≠ []) (s : LoadState) (call : TargetCall) :
    targetKeys env key targets s call =
      (search (targetHit env key targets) call.fuel call.numItems.toNat
        (call.op.firstIndex s.collection)).map (·.map (targetKey key)) := by
  obtain ⟨target, others, rfl⟩ := List.exists_cons_of_ne_nil given
  simp only [targetKeys, getDocGenerator_targets, GeneratorArgs.docGenerator, DocGen.args,
    Option.map_map, GeneratorArgs.docKeys]
  refine congrArg₂ Option.map (funext ?_) rfl
  intro counters
  have drained := drain_docKeyAt [] (counters.map (kvNextKey key 8))
    (call.op.firstIndex s.collection)
  simp only [List.nil_append, List.length_nil, Nat.cast_zero, add_zero] at drained
  simp only [Function.comp_apply, drained]
  rfl

/-! ## Nothing to skip -/

structure TargetInv (key : String) (s : LoadState) : Prop where
  lowNonneg : 0 ≤ s.collection.docIndex.1
  ordered : s.collection.docIndex.1 ≤ s.collection.docIndex.2
  store : s.store =
    windowKeys (targetKey key) s.collection.docIndex.1 s.collection.docIndex.2

theorem TargetInv.new (spec : CollectionSpec) : TargetInv key ⟨Collection.new spec, ∅⟩ where
  lowNonneg := Int.le_refl 0
  ordered := Int.le_refl 0
  store := by simp [windowKeys, Collection.new]

/-- Without a gap in the hits an allowed call yields the keys of consecutive counters. -/
theorem targetKeys_closed (closed : TargetsFromStart env key targets) {s : LoadState}
    (inv : TargetInv key s) {call : TargetCall} {keys : List String}
    (returned : targetKeys env key targets s call = some keys) :
    keys = (window (call.op.firstIndex s.collection) call.numItems.toNat).map (targetKey key) := by
  rw [targetKeys_eq closed.1, Option.map_eq_some_iff] at returned
  obtain ⟨found, searched, rfl⟩ := returned
  have closedInt : ∀ below hit : Int, 0 ≤ below → below < hit →
      targetHit env key targets hit = true → targetHit env key targets below = true := by
    intro below hit nonneg less isHit
    lift below to Nat using nonneg
    lift hit to Nat using (by omega)
    exact closed.2 below hit (by omega) isHit
  have start : 0 ≤ call.op.firstIndex s.collection := by
    have low := inv.lowNonneg
    have ordered := inv.ordered
    simp only [DocOp.firstIndex]
    split
    · omega
    · omega
  rw [search_closed closedInt start searched]

theorem toFinset_map_window {count : Int} (start : Int) :
    ((window start count.toNat).map (targetKey key)).toFinset =
      windowKeys (targetKey key) start (start + count.toNat) := by
  ext k
  simp only [List.mem_toFinset, List.mem_map, mem_window, mem_windowKeys, and_assoc]

/-- The keys of an allowed call are those of a window. -/
theorem toFinset_targetKeys (closed : TargetsFromStart env key targets) {s : LoadState}
    (inv : TargetInv key s) {call : TargetCall} (nonneg : 0 ≤ call.numItems) {keys : List String}
    (returned : targetKeys env key targets s call = some keys) :
    keys.toFinset = windowKeys (targetKey key) (call.op.firstIndex s.collection)
      (call.op.firstIndex s.collection + call.numItems) := by
  rw [targetKeys_closed closed inv returned, toFinset_map_window, Int.toNat_of_nonneg nonneg]

/-- An allowed create takes fresh counters, every other allowed call live ones. -/
theorem TargetInv.targetHits {s : LoadState} (inv : TargetInv key s)
    (closed : TargetsFromStart env key targets) {call : TargetCall}
    (allowed : TargetAllowed env key targets s call) : TargetHits env key targets s call := by
  intro keys returned k member
  obtain ⟨_, nonneg, bound⟩ := allowed
  have low := inv.lowNonneg
  have ordered := inv.ordered
  rw [← List.mem_toFinset, toFinset_targetKeys closed inv nonneg returned] at member
  by_cases isCreate : call.op = .create
  · rw [isCreate] at member ⊢
    rw [hits, inv.store]
    intro present
    exact Finset.disjoint_left.mp
      (targetKey_distinct.disjoint_windowKeys low le_rfl (by omega)) present member
  · have live : k ∈ s.store := by
      rw [inv.store]
      rw [DocOp.firstIndex, if_neg isCreate] at member
      have within := bound.resolve_left isCreate
      exact windowKeys_subset ⟨le_rfl, by omega⟩ member
    cases op : call.op with
    | create => exact absurd op isCreate
    | delete | update | replace | read | touch => exact live

theorem TargetInv.step {s : LoadState} (inv : TargetInv key s)
    (closed : TargetsFromStart env key targets) {call : TargetCall}
    (allowed : TargetAllowed env key targets s call) :
    TargetInv key (targetStep env key targets s call) := by
  obtain ⟨op, n, fuel⟩ := call
  obtain ⟨returns, nonneg, bound⟩ := allowed
  obtain ⟨keys, returned⟩ := Option.isSome_iff_exists.mp returns
  have touched := toFinset_targetKeys closed inv nonneg returned
  have low := inv.lowNonneg
  have ordered := inv.ordered
  have nonneg : 0 ≤ n := nonneg
  have moved : (getDocGenerator op s.collection n key (some targets)).2.docIndex =
      (getDocGenerator op s.collection n key none).2.docIndex := rfl
  rw [getDocGenerator_docIndex] at moved
  have inside : op ≠ .create → s.collection.docIndex.1 + n ≤ s.collection.docIndex.2 := by
    intro isOther
    have within := bound.resolve_left isOther
    simp only at within
    omega
  simp only [targetStep, returned]
  constructor
  · simp only [moved]
    cases op <;> simp only <;> omega
  · simp only [moved]
    cases op with
    | create => simp only; omega
    | delete => exact inside (by decide)
    | update | replace | read | touch => exact ordered
  · simp only [moved, run_onKeys, touched, inv.store]
    cases op with
    | create => exact windowKeys_union ordered (le_add_of_nonneg_right nonneg)
    | delete => exact targetKey_distinct.windowKeys_sdiff low (le_add_of_nonneg_right nonneg)
    | update =>
      exact Finset.union_eq_left.mpr (windowKeys_subset ⟨le_rfl, inside (by decide)⟩)
    | replace | read | touch => rfl

theorem targetHistoriesHit_of_closed (closed : TargetsFromStart env key targets) :
    TargetHistoriesHit env key targets := by
  intro spec calls guarded
  refine @Guarded.mono _ _ _ _ (TargetInv key) _ ?_ ?_ _ (TargetInv.new spec) _ guarded
  · exact fun _ _ inv allowed => inv.step closed allowed
  · exact fun _ _ inv allowed => inv.targetHits closed allowed

/-! ## A gap in the hits -/

/-- What a create leaves behind. -/
theorem targetStep_create {s : LoadState} {n : Int} {fuel : Nat} {keys : List String}
    (returned : targetKeys env key targets s ⟨.create, n, fuel⟩ = some keys) :
    (targetStep env key targets s ⟨.create, n, fuel⟩).collection.docIndex =
        (s.collection.docIndex.1, s.collection.docIndex.2 + n) ∧
      (targetStep env key targets s ⟨.create, n, fuel⟩).store = s.store ∪ keys.toFinset := by
  simp only [targetStep, returned, run_onKeys, DocOp.effect]
  exact ⟨getDocGenerator_docIndex s.collection n key .create, trivial⟩

/-- The first counter that is not a hit, and the first hit behind it. -/
theorem exists_gap (notClosed : ¬ ∀ below hit : Nat, below < hit →
    targetHit env key targets hit = true → targetHit env key targets below = true) :
    ∃ gap distance : Nat,
      (∀ counter : Nat, counter < gap → targetHit env key targets counter = true) ∧
      (∀ offset : Nat, offset < distance + 1 →
        targetHit env key targets ((gap : Int) + offset) = false) ∧
      targetHit env key targets ((gap : Int) + (distance + 1 : Nat)) = true := by
  push Not at notClosed
  obtain ⟨below, hit, less, isHit, isMiss⟩ := notClosed
  have misses : ∃ counter : Nat, targetHit env key targets counter ≠ true := ⟨below, isMiss⟩
  have gapMiss := Nat.find_spec misses
  have gapLe : Nat.find misses ≤ below := Nat.find_min' misses isMiss
  generalize gapDef : Nat.find misses = gap at gapMiss gapLe
  have hits : ∃ distance : Nat, targetHit env key targets ((gap : Int) + (distance + 1 : Nat)) = true := by
    refine ⟨hit - gap - 1, ?_⟩
    have same : (gap : Int) + ((hit - gap - 1 + 1 : Nat) : Int) = hit := by omega
    rw [same]
    exact isHit
  refine ⟨gap, Nat.find hits, ?_, ?_, Nat.find_spec hits⟩
  · intro counter before
    by_contra miss
    exact Nat.find_min misses (gapDef ▸ before) miss
  · intro offset before
    cases offset with
    | zero => simpa using gapMiss
    | succ offset =>
      have notYet := Nat.find_min hits (Nat.lt_of_succ_lt_succ before)
      simpa using notYet

/-- Behind a gap two creates of one document find the same key. -/
theorem not_targetHistoriesHit_of_gap (given : targets ≠ [])
    (notClosed : ¬ ∀ below hit : Nat, below < hit →
      targetHit env key targets hit = true → targetHit env key targets below = true) :
    ¬ TargetHistoriesHit env key targets := by
  obtain ⟨gap, distance, before, skipped, behind⟩ := exists_gap notClosed
  intro always
  have first : ∀ s : LoadState, s.collection.docIndex = (0, 0) →
      targetKeys env key targets s ⟨.create, gap, gap⟩ =
        some ((window 0 gap).map (targetKey key)) := by
    intro s new
    rw [targetKeys_eq given]
    simp only [DocOp.firstIndex, if_true, new, Int.toNat_natCast]
    rw [search_all, Option.map_some]
    intro offset bound
    simpa using before offset bound
  have second : ∀ s : LoadState, s.collection.docIndex = (0, (gap : Int)) →
      targetKeys env key targets s ⟨.create, 1, distance + 2⟩ =
        some [targetKey key (gap + (distance + 1 : Nat))] := by
    intro s loaded
    rw [targetKeys_eq given]
    simp only [DocOp.firstIndex, if_true, loaded, Int.toNat_one]
    rw [search_first skipped behind]
    rfl
  have third : ∀ s : LoadState, s.collection.docIndex = (0, (gap : Int) + 1) →
      targetKeys env key targets s ⟨.create, 1, distance + 1⟩ =
        some [targetKey key (gap + (distance + 1 : Nat))] := by
    intro s loaded
    have shifted : ∀ offset : Nat, (gap : Int) + 1 + offset = gap + (offset + 1 : Nat) := by
      intro offset
      omega
    rw [targetKeys_eq given]
    simp only [DocOp.firstIndex, if_true, loaded, Int.toNat_one]
    rw [search_first, shifted]
    · rfl
    · intro offset bound
      rw [shifted]
      exact skipped (offset + 1) (by omega)
    · rw [shifted]
      exact behind
  have firstKeys := first ⟨Collection.new {}, ∅⟩ rfl
  obtain ⟨index, _⟩ := targetStep_create firstKeys
  have secondKeys := second _ (by rw [index]; simp [Collection.new])
  obtain ⟨index', store'⟩ := targetStep_create secondKeys
  have thirdKeys := third _ (by rw [index', index]; simp [Collection.new])
  have allowed : Guarded (targetStep env key targets) (TargetAllowed env key targets)
      ⟨Collection.new {}, ∅⟩
      [⟨.create, gap, gap⟩, ⟨.create, 1, distance + 2⟩, ⟨.create, 1, distance + 1⟩] :=
    ⟨⟨by simp [firstKeys], by simp, .inl rfl⟩, ⟨by simp [secondKeys], by simp, .inl rfl⟩,
      ⟨by simp [thirdKeys], by simp, .inl rfl⟩, trivial⟩
  obtain ⟨_, _, hit, _⟩ := always {} _ allowed
  have fresh := hit _ thirdKeys _ List.mem_cons_self
  simp only [hits, store'] at fresh
  exact fresh (by simp)

/-! ## An empty list of targets -/

/-- The key of an index where the list of targets is empty. -/
def untargetedKey (env : KeyEnv) (key : String) (index : Int) : String :=
  (({ key := key, start := 0, stop := 0 } : GeneratorArgs).documentGenerator env).keyAt index

/-- An empty list counts as no target in `doc_generator`, but the end of the range has been
    replaced by the number of documents. -/
theorem targetKeys_nil (s : LoadState) (call : TargetCall) :
    targetKeys env key [] s call =
      some ((window (call.op.firstIndex s.collection)
        (call.numItems - call.op.firstIndex s.collection).toNat).map (untargetedKey env key)) := by
  simp only [targetKeys, getDocGenerator_targets, DocGen.args]
  rw [GeneratorArgs.docGenerator_plain _ _ (by simp)]
  rfl

/-- Two creates of one document load only the first one, and a read of two misses the other. -/
theorem not_targetHistoriesHit_nil : ¬ TargetHistoriesHit env key [] := by
  intro always
  have read : ∀ s : LoadState, s.collection.docIndex.1 = 0 →
      targetKeys env key [] s ⟨.read, 2, 0⟩ =
        some [untargetedKey env key 0, untargetedKey env key 1] := by
    intro s low
    rw [targetKeys_nil]
    simp [DocOp.firstIndex, low, window, List.range_succ]
  have firstKeys : targetKeys env key [] ⟨Collection.new {}, ∅⟩ ⟨.create, 1, 0⟩ =
      some [untargetedKey env key 0] := by
    rw [targetKeys_nil]
    simp [DocOp.firstIndex, Collection.new, window, List.range_succ]
  obtain ⟨index, store⟩ := targetStep_create firstKeys
  have skipped : ∀ s : LoadState, s.collection.docIndex.2 = 1 →
      targetKeys env key [] s ⟨.create, 1, 0⟩ = some [] := by
    intro s high
    rw [targetKeys_nil]
    simp [DocOp.firstIndex, high]
  have secondKeys := skipped _ (by rw [index]; rfl)
  obtain ⟨index', store'⟩ := targetStep_create secondKeys
  have thirdKeys := read _ (by rw [index', index]; rfl)
  have allowed : Guarded (targetStep env key []) (TargetAllowed env key [])
      ⟨Collection.new {}, ∅⟩ [⟨.create, 1, 0⟩, ⟨.create, 1, 0⟩, ⟨.read, 2, 0⟩] := by
    refine ⟨⟨by simp [firstKeys], by simp, .inl rfl⟩, ⟨by simp [secondKeys], by simp, .inl rfl⟩,
      ⟨by simp [thirdKeys], by simp, .inr ?_⟩, trivial⟩
    rw [index', index]
    simp [Collection.new]
  obtain ⟨_, _, hit, _⟩ := always {} _ allowed
  have present := hit _ thirdKeys (untargetedKey env key 1) (by simp)
  simp only [hits, store', store] at present
  have same : untargetedKey env key 1 = untargetedKey env key 0 := by simpa using present
  have equal := DocumentGenerator.keyAt_injective _ (by decide) (by decide) same
  omega

/-- The tracked window describes the store exactly if the search for keys has nothing to skip. -/
theorem targetHistoriesHit_iff :
    TargetHistoriesHit env key targets ↔ TargetsFromStart env key targets := by
  constructor
  · intro hit
    have given : targets ≠ [] := by
      intro empty
      rw [empty] at hit
      exact not_targetHistoriesHit_nil hit
    refine ⟨given, ?_⟩
    by_contra notClosed
    exact not_targetHistoriesHit_of_gap given notClosed hit
  · exact targetHistoriesHit_of_closed

theorem letter_drawn :
    'A' ∈ "ABCDEFGHIJKLMNOPQRSTUVWXYZabcdefghijklmnopqrstuvwxyz0123456789".toList := by
  decide

/-- A hash that puts the key of index 1 into vBucket 0 and all others into vBucket 1. -/
def secondKeyOnly : KeyEnv where
  crc32 k := if k = "k-000001" then 0 else 65536
  random := { scaled := fun _ _ => 0, randint := fun _ low _ => low }
  randomString := id
  choices _ _ := ⟨'A', letter_drawn⟩

/-- The first two creates of one document both yield `k-000001`. -/
theorem secondKeyOnly_created_twice : ¬ ∀ env key targets, TargetHistoriesHit env key targets := by
  intro always
  have gap : ¬ ∀ below hit : Nat, below < hit → targetHit secondKeyOnly "k" [0] hit = true →
      targetHit secondKeyOnly "k" [0] below = true := by
    intro closed
    exact absurd (closed 0 1 (by decide) (by decide)) (by decide)
  exact not_targetHistoriesHit_of_gap (by decide) gap (always secondKeyOnly "k" [0])

end

end Taf.Bucket
