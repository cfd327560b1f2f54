import Taf.Lib.KeyStore
import Taf.Bucket.Collection

/-! # The tracked window and the documents of the store

A test drives a collection by calling `getDocGenerator` and then performing the
operation on every key of the generator.  `LoadState` puts the tracked collection
next to the key set of the store, and `WindowInv` ties the two together: the
window is what the store holds.  It is kept by every call (`loadStep_windowInv`)
once the collection has been loaded with at least one document; a collection that
still stands at (0, 0) does not count its first create. -/

namespace Taf.Bucket

open Taf.Lib Taf.DocGen

structure LoadState where
  collection : Collection
  store : Finset String
  deriving DecidableEq

/-- What an operation does to the key set (`update` is an upsert). -/
def DocOp.effect : DocOp → Effect
  | .create | .update => .insert
  | .delete => .erase
  | .replace | .read | .touch => .keep

/-- A create is meant for a new key, every other operation for an existing one. -/
def hits (op : DocOp) (store : Finset String) (key : String) : Prop :=
  match op with
  | .create => key ∉ store
  | _ => key ∈ store

section
variable (draws : Draws) (key : String)

def docKey (index : Int) : String :=
  (DocGen.generator draws ⟨key, 0, 0, none⟩).keyAt index

/-- One `get_doc_generator` call, followed by the operation on every key it gives. -/
def loadStep (s : LoadState) (call : DocOp × Int) : LoadState :=
  let (gen, c) := getDocGenerator call.1 s.collection call.2 key none
  ⟨c, run applyAction s.store (onKeys call.1.effect (gen.generator draws).keys)⟩

def loadAllowed (s : LoadState) (call : DocOp × Int) : Prop :=
  0 ≤ call.2 ∧ (call.1 = .create ∨ call.2 ≤ s.collection.numItems)

instance (s : LoadState) (call : DocOp × Int) : Decidable (loadAllowed s call) :=
  inferInstanceAs (Decidable (_ ∧ _))

/-- Key after key, no create finds its key and no other operation misses it. -/
def NoMisses (s : LoadState) (call : DocOp × Int) : Prop :=
  let gen := (getDocGenerator call.1 s.collection call.2 key none).1
  Guarded (fun store k => applyAction store (call.1.effect, k)) (hits call.1) s.store
    (gen.generator draws).keys

/-- A new collection whose first load created the `num_items` documents of its spec. -/
def loadedOnce (spec : CollectionSpec) : LoadState :=
  let c := Collection.new spec
  loadStep draws key ⟨c, ∅⟩ (.create, c.numItems)

/-- The store holds exactly the documents of the window, and their number is tracked. -/
structure Tracked (s : LoadState) : Prop where
  numItems : s.collection.numItems = s.collection.docIndex.2 - s.collection.docIndex.1
  card : (s.store.card : Int) = s.collection.numItems
  keys : ∀ k, k ∈ s.store ↔ ∃ index, s.collection.docIndex.1 ≤ index ∧
    index < s.collection.docIndex.2 ∧ docKey draws key index = k

/-! ## Invariant -/

structure WindowInv (s : LoadState) : Prop where
  lowNonneg : 0 ≤ s.collection.docIndex.1
  ordered : s.collection.docIndex.1 ≤ s.collection.docIndex.2
  loaded : 0 < s.collection.docIndex.2
  numItems : s.collection.numItems = s.collection.docIndex.2 - s.collection.docIndex.1
  store : s.store =
    windowKeys (docKey draws key) s.collection.docIndex.1 s.collection.docIndex.2

variable {draws key}

theorem docKey_distinct : KeysDistinct (docKey draws key) := by
  intro i j iNonneg jNonneg same
  exact DocumentGenerator.keyAt_injective _ iNonneg jNonneg same

theorem generator_keys_toFinset (start stop : Int) :
    (DocGen.generator draws ⟨key, start, stop, none⟩).keys.toFinset =
      windowKeys (docKey draws key) start stop := by
  ext k
  rw [List.mem_toFinset, DocumentGenerator.mem_keys, mem_windowKeys]
  rfl

theorem WindowInv.tracked {s : LoadState} (inv : WindowInv draws key s) : Tracked draws key s where
  numItems := inv.numItems
  card := by rw [inv.store, docKey_distinct.card_windowKeys inv.lowNonneg inv.ordered, inv.numItems]
  keys k := by rw [inv.store, mem_windowKeys]

/-- Distinct keys that are all as the operation expects them stay so while it runs. -/
theorem guarded_of_forall_hits (op : DocOp) {keys : List String} (distinct : keys.Nodup)
    {store : Finset String} (all : ∀ k ∈ keys, hits op store k) :
    Guarded (fun store k => applyAction store (op.effect, k)) (hits op) store keys := by
  induction keys generalizing store with
  | nil => trivial
  | cons first keys ih =>
    obtain ⟨fresh, distinctRest⟩ := List.nodup_cons.mp distinct
    refine ⟨all first (by simp), ih distinctRest fun k member => ?_⟩
    have different : k ≠ first := fun same => fresh (same ▸ member)
    have before := all k (by simp [member])
    cases op <;> simp only [hits, mem_applyAction_of_ne different] at before ⊢ <;> exact before

/-- An allowed create takes fresh indices, every other allowed call live ones. -/
theorem loadAllowed.noMisses {s : LoadState} (inv : WindowInv draws key s) {call : DocOp × Int}
    (allowed : loadAllowed s call) : NoMisses draws key s call := by
  obtain ⟨op, n⟩ := call
  obtain ⟨nonneg, enough⟩ := allowed
  have low := inv.lowNonneg
  have ordered := inv.ordered
  have count := inv.numItems
  have firstNonneg : 0 ≤ op.firstIndex s.collection := by
    unfold DocOp.firstIndex; split <;> omega
  rw [NoMisses, getDocGenerator_range]
  apply guarded_of_forall_hits op (DocumentGenerator.keys_nodup _ firstNonneg)
  intro k member
  rw [← List.mem_toFinset, generator_keys_toFinset] at member
  by_cases isCreate : op = .create
  · subst op
    rw [hits, inv.store]
    intro present
    exact Finset.disjoint_left.mp
      (docKey_distinct.disjoint_windowKeys low le_rfl firstNonneg) present member
  · have live : k ∈ s.store := by
      rw [inv.store]
      rw [DocOp.firstIndex, if_neg isCreate] at member
      have within : n ≤ s.collection.numItems := enough.resolve_left isCreate
      exact windowKeys_subset ⟨le_rfl, by omega⟩ member
    cases op <;> first | exact absurd rfl isCreate | exact live

theorem loadStep_windowInv {s : LoadState} (inv : WindowInv draws key s) {call : DocOp × Int}
    (allowed : loadAllowed s call) : WindowInv draws key (loadStep draws key s call) := by
  obtain ⟨op, n⟩ := call
  obtain ⟨nonneg, enough⟩ := allowed
  have low := inv.lowNonneg
  have ordered := inv.ordered
  have loaded := inv.loaded
  have count := inv.numItems
  have within : op ≠ .create → n ≤ s.collection.numItems := enough.resolve_left
  have notNew : s.collection.docIndex ≠ (0, 0) := by
    intro new
    rw [new] at loaded
    exact absurd loaded (by decide)
  simp only [loadStep]
  constructor
  all_goals
    simp only [getDocGenerator_range, getDocGenerator_docIndex, getDocGenerator_numItems, run_onKeys,
      generator_keys_toFinset, inv.store]
  case lowNonneg => cases op <;> simp only <;> omega
  case ordered =>
    cases op with
    | create => simp only; omega
    | delete => have := within (by decide); simp only; omega
    | _ => exact ordered
  case loaded => cases op <;> simp only <;> omega
  case numItems => cases op <;> simp only [ne_eq, notNew, not_false_eq_true, if_true] <;> omega
  case store =>
    cases op with
    | create => exact windowKeys_union ordered (le_add_of_nonneg_right nonneg)
    | delete => exact docKey_distinct.windowKeys_sdiff low (le_add_of_nonneg_right nonneg)
    | update =>
      have := within (by decide)
      have inside : s.collection.docIndex.1 + n ≤ s.collection.docIndex.2 := by omega
      exact Finset.union_eq_left.mpr (windowKeys_subset ⟨le_rfl, inside⟩)
    | replace | read | touch => rfl

theorem loadedOnce_windowInv {spec : CollectionSpec} (positive : 0 < (Collection.new spec).numItems) :
    WindowInv draws key (loadedOnce draws key spec) := by
  simp only [loadedOnce, loadStep]
  constructor
  all_goals
    simp only [getDocGenerator_range, getDocGenerator_docIndex, getDocGenerator_numItems, run_onKeys,
      generator_keys_toFinset]
  · exact le_rfl
  · simpa [Collection.new] using positive.le
  · simpa [Collection.new] using positive
  · simp [Collection.new]
  · simp [Collection.new, DocOp.effect, DocOp.firstIndex]

/-! ## Whole runs -/

theorem run_tracked (spec : CollectionSpec) (positive : 0 < (Collection.new spec).numItems)
    (calls : List (DocOp × Int))
    (allowed : Guarded (loadStep draws key) loadAllowed (loadedOnce draws key spec) calls) :
    (∀ before after, calls = before ++ after →
      Tracked draws key (run (loadStep draws key) (loadedOnce draws key spec) before)) ∧
    (∀ before call after, calls = before ++ call :: after →
      NoMisses draws key (run (loadStep draws key) (loadedOnce draws key spec) before) call) := by
  have start : WindowInv draws key (loadedOnce draws key spec) := loadedOnce_windowInv positive
  have preserved : ∀ s call, WindowInv draws key s → loadAllowed s call →
      WindowInv draws key (loadStep draws key s call) := fun _ _ inv => loadStep_windowInv inv
  constructor
  · rintro before after rfl
    exact (allowed.take.invariant preserved start).tracked
  · rintro before call after rfl
    exact allowed.forall_call preserved (fun _ _ inv => loadAllowed.noMisses inv) start

end

/-- Draws for runs whose keys are plain: nothing is drawn. -/
def noDraws : Draws := ⟨⟨fun _ _ => 0, fun _ _ _ => 0⟩, id⟩

theorem run_tracked_create_delete :
    Tracked noDraws "test_docs" (run (loadStep noDraws "test_docs")
      (loadedOnce noDraws "test_docs" { numItems := some 2 }) [(.create, 3), (.delete, 4), (.read, 1)]) :=
  (run_tracked { numItems := some 2 } (by decide) [(.create, 3), (.delete, 4), (.read, 1)]
    (by decide)).1 _ [] rfl

/-- A collection without documents still stands at (0, 0) after its empty first load, so the
    next create is taken for that load and `num_items` misses it. -/
theorem first_create_uncounted :
    Guarded (loadStep noDraws "test_docs") loadAllowed (loadedOnce noDraws "test_docs" {})
        [(.create, 1)] ∧
      ¬ Tracked noDraws "test_docs" (run (loadStep noDraws "test_docs")
        (loadedOnce noDraws "test_docs" {}) [(.create, 1)]) := by
  refine ⟨by decide, fun tracked => ?_⟩
  have counted := tracked.numItems
  exact absurd counted (by decide)

end Taf.Bucket
