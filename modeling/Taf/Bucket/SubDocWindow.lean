import Taf.Lib.Run
import Taf.Bucket.Collection

/-! # The sub-document window

Sub-document operations address documents through a second window,
`subDocIndex`.  Every operation that moves the document window has to move this
one along; `SubDocInv` says that it stays inside.  It survives every call as long
as delete, update and replace ask for documents that the window holds.  This is
what `n ≤ num_items` means, except after a flush that keeps `num_items` for a
reload: until the documents are loaded again the count is ahead of the window. -/

namespace Taf.Bucket

open Taf.Lib

inductive WindowCall where
  | doc (op : DocOp) (numItems : Int)
  | subDoc (op : SubDocOp) (numItems : Int)
  | flush (skipResettingNumItems : Bool)
  deriving DecidableEq, Repr

/-- The collection, and whether its last flush has kept `num_items` for a reload. -/
structure WindowState where
  collection : Collection
  kept : Bool := false
  deriving DecidableEq

variable (key : String)

def windowStep (s : WindowState) : WindowCall → WindowState
  | .doc op n => { s with collection := (getDocGenerator op s.collection n key none).2 }
  | .subDoc op n => { s with collection := (getSubdocGenerator op s.collection n key none).2 }
  | .flush skip => ⟨s.collection.flushed skip, skip⟩

def windowAllowed (s : WindowState) : WindowCall → Prop
  | .doc .create n => 0 ≤ n
  | .doc _ n => 0 ≤ n ∧ n ≤ s.collection.numItems
  | .subDoc .insert n | .subDoc .upsert n => 0 ≤ n
  | .subDoc .remove n | .subDoc .lookup n =>
    0 ≤ n ∧ n ≤ s.collection.subDocIndex.2 - s.collection.subDocIndex.1
  | .subDoc .counter _ => False
  | .flush _ => True

/-- After a flush that kept `num_items`, only documents that were loaded again are mutated. -/
def mutatesReloaded (s : WindowState) : WindowCall → Prop
  | .doc .delete n | .doc .update n | .doc .replace n =>
    s.kept = true → n ≤ s.collection.docIndex.2 - s.collection.docIndex.1
  | _ => True

instance : ∀ s call, Decidable (windowAllowed s call)
  | _, .doc .create n => inferInstanceAs (Decidable (0 ≤ n))
  | s, .doc .delete n | s, .doc .update n | s, .doc .replace n | s, .doc .read n
  | s, .doc .touch n => inferInstanceAs (Decidable (0 ≤ n ∧ n ≤ s.collection.numItems))
  | _, .subDoc .insert n | _, .subDoc .upsert n => inferInstanceAs (Decidable (0 ≤ n))
  | s, .subDoc .remove n | s, .subDoc .lookup n =>
    inferInstanceAs (Decidable (0 ≤ n ∧ n ≤ s.collection.subDocIndex.2 - s.collection.subDocIndex.1))
  | _, .subDoc .counter _ => inferInstanceAs (Decidable False)
  | _, .flush _ => inferInstanceAs (Decidable True)

instance : ∀ s call, Decidable (mutatesReloaded s call)
  | s, .doc .delete n | s, .doc .update n | s, .doc .replace n =>
    inferInstanceAs (Decidable (s.kept = true → n ≤ s.collection.docIndex.2 - s.collection.docIndex.1))
  | _, .doc .create _ | _, .doc .read _ | _, .doc .touch _ => inferInstanceAs (Decidable True)
  | _, .subDoc _ _ => inferInstanceAs (Decidable True)
  | _, .flush _ => inferInstanceAs (Decidable True)

def freshlyLoaded (spec : CollectionSpec) : WindowState where
  collection :=
    let c := Collection.new spec
    (getDocGenerator .create c c.numItems key none).2

/-- The sub-document window lies in the document window, or no sub-document was ever made. -/
def SubDocWindow (c : Collection) : Prop :=
  (c.docIndex.1 ≤ c.subDocIndex.1 ∧ c.subDocIndex.1 ≤ c.subDocIndex.2 ∧
    c.subDocIndex.2 ≤ c.docIndex.2) ∨ c.subDocIndex = (0, 0)

/-- Every index of the generator a sub-document call returns is a live document. -/
def SubDocLive (s : WindowState) : WindowCall → Prop
  | .subDoc op n =>
    ∀ index, (getSubdocGenerator op s.collection n key none).1.start ≤ index →
      index < (getSubdocGenerator op s.collection n key none).1.stop →
      s.collection.docIndex.1 ≤ index ∧ index < s.collection.docIndex.2
  | _ => True

/-! ## Invariant -/

structure SubDocInv (s : WindowState) : Prop where
  low : s.collection.docIndex.1 ≤ s.collection.subDocIndex.1
  ordered : s.collection.subDocIndex.1 ≤ s.collection.subDocIndex.2
  high : s.collection.subDocIndex.2 ≤ s.collection.docIndex.2
  counted : s.kept = false →
    s.collection.numItems ≤ s.collection.docIndex.2 - s.collection.docIndex.1

variable {key}

theorem getDocGenerator_subDocIndex (op : DocOp) (c : Collection) (n : Int) :
    (getDocGenerator op c n key none).2.subDocIndex =
      match op with
      | .delete | .update | .replace => (shiftSubDocIndex c (c.docIndex.1 + n)).subDocIndex
      | _ => c.subDocIndex := by
  cases op <;> simp [getDocGenerator, docRange, shiftSubDocIndex_subDocIndex]

/-- The documents a delete, update or replace takes are in the window. -/
theorem SubDocInv.mutated_le {s : WindowState} (inv : SubDocInv s) {op : DocOp} {n : Int}
    (allowed : windowAllowed s (.doc op n)) (reloaded : mutatesReloaded s (.doc op n))
    (mutates : op = .delete ∨ op = .update ∨ op = .replace) :
    0 ≤ n ∧ n ≤ s.collection.docIndex.2 - s.collection.docIndex.1 := by
  have bounds : 0 ≤ n ∧ n ≤ s.collection.numItems := by
    rcases mutates with rfl | rfl | rfl <;> exact allowed
  refine ⟨bounds.1, ?_⟩
  cases kept : s.kept with
  | false => exact bounds.2.trans (inv.counted kept)
  | true => rcases mutates with rfl | rfl | rfl <;> exact reloaded kept

theorem doc_subDocInv {s : WindowState} (inv : SubDocInv s) {op : DocOp} {n : Int}
    (allowed : windowAllowed s (.doc op n)) (reloaded : mutatesReloaded s (.doc op n)) :
    SubDocInv (windowStep key s (.doc op n)) := by
  obtain ⟨low, ordered, high, counted⟩ := inv
  cases op with
  | create =>
    simp only [windowAllowed] at allowed
    constructor <;>
      simp only [windowStep, getDocGenerator_docIndex, getDocGenerator_numItems,
        getDocGenerator_subDocIndex]
    · exact low
    · exact ordered
    · omega
    · intro reset
      have := counted reset
      split_ifs <;> omega
  | delete =>
    have bounds := SubDocInv.mutated_le ⟨low, ordered, high, counted⟩ allowed reloaded (by simp)
    constructor <;>
      simp only [windowStep, getDocGenerator_docIndex, getDocGenerator_numItems,
        getDocGenerator_subDocIndex, shiftSubDocIndex_subDocIndex]
    · omega
    · split_ifs <;> omega
    · split_ifs <;> omega
    · intro reset
      have := counted reset
      omega
  | update | replace =>
    have bounds := SubDocInv.mutated_le ⟨low, ordered, high, counted⟩ allowed reloaded (by simp)
    constructor <;>
      simp only [windowStep, getDocGenerator_docIndex, getDocGenerator_numItems,
        getDocGenerator_subDocIndex, shiftSubDocIndex_subDocIndex]
    · omega
    · split_ifs <;> omega
    · split_ifs <;> omega
    · exact counted
  | read | touch => exact ⟨low, ordered, high, counted⟩

theorem subDoc_subDocInv {s : WindowState} (inv : SubDocInv s) {op : SubDocOp} {n : Int}
    (allowed : windowAllowed s (.subDoc op n)) :
    SubDocInv (windowStep key s (.subDoc op n)) := by
  obtain ⟨low, ordered, high, counted⟩ := inv
  cases op with
  | insert =>
    simp only [windowAllowed] at allowed
    constructor <;> simp only [windowStep, getSubdocGenerator, subDocRange]
    · exact low
    · split_ifs <;> omega
    · split_ifs <;> omega
    · exact counted
  | remove =>
    simp only [windowAllowed] at allowed
    constructor <;> simp only [windowStep, getSubdocGenerator, subDocRange]
    · omega
    · omega
    · exact high
    · exact counted
  | upsert =>
    simp only [windowAllowed] at allowed
    simp only [windowStep, getSubdocGenerator, subDocRange]
    split_ifs with beyondDocs beyondSubDocs
    -- An upsert beyond the documents moves the window's end to theirs, any other leaves it.
    · exact ⟨low, ordered.trans high, le_rfl, counted⟩
    · exact ⟨low, ordered, high, counted⟩
    · exact ⟨low, ordered, high, counted⟩
  | lookup => exact ⟨low, ordered, high, counted⟩
  | counter => exact absurd allowed id

theorem windowStep_subDocInv {s : WindowState} (inv : SubDocInv s) {call : WindowCall}
    (allowed : windowAllowed s call ∧ mutatesReloaded s call) :
    SubDocInv (windowStep key s call) := by
  cases call with
  | doc op n => exact doc_subDocInv inv allowed.1 allowed.2
  | subDoc op n => exact subDoc_subDocInv inv allowed.1
  | flush skip =>
    refine ⟨le_rfl, le_rfl, le_rfl, fun reset => ?_⟩
    simp only [windowStep] at reset
    subst reset
    exact le_rfl

/-- The generators clip their ranges to the live documents. -/
theorem SubDocInv.subDocLive {s : WindowState} (inv : SubDocInv s) {call : WindowCall}
    (allowed : windowAllowed s call) : SubDocLive key s call := by
  obtain ⟨low, ordered, high, -⟩ := inv
  cases call with
  | subDoc op n =>
    intro index atLeast below
    cases op with
    | insert =>
      simp only [getSubdocGenerator, subDocRange, targetStop_all] at atLeast below
      split_ifs at below <;> omega
    | upsert =>
      simp only [getSubdocGenerator, subDocRange] at atLeast below
      split_ifs at atLeast below <;> simp only [targetStop_all] at atLeast below <;> omega
    | remove | lookup =>
      simp only [windowAllowed] at allowed
      simp only [getSubdocGenerator, subDocRange, targetStop_all] at atLeast below
      omega
    | counter => exact absurd allowed id
  | _ => trivial

theorem freshlyLoaded_subDocInv {spec : CollectionSpec} (nonneg : 0 ≤ (Collection.new spec).numItems) :
    SubDocInv (freshlyLoaded key spec) := by
  constructor <;>
    simp only [freshlyLoaded, getDocGenerator_docIndex, getDocGenerator_numItems,
      getDocGenerator_subDocIndex]
  · exact le_rfl
  · exact le_rfl
  · simpa [Collection.new] using nonneg
  · simp [Collection.new]

/-! ## Whole runs -/

theorem run_subDocWindow (key : String) (spec : CollectionSpec) (nonneg : 0 ≤ (Collection.new spec).numItems)
    (calls : List WindowCall)
    (allowed : Guarded (windowStep key) (fun s call => windowAllowed s call ∧ mutatesReloaded s call)
      (freshlyLoaded key spec) calls) :
    (∀ before after, calls = before ++ after →
      SubDocWindow (run (windowStep key) (freshlyLoaded key spec) before).collection) ∧
    (∀ before call after, calls = before ++ call :: after →
      SubDocLive key (run (windowStep key) (freshlyLoaded key spec) before) call) := by
  have start : SubDocInv (freshlyLoaded key spec) := freshlyLoaded_subDocInv nonneg
  have preserved : ∀ s call, SubDocInv s → windowAllowed s call ∧ mutatesReloaded s call →
      SubDocInv (windowStep key s call) := fun _ _ inv => windowStep_subDocInv inv
  constructor
  · rintro before after rfl
    have inv := allowed.take.invariant preserved start
    exact .inl ⟨inv.low, inv.ordered, inv.high⟩
  · rintro before call after rfl
    exact allowed.forall_call preserved (fun _ _ inv ok => inv.subDocLive ok.1) start

theorem run_subDocWindow_insert_update :
    SubDocWindow (run (windowStep "test_docs") (freshlyLoaded "test_docs" { numItems := some 4 })
      [.subDoc .insert 3, .doc .update 2, .flush true, .doc .create 4, .doc .delete 1]).collection :=
  (run_subDocWindow "test_docs" { numItems := some 4 } (by decide)
    [.subDoc .insert 3, .doc .update 2, .flush true, .doc .create 4, .doc .delete 1]
    (by decide)).1 _ [] rfl

/-- Two documents are flushed but stay counted; an update of one of them moves the sub-document
    window behind the empty document window. -/
theorem update_after_kept_count :
    Guarded (windowStep "test_docs") windowAllowed (freshlyLoaded "test_docs" { numItems := some 2 })
        [.flush true, .doc .update 1] ∧
      ¬ SubDocWindow (run (windowStep "test_docs") (freshlyLoaded "test_docs" { numItems := some 2 })
        [.flush true, .doc .update 1]).collection := by
  refine ⟨by decide, ?_⟩
  unfold SubDocWindow
  decide

end Taf.Bucket
