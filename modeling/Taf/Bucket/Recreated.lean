import Taf.Lib.Run
import Taf.Bucket.Collection

/-! # Re-created collections

A dropped collection stays in its scope and is revived in place by
`Collection.recreated`.  What a later `getDocGenerator` or `getSubdocGenerator`
call reads of a collection is its three tracked fields, so the revived collection
behaves like a new one exactly when all three were reset.  `recreated` resets
`num_items` and `doc_index`, and (unlike `flushed`) not `sub_doc_index`. -/

namespace Taf.Bucket

open Taf.Lib

inductive GenCall where
  | doc (op : DocOp) (numItems : Int) (key : String) (targetVbuckets : Option (List Nat))
  | subDoc (op : SubDocOp) (numItems : Int) (key : String) (targetVbuckets : Option (List Nat))
  deriving DecidableEq

def genCall (c : Collection) : GenCall → DocGen × Collection
  | .doc op n key target => getDocGenerator op c n key target
  | .subDoc op n key target => getSubdocGenerator op c n key target

def afterCalls (c : Collection) (calls : List GenCall) : Collection :=
  run (fun c call => (genCall c call).2) c calls

/-- The index ranges of the generators that a sequence of calls returns. -/
def callRanges : Collection → List GenCall → List (Int × Int)
  | _, [] => []
  | c, call :: calls =>
    ((genCall c call).1.start, (genCall c call).1.stop) :: callRanges (genCall c call).2 calls

def Collection.dropped (c : Collection) : Collection := { c with isDropped := true }

/-- The fields that later calls read. -/
def Collection.tracked (c : Collection) : Int × (Int × Int) × (Int × Int) :=
  (c.numItems, c.docIndex, c.subDocIndex)

/-- No continuation tells the two collections apart. -/
def BehavesAs (c c' : Collection) : Prop :=
  ∀ calls, callRanges c calls = callRanges c' calls ∧
    (afterCalls c calls).tracked = (afterCalls c' calls).tracked

theorem genCall_congr {c c' : Collection} (same : c.tracked = c'.tracked) (call : GenCall) :
    (genCall c call).1 = (genCall c' call).1 ∧
      (genCall c call).2.tracked = (genCall c' call).2.tracked := by
  obtain ⟨numItems, docIndex, subDocIndex⟩ :
      c.numItems = c'.numItems ∧ c.docIndex = c'.docIndex ∧ c.subDocIndex = c'.subDocIndex := by
    simpa [Collection.tracked] using same
  cases call with
  | doc op n key target =>
    cases op <;>
      simp only [genCall, getDocGenerator, docRange, Collection.tracked, shiftSubDocIndex_numItems,
        shiftSubDocIndex_docIndex, shiftSubDocIndex_subDocIndex, numItems, docIndex, subDocIndex,
        and_self]
  | subDoc op n key target =>
    cases op with
    | upsert =>
      simp only [genCall, getSubdocGenerator, subDocRange, docIndex, subDocIndex]
      split_ifs <;> simp [Collection.tracked, numItems, docIndex, subDocIndex]
    | _ =>
      simp only [genCall, getSubdocGenerator, subDocRange, Collection.tracked, numItems, docIndex,
        subDocIndex, and_self]

/-- Equal tracked fields are a simulation over every continuation. -/
theorem behavesAs_of_tracked {c c' : Collection} (same : c.tracked = c'.tracked) : BehavesAs c c' := by
  intro calls
  constructor
  · induction calls generalizing c c' with
    | nil => rfl
    | cons call calls ih =>
      obtain ⟨sameGen, sameAfter⟩ := genCall_congr same call
      rw [callRanges, callRanges, sameGen, ih sameAfter]
  · exact run_simulation (R := fun c c' : Collection => c.tracked = c'.tracked)
      (fun _ _ call related => (genCall_congr related call).2) same calls

theorem behavesAs_iff {c c' : Collection} : BehavesAs c c' ↔ c.tracked = c'.tracked :=
  ⟨fun alike => (alike []).2, behavesAs_of_tracked⟩

/-- Whatever was done to a collection before its drop: re-created, it behaves like a new one
    exactly when the sub-document window still stood at (0, 0). -/
theorem recreated_behavesAs_new (first spec : CollectionSpec) (history : List GenCall) :
    BehavesAs ((afterCalls (Collection.new first) history).dropped.recreated spec)
        (Collection.new spec) ↔
      (afterCalls (Collection.new first) history).subDocIndex = (0, 0) := by
  rw [behavesAs_iff]
  simp [Collection.tracked, Collection.recreated, Collection.dropped, Collection.new]

/-- Two documents got sub-documents before the drop; the first insert into the new collection
    skips its documents 0 and 1. -/
theorem recreated_keeps_subDocIndex :
    let history : List GenCall := [.doc .create 2 "test_docs" none, .subDoc .insert 2 "test_docs" none]
    let calls : List GenCall := [.doc .create 5 "test_docs" none, .subDoc .insert 3 "test_docs" none]
    let old := (afterCalls (Collection.new {}) history).dropped.recreated {}
    callRanges old calls = [(0, 5), (2, 5)] ∧
      callRanges (Collection.new {}) calls = [(0, 5), (0, 3)] ∧
      ¬ BehavesAs old (Collection.new {}) := by
  intro history calls old
  refine ⟨by decide, by decide, fun alike => ?_⟩
  exact absurd (alike calls).1 (by decide)

end Taf.Bucket
