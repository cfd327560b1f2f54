import Taf.DocGen.DocumentGenerator

/-! # Collections and the windows of their documents

`Collection` of `BucketLib/bucket.py` remembers which documents a test has loaded:
`docIndex` is the half-open window of live document indices, `subDocIndex` the
window of documents that carry sub-documents, `numItems` the expected item count.
`getDocGenerator` and `getSubdocGenerator` (`DocLoaderUtils` in
`bucket_ready_functions.py`) hand out the range of the next operation and move the
windows; `flushed` and `recreated` reset them. -/

namespace Taf.Bucket

open Taf.DocGen

/-! ## Operations (`Cb_constants/DocLoading.py`) -/

inductive DocOp where
  | create | delete | update | replace | read | touch
  deriving DecidableEq, Repr

inductive SubDocOp where
  | insert | upsert | remove | lookup | counter
  deriving DecidableEq, Repr

/-- `DocLoading.Bucket.DOC_OPS`, in the order in which a spec is walked. -/
def docOps : List DocOp := [.delete, .read, .touch, .update, .replace, .create]

def subDocOps : List SubDocOp := [.remove, .lookup, .upsert, .insert]

/-! ## The tracked collection -/

structure CollectionSpec where
  name : Option String := none
  numItems : Option Int := none
  maxTTL : Option Int := none
  history : Option String := none
  deriving DecidableEq

structure Collection where
  name : Option String
  numItems : Int
  maxTTL : Int
  history : String
  isDropped : Bool := false
  -- How often the collection was re-created (the source's field `recreated`).
  recreations : Nat := 0
  docIndex : Int × Int := (0, 0)
  subDocIndex : Int × Int := (0, 0)
  deriving DecidableEq

namespace Collection

def new (spec : CollectionSpec) : Collection where
  name := spec.name
  numItems := spec.numItems.getD 0
  maxTTL := spec.maxTTL.getD 0
  history := spec.history.getD "false"

def flushed (c : Collection) (skipResettingNumItems : Bool) : Collection :=
  { c with
    numItems := if skipResettingNumItems then c.numItems else 0
    docIndex := (0, 0)
    subDocIndex := (0, 0) }

def recreated (c : Collection) (spec : CollectionSpec) : Collection :=
  -- `sub_doc_index` is not reset, unlike in `flushed`
  { c with
    numItems := spec.numItems.getD 0
    maxTTL := spec.maxTTL.getD 0
    history := spec.history.getD "false"
    isDropped := false
    recreations := c.recreations + 1
    docIndex := (0, 0) }

end Collection

/-! ## Generators for the next operation -/

/-- The arguments a `get_*_generator` call gives to the generator it returns.
    `targetVbucket` is `none` for the source's `"all"`. -/
structure DocGen where
  key : String
  start : Int
  -- The source's `end`.
  stop : Int
  targetVbucket : Option (List Nat)
  deriving DecidableEq

/-- The draws behind random keys: `self.random` and the letters drawn for a name. -/
structure Draws where
  random : Prng
  letters : String → String

/-- The `DocumentGenerator` that `doc_generator` builds when no vBucket is targeted. -/
def DocGen.generator (draws : Draws) (gen : DocGen) : DocumentGenerator where
  name := gen.key
  start := gen.start
  itr := gen.start
  stop := gen.stop
  random := draws.random
  randomString := draws.letters gen.key

/-- Target-vBucket generators take the number of documents in the place of `end`. -/
def targetStop (targetVbuckets : Option (List Nat)) (start stop : Int) : Int :=
  if targetVbuckets.isNone then stop else stop - start

/-- The range of a document operation and the windows it leaves, before the
    sub-document window is shifted. -/
def docRange (op : DocOp) (c : Collection) (numItems : Int) : Int × Int × Collection :=
  match op with
  | .create =>
    let start := c.docIndex.2
    let stop := start + numItems
    (start, stop,
      { c with
        -- (0, 0) is the collection that was never loaded: its first load is already
        -- counted in the `num_items` of its spec.
        numItems := if c.docIndex ≠ (0, 0) then c.numItems + (stop - start) else c.numItems
        docIndex := (c.docIndex.1, stop) })
  | .delete =>
    let start := c.docIndex.1
    let stop := start + numItems
    (start, stop,
      { c with docIndex := (stop, c.docIndex.2), numItems := c.numItems - (stop - start) })
  | _ => (c.docIndex.1, c.docIndex.1 + numItems, c)

/-- Deleted, updated and replaced documents lose their sub-documents. -/
def shiftSubDocIndex (c : Collection) (stop : Int) : Collection :=
  if c.subDocIndex.1 < stop then
    if c.subDocIndex.2 < stop then { c with subDocIndex := (stop, stop) }
    else { c with subDocIndex := (stop, c.subDocIndex.2) }
  else c

/-- `DocLoaderUtils.get_doc_generator` for documents of type `"default"`. -/
def getDocGenerator (op : DocOp) (c : Collection) (numItems : Int) (genericKey : String)
    (targetVbuckets : Option (List Nat)) : DocGen × Collection :=
  let (start, stop, moved) := docRange op c numItems
  let shifted :=
    match op with
    | .delete | .update | .replace => shiftSubDocIndex moved stop
    | _ => moved
  ({ key := genericKey, start := start, stop := targetStop targetVbuckets start stop,
     targetVbucket := targetVbuckets }, shifted)

def subDocRange (op : SubDocOp) (c : Collection) (numItems : Int) : Int × Int × Collection :=
  match op with
  | .insert =>
    let start := c.subDocIndex.2
    let stop := if start + numItems > c.docIndex.2 then c.docIndex.2 else start + numItems
    (start, stop, { c with subDocIndex := (c.subDocIndex.1, stop) })
  | .remove =>
    let start := c.subDocIndex.1
    let stop := start + numItems
    (start, stop, { c with subDocIndex := (stop, c.subDocIndex.2) })
  | .upsert =>
    let start := c.subDocIndex.1
    let stop := start + numItems
    if stop > c.docIndex.2 then
      (start, c.docIndex.2, { c with subDocIndex := (c.subDocIndex.1, c.docIndex.2) })
    else if stop > c.subDocIndex.2 then
      (start, c.subDocIndex.2, { c with subDocIndex := (c.subDocIndex.1, c.subDocIndex.2) })
    else (start, stop, c)
  | .lookup | .counter => (c.subDocIndex.1, c.subDocIndex.1 + numItems, c)

def getSubdocGenerator (op : SubDocOp) (c : Collection) (numItems : Int) (genericKey : String)
    (targetVbuckets : Option (List Nat)) : DocGen × Collection :=
  let (start, stop, moved) := subDocRange op c numItems
  ({ key := genericKey, start := start, stop := targetStop targetVbuckets start stop,
     targetVbucket := targetVbuckets }, moved)

/-! ## What one call does -/

@[simp] theorem targetStop_all (start stop : Int) : targetStop none start stop = stop := rfl

section
variable (c : Collection) (numItems : Int) (key : String)

@[simp] theorem shiftSubDocIndex_docIndex (stop : Int) :
    (shiftSubDocIndex c stop).docIndex = c.docIndex := by
  unfold shiftSubDocIndex; split_ifs <;> rfl

@[simp] theorem shiftSubDocIndex_numItems (stop : Int) :
    (shiftSubDocIndex c stop).numItems = c.numItems := by
  unfold shiftSubDocIndex; split_ifs <;> rfl

theorem shiftSubDocIndex_subDocIndex (stop : Int) :
    (shiftSubDocIndex c stop).subDocIndex =
      (max c.subDocIndex.1 stop, if c.subDocIndex.1 < stop then max c.subDocIndex.2 stop
        else c.subDocIndex.2) := by
  unfold shiftSubDocIndex
  split_ifs with before empty
  · rw [max_eq_right before.le, max_eq_right empty.le]
  · rw [max_eq_right before.le, max_eq_left (not_lt.mp empty)]
  · rw [max_eq_left (not_lt.mp before)]

/-- A create takes the indices behind the window, every other operation those at its start. -/
def DocOp.firstIndex (op : DocOp) (c : Collection) : Int :=
  if op = .create then c.docIndex.2 else c.docIndex.1

theorem getDocGenerator_range (op : DocOp) :
    (getDocGenerator op c numItems key none).1 =
      ⟨key, op.firstIndex c, op.firstIndex c + numItems, none⟩ := by
  cases op <;> simp [getDocGenerator, docRange, DocOp.firstIndex]

theorem getDocGenerator_docIndex (op : DocOp) :
    (getDocGenerator op c numItems key none).2.docIndex =
      match op with
      | .create => (c.docIndex.1, c.docIndex.2 + numItems)
      | .delete => (c.docIndex.1 + numItems, c.docIndex.2)
      | _ => c.docIndex := by
  cases op <;> simp [getDocGenerator, docRange]

theorem getDocGenerator_numItems (op : DocOp) :
    (getDocGenerator op c numItems key none).2.numItems =
      match op with
      | .create => if c.docIndex ≠ (0, 0) then c.numItems + numItems else c.numItems
      | .delete => c.numItems - numItems
      | _ => c.numItems := by
  cases op <;> simp [getDocGenerator, docRange]

end

end Taf.Bucket
