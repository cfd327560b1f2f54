import Taf.Bucket.CrudSpec

/-! # Taking a generator back

`DocLoaderUtils.rewind_doc_index` moves the windows of a collection back over the range of a
generator.  It does not know what the generator met: the first load of a collection counts no
documents, and a delete moves the start of the sub-document window along. -/

namespace Taf.Bucket

/-- The operations that `rewind_doc_index` has a branch for -/
inductive RewoundOp where
  | create | delete | insert | remove
  deriving DecidableEq

def RewoundOp.crud : RewoundOp → CrudOp
  | .create => .doc .create
  | .delete => .doc .delete
  | .insert => .subDoc .insert
  | .remove => .subDoc .remove

def rewindDocIndex (c : Collection) (op : RewoundOp) (gen : DocGen) (updateNumItems : Bool) :
    Collection :=
  let numItems := gen.stop - gen.start
  match op with
  | .create =>
    { c with
      docIndex := (c.docIndex.1, c.docIndex.2 - numItems)
      numItems := if updateNumItems then c.numItems - numItems else c.numItems }
  | .delete =>
    { c with
      docIndex := (c.docIndex.1 - numItems, c.docIndex.2)
      numItems := if updateNumItems then c.numItems + numItems else c.numItems }
  | .insert => { c with subDocIndex := (c.subDocIndex.1, c.subDocIndex.2 - numItems) }
  | .remove => { c with subDocIndex := (c.subDocIndex.1 - numItems, c.subDocIndex.2) }

/-! ## The states of a collection -/

/-- The counts that a test asks for -/
def Admissible (c : Collection) (op : CrudOp) (numItems : Int) : Prop :=
  0 ≤ numItems ∧
    match op with
    | .doc .create | .subDoc .insert | .subDoc .upsert => True
    | .subDoc _ => numItems ≤ c.subDocIndex.2 - c.subDocIndex.1
    | _ => numItems ≤ c.numItems

/-- What a collection goes through: it is created, loaded and mutated, and mutations are taken back
    with the generator they were made with. -/
inductive Reached (key : String) : Collection → Prop where
  | new (spec : CollectionSpec) : Reached key (.new spec)
  | generated {c : Collection} (op : CrudOp) (numItems : Int) :
      Reached key c → Admissible c op numItems → Reached key (specGenerator op c numItems key none).2
  | rewound {c : Collection} (op : RewoundOp) (numItems : Int) :
      Reached key c → Admissible c op.crud numItems →
        Reached key (rewindDocIndex (specGenerator op.crud c numItems key none).2 op
          (specGenerator op.crud c numItems key none).1 true)

/-- The generator of an operation and then `rewind_doc_index` leave the collection as it was. -/
def Restores (key : String) (c : Collection) (op : RewoundOp) (numItems : Int) : Prop :=
  let made := specGenerator op.crud c numItems key none
  let back := rewindDocIndex made.2 op made.1 true
  back.numItems = c.numItems ∧ back.docIndex = c.docIndex ∧ back.subDocIndex = c.subDocIndex

/-- Nothing is created in a collection that was never loaded, and nothing is deleted that the
    sub-document window starts in front of. -/
def Undoable (c : Collection) (numItems : Int) : RewoundOp → Prop
  | .create => c.docIndex ≠ (0, 0) ∨ numItems = 0
  | .delete => c.docIndex.1 + numItems ≤ c.subDocIndex.1
  | .insert | .remove => True

/-! ## Each operation -/

variable {key : String} {c : Collection} {numItems : Int}

theorem restores_create : Restores key c .create numItems ↔ c.docIndex ≠ (0, 0) ∨ numItems = 0 := by
  by_cases loaded : c.docIndex = (0, 0)
  · simp [Restores, RewoundOp.crud, specGenerator, getDocGenerator, docRange, rewindDocIndex, loaded]
  · simp [Restores, RewoundOp.crud, specGenerator, getDocGenerator, docRange, rewindDocIndex, loaded]

theorem restores_delete :
    Restores key c .delete numItems ↔ c.docIndex.1 + numItems ≤ c.subDocIndex.1 := by
  have windows : Restores key c .delete numItems ↔
      (shiftSubDocIndex c (c.docIndex.1 + numItems)).subDocIndex = c.subDocIndex := by
    simp [Restores, RewoundOp.crud, specGenerator, getDocGenerator, docRange, rewindDocIndex,
      shiftSubDocIndex_subDocIndex]
  rw [windows, shiftSubDocIndex_subDocIndex]
  constructor
  · intro same
    have first : max c.subDocIndex.1 (c.docIndex.1 + numItems) = c.subDocIndex.1 :=
      congrArg Prod.fst same
    exact max_eq_left_iff.mp first
  · intro behind
    rw [max_eq_left behind, if_neg (not_lt.mpr behind)]

/-- A range that was cut off at the end of the documents is taken back as it was given out. -/
theorem restores_insert : Restores key c .insert numItems := by
  simp [Restores, RewoundOp.crud, specGenerator, getSubdocGenerator, subDocRange, rewindDocIndex]

theorem restores_remove : Restores key c .remove numItems := by
  simp [Restores, RewoundOp.crud, specGenerator, getSubdocGenerator, subDocRange, rewindDocIndex]

theorem restores_iff (key : String) (c : Collection) (op : RewoundOp) (numItems : Int) :
    Restores key c op numItems ↔ Undoable c numItems op := by
  cases op with
  | create => exact restores_create
  | delete => exact restores_delete
  | insert => exact iff_of_true restores_insert trivial
  | remove => exact iff_of_true restores_remove trivial

/-- Taking back the first load of a collection takes away documents that it did not count. -/
theorem rewind_first_load : ¬ ∀ key c op numItems, Reached key c →
    Admissible c (RewoundOp.crud op) numItems → Restores key c op numItems := by
  intro restores
  have restored := restores "test_docs" (.new { numItems := some 1 }) .create 1 (.new _)
    ⟨by decide, trivial⟩
  rcases restores_create.mp restored with loaded | none
  · exact loaded rfl
  · cases none

end Taf.Bucket
