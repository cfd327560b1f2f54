import Taf.Bucket.CollectionStore

/-! # The operations of one CRUD spec

`create_load_gens` (inside `DocLoaderUtils.create_doc_gens_for_spec`) walks the
operations of a spec for one collection; each count is a percentage of the
`num_items` that the operations before it have left, each range comes from the
window they have moved.  `SpecRanges` is what the walk over `docOps` gives: the
delete takes the front of the window, the operations that keep the window stay in
the rest, the create starts behind it.  The ranges touch different keys, so the
generators may run in any order. -/

namespace Taf.Bucket

open Taf.Lib Taf.DocGen

/-- The operation types of a spec; `cont_update` and `cont_replace` are not in `DOC_OPS`. -/
inductive CrudOp where
  | doc (op : DocOp)
  | subDoc (op : SubDocOp)
  | contUpdate
  | contReplace
  deriving DecidableEq, Repr

def targetOps (subDocGen collectionRecreated : Bool) : List CrudOp :=
  if collectionRecreated then [.doc .create]
  else if subDocGen then subDocOps.map .subDoc
  else docOps.map .doc ++ [.contUpdate, .contReplace]

/-- `__get_required_num_from_percentage`; the division of two integers floors. -/
def requiredNum (c : Collection) (targetPercent : Int) (op : CrudOp) : Int :=
  match op with
  | .subDoc .remove | .subDoc .lookup => (c.subDocIndex.2 - c.subDocIndex.1) * targetPercent / 100
  | _ => c.numItems * targetPercent / 100

/-- The generator of an operation; what is not in `DOC_OPS` goes to `get_subdoc_generator`,
    whose last branch takes the two continuous operations as it takes a counter. -/
def specGenerator (op : CrudOp) (c : Collection) (numItems : Int) (key : String)
    (targetVbs : Option (List Nat)) : DocGen × Collection :=
  match op with
  | .doc op => getDocGenerator op c numItems key targetVbs
  | .subDoc op => getSubdocGenerator op c numItems key targetVbs
  | .contUpdate | .contReplace => getSubdocGenerator .counter c numItems key targetVbs

section
variable (percent : CrudOp → Int) (key : String) (targetVbs : Option (List Nat))

abbrev SpecWalk := List (CrudOp × DocGen) × Collection

def walkOp (walk : SpecWalk) (op : CrudOp) : SpecWalk :=
  let numItems := requiredNum walk.2 (percent op) op
  if numItems = 0 then walk
  else
    let (gen, c) := specGenerator op walk.2 numItems key targetVbs
    (walk.1 ++ [(op, gen)], c)

/-- `create_load_gens` for one collection: the generators by operation, and the collection after. -/
def createLoadGens (ops : List CrudOp) (c : Collection) : SpecWalk :=
  run (walkOp percent key targetVbs) ([], c) ops

end

/-- Percentages a spec may give: at most all documents for what needs existing ones. -/
def validPercents (percent : CrudOp → Int) : Prop :=
  ∀ op ∈ docOps, 0 ≤ percent (.doc op) ∧ (op ≠ .create → percent (.doc op) ≤ 100)

/-! ## The ranges of a walk -/

/-- The window [low, high) was cut at `middle` and extended to `top`. -/
structure SpecRanges (key : String) (low middle high top : Int) (gens : List (CrudOp × DocGen)) :
    Prop where
  delete : ∀ gen, (.doc .delete, gen) ∈ gens → gen = ⟨key, low, middle, none⟩
  create : ∀ gen, (.doc .create, gen) ∈ gens → gen = ⟨key, high, top, none⟩
  keep : ∀ op gen, (.doc op, gen) ∈ gens → op ≠ .delete → op ≠ .create →
    ∃ stop, gen = ⟨key, middle, stop, none⟩ ∧ middle ≤ stop ∧ stop ≤ high
  docOnly : ∀ op gen, (op, gen) ∈ gens → ∃ docOp, op = .doc docOp
  -- An operation whose range is empty has no generator.
  nonempty : ∀ gen, (.doc .create, gen) ∈ gens → high < top
  deleted : middle ≠ low → (.doc .delete, ⟨key, low, middle, none⟩) ∈ gens
  created : top ≠ high → (.doc .create, ⟨key, high, top, none⟩) ∈ gens

structure Counted (c : Collection) (low high : Int) : Prop where
  docIndex : c.docIndex = (low, high)
  numItems : c.numItems = high - low
  ordered : low ≤ high

section
variable {percent : CrudOp → Int} {key : String}

/-- An operation whose count truncates to 0 is skipped, any other one gives its generator. -/
theorem walkOp_doc (percent : CrudOp → Int) (key : String) (walk : SpecWalk) (op : DocOp)
    {numItems : Int}
    (count : numItems = walk.2.numItems * percent (.doc op) / 100) :
    (numItems = 0 ∧ walkOp percent key none walk (.doc op) = walk) ∨
    (numItems ≠ 0 ∧ walkOp percent key none walk (.doc op) =
      (walk.1 ++ [(.doc op, ⟨key, op.firstIndex walk.2, op.firstIndex walk.2 + numItems, none⟩)],
        (getDocGenerator op walk.2 numItems key none).2)) := by
  have required : requiredNum walk.2 (percent (.doc op)) (.doc op) = numItems := count.symm
  by_cases zero : numItems = 0
  · exact .inl ⟨zero, by simp only [walkOp, required, zero, if_true]⟩
  · refine .inr ⟨zero, ?_⟩
    simp only [walkOp, required, zero, if_false, specGenerator, getDocGenerator_range]

theorem count_nonneg {c : Collection} {low high : Int} (counted : Counted c low high)
    (valid : validPercents percent) (op : DocOp) :
    0 ≤ c.numItems * percent (.doc op) / 100 := by
  obtain ⟨percentNonneg, -⟩ := valid op (by cases op <;> decide)
  have countNonneg : 0 ≤ c.numItems := by have := counted.numItems; have := counted.ordered; omega
  exact Int.ediv_nonneg (mul_nonneg countNonneg percentNonneg) (by decide)

theorem count_le {c : Collection} {low high : Int} (counted : Counted c low high)
    (valid : validPercents percent) {op : DocOp} (notCreate : op ≠ .create) :
    c.numItems * percent (.doc op) / 100 ≤ high - low := by
  obtain ⟨-, percentBound⟩ := valid op (by cases op <;> decide)
  have countNonneg : 0 ≤ c.numItems := by have := counted.numItems; have := counted.ordered; omega
  have scaled : c.numItems * percent (.doc op) ≤ c.numItems * 100 :=
    mul_le_mul_of_nonneg_left (percentBound notCreate) countNonneg
  have := counted.numItems
  omega

theorem walkOp_delete (key : String) {c : Collection} {low high : Int} (counted : Counted c low high)
    (valid : validPercents percent) :
    ∃ middle, low ≤ middle ∧ Counted (walkOp percent key none ([], c) (.doc .delete)).2 middle high ∧
      SpecRanges key low middle high high (walkOp percent key none ([], c) (.doc .delete)).1 := by
  have nonneg := count_nonneg counted valid .delete
  have bound := count_le counted valid (show DocOp.delete ≠ .create by decide)
  obtain ⟨docIndex, numItems, ordered⟩ := counted
  rcases walkOp_doc percent key ([], c) .delete rfl with
    ⟨-, unchanged⟩ | ⟨nonzero, walked⟩
  · rw [unchanged]
    exact ⟨low, le_rfl, ⟨docIndex, numItems, ordered⟩, by constructor <;> simp⟩
  · rw [walked]
    simp only at nonzero
    refine ⟨low + c.numItems * percent (.doc .delete) / 100, by omega, ⟨?_, ?_, by omega⟩, ?_⟩
    · simp [getDocGenerator_docIndex, docIndex]
    · simp only [getDocGenerator_numItems]; omega
    · constructor <;> simp [DocOp.firstIndex, docIndex]

theorem mem_walked {gens : List (CrudOp × DocGen)} {op op' : DocOp} {gen gen' : DocGen} :
    (CrudOp.doc op', gen') ∈ gens ++ [(.doc op, gen)] ↔
      (.doc op', gen') ∈ gens ∨ (op' = op ∧ gen' = gen) := by
  simp

theorem SpecRanges.docOnly_append {low middle high top : Int} {gens : List (CrudOp × DocGen)}
    (ranges : SpecRanges key low middle high top gens) (op : DocOp) (gen : DocGen) :
    ∀ op' gen', (op', gen') ∈ gens ++ [(.doc op, gen)] → ∃ docOp, op' = .doc docOp := by
  intro op' gen' member
  simp only [List.mem_append, List.mem_singleton, Prod.mk.injEq] at member
  obtain earlier | ⟨same, -⟩ := member
  · exact ranges.docOnly op' gen' earlier
  · exact ⟨op, same⟩

/-- A range that starts behind the deleted documents and stays in the window is added. -/
theorem SpecRanges.append_keep {low middle high stop : Int} {gens : List (CrudOp × DocGen)}
    (ranges : SpecRanges key low middle high high gens) {op : DocOp} (notDelete : op ≠ .delete)
    (notCreate : op ≠ .create) (ordered : middle ≤ stop) (bound : stop ≤ high) :
    SpecRanges key low middle high high (gens ++ [(.doc op, ⟨key, middle, stop, none⟩)]) where
  delete gen member := by
    obtain earlier | ⟨same, -⟩ := mem_walked.mp member
    · exact ranges.delete gen earlier
    · exact absurd same.symm notDelete
  create gen member := by
    obtain earlier | ⟨same, -⟩ := mem_walked.mp member
    · exact ranges.create gen earlier
    · exact absurd same.symm notCreate
  keep op' gen member notDelete' notCreate' := by
    obtain earlier | ⟨-, rfl⟩ := mem_walked.mp member
    · exact ranges.keep op' gen earlier notDelete' notCreate'
    · exact ⟨stop, rfl, ordered, bound⟩
  docOnly := ranges.docOnly_append op _
  nonempty gen member := by
    obtain earlier | ⟨same, -⟩ := mem_walked.mp member
    · exact ranges.nonempty gen earlier
    · exact absurd same.symm notCreate
  deleted cut := List.mem_append_left _ (ranges.deleted cut)
  created extended := absurd rfl extended

/-- The range of the create is added, which no operation has extended before. -/
theorem SpecRanges.append_create {low middle high top : Int} {gens : List (CrudOp × DocGen)}
    (ranges : SpecRanges key low middle high high gens) (extended : high < top) :
    SpecRanges key low middle high top (gens ++ [(.doc .create, ⟨key, high, top, none⟩)]) where
  delete gen member := by
    obtain earlier | ⟨same, -⟩ := mem_walked.mp member
    · exact ranges.delete gen earlier
    · cases same
  create gen member := by
    obtain earlier | ⟨-, this⟩ := mem_walked.mp member
    · exact absurd (ranges.nonempty gen earlier) (lt_irrefl high)
    · exact this
  keep op gen member notDelete notCreate := by
    obtain earlier | ⟨same, -⟩ := mem_walked.mp member
    · exact ranges.keep op gen earlier notDelete notCreate
    · exact absurd same notCreate
  docOnly := ranges.docOnly_append .create _
  nonempty _ _ := extended
  deleted cut := List.mem_append_left _ (ranges.deleted cut)
  created _ := List.mem_append_right _ (by simp)

theorem walkOp_keep {walk : SpecWalk} {low middle high : Int} (counted : Counted walk.2 middle high)
    (ranges : SpecRanges key low middle high high walk.1) (valid : validPercents percent)
    (op : DocOp) (notDelete : op ≠ .delete) (notCreate : op ≠ .create) :
    Counted (walkOp percent key none walk (.doc op)).2 middle high ∧
      SpecRanges key low middle high high (walkOp percent key none walk (.doc op)).1 := by
  have nonneg := count_nonneg counted valid op
  have bound := count_le counted valid notCreate
  obtain ⟨-, unchanged⟩ | ⟨-, walked⟩ := walkOp_doc percent key walk op rfl
  · rw [unchanged]
    exact ⟨counted, ranges⟩
  · obtain ⟨docIndex, numItems, ordered⟩ := counted
    rw [walked]
    refine ⟨⟨?_, ?_, ordered⟩, ?_⟩
    · rw [getDocGenerator_docIndex]
      cases op <;> first | contradiction | exact docIndex
    · rw [getDocGenerator_numItems]
      cases op <;> first | contradiction | exact numItems
    · simp only [DocOp.firstIndex, if_neg notCreate, docIndex]
      exact ranges.append_keep notDelete notCreate (by omega) (by omega)

theorem walkOp_create {walk : SpecWalk} {low middle high : Int} (counted : Counted walk.2 middle high)
    (ranges : SpecRanges key low middle high high walk.1) (valid : validPercents percent) :
    ∃ top, high ≤ top ∧ Counted (walkOp percent key none walk (.doc .create)).2 middle top ∧
      SpecRanges key low middle high top (walkOp percent key none walk (.doc .create)).1 := by
  have nonneg := count_nonneg counted valid .create
  obtain ⟨-, unchanged⟩ | ⟨nonzero, walked⟩ := walkOp_doc percent key walk .create rfl
  · rw [unchanged]
    exact ⟨high, le_rfl, counted, ranges⟩
  · obtain ⟨docIndex, numItems, ordered⟩ := counted
    -- A positive count is a percentage of a positive `num_items`: the window is not (0, 0).
    have loaded : walk.2.docIndex ≠ (0, 0) := by
      intro new
      obtain ⟨rfl, rfl⟩ := Prod.mk.inj (docIndex.symm.trans new)
      rw [numItems] at nonzero
      exact nonzero (by simp)
    rw [walked]
    refine ⟨high + walk.2.numItems * percent (.doc .create) / 100, by omega, ⟨?_, ?_, by omega⟩, ?_⟩
    · simp [getDocGenerator_docIndex, docIndex]
    · simp only [getDocGenerator_numItems, ne_eq, loaded, not_false_eq_true, if_true]
      omega
    · simp only [DocOp.firstIndex, if_true, docIndex]
      exact ranges.append_create (by omega)

/-- The walk over `DOC_OPS`: cut the window at the front, then work inside it, then extend it. -/
theorem createLoadGens_ranges (key : String) {c : Collection} {low high : Int} (counted : Counted c low high)
    (valid : validPercents percent) :
    ∃ middle top, low ≤ middle ∧ middle ≤ high ∧ high ≤ top ∧
      Counted (createLoadGens percent key none (docOps.map .doc) c).2 middle top ∧
      SpecRanges key low middle high top (createLoadGens percent key none (docOps.map .doc) c).1 := by
  -- One lemma for each operation of `docOps`, in its order; the delete has to be the first.
  obtain ⟨middle, cut, counted, ranges⟩ := walkOp_delete key counted valid
  have inside := counted.ordered
  obtain ⟨counted, ranges⟩ := walkOp_keep counted ranges valid .read (by decide) (by decide)
  obtain ⟨counted, ranges⟩ := walkOp_keep counted ranges valid .touch (by decide) (by decide)
  obtain ⟨counted, ranges⟩ := walkOp_keep counted ranges valid .update (by decide) (by decide)
  obtain ⟨counted, ranges⟩ := walkOp_keep counted ranges valid .replace (by decide) (by decide)
  obtain ⟨top, extended, counted, ranges⟩ := walkOp_create counted ranges valid
  exact ⟨middle, top, cut, inside, extended, counted, ranges⟩

/-! ## Running the generators -/

/-- The single-key operations of all generators of a walk, one generator after the other. -/
def specActions (draws : Draws) (gens : List (CrudOp × DocGen)) : List (Effect × String) :=
  gens.flatMap fun entry =>
    match entry.1 with
    | .doc op => onKeys op.effect (entry.2.generator draws).keys
    | _ => []

theorem mem_touched_specActions {draws : Draws} {gens : List (CrudOp × DocGen)} {effect : Effect}
    {k : String} :
    k ∈ touched effect (specActions draws gens) ↔
      ∃ op gen, (CrudOp.doc op, gen) ∈ gens ∧ op.effect = effect ∧ k ∈ (gen.generator draws).keys := by
  simp only [mem_touched, specActions, List.mem_flatMap, Prod.exists]
  constructor
  · rintro ⟨op, gen, member, action⟩
    cases op with
    | doc op =>
      rw [← mem_touched, mem_touched_onKeys] at action
      exact ⟨op, gen, member, action.1.symm, action.2⟩
    | _ => exact absurd action (by simp)
  · rintro ⟨op, gen, member, same, inKeys⟩
    refine ⟨.doc op, gen, member, ?_⟩
    rw [← mem_touched, mem_touched_onKeys]
    exact ⟨same.symm, inKeys⟩

section
variable {draws : Draws} {low middle high top : Int} {gens : List (CrudOp × DocGen)}

theorem SpecRanges.erased (ranges : SpecRanges key low middle high top gens) :
    touched .erase (specActions draws gens) = windowKeys (docKey draws key) low middle := by
  ext k
  rw [mem_touched_specActions, ← generator_keys_toFinset, List.mem_toFinset]
  constructor
  · rintro ⟨op, gen, member, erases, inKeys⟩
    cases op with
    | delete => rwa [ranges.delete gen member] at inKeys
    | _ => exact absurd erases (by decide)
  · intro inKeys
    have cut : middle ≠ low := by
      rintro rfl
      obtain ⟨index, atLeast, below, -⟩ := (DocumentGenerator.mem_keys _).mp inKeys
      exact absurd (lt_of_le_of_lt atLeast below) (lt_irrefl _)
    exact ⟨.delete, _, ranges.deleted cut, rfl, inKeys⟩

/-- Upserts write live documents only, creates write exactly the new ones. -/
theorem SpecRanges.inserted (ranges : SpecRanges key low middle high top gens) (k : String) :
    (k ∈ touched .insert (specActions draws gens) →
      k ∈ windowKeys (docKey draws key) middle high ∪ windowKeys (docKey draws key) high top) ∧
    (k ∈ windowKeys (docKey draws key) high top → k ∈ touched .insert (specActions draws gens)) := by
  rw [mem_touched_specActions, Finset.mem_union]
  constructor
  · rintro ⟨op, gen, member, inserts, inKeys⟩
    rw [← List.mem_toFinset] at inKeys
    cases op with
    | create =>
      rw [ranges.create gen member, generator_keys_toFinset] at inKeys
      exact .inr inKeys
    | update =>
      obtain ⟨stop, rfl, -, bound⟩ := ranges.keep .update gen member (by decide) (by decide)
      rw [generator_keys_toFinset] at inKeys
      exact .inl (windowKeys_subset ⟨le_rfl, bound⟩ inKeys)
    | _ => exact absurd inserts (by decide)
  · intro inKeys
    rw [← generator_keys_toFinset, List.mem_toFinset] at inKeys
    have extended : top ≠ high := by
      rintro rfl
      obtain ⟨index, atLeast, below, -⟩ := (DocumentGenerator.mem_keys _).mp inKeys
      exact absurd (lt_of_le_of_lt atLeast below) (lt_irrefl _)
    exact ⟨.create, _, ranges.created extended, rfl, inKeys⟩

/-- In whatever order the single operations of the generators happen, the store that held the
    old window holds the new one. -/
theorem SpecRanges.run_perm (ranges : SpecRanges key low middle high top gens)
    (lowNonneg : 0 ≤ low) (cut : low ≤ middle) (inside : middle ≤ high) (extended : high ≤ top)
    {actions : List (Effect × String)} (reordered : (specActions draws gens).Perm actions) :
    run applyAction (windowKeys (docKey draws key) low high) actions =
      windowKeys (docKey draws key) middle top := by
  have apart : Disjoint (touched .erase (specActions draws gens))
      (touched .insert (specActions draws gens)) := by
    rw [ranges.erased, Finset.disjoint_left]
    intro k erased inserted
    have written := (ranges.inserted k).1 inserted
    rw [windowKeys_union inside extended] at written
    exact Finset.disjoint_left.mp (docKey_distinct.disjoint_windowKeys lowNonneg le_rfl
      (lowNonneg.trans cut)) erased written
  rw [run_actions_perm _ apart reordered, run_actions _ apart, ranges.erased,
    docKey_distinct.windowKeys_sdiff lowNonneg cut, ← windowKeys_union inside extended]
  ext k
  rw [Finset.mem_union, Finset.mem_union]
  constructor
  · rintro (live | inserted)
    · exact .inl live
    · exact Finset.mem_union.mp ((ranges.inserted k).1 inserted)
  · rintro (live | new)
    · exact .inl live
    · exact .inr ((ranges.inserted k).2 new)

end

/-- Without continuous operations the doc pass of a spec is the walk over `DOC_OPS`. -/
theorem createLoadGens_targetOps (c : Collection) (noUpdate : percent .contUpdate = 0)
    (noReplace : percent .contReplace = 0) :
    createLoadGens percent key none (targetOps false false) c =
      createLoadGens percent key none (docOps.map .doc) c := by
  have skipped : ∀ walk op, percent op = 0 → (op = .contUpdate ∨ op = .contReplace) →
      walkOp percent key none walk op = walk := by
    rintro walk op zero (rfl | rfl) <;> simp [walkOp, requiredNum, zero]
  simp only [createLoadGens, targetOps, Bool.false_eq_true, if_false, run, List.foldl_append,
    List.foldl_cons, List.foldl_nil]
  rw [skipped _ .contUpdate noUpdate (.inl rfl), skipped _ .contReplace noReplace (.inr rfl)]

theorem createLoadGens_apart (percent : CrudOp → Int) (key : String) (c : Collection)
    (tracked : c.numItems = c.docIndex.2 - c.docIndex.1) (nonneg : 0 ≤ c.numItems)
    (valid : validPercents percent) :
    let walk := createLoadGens percent key none (docOps.map .doc) c
    (∀ gen, (.doc .delete, gen) ∈ walk.1 →
      gen.start = c.docIndex.1 ∧ gen.start ≤ gen.stop ∧ gen.stop ≤ c.docIndex.2) ∧
    (∀ op gen, (.doc op, gen) ∈ walk.1 → op ≠ .delete → op ≠ .create →
      c.docIndex.1 ≤ gen.start ∧ gen.start ≤ gen.stop ∧ gen.stop ≤ c.docIndex.2 ∧
      ∀ deleted, (.doc .delete, deleted) ∈ walk.1 → deleted.stop ≤ gen.start) ∧
    (∀ gen, (.doc .create, gen) ∈ walk.1 → gen.start = c.docIndex.2 ∧
      ∀ op other, (.doc op, other) ∈ walk.1 → op ≠ .create → other.stop ≤ gen.start) ∧
    (∀ draws, 0 ≤ c.docIndex.1 → ∀ actions, (specActions draws walk.1).Perm actions →
      run applyAction (windowKeys (docKey draws key) c.docIndex.1 c.docIndex.2) actions =
        windowKeys (docKey draws key) walk.2.docIndex.1 walk.2.docIndex.2) ∧
    walk.2.numItems = walk.2.docIndex.2 - walk.2.docIndex.1 := by
  have counted : Counted c c.docIndex.1 c.docIndex.2 := ⟨rfl, tracked, by omega⟩
  obtain ⟨middle, top, cut, inside, extended, after, ranges⟩ :=
    createLoadGens_ranges key counted valid
  intro walk
  refine ⟨?_, ?_, ?_, ?_, ?_⟩
  · intro gen member
    rw [ranges.delete gen member]
    exact ⟨rfl, cut, inside⟩
  · intro op gen member notDelete notCreate
    obtain ⟨stop, rfl, ordered, bound⟩ := ranges.keep op gen member notDelete notCreate
    refine ⟨cut, ordered, bound, fun deleted deletes => ?_⟩
    rw [ranges.delete deleted deletes]
  · intro gen member
    rw [ranges.create gen member]
    refine ⟨rfl, fun op other otherMember notCreate => ?_⟩
    by_cases isDelete : op = .delete
    · subst op
      rw [ranges.delete other otherMember]
      exact inside
    · obtain ⟨stop, rfl, -, bound⟩ := ranges.keep op other otherMember isDelete notCreate
      exact bound
  · intro draws lowNonneg actions reordered
    rw [show walk.2.docIndex = (middle, top) from after.docIndex]
    exact ranges.run_perm lowNonneg cut inside extended reordered
  · rw [show walk.2.docIndex = (middle, top) from after.docIndex]
    exact after.numItems

end

theorem createLoadGens_apart_mixed :
    let percent : CrudOp → Int := fun op => match op with
      | .doc .delete => 10 | .doc .update => 50 | .doc .create => 20 | _ => 0
    let c : Collection := { Collection.new { numItems := some 10 } with docIndex := (2, 12) }
    let walk := createLoadGens percent "test_docs" none (docOps.map .doc) c
    walk.1 = [(.doc .delete, ⟨"test_docs", 2, 3, none⟩), (.doc .update, ⟨"test_docs", 3, 7, none⟩),
        (.doc .create, ⟨"test_docs", 12, 13, none⟩)] ∧
      walk.2.numItems = walk.2.docIndex.2 - walk.2.docIndex.1 := by
  intro percent c walk
  refine ⟨by decide, ?_⟩
  exact (createLoadGens_apart percent "test_docs" c (by decide) (by decide)
    (by unfold validPercents; decide)).2.2.2.2

end Taf.Bucket
