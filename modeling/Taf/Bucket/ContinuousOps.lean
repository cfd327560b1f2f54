import Taf.Lib.PyJson
import Taf.Bucket.CrudSpec

/-! # Continuous operations of a spec

`cont_update` and `cont_replace` are walked after the document operations of a spec and run by
`LoadDocumentsTask` as an update or a replace.  They are not in `DOC_OPS`, so `create_load_gens`
gives them a generator of sub-document edits. -/

namespace Taf.Bucket

open Taf.Lib Taf.DocGen

/-! ## What generators yield -/

inductive Content where
  /-- a `JsonObject` from the template of `doc_generator` -/
  | document (mutationType : DocOp) (mutated : Int)
  /-- the list of paths and values of `SubdocDocumentGenerator.next` -/
  | paths (edits : List (String × PyJson))

/-- The templates of `sub_doc_generator_for_edit` -/
def editTemplate (xattrTest : Bool) (index : Nat) : List (String × PyJson) :=
  if xattrTest then
    [("full_name.last", .str (if index = 2 then "" else "LastNameUpdate"))]
  else
    match index with
    | 0 => [("full_name.first", .str "FirstNameUpdate"), ("full_name.last", .str "LastNameUpdate"),
        ("addr.city", .str "CityUpdate"), ("addr.state", .str "StateUpdate"),
        ("addr.pincode", .str "TypeChange")]
    | 1 => [("full_name.first", .str "FirstNameUpdate"), ("full_name.last", .str "LastNameUpdate"),
        ("addr.city", .str "CityUpdate"), ("addr.state", .str "NewState"),
        ("addr.pincode", .str "TypeChange"),
        ("todo.night", .arr [.num 1, .str "nothing", .num 3])]
    | _ => [("full_name.first", .str ""), ("addr", .str ""), ("full_name.last", .str "")]

/-- The draws behind the items of a spec: those of document generators, the twelve letters of a random
    sub-document key, the fields that an insert chooses, and `choice([0, 1])` -/
structure SpecDraws where
  draws : Draws
  keyLetters : String → String
  inserted : Int → List (String × PyJson)
  template : Fin 2

/-- `SubdocDocumentGenerator.next_key` without target vBuckets -/
def subDocKeyAt (keyLetters : String → String) (name : String) (index : Int) : String :=
  if name = "random_keys" then keyLetters (name ++ "-" ++ toString index)
  else kvNextKey name 8 index

/-- The value that the generator of an operation yields at an index -/
def CrudOp.content (specDraws : SpecDraws) (xattrTest : Bool) (mutationNum : Int) (op : CrudOp)
    (index : Int) : Content :=
  match op with
  | .doc op => .document op mutationNum
  | .subDoc .insert => .paths (specDraws.inserted index)
  | .subDoc .remove => .paths (editTemplate xattrTest 2)
  | .subDoc .lookup => .paths (editTemplate xattrTest 0)
  -- The last branch of `get_subdoc_generator` also takes what is no sub-document operation.
  | .subDoc .upsert | .subDoc .counter | .contUpdate | .contReplace =>
    .paths (editTemplate xattrTest specDraws.template)

def CrudOp.keyAt (specDraws : SpecDraws) (op : CrudOp) (gen : DocGen) (index : Int) : String :=
  match op with
  | .doc _ => (gen.generator specDraws.draws).keyAt index
  | _ => subDocKeyAt specDraws.keyLetters gen.key index

/-- Everything that the generator of an operation yields -/
def specItems (specDraws : SpecDraws) (xattrTest : Bool) (mutationNum : Int) (op : CrudOp)
    (gen : DocGen) : List (String × Content) :=
  (List.range (gen.stop - gen.start).toNat).map fun i : Nat =>
    (op.keyAt specDraws gen (gen.start + i), op.content specDraws xattrTest mutationNum (gen.start + i))

/-! ## Whole documents -/

/-- The operation leaves `num_items` and `sub_doc_index`, and if it is given a generator, this yields
    whole documents of the window. -/
def FullDocument (specDraws : SpecDraws) (xattrTest : Bool) (mutationNum : Int) (key : String)
    (percent : CrudOp → Int) (c : Collection) (op : CrudOp) : Prop :=
  let walk := walkOp percent key none ([], c) op
  (walk.2.numItems = c.numItems ∧ walk.2.subDocIndex = c.subDocIndex) ∧
    ∀ gen, (op, gen) ∈ walk.1 → ∀ item ∈ specItems specDraws xattrTest mutationNum op gen,
      (∃ mutationType, item.2 = .document mutationType mutationNum) ∧
        ∃ index, c.docIndex.1 ≤ index ∧ index < c.docIndex.2 ∧
          item.1 = op.keyAt specDraws gen index

variable {specDraws : SpecDraws} {xattrTest : Bool} {mutationNum : Int} {key : String}
  {percent : CrudOp → Int} {c : Collection}

theorem walkOp_none {op : CrudOp} (zero : requiredNum c (percent op) op = 0) :
    walkOp percent key none ([], c) op = ([], c) := by
  simp only [walkOp, zero, if_true]

theorem walkOp_some {op : CrudOp} (nonzero : requiredNum c (percent op) op ≠ 0) :
    walkOp percent key none ([], c) op =
      ([(op, (specGenerator op c (requiredNum c (percent op) op) key none).1)],
        (specGenerator op c (requiredNum c (percent op) op) key none).2) := by
  simp only [walkOp, nonzero, if_false, List.nil_append]

inductive ContOp where
  | update | replace

def ContOp.crud : ContOp → CrudOp
  | .update => .contUpdate
  | .replace => .contReplace

theorem requiredNum_cont (op : ContOp) :
    requiredNum c (percent op.crud) op.crud = c.numItems * percent op.crud / 100 := by
  cases op with
  | update => rfl
  | replace => rfl

theorem specGenerator_cont (op : ContOp) (numItems : Int) :
    specGenerator op.crud c numItems key none =
      (⟨key, c.subDocIndex.1, c.subDocIndex.1 + numItems, none⟩, c) := by
  cases op with
  | update => rfl
  | replace => rfl

theorem content_cont (op : ContOp) (index : Int) :
    op.crud.content specDraws xattrTest mutationNum index =
      .paths (editTemplate xattrTest specDraws.template) := by
  cases op with
  | update => rfl
  | replace => rfl

/-- A continuous operation has whole documents only if it has nothing. -/
theorem cont_fullDocument_iff (specDraws : SpecDraws) (xattrTest : Bool) (mutationNum : Int)
    (key : String) (percent : CrudOp → Int) (c : Collection) (op : ContOp) :
    FullDocument specDraws xattrTest mutationNum key percent c op.crud ↔
      c.numItems * percent op.crud / 100 ≤ 0 := by
  rw [← requiredNum_cont op]
  constructor
  · intro full
    by_contra positive
    have nonzero : requiredNum c (percent op.crud) op.crud ≠ 0 := by omega
    obtain ⟨-, yields⟩ := full
    rw [walkOp_some nonzero, specGenerator_cont] at yields
    have first := yields _ (List.mem_singleton.mpr rfl) _
      (List.mem_map_of_mem (List.mem_range.mpr (Int.pos_iff_toNat_pos.mp (by simp only; omega))))
    obtain ⟨⟨mutationType, whole⟩, -⟩ := first
    rw [content_cont] at whole
    cases whole
  · intro atMost
    by_cases zero : requiredNum c (percent op.crud) op.crud = 0
    · simp [FullDocument, walkOp_none zero]
    · refine ⟨?_, fun gen member item inside => ?_⟩
      · rw [walkOp_some zero, specGenerator_cont]
        exact ⟨rfl, rfl⟩
      · rw [walkOp_some zero, specGenerator_cont, List.mem_singleton] at member
        cases member
        obtain ⟨i, bound, -⟩ := List.mem_map.mp inside
        rw [List.mem_range] at bound
        simp only at bound
        omega

/-- One document, all of which `cont_update` is meant to update -/
theorem cont_update_edits_paths : ¬ ∀ specDraws xattrTest mutationNum key percent c op,
    c.numItems = c.docIndex.2 - c.docIndex.1 → 0 ≤ percent (ContOp.crud op) →
      percent (ContOp.crud op) ≤ 100 →
        FullDocument specDraws xattrTest mutationNum key percent c (ContOp.crud op) := by
  intro full
  let c : Collection :=
    { name := none, numItems := 1, maxTTL := 0, history := "false", docIndex := (0, 1) }
  let draws : SpecDraws :=
    { draws := ⟨⟨fun _ _ => 0, fun _ _ _ => 0⟩, id⟩, keyLetters := id, inserted := fun _ => []
      template := 0 }
  obtain ⟨-, yields⟩ := full draws false 0 "test_docs" (fun _ => 100) c .update rfl (by decide)
    (by decide)
  have nonzero : requiredNum c 100 (ContOp.crud .update) ≠ 0 := by decide
  rw [@walkOp_some "test_docs" (fun _ => 100) c _ nonzero] at yields
  have first := yields _ (List.mem_singleton.mpr rfl) _ (List.mem_cons_self)
  obtain ⟨⟨mutationType, whole⟩, -⟩ := first
  cases whole

end Taf.Bucket
