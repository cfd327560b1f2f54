import Taf.Lib.PyJson
import Taf.Lib.Split
import Taf.Lib.Text
import Taf.Lib.Dict
import Taf.Lib.Window
import Taf.Tasks.GeneratorPartitions

/-! # The stand-alone loader

`thanosied.py` writes documents in passes and validates them: every document is built from its
number, the update counter and random choices.  Documents that could not be written are built again
from the number behind the first `_` of their key, and the validation builds every document once
more and compares it field by field with the one in the bucket.  What the random functions answer
is an input. -/

namespace Taf.Thanosied

open Taf.Lib Taf.Tasks

/-! ## Documents -/

/-- The random choices of one `Document` -/
structure Draw where
  year : Fin 17
  month : Fin 11
  day : Fin 27
  hour : Fin 24
  minute : Fin 60
  second : Fin 60
  organization : Fin 3 → Fin 6
  -- `random.sample(employment, 2)`
  sampled : Fin 3 × Fin 3
  different : sampled.1 ≠ sampled.2

def organizations : List String := ["Wipro", "Infosys", "TCS", "Tech Mahindra", "CTS", "Microsoft"]

def digits (width : Int) (number : ℕ) : String := zfill number.repr width

def Draw.userSince (draw : Draw) : String :=
  digits 4 (2001 + draw.year) ++ "-" ++ digits 2 (1 + draw.month) ++ "-" ++ digits 2 (1 + draw.day) ++
    "T" ++ digits 2 draw.hour ++ "-" ++ digits 2 draw.minute ++ "-" ++ digits 2 draw.second

def Draw.employment (draw : Draw) : List String :=
  [organizations.get (draw.organization draw.sampled.1), organizations.get (draw.organization draw.sampled.2)]

/-- `Document(value, size).__dict__` with its `update` -/
def document (value update : Int) (draw : Draw) : PyDict :=
  ⟨[⟨"val", .num value⟩, ⟨"update", .num update⟩, ⟨"id", .num value⟩,
      ⟨"user_since", .str draw.userSince⟩,
      ⟨"employment", .arr (draw.employment.map fun name => .obj [("organization", .str name)])⟩],
    by simp [List.NodupKeys]⟩

/-! ## The generator -/

/-- The arguments of a `DocumentGenerator` that the passes read -/
structure Generator where
  keyPrefix : String
  startDocument : Int
  numItems : ℕ
  batchSize : ℕ
  positive : 0 < batchSize
  previousMutationCount : Int

/-- The documents of a bucket, by their keys -/
abbrev Written := AList fun _ : String => PyDict

/-- One `upsert_multi` for each batch, or for the retried keys: which keys fail, and the random
    choices of the documents -/
structure Round where
  fails : String → Bool
  draw : String → Draw

/-- A pass, whose failures are retried until none is left -/
structure UpsertPass where
  first : Round
  retries : List Round
  last : String → Draw

namespace Generator

variable (gen : Generator)

def stop : Int := gen.startDocument + gen.numItems

/-- `"{}{}".format(self.key_prefix, x)` -/
def key (x : Int) : String := gen.keyPrefix ++ x.repr

/-- `create_upsert_batches` -/
def batches : List (Int × Int) :=
  (pyRange gen.startDocument gen.stop gen.batchSize).map fun start =>
    (start, if start + gen.batchSize > gen.stop then gen.stop else start + gen.batchSize)

/-- `range(start, end)` -/
def range (start stop : Int) : List Int := window start (stop - start).toNat

def getUpsertItems (counter : Int) (round : Round) (batch : Int × Int) : List (String × PyDict) :=
  (range batch.1 batch.2).map fun x => (gen.key x, document x counter (round.draw (gen.key x)))

/-- `int(item.split('_')[1])`; `none` is the `IndexError` or the `ValueError`. -/
def docNum (item : String) : Option Int := do
  let text ← (splitText '_' item)[1]?
  PyJson.parseInt text

def getRetryUpsertItems (counter : Int) (draw : String → Draw) (retryBatches : List String) :
    Option (List (String × PyDict)) :=
  retryBatches.mapM fun item => do
    let number ← docNum item
    return (item, document number counter (draw item))

/-- The bucket and `retry_batches` -/
def upsertItems (round : Round) (state : Written × List String) (items : List (String × PyDict)) :
    Written × List String :=
  (assignAll (items.filter fun item => !round.fails item.1) state.1,
    state.2 ++ (items.filter fun item => round.fails item.1).map Prod.fst)

/-- `while self.retry_batches` -/
def retryLoop (counter : Int) (last : String → Draw) : List Round → Written × List String → Option Written
  | [], state => do
    let items ← getRetryUpsertItems counter last state.2
    return assignAll items state.1
  | round :: retries, state =>
    if state.2.isEmpty then some state.1
    else do
      let items ← getRetryUpsertItems counter round.draw state.2
      retryLoop counter last retries (upsertItems round (state.1, []) items)

/-- The documents that a pass writes -/
def singleUpsertPass (counter : Int) (pass : UpsertPass) : Option Written :=
  retryLoop counter pass.last pass.retries
    (gen.batches.foldl (fun state batch => upsertItems pass.first state
      (gen.getUpsertItems counter pass.first batch)) (∅, []))

/-- The passes of `generate` from the one with a number on, and the documents of the last one -/
def upsertPasses : ℕ → List UpsertPass → Written → Option Written
  | _, [], written => some written
  | i, pass :: passes, _ => do
    let written ← gen.singleUpsertPass (i + gen.previousMutationCount) pass
    upsertPasses (i + 1) passes written

/-- `current_update_counter` after some passes -/
def lastCounter (passes : List UpsertPass) : Int := (passes.length - 1 : ℕ) + gen.previousMutationCount

/-! ## The validation -/

structure Recorded where
  missingKeyVal : List String
  wrongKeys : List String

def fieldAgrees (val : PyDict) (field : Sigma fun _ : String => PyJson) : Bool :=
  match val.lookup field.1 with
  | some found => found.pyEq field.2
  | none => false

/-- The body of the loop of `validate_items` -/
def validateItem (counter : Int) (draw : Int → Draw) (bucket : Written) (recorded : Recorded) (x : Int) :
    Recorded :=
  match bucket.lookup (gen.key x) with
  | some val =>
    let wrong := (document x counter (draw x)).entries.filter fun field => !fieldAgrees val field
    { recorded with wrongKeys := recorded.wrongKeys ++ wrong.map fun _ => gen.key x }
  | none => { recorded with missingKeyVal := recorded.missingKeyVal ++ [gen.key x] }

/-- `validate_items`, where nothing was deleted and replicas are not read -/
def validateItems (counter : Int) (draw : Int → Draw) (bucket : Written) (recorded : Recorded)
    (batch : Int × Int) : Recorded :=
  (range batch.1 batch.2).foldl (gen.validateItem counter draw bucket) recorded

def singleValidatePass (counter : Int) (draw : Int → Draw) (bucket : Written) : Recorded :=
  gen.batches.foldl (gen.validateItems counter draw bucket) ⟨[], []⟩

end Generator

/-! ## What is meant to happen -/

/-- A load, the random choices of the validation after it, and what becomes of one document before
    the validation: it is removed, or its content is replaced by another JSON object. -/
structure Run where
  gen : Generator
  passes : List UpsertPass
  nonempty : passes ≠ []
  draw : Int → Draw
  altered : Int
  content : Option PyDict

namespace Run

variable (run : Run)

def numbers : List Int := Generator.range run.gen.startDocument run.gen.stop

def counter : Int := run.gen.lastCounter run.passes

def validate (bucket : Written) : Generator.Recorded :=
  run.gen.singleValidatePass run.counter run.draw bucket

def alter (written : Written) : Written :=
  match run.content with
  | none => written.erase (run.gen.key run.altered)
  | some content => written.insert (run.gen.key run.altered) content

/-- The document is another one afterwards. -/
def Changes (stored : PyDict) : Prop :=
  ∀ content, run.content = some content → stored.pyEq content = false

/-- The passes return, what they wrote is accepted, and the altered document is recorded. -/
def Validates : Prop :=
  ∃ written, run.gen.upsertPasses 0 run.passes ∅ = some written ∧
    run.validate written = ⟨[], []⟩ ∧
    (run.altered ∈ run.numbers → ∀ stored, written.lookup (run.gen.key run.altered) = some stored →
      run.Changes stored →
        run.gen.key run.altered ∈ (run.validate (run.alter written)).missingKeyVal ∨
          run.gen.key run.altered ∈ (run.validate (run.alter written)).wrongKeys)

/-! ## When it does -/

/-- The choices with which a key is written in the end -/
def finalDraw (last : String → Draw) (key : String) : List Round → Draw
  | [] => last key
  | round :: retries => if round.fails key then finalDraw last key retries else round.draw key

def writtenDraw (pass : UpsertPass) (key : String) : Draw :=
  if pass.first.fails key then finalDraw pass.last key pass.retries else pass.first.draw key

/-- The number of a document that has to be retried stands behind the first `_` of its key. -/
def Retriable : Prop :=
  ∀ pass ∈ run.passes, ∀ x ∈ run.numbers, pass.first.fails (run.gen.key x) = true →
    (Generator.docNum (run.gen.key x)).isSome

/-- In the last pass this is the right number, and the validation makes the same choices. -/
def Reproduced : Prop :=
  ∀ x ∈ run.numbers, ((run.passes.getLast run.nonempty).first.fails (run.gen.key x) = true →
      Generator.docNum (run.gen.key x) = some x) ∧
    (run.draw x).userSince =
      (writtenDraw (run.passes.getLast run.nonempty) (run.gen.key x)).userSince ∧
    (run.draw x).employment =
      (writtenDraw (run.passes.getLast run.nonempty) (run.gen.key x)).employment

/-- New content differs in a field that documents have. -/
def AltersField : Prop :=
  run.altered ∈ run.numbers → ∀ content, run.content = some content →
    run.Changes (document run.altered run.counter
      (writtenDraw (run.passes.getLast run.nonempty) (run.gen.key run.altered))) →
    ∃ field ∈ (document run.altered run.counter (run.draw run.altered)).entries,
      Generator.fieldAgrees content field = false

end Run

/-! ## Batches -/

namespace Generator

variable {gen : Generator}

theorem key_injective (gen : Generator) : Function.Injective gen.key := by
  intro x y same
  have texts := congrArg String.toList same
  simp only [key, String.toList_append] at texts
  exact Int.repr_injective (String.toList_inj.mp (List.append_cancel_left texts))

theorem range_split {start middle stop : Int} (first : start ≤ middle) (second : middle ≤ stop) :
    range start middle ++ range middle stop = range start stop := by
  have joint := window_append start (middle - start).toNat (stop - middle).toNat
  have here : start + ((middle - start).toNat : Int) = middle := by omega
  have size : (middle - start).toNat + (stop - middle).toNat = (stop - start).toNat := by omega
  rw [here, size] at joint
  exact joint

theorem flatMap_batches (gen : Generator) :
    gen.batches.flatMap (fun batch => range batch.1 batch.2) = range gen.startDocument gen.stop := by
  rw [batches, List.flatMap_map]
  generalize gen.startDocument = start
  generalize gen.stop = stop
  induction start using @pyRange_induction stop _ gen.positive with
  | empty start passed =>
    have none : (stop - start).toNat = 0 := by omega
    rw [pyRange_empty gen.positive passed, range, none]
    rfl
  | onward start before ih =>
    rw [pyRange_step gen.positive before, List.flatMap_cons, ih]
    split
    · rename_i clipped
      have none : (stop - (start + gen.batchSize)).toNat = 0 := by omega
      rw [range.eq_def (start + gen.batchSize), none]
      exact List.append_nil _
    · exact range_split (by omega) (by omega)

/-! ## A pass of upserts -/

theorem upsertItems_append (round : Round) (state : Written × List String)
    (first second : List (String × PyDict)) :
    upsertItems round (upsertItems round state first) second = upsertItems round state (first ++ second) := by
  simp only [upsertItems, List.filter_append, assignAll_append, List.map_append, List.append_assoc]

theorem foldl_upsertItems (counter : Int) (round : Round) (batches : List (Int × Int))
    (state : Written × List String) :
    batches.foldl (fun state batch => upsertItems round state (gen.getUpsertItems counter round batch)) state =
      upsertItems round state (batches.flatMap (gen.getUpsertItems counter round)) := by
  induction batches generalizing state with
  | nil => simp [upsertItems, assignAll]
  | cons batch batches ih => rw [List.foldl_cons, ih, upsertItems_append, List.flatMap_cons]

/-- The items of documents with some numbers, under the keys of the documents -/
def named (gen : Generator) (counter : Int) (draw : String → Draw) (number : Int → Int) (xs : List Int) :
    List (String × PyDict) :=
  xs.map fun x => (gen.key x, document (number x) counter (draw (gen.key x)))

theorem upsertItems_named (counter : Int) (round : Round) (number : Int → Int) (xs : List Int)
    (written : Written) : ∃ result,
      upsertItems round (written, []) (gen.named counter round.draw number xs) =
        (result, (xs.filter fun x => round.fails (gen.key x)).map gen.key) ∧
      ∀ x, result.lookup (gen.key x) =
        if x ∈ xs ∧ round.fails (gen.key x) = false then
          some (document (number x) counter (round.draw (gen.key x)))
        else written.lookup (gen.key x) := by
  refine ⟨assignAll ((gen.named counter round.draw number xs).filter fun item => !round.fails item.1) written,
    ?_, fun x => ?_⟩
  · simp [upsertItems, named, List.filter_map, Function.comp_def]
  · have shape : ((gen.named counter round.draw number xs).filter fun item => !round.fails item.1) =
        (xs.filter fun x => !round.fails (gen.key x)).map fun x =>
          (gen.key x, document (number x) counter (round.draw (gen.key x))) := by
      simp [named, List.filter_map, Function.comp_def]
    rw [shape, lookup_assignAll_named gen.key_injective
      (fun x => document (number x) counter (round.draw (gen.key x)))]
    simp only [List.mem_filter, Bool.not_eq_true']

theorem getRetryUpsertItems_named {counter : Int} {draw : String → Draw} {number : Int → Int}
    {xs : List Int} (known : ∀ x ∈ xs, docNum (gen.key x) = some (number x)) :
    getRetryUpsertItems counter draw (xs.map gen.key) = some (gen.named counter draw number xs) := by
  induction xs with
  | nil => rfl
  | cons x xs ih =>
    have rest := ih fun y member => known y (List.mem_cons_of_mem _ member)
    rw [getRetryUpsertItems] at rest ⊢
    rw [List.map_cons, List.mapM_cons, known x List.mem_cons_self, rest]
    rfl

theorem getRetryUpsertItems_none {counter : Int} {draw : String → Draw} {keys : List String} {key : String}
    (member : key ∈ keys) (unknown : docNum key = none) : getRetryUpsertItems counter draw keys = none := by
  rw [Option.eq_none_iff_forall_ne_some]
  intro items returned
  obtain ⟨item, made⟩ := mapM_isSome_iff.mp ⟨items, returned⟩ key member
  rw [unknown] at made
  cases made

theorem retryLoop_spec {counter : Int} {last : String → Draw} {number : Int → Int} (retries : List Round)
    {xs : List Int} (known : ∀ x ∈ xs, docNum (gen.key x) = some (number x)) (written : Written) :
    ∃ result, retryLoop counter last retries (written, xs.map gen.key) = some result ∧
      ∀ x, result.lookup (gen.key x) =
        if x ∈ xs then some (document (number x) counter (Run.finalDraw last (gen.key x) retries))
        else written.lookup (gen.key x) := by
  induction retries generalizing xs written with
  | nil =>
    refine ⟨assignAll (gen.named counter last number xs) written, ?_, ?_⟩
    · rw [retryLoop, getRetryUpsertItems_named known]
      rfl
    · exact lookup_assignAll_named gen.key_injective
        (fun x => document (number x) counter (last (gen.key x))) xs
  | cons round retries ih =>
    by_cases empty : xs = []
    · subst empty
      exact ⟨written, rfl, fun x => rfl⟩
    · obtain ⟨next, upserted, lookups⟩ := @upsertItems_named gen counter round number xs written
      obtain ⟨result, returned, lookups'⟩ := @ih (xs.filter fun x => round.fails (gen.key x))
        (fun x member => known x (List.mem_of_mem_filter member)) next
      refine ⟨result, ?_, fun x => ?_⟩
      · have some : (xs.map gen.key).isEmpty = false := by simpa using empty
        rw [retryLoop, getRetryUpsertItems_named known]
        simp only [some, Bool.false_eq_true, if_false]
        show retryLoop counter last retries (upsertItems round (written, []) _) = _
        rw [upserted]
        exact returned
      · rw [lookups', lookups, Run.finalDraw]
        by_cases member : x ∈ xs
        · by_cases fails : round.fails (gen.key x) = true
          · simp [member, fails]
          · simp [member, fails]
        · simp [member]

theorem retryLoop_none {counter : Int} {last : String → Draw} (retries : List Round) {keys : List String}
    {key : String} (member : key ∈ keys) (unknown : docNum key = none) (written : Written) :
    retryLoop counter last retries (written, keys) = none := by
  cases retries with
  | nil =>
    rw [retryLoop, getRetryUpsertItems_none member unknown]
    rfl
  | cons round retries =>
    have some : keys.isEmpty = false := by
      rw [List.isEmpty_eq_false_iff_exists_mem]
      exact ⟨key, member⟩
    rw [retryLoop, getRetryUpsertItems_none member unknown]
    simp only [some, Bool.false_eq_true, if_false]
    rfl

/-- The numbers with which the documents are written in a pass -/
def writtenNumber (gen : Generator) (pass : UpsertPass) (x : Int) : Int :=
  if pass.first.fails (gen.key x) then (docNum (gen.key x)).getD x else x

theorem firstRound_eq (counter : Int) (pass : UpsertPass) :
    gen.batches.foldl (fun state batch => upsertItems pass.first state
        (gen.getUpsertItems counter pass.first batch)) (∅, []) =
      upsertItems pass.first (∅, [])
        (gen.named counter pass.first.draw id (range gen.startDocument gen.stop)) := by
  rw [foldl_upsertItems, ← flatMap_batches, named, List.map_flatMap]
  rfl

theorem singleUpsertPass_spec (counter : Int) (pass : UpsertPass)
    (retriable : ∀ x ∈ range gen.startDocument gen.stop, pass.first.fails (gen.key x) = true →
      (docNum (gen.key x)).isSome) : ∃ written,
      gen.singleUpsertPass counter pass = some written ∧
        ∀ x ∈ range gen.startDocument gen.stop, written.lookup (gen.key x) =
          some (document (gen.writtenNumber pass x) counter (Run.writtenDraw pass (gen.key x))) := by
  obtain ⟨first, upserted, lookups⟩ := @upsertItems_named gen counter pass.first id
    (range gen.startDocument gen.stop) ∅
  have known : ∀ x ∈ (range gen.startDocument gen.stop).filter fun x => pass.first.fails (gen.key x),
      docNum (gen.key x) = some ((docNum (gen.key x)).getD x) := by
    intro x member
    obtain ⟨inside, fails⟩ := List.mem_filter.mp member
    obtain ⟨number, found⟩ := Option.isSome_iff_exists.mp (retriable x inside fails)
    rw [found]
    rfl
  obtain ⟨written, returned, lookups'⟩ := @retryLoop_spec gen counter pass.last _ pass.retries _ known first
  refine ⟨written, ?_, fun x member => ?_⟩
  · rw [singleUpsertPass, firstRound_eq, upserted]
    exact returned
  · rw [lookups', lookups, writtenNumber, Run.writtenDraw]
    by_cases fails : pass.first.fails (gen.key x) = true
    · simp [member, fails]
    · simp [member, fails]

theorem singleUpsertPass_none {counter : Int} {pass : UpsertPass} {x : Int}
    (member : x ∈ range gen.startDocument gen.stop) (fails : pass.first.fails (gen.key x) = true)
    (unknown : docNum (gen.key x) = none) : gen.singleUpsertPass counter pass = none := by
  obtain ⟨first, upserted, -⟩ := @upsertItems_named gen counter pass.first id
    (range gen.startDocument gen.stop) ∅
  rw [singleUpsertPass, firstRound_eq, upserted]
  exact retryLoop_none pass.retries
    (List.mem_map_of_mem (List.mem_filter.mpr ⟨member, fails⟩)) unknown first

theorem upsertPasses_last {passes : List UpsertPass} (nonempty : passes ≠ []) {i : ℕ} {start written : Written}
    (returned : gen.upsertPasses i passes start = some written) :
    gen.singleUpsertPass ((i + (passes.length - 1) : ℕ) + gen.previousMutationCount)
      (passes.getLast nonempty) = some written := by
  induction passes generalizing i start with
  | nil => exact absurd rfl nonempty
  | cons pass passes ih =>
    rw [upsertPasses] at returned
    obtain ⟨next, single, rest⟩ := Option.bind_eq_some_iff.mp returned
    cases passes with
    | nil =>
      cases rest
      simpa using single
    | cons second passes =>
      have last := ih (List.cons_ne_nil _ _) rest
      rw [List.getLast_cons (List.cons_ne_nil _ _)]
      have count : i + 1 + ((second :: passes).length - 1) = i + ((pass :: second :: passes).length - 1) := by
        simp only [List.length_cons]
        omega
      rwa [count] at last

theorem upsertPasses_returns {passes : List UpsertPass} (i : ℕ) (start : Written)
    (retriable : ∀ pass ∈ passes, ∀ x ∈ range gen.startDocument gen.stop,
      pass.first.fails (gen.key x) = true → (docNum (gen.key x)).isSome) :
    ∃ written, gen.upsertPasses i passes start = some written := by
  induction passes generalizing i start with
  | nil => exact ⟨start, rfl⟩
  | cons pass passes ih =>
    obtain ⟨next, single, -⟩ := singleUpsertPass_spec (i + gen.previousMutationCount) pass
      (retriable pass List.mem_cons_self)
    obtain ⟨written, rest⟩ := ih (i + 1) next fun other member =>
      retriable other (List.mem_cons_of_mem _ member)
    refine ⟨written, ?_⟩
    rw [upsertPasses, single]
    exact rest

theorem retriable_of_returned {passes : List UpsertPass} {i : ℕ} {start written : Written}
    (returned : gen.upsertPasses i passes start = some written) :
    ∀ pass ∈ passes, ∀ x ∈ range gen.startDocument gen.stop, pass.first.fails (gen.key x) = true →
      (docNum (gen.key x)).isSome := by
  induction passes generalizing i start with
  | nil => simp
  | cons pass passes ih =>
    rw [upsertPasses] at returned
    obtain ⟨next, single, rest⟩ := Option.bind_eq_some_iff.mp returned
    intro other member x inside fails
    rcases List.mem_cons.mp member with rfl | later
    · by_contra unknown
      rw [singleUpsertPass_none inside fails (Option.not_isSome_iff_eq_none.mp unknown)] at single
      cases single
    · exact ih rest other later x inside fails

/-! ## The validation of a bucket -/

variable {counter : Int} {draw : Int → Draw} {bucket : Written}

theorem singleValidatePass_eq : gen.singleValidatePass counter draw bucket =
    (range gen.startDocument gen.stop).foldl (gen.validateItem counter draw bucket) ⟨[], []⟩ := by
  rw [← flatMap_batches, List.foldl_flatMap]
  rfl

/-- A document that the bucket has with another value in one of the fields -/
def Differs (counter : Int) (draw : Int → Draw) (val : PyDict) (x : Int) : Prop :=
  ∃ field ∈ (document x counter (draw x)).entries, fieldAgrees val field = false

theorem foldl_validateItem (xs : List Int) (recorded : Recorded) (key : String) :
    (key ∈ (xs.foldl (gen.validateItem counter draw bucket) recorded).missingKeyVal ↔
      key ∈ recorded.missingKeyVal ∨ ∃ x ∈ xs, gen.key x = key ∧ bucket.lookup (gen.key x) = none) ∧
    (key ∈ (xs.foldl (gen.validateItem counter draw bucket) recorded).wrongKeys ↔
      key ∈ recorded.wrongKeys ∨ ∃ x ∈ xs, gen.key x = key ∧
        ∃ val, bucket.lookup (gen.key x) = some val ∧ Differs counter draw val x) := by
  induction xs generalizing recorded with
  | nil => simp
  | cons x xs ih =>
    rw [List.foldl_cons]
    obtain ⟨missing, wrong⟩ := ih (gen.validateItem counter draw bucket recorded x)
    rw [missing, wrong, validateItem]
    cases found : bucket.lookup (gen.key x) with
    | none =>
      simp only [List.mem_append, List.mem_singleton, List.exists_mem_cons_iff, found]
      constructor
      · rw [or_assoc]
        simp [eq_comm]
      · simp
    | some val =>
      simp only [List.mem_append, List.mem_map, List.mem_filter, Bool.not_eq_true',
        List.exists_mem_cons_iff, found]
      constructor
      · simp
      · rw [or_assoc]
        apply or_congr_right
        apply or_congr_left
        constructor
        · rintro ⟨field, differs, rfl⟩
          exact ⟨rfl, val, rfl, field, differs⟩
        · rintro ⟨rfl, _, same, field, differs⟩
          cases same
          exact ⟨field, differs, rfl⟩

theorem mem_missingKeyVal {x : Int} (member : x ∈ range gen.startDocument gen.stop) :
    gen.key x ∈ (gen.singleValidatePass counter draw bucket).missingKeyVal ↔
      bucket.lookup (gen.key x) = none := by
  rw [singleValidatePass_eq, (foldl_validateItem _ _ _).1]
  simp only [List.not_mem_nil, false_or]
  constructor
  · rintro ⟨y, -, same, none⟩
    rwa [same] at none
  · exact fun none => ⟨x, member, rfl, none⟩

theorem mem_wrongKeys {x : Int} (member : x ∈ range gen.startDocument gen.stop) :
    gen.key x ∈ (gen.singleValidatePass counter draw bucket).wrongKeys ↔
      ∃ val, bucket.lookup (gen.key x) = some val ∧ Differs counter draw val x := by
  rw [singleValidatePass_eq, (foldl_validateItem _ _ _).2]
  simp only [List.not_mem_nil, false_or]
  constructor
  · rintro ⟨y, -, same, found⟩
    rwa [gen.key_injective same] at found
  · exact fun found => ⟨x, member, rfl, found⟩

theorem singleValidatePass_clean_iff : gen.singleValidatePass counter draw bucket = ⟨[], []⟩ ↔
    ∀ x ∈ range gen.startDocument gen.stop,
      ∃ val, bucket.lookup (gen.key x) = some val ∧ ¬ Differs counter draw val x := by
  constructor
  · intro clean x member
    have present := (@mem_missingKeyVal gen counter draw bucket x member).not.mp (by simp [clean])
    have right := (@mem_wrongKeys gen counter draw bucket x member).not.mp (by simp [clean])
    obtain ⟨val, found⟩ := Option.ne_none_iff_exists'.mp present
    exact ⟨val, found, fun differs => right ⟨val, found, differs⟩⟩
  · intro fine
    have missing : (gen.singleValidatePass counter draw bucket).missingKeyVal = [] := by
      rw [List.eq_nil_iff_forall_not_mem]
      intro key member
      rw [singleValidatePass_eq, (foldl_validateItem _ _ _).1] at member
      obtain ⟨x, inside, -, none⟩ := member.resolve_left List.not_mem_nil
      obtain ⟨val, found, -⟩ := fine x inside
      rw [found] at none
      cases none
    have wrong : (gen.singleValidatePass counter draw bucket).wrongKeys = [] := by
      rw [List.eq_nil_iff_forall_not_mem]
      intro key member
      rw [singleValidatePass_eq, (foldl_validateItem _ _ _).2] at member
      obtain ⟨x, inside, -, val, found, differs⟩ := member.resolve_left List.not_mem_nil
      obtain ⟨other, same, agrees⟩ := fine x inside
      rw [found] at same
      cases same
      exact agrees differs
    cases result : gen.singleValidatePass counter draw bucket with
    | mk missingKeyVal wrongKeys =>
      rw [result] at missing wrong
      rw [show missingKeyVal = [] from missing, show wrongKeys = [] from wrong]

section Fields

variable (value update : Int) (written : Draw) (expected : PyJson)

theorem val_agrees : fieldAgrees (document value update written) ⟨"val", expected⟩ =
    (PyJson.num value).pyEq expected := rfl

theorem update_agrees : fieldAgrees (document value update written) ⟨"update", expected⟩ =
    (PyJson.num update).pyEq expected := rfl

theorem id_agrees : fieldAgrees (document value update written) ⟨"id", expected⟩ =
    (PyJson.num value).pyEq expected := rfl

theorem userSince_agrees : fieldAgrees (document value update written) ⟨"user_since", expected⟩ =
    (PyJson.str written.userSince).pyEq expected := rfl

theorem employment_agrees : fieldAgrees (document value update written) ⟨"employment", expected⟩ =
    (PyJson.arr (written.employment.map fun name => .obj [("organization", .str name)])).pyEq expected := rfl

end Fields

theorem num_pyEq (a b : Int) : (PyJson.num a).pyEq (.num b) = true ↔ a = b := by
  simp [PyJson.pyEq]

theorem str_pyEq (a b : String) : (PyJson.str a).pyEq (.str b) = true ↔ a = b := by
  simp [PyJson.pyEq]

theorem employment_pyEq (names others : List String) :
    (PyJson.arr (names.map fun name => .obj [("organization", .str name)])).pyEq
      (.arr (others.map fun name => .obj [("organization", .str name)])) = true ↔ names = others := by
  rw [PyJson.pyEq]
  induction names generalizing others with
  | nil => cases others <;> simp [PyJson.pyEqItems]
  | cons name names ih =>
    cases others with
    | nil => simp [PyJson.pyEqItems]
    | cons other others =>
      rw [List.map_cons, List.map_cons, PyJson.pyEqItems, Bool.and_eq_true, ih]
      simp [PyJson.pyEq, PyJson.pyEqFields]

/-- Two documents agree exactly if their numbers and their random choices show the same. -/
theorem not_differs_document_iff {number x : Int} {written : Draw} :
    ¬ Differs counter draw (document number counter written) x ↔ number = x ∧
      (draw x).userSince = written.userSince ∧ (draw x).employment = written.employment := by
  have fields : ¬ Differs counter draw (document number counter written) x ↔
      ∀ field ∈ (document x counter (draw x)).entries,
        fieldAgrees (document number counter written) field = true := by
    rw [Differs]
    push Not
    simp only [ne_eq, Bool.not_eq_false]
  have entries : (document x counter (draw x)).entries = [⟨"val", .num x⟩, ⟨"update", .num counter⟩,
      ⟨"id", .num x⟩, ⟨"user_since", .str (draw x).userSince⟩, ⟨"employment",
        .arr ((draw x).employment.map fun name => .obj [("organization", .str name)])⟩] := rfl
  rw [fields, entries]
  simp only [List.forall_mem_cons, List.not_mem_nil, false_implies, implies_true, and_true, val_agrees,
    update_agrees, id_agrees, userSince_agrees, employment_agrees, num_pyEq, str_pyEq, employment_pyEq]
  constructor
  · rintro ⟨same, -, -, since, employed⟩
    exact ⟨same, since.symm, employed.symm⟩
  · rintro ⟨same, since, employed⟩
    exact ⟨same, trivial, same, since.symm, employed.symm⟩

end Generator

namespace Run

variable {run : Run}

/-- The pass whose documents are in the bucket -/
def lastPass (run : Run) : UpsertPass := run.passes.getLast run.nonempty

/-- The bucket holds the documents of the last pass. -/
def Holds (run : Run) (written : Written) : Prop :=
  ∀ x ∈ run.numbers, written.lookup (run.gen.key x) =
    some (document (run.gen.writtenNumber run.lastPass x) run.counter
      (writtenDraw run.lastPass (run.gen.key x)))

theorem holds_of_returned {written : Written} (retriable : run.Retriable)
    (returned : run.gen.upsertPasses 0 run.passes ∅ = some written) : run.Holds written := by
  have single := Generator.upsertPasses_last run.nonempty returned
  rw [Nat.zero_add] at single
  obtain ⟨other, same, lookups⟩ := Generator.singleUpsertPass_spec run.counter run.lastPass
    (retriable run.lastPass (List.getLast_mem run.nonempty))
  have equal : other = written := Option.some.inj (same.symm.trans single)
  rw [← equal]
  exact lookups

theorem writtenNumber_eq_iff {pass : UpsertPass} {x : Int} (retriable : pass.first.fails (run.gen.key x) = true →
      (Generator.docNum (run.gen.key x)).isSome) : run.gen.writtenNumber pass x = x ↔
    (pass.first.fails (run.gen.key x) = true → Generator.docNum (run.gen.key x) = some x) := by
  rw [Generator.writtenNumber]
  by_cases fails : pass.first.fails (run.gen.key x) = true
  · obtain ⟨number, found⟩ := Option.isSome_iff_exists.mp (retriable fails)
    simp [fails, found]
  · simp [fails]

theorem clean_iff {written : Written} (retriable : run.Retriable) (holds : run.Holds written) :
    run.validate written = ⟨[], []⟩ ↔ run.Reproduced := by
  rw [validate, Generator.singleValidatePass_clean_iff]
  apply forall₂_congr
  intro x member
  rw [holds x member]
  have number := @writtenNumber_eq_iff run run.lastPass x
    (retriable run.lastPass (List.getLast_mem run.nonempty) x member)
  constructor
  · rintro ⟨val, same, agrees⟩
    cases same
    obtain ⟨right, drawn⟩ := Generator.not_differs_document_iff.mp agrees
    exact ⟨number.mp right, drawn⟩
  · rintro ⟨right, drawn⟩
    exact ⟨_, rfl, Generator.not_differs_document_iff.mpr ⟨number.mpr right, drawn⟩⟩

/-- An altered document is recorded exactly if it is removed or differs in a field. -/
theorem recorded_iff {written : Written} (member : run.altered ∈ run.numbers) :
    (run.gen.key run.altered ∈ (run.validate (run.alter written)).missingKeyVal ∨
        run.gen.key run.altered ∈ (run.validate (run.alter written)).wrongKeys) ↔
      ∀ content, run.content = some content →
        Generator.Differs run.counter run.draw content run.altered := by
  rw [validate, Generator.mem_missingKeyVal member, Generator.mem_wrongKeys member, alter]
  cases run.content with
  | none => simp
  | some content => simp

theorem alters_iff {written : Written} (retriable : run.Retriable) (holds : run.Holds written)
    (reproduced : run.Reproduced) :
    (run.altered ∈ run.numbers → ∀ stored, written.lookup (run.gen.key run.altered) = some stored →
      run.Changes stored →
        run.gen.key run.altered ∈ (run.validate (run.alter written)).missingKeyVal ∨
          run.gen.key run.altered ∈ (run.validate (run.alter written)).wrongKeys) ↔ run.AltersField := by
  apply forall_congr'
  intro member
  have number : run.gen.writtenNumber run.lastPass run.altered = run.altered :=
    (writtenNumber_eq_iff (retriable run.lastPass (List.getLast_mem run.nonempty) _ member)).mpr
      (reproduced run.altered member).1
  have stored := holds run.altered member
  rw [number] at stored
  rw [recorded_iff member, stored]
  constructor
  · intro records content altered changes
    exact records _ rfl changes content altered
  · rintro differs _ same changes content altered
    cases same
    exact differs content altered changes

theorem cond_of_validates (validates : run.Validates) :
    run.Retriable ∧ run.Reproduced ∧ run.AltersField := by
  obtain ⟨written, returned, clean, detects⟩ := validates
  have retriable : run.Retriable := Generator.retriable_of_returned returned
  have holds := holds_of_returned retriable returned
  have reproduced := (clean_iff retriable holds).mp clean
  exact ⟨retriable, reproduced, (alters_iff retriable holds reproduced).mp detects⟩

theorem validates_iff (run : Run) :
    run.Validates ↔ run.Retriable ∧ run.Reproduced ∧ run.AltersField := by
  constructor
  · exact cond_of_validates
  · rintro ⟨retriable, reproduced, alters⟩
    obtain ⟨written, returned⟩ := Generator.upsertPasses_returns 0 ∅ retriable
    have holds := holds_of_returned retriable returned
    exact ⟨written, returned, (clean_iff retriable holds).mpr reproduced,
      (alters_iff retriable holds reproduced).mpr alters⟩

/-- One document is written without any failure; the validation draws another year. -/
def oneDocument : Run :=
  let draw : Fin 17 → Draw := fun year =>
    { year := year, month := 0, day := 0, hour := 0, minute := 0, second := 0
      organization := fun _ => 0
      sampled := (0, 1)
      different := by decide }
  { gen :=
      { keyPrefix := "Key_", startDocument := 0, numItems := 1, batchSize := 5000, positive := by decide
        previousMutationCount := 0 }
    passes := [{ first := ⟨fun _ => false, fun _ => draw 0⟩, retries := [], last := fun _ => draw 0 }]
    nonempty := List.cons_ne_nil _ _
    draw := fun _ => draw 1
    altered := 0
    content := none }

/-- It is recorded as wrong, though nothing has touched it. -/
theorem validation_draws_again :
    ¬ oneDocument.Validates ∧ ∃ written,
      oneDocument.gen.upsertPasses 0 oneDocument.passes ∅ = some written ∧
        "Key_0" ∈ (oneDocument.validate written).wrongKeys := by
  have member : (0 : Int) ∈ oneDocument.numbers := by decide
  have years : (oneDocument.draw 0).userSince ≠
      (writtenDraw oneDocument.lastPass (oneDocument.gen.key 0)).userSince := by decide
  have retriable : oneDocument.Retriable := by
    intro pass listed x _ fails
    cases List.mem_singleton.mp listed
    cases fails
  constructor
  · intro validates
    exact years ((cond_of_validates validates).2.1 0 member).2.1
  · obtain ⟨written, returned⟩ := Generator.upsertPasses_returns 0 ∅ retriable
    refine ⟨written, returned, ?_⟩
    rw [show "Key_0" = oneDocument.gen.key 0 by decide, validate, Generator.mem_wrongKeys member]
    refine ⟨_, holds_of_returned retriable returned 0 member, ?_⟩
    by_contra agrees
    exact years (Generator.not_differs_document_iff.mp agrees).2.1

end Run

end Taf.Thanosied
