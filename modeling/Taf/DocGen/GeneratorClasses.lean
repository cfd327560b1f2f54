import Taf.Lib.Iterator
import Taf.DocGen.TargetVbucket
import Taf.DocGen.BatchedDocuments

/-! # The generators as iterators

`DocumentGenerator`, `SubdocDocumentGenerator` and `DocumentGeneratorForTargetVbucket` share `has_next`, `reset` and
`__len__` of `KVGenerator`.  Each has a `next` of its own, with its own test for the end and its own source of keys. -/

namespace Taf.DocGen

open Taf.Lib

/-! ## The three classes -/

namespace DocumentGeneratorState

variable {σ V : Type}

/-- `DocumentGenerator`, where a pair counts by its key.  An exception leaves the index as it is. -/
def iterator : Iterator (DocumentGeneratorState σ V) String where
  hasNext := hasNext
  next g :=
    match g.next with
    | .ok (doc, g') => (.value doc.1, g')
    | .error .stopIteration => (.stopIteration, g)
    | .error _ => (.error, g)
  reset g := { g with itr := g.start }
  length g := g.stop - g.start

end DocumentGeneratorState

/-- `SubdocDocumentGenerator`: `filled` tells whether the template, with the draws for an index, is JSON. -/
structure SubdocGenerator where
  args : GeneratorArgs
  env : KeyEnv
  filled : ℤ → Bool
  fuel : ℕ
  docKeys : List String
  -- `create_key_for_vbucket` is only called with targets.
  created : match args.targetVbucket with
    | some (target :: targets) => args.docKeys env (target :: targets) fuel = some docKeys
    | _ => docKeys = []

namespace SubdocGenerator

variable (g : SubdocGenerator)

/-- The source's `end` after construction -/
def stop : ℤ :=
  match g.args.targetVbucket with
  | some (_ :: _) => g.args.start + g.docKeys.length
  | _ => g.args.stop

/-- `next_key` -/
def keyAt (itr : ℤ) : Option String :=
  match g.args.targetVbucket with
  | some _ => docKeyAt g.docKeys g.args.start itr
  | none => some (g.args.subdocKeyAt g.env itr)

def iterator : Iterator ℤ String :=
  indexed g.args.start g.stop (fun itr => itr ≥ g.stop)
    fun itr => if g.filled itr then g.keyAt itr else none

end SubdocGenerator

/-- `DocumentGeneratorForTargetVbucket` -/
structure TargetGenerator (V : Type) where
  args : GeneratorArgs
  env : KeyEnv
  targets : List ℕ
  -- The names of the template, and what they are chosen from.
  names : List String
  kwargs : String → Option (Kwarg V)
  randomize : Bool
  randomizeDocSize : Bool
  docSize : ℤ
  fuel : ℕ
  docKeys : List String
  created : args.docKeys env targets fuel = some docKeys

namespace TargetGenerator

variable {V : Type} (g : TargetGenerator V)

def stop : ℤ := g.args.start + g.docKeys.length

/-- The statements of `next` in front of `next_key` raise no exception; functions are not called here. -/
def filled : Bool :=
  (!g.randomize || g.names.all fun k =>
    match g.kwargs k with
    | none => true
    | some (.items items) => !items.isEmpty
    | some .callable => false
    | some .other => false) && (!g.randomizeDocSize || 0 ≤ g.docSize)

def iterator : Iterator ℤ String :=
  -- unlike in the other classes, the test is for an index behind the end
  indexed g.args.start g.stop (fun itr => itr > g.stop)
    fun itr => if g.filled then docKeyAt g.docKeys g.args.start itr else none

end TargetGenerator

theorem docKeyAt_isSome_iff {docKeys : List String} {start itr : ℤ} :
    (docKeyAt docKeys start itr).isSome ↔ start ≤ itr ∧ itr < start + docKeys.length := by
  rw [docKeyAt]
  by_cases before : itr < start
  · rw [if_pos before]
    exact iff_of_false (by simp) (by omega)
  · rw [if_neg before, Option.isSome_iff_ne_none, Ne, List.getElem?_eq_none_iff]
    omega

/-! ## The protocol -/

/-- A generator as its constructor leaves it -/
inductive KVGenerator (σ V : Type) where
  | document (g : DocumentGeneratorState σ V) (new : g.itr = g.start)
  | subdoc (g : SubdocGenerator)
  | target (g : TargetGenerator V)

namespace KVGenerator

variable {σ V : Type}

def FollowsProtocol : KVGenerator σ V → Prop
  | .document g _ => DocumentGeneratorState.iterator.Follows g
  | .subdoc g => g.iterator.Follows g.args.start
  | .target g => g.iterator.Follows g.args.start

/-- The range does not end before it starts, there are targets for sub-documents or there is no restriction to them,
    and what the documents are made of does not raise an exception of its own. -/
def Fits : KVGenerator σ V → Prop
  | .document g _ => g.start ≤ g.stop ∧ (g.start < g.stop → g.Works)
  | .subdoc g => g.args.start ≤ g.stop ∧ (g.args.start < g.stop → g.args.targetVbucket ≠ some []) ∧
      ∀ index, g.args.start ≤ index → index < g.stop → g.filled index
  | .target _ => False

end KVGenerator

section Document

variable {σ V : Type} {g g' : DocumentGeneratorState σ V}

theorem fillField_error {args : DocumentGeneratorArgs σ V} {filling : DocumentGeneratorArgs.Filling σ V} {name : String}
    {e : GeneratorError} (raised : args.fillField filling name = .error e) : e ≠ .stopIteration := by
  rw [DocumentGeneratorArgs.fillField] at raised
  cases given : args.kwargs name with
  | none =>
    rw [given] at raised
    cases raised
  | some kwarg =>
    rw [given] at raised
    cases kwarg with
    | callable => cases raised
    | items items =>
      dsimp only at raised
      by_cases isKey : name = "key"
      · rw [if_pos isKey] at raised
        cases raised
        exact GeneratorError.noConfusion
      · rw [if_neg isKey] at raised
        cases items with
        | nil =>
          cases raised
          exact GeneratorError.noConfusion
        | cons first rest => cases raised
    | other =>
      dsimp only at raised
      by_cases isKey : name = "key"
      · rw [if_pos isKey] at raised
        cases raised
        exact GeneratorError.noConfusion
      · rw [if_neg isKey] at raised
        cases raised
        exact GeneratorError.noConfusion

theorem makeKey_error {args : DocumentGeneratorArgs σ V} {index : ℤ} {rng : σ} {e : GeneratorError}
    (raised : args.makeKey index rng = .error e) : e ≠ .stopIteration := by
  rw [DocumentGeneratorArgs.makeKey] at raised
  dsimp only at raised
  split_ifs at raised
  cases raised
  exact GeneratorError.noConfusion

theorem makeValue_error {e : GeneratorError} (raised : g.makeValue = .error e) : e ≠ .stopIteration := by
  rw [DocumentGeneratorState.makeValue, bind_eq_error] at raised
  cases raised with
  | inl filling =>
    rw [DocumentGeneratorArgs.fill] at filling
    split at filling
    · obtain ⟨_, _, -, _, field⟩ := @foldlM_raised _ _ _ _ _ (fun _ => True) _ _ filling (fun _ _ _ _ _ => trivial) trivial
      exact fillField_error field
    · cases filling
  | inr filled =>
    obtain ⟨filled, _, raised⟩ := filled
    rw [bind_eq_error] at raised
    cases raised with
    | inl body =>
      rw [DocumentGeneratorArgs.makeBody, bind_eq_error] at body
      cases body with
      | inl size =>
        rw [DocumentGeneratorArgs.sizeBody] at size
        split_ifs at size
        cases size
        exact GeneratorError.noConfusion
      | inr sized =>
        obtain ⟨_, _, returned⟩ := sized
        cases returned
    | inr made =>
      obtain ⟨_, _, returned⟩ := made
      cases returned

/-- Behind its first test `next` raises everything but `StopIteration`. -/
theorem next_error (more : g.itr < g.stop) {e : GeneratorError} (raised : g.next = .error e) :
    e ≠ .stopIteration := by
  rw [DocumentGeneratorState.next, if_neg (not_le.mpr more), bind_eq_error] at raised
  cases raised with
  | inl value => exact makeValue_error value
  | inr made =>
    obtain ⟨made, _, raised⟩ := made
    rw [bind_eq_error] at raised
    cases raised with
    | inl keyed =>
      rw [DocumentGeneratorState.nextKey, bind_eq_error] at keyed
      cases keyed with
      | inl key => exact makeKey_error key
      | inr returned =>
        obtain ⟨_, _, returned⟩ := returned
        cases returned
    | inr returned =>
      obtain ⟨_, _, returned⟩ := returned
      cases returned

theorem next_start {doc : String × DocValue V} (returned : g.next = .ok (doc, g')) : g'.start = g.start := by
  rw [DocumentGeneratorState.next] at returned
  split at returned
  · cases returned
  · obtain ⟨made, madeOk, returned⟩ := bind_eq_ok.mp returned
    obtain ⟨keyed, keyedOk, returned⟩ := bind_eq_ok.mp returned
    obtain ⟨key, _, keyed⟩ := bind_eq_ok.mp keyedOk
    obtain ⟨filled, _, madeOk⟩ := bind_eq_ok.mp madeOk
    obtain ⟨body, _, madeOk⟩ := bind_eq_ok.mp madeOk
    cases madeOk
    cases keyed
    cases returned
    rfl

theorem iterator_next_ok {doc : String × DocValue V} (returned : g.next = .ok (doc, g')) :
    DocumentGeneratorState.iterator.next g = (.value doc.1, g') := by
  rw [DocumentGeneratorState.iterator]
  dsimp only
  rw [returned]

theorem iterator_next_stop (raised : g.next = .error .stopIteration) :
    DocumentGeneratorState.iterator.next g = (.stopIteration, g) := by
  rw [DocumentGeneratorState.iterator]
  dsimp only
  rw [raised]

theorem iterator_next_error {e : GeneratorError} (raised : g.next = .error e) (other : e ≠ .stopIteration) :
    DocumentGeneratorState.iterator.next g = (.error, g) := by
  rw [DocumentGeneratorState.iterator]
  dsimp only
  rw [raised]
  cases e with
  | stopIteration => exact absurd rfl other
  | unboundLocalError => rfl
  | indexError => rfl
  | typeError => rfl
  | valueError => rfl
  | zeroDivisionError => rfl

/-- What stays the same of a generator while it is gone through -/
structure SameGenerator (g state : DocumentGeneratorState σ V) : Prop where
  start : state.start = g.start
  stop : state.stop = g.stop
  args : state.args = g.args
  names : state.template.names = g.template.names

theorem SameGenerator.works_iff {state : DocumentGeneratorState σ V} (same : SameGenerator g state) :
    state.Works ↔ g.Works := by
  constructor
  · intro works
    exact ⟨by rw [← same.args, ← same.names]; exact works.fields, by rw [← same.args]; exact works.body,
      by rw [← same.args]; exact works.key⟩
  · intro works
    exact ⟨by rw [same.args, same.names]; exact works.fields, by rw [same.args]; exact works.body,
      by rw [same.args]; exact works.key⟩

open Classical in
/-- To its caller a `DocumentGenerator` is an index: what it carries along does not show in the keys. -/
theorem document_alike (g : DocumentGeneratorState σ V) :
    DocumentGeneratorState.iterator.Alike
      (indexed g.start g.stop (fun itr => itr ≥ g.stop) fun itr => if g.Works then some (g.args.keyAt itr) else none)
      fun state itr => state.itr = itr ∧ SameGenerator g state where
  hasNext := by
    intro state itr related
    show decide (state.itr < state.stop) = decide (itr < g.stop)
    rw [related.1, related.2.stop]
  reset := by
    intro state itr related
    exact ⟨related.2.start, ⟨related.2.start, related.2.stop, related.2.args, related.2.names⟩⟩
  length := by
    intro state itr related
    show state.stop - state.start = g.stop - g.start
    rw [related.2.start, related.2.stop]
  next := by
    intro state itr related
    obtain ⟨sameItr, same⟩ := related
    by_cases ended : g.stop ≤ itr
    · have stopped : state.next = .error .stopIteration := by
        rw [DocumentGeneratorState.next, if_pos (by rw [sameItr, same.stop]; exact ended)]
      rw [iterator_next_stop stopped, indexed_next_ended (decide_eq_true ended)]
      exact ⟨rfl, sameItr, same⟩
    · have more : state.itr < state.stop := by
        rw [sameItr, same.stop]
        exact not_le.mp ended
      by_cases works : g.Works
      · obtain ⟨doc, next, returned⟩ := DocumentGeneratorState.next_returns (same.works_iff.mpr works) more
        obtain ⟨_, advanced, key, _⟩ := DocumentGeneratorState.next_eq_ok returned
        have here : doc.1 = g.args.keyAt itr := by rw [key, same.args, sameItr]
        rw [iterator_next_ok returned, indexed_next_eq (decide_eq_false ended) (if_pos works), here]
        refine ⟨rfl, ?_, ?_⟩
        · rw [advanced.itr, sameItr]
          rfl
        · exact ⟨(next_start returned).trans same.start, advanced.stop.trans same.stop, advanced.args.trans same.args,
            advanced.names.trans same.names⟩
      · cases outcome : state.next with
        | ok made => exact absurd (same.works_iff.mp (DocumentGeneratorState.next_eq_ok outcome).1) works
        | error e =>
          rw [iterator_next_error outcome (next_error more outcome),
            indexed_next_none (decide_eq_false ended) (if_neg works)]
          exact ⟨rfl, sameItr, same⟩

theorem document_follows_iff (g : DocumentGeneratorState σ V) (new : g.itr = g.start) :
    DocumentGeneratorState.iterator.Follows g ↔ g.start ≤ g.stop ∧ (g.start < g.stop → g.Works) := by
  classical
  rw [(document_alike g).follows_iff ⟨new, rfl, rfl, rfl, rfl⟩, indexed_follows_iff (fun _ => rfl)]
  apply and_congr_right
  intro ordered
  by_cases works : g.Works
  · simp only [if_pos works]
    exact iff_of_true (fun _ _ _ => rfl) fun _ => works
  · simp only [if_neg works]
    constructor
    · intro there nonempty
      cases there g.start (Int.le_refl _) nonempty
    · intro needs index low high
      exact absurd (needs (by omega)) works

end Document

/-- In its range a generator for sub-documents has all keys, unless its list of targets is empty. -/
theorem subdoc_keyAt_isSome {g : SubdocGenerator} {index : ℤ} (low : g.args.start ≤ index) (high : index < g.stop) :
    (g.keyAt index).isSome ↔ g.args.targetVbucket ≠ some [] := by
  have created := g.created
  rw [SubdocGenerator.keyAt]
  rw [SubdocGenerator.stop] at high
  cases given : g.args.targetVbucket with
  | none => simp
  | some targets =>
    rw [given] at created high
    cases targets with
    | nil =>
      have none : g.docKeys = [] := created
      dsimp only
      rw [docKeyAt_isSome_iff, none, List.length_nil]
      exact iff_of_false (by omega) fun differ => differ rfl
    | cons target targets =>
      dsimp only
      rw [docKeyAt_isSome_iff]
      exact iff_of_true ⟨low, high⟩ (by simp)

theorem subdoc_follows_iff (g : SubdocGenerator) : g.iterator.Follows g.args.start ↔
    g.args.start ≤ g.stop ∧ (g.args.start < g.stop → g.args.targetVbucket ≠ some []) ∧
      ∀ index, g.args.start ≤ index → index < g.stop → g.filled index := by
  rw [SubdocGenerator.iterator, indexed_follows_iff (fun _ => rfl)]
  apply and_congr_right
  intro ordered
  constructor
  · intro there
    have both : ∀ index, g.args.start ≤ index → index < g.stop →
        g.filled index = true ∧ (g.keyAt index).isSome := by
      intro index low high
      have here := there index low high
      by_cases filled : g.filled index = true
      · rw [if_pos filled] at here
        exact ⟨filled, here⟩
      · rw [if_neg filled] at here
        cases here
    constructor
    · intro nonempty
      exact (subdoc_keyAt_isSome (Int.le_refl _) nonempty).mp (both _ (Int.le_refl _) nonempty).2
    · intro index low high
      exact (both index low high).1
  · intro needs index low high
    rw [if_pos (needs.2 index low high)]
    exact (subdoc_keyAt_isSome low high).mpr (needs.1 (by omega))

/-- At the end `next` goes on, and asks for a key that was never searched for. -/
theorem target_not_follows {V : Type} (g : TargetGenerator V) : ¬ g.iterator.Follows g.args.start := by
  apply not_indexed_follows
  · exact decide_eq_false (lt_irrefl g.stop)
  · by_cases filled : g.filled = true
    · rw [if_pos filled, ← Option.not_isSome_iff_eq_none, docKeyAt_isSome_iff, TargetGenerator.stop]
      omega
    · exact if_neg filled

/-- The generators for target vBuckets never follow the protocol, and the others do whenever nothing is wrong with
    their arguments. -/
theorem followsProtocol_iff_fits {σ V : Type} (g : KVGenerator σ V) : g.FollowsProtocol ↔ g.Fits := by
  cases g with
  | document g new => exact document_follows_iff g new
  | subdoc g => exact subdoc_follows_iff g
  | target g => exact iff_of_false (target_not_follows g) id

/-- The generator `doc_generator("test", 0, 1, target_vbucket=[0])`, where every key lies in vBucket 0 -/
def oneTarget : TargetGenerator String where
  args := { key := "test", start := 0, stop := 1, targetVbucket := some [0] }
  env := GeneratorArgs.constantDraws
  targets := [0]
  names := ["mutated", "age", "name", "mutation_type", "body"]
  kwargs := fun _ => none
  randomize := false
  randomizeDocSize := false
  docSize := 156
  fuel := 1
  docKeys := ["test-000"]
  created := by decide

theorem oneTarget_keyError : ¬ (KVGenerator.target oneTarget : KVGenerator ℕ String).FollowsProtocol := by
  exact target_not_follows oneTarget

end Taf.DocGen
