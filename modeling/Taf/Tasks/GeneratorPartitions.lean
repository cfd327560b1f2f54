import Taf.DocGen.BatchedDocuments
import Taf.Tasks.LoadReports

/-! # The partitions of a generator

`LoadDocumentsGeneratorsTask.get_tasks` cuts the range of a generator into partitions, one for
every loading task, and every task goes through its partition in batches.  Put together in order
the batches are the documents of the whole range: no index is lost, taken twice or moved, and
with `deep_copy` the values are the same as well. -/

namespace Taf.Tasks

open Taf.Lib Taf.DocGen

variable {σ V : Type}

/-- What a task finds at the start of its partition: the state of the new `random.Random()`, and
    what callable kwargs will answer it while the other tasks call them too. -/
structure TaskStart (σ V : Type) where
  fresh : σ
  answers : Nat → V

/-- The deep copy of the generator for the partition at `pos`. -/
def partitionGen (generator : DocumentGeneratorState σ V) (genRange : Nat) (answers : Nat → V)
    (pos : Int) : DocumentGeneratorState σ V :=
  { generator with
    start := pos
    itr := pos
    stop := if pos + genRange > generator.stop then generator.stop else pos + genRange
    answers := answers }

/-- `LoadDocumentsGeneratorsTask.get_tasks` as far as the generators of its tasks. -/
def loadGeneratorsGetTasks (processConcurrency batchSize : Int) (starts : Int → TaskStart σ V)
    (generator : DocumentGeneratorState σ V) :
    Except GeneratorError (List (BatchedGenerator σ V)) :=
  if processConcurrency = 0 then .error .zeroDivisionError
  else
    let genRange :=
      (max ((generator.stop - generator.start).fdiv processConcurrency) 1).toNat
    (pyRange generator.start generator.stop genRange).mapM fun pos =>
      BatchedGenerator.new (partitionGen generator genRange (starts pos).answers pos) batchSize (starts pos).fresh

/-! ## Steps of a range -/

theorem pyRange_empty {start stop : Int} {step : Nat} (positive : 0 < step) (passed : stop ≤ start) :
    pyRange start stop step = [] := by
  have none : (stop - start).toNat = 0 := by omega
  rw [pyRange, none, Nat.div_eq_of_lt (by omega)]
  rfl

theorem pyRange_step {start stop : Int} {step : Nat} (positive : 0 < step) (before : start < stop) :
    pyRange start stop step = start :: pyRange (start + step) stop step := by
  have rounds : ((stop - start).toNat + step - 1) / step =
      ((stop - (start + step)).toNat + step - 1) / step + 1 := by
    by_cases full : start + step ≤ stop
    · have apart : (stop - start).toNat + step - 1 =
          (stop - (start + step)).toNat + step - 1 + step := by omega
      rw [apart, Nat.add_div_right _ positive]
    · have last : (stop - start).toNat + step - 1 = (stop - start).toNat - 1 + step := by omega
      have none : (stop - (start + step)).toNat = 0 := by omega
      rw [last, none, Nat.add_div_right _ positive, Nat.div_eq_of_lt (by omega),
        Nat.div_eq_of_lt (by omega)]
  rw [pyRange, rounds, List.range_succ_eq_map, List.map_cons, List.map_map, pyRange]
  refine List.cons_eq_cons.mpr ⟨by simp, List.map_congr_left ?_⟩
  intro round _
  simp only [Function.comp_apply, Nat.mul_succ]
  omega

/-- A range taken in steps, the last one clipped, is the whole range. -/
theorem pyRange_induction {stop : Int} {step : Nat} (positive : 0 < step)
    {motive : Int → Prop} (empty : ∀ start, stop ≤ start → motive start)
    (onward : ∀ start, start < stop → motive (start + step) → motive start) (start : Int) :
    motive start := by
  by_cases before : start < stop
  · exact onward start before (pyRange_induction positive empty onward (start + step))
  · exact empty start (by omega)
termination_by (stop - start).toNat
decreasing_by omega

/-! ## The partitions together -/

variable {generator : DocumentGeneratorState σ V}

theorem partitionGen_remaining (generator : DocumentGeneratorState σ V) (genRange : Nat)
    (answers : Nat → V) {pos : Int} (before : pos < generator.stop) :
    (partitionGen generator genRange answers pos).remaining =
      min genRange (generator.stop - pos).toNat := by
  unfold partitionGen DocumentGeneratorState.remaining
  dsimp only
  split <;> omega

/-- The task of the partition at `pos`. -/
def partitionTask (genRange : Nat) (batchSize : Nat) (positive : 0 < batchSize)
    (starts : Int → TaskStart σ V) (generator : DocumentGeneratorState σ V) (pos : Int) :
    BatchedGenerator σ V where
  docGen := { partitionGen generator genRange (starts pos).answers pos with rng := (starts pos).fresh }
  batchSize := batchSize
  positive := positive

theorem loadGeneratorsGetTasks_eq {processConcurrency batchSize : Int}
    (concurrency : processConcurrency ≠ 0) (positive : 0 < batchSize.toNat)
    (starts : Int → TaskStart σ V) (generator : DocumentGeneratorState σ V) :
    ∃ genRange : Nat, 0 < genRange ∧
      loadGeneratorsGetTasks processConcurrency batchSize starts generator =
        .ok ((pyRange generator.start generator.stop genRange).map
          (partitionTask genRange batchSize.toNat positive starts generator)) := by
  refine ⟨(max ((generator.stop - generator.start).fdiv processConcurrency) 1).toNat, by omega, ?_⟩
  unfold loadGeneratorsGetTasks
  rw [if_neg concurrency]
  dsimp only [BatchedGenerator.new]
  simp only [dif_pos positive]
  exact List.mapM_pure

/-- The batches of one task are the documents from its position on. -/
theorem drain_partition {genRange batchSize : Nat} (positive : 0 < batchSize)
    (starts : Int → TaskStart σ V) (skipValue : Bool) {calls : Nat} {pos : Int}
    (before : pos < generator.stop) (works : generator.Works)
    (enough : (generator.stop - pos).toNat ≤ calls) :
    ∃ batches, (partitionTask genRange batchSize positive starts generator pos).drain skipValue calls =
        some batches ∧
      ({ generator with itr := pos } : DocumentGeneratorState σ V).Covers
        (min genRange (generator.stop - pos).toNat) batches.flatten ∧
      ∀ batch ∈ batches, batch ≠ [] ∧ batch.length ≤ batchSize := by
  have remaining := partitionGen_remaining generator genRange (starts pos).answers before
  have taskWorks : (partitionTask genRange batchSize positive starts generator pos).docGen.Works :=
    ⟨works.fields, works.body, works.key⟩
  obtain ⟨batches, drained, covers, sizes⟩ := BatchedGenerator.drain_covers skipValue
    (fun _ => taskWorks) (remaining.trans_le ((Nat.min_le_right _ _).trans enough))
  have width : (partitionTask genRange batchSize positive starts generator pos).docGen.remaining =
      min genRange (generator.stop - pos).toNat := remaining
  rw [width] at covers
  refine ⟨batches, drained, covers.congr rfl rfl ?_, sizes⟩
  intro pure
  exact DocumentGeneratorState.docAt_congr pure.noCallable rfl rfl rfl

/-- One task after the other, from `pos` on. -/
theorem drain_partitions {genRange batchSize : Nat} (range : 0 < genRange) (positive : 0 < batchSize)
    (starts : Int → TaskStart σ V) (skipValue : Bool) {calls : Nat} (pos : Int)
    (works : pos < generator.stop → generator.Works) (enough : (generator.stop - pos).toNat ≤ calls) :
    ∃ batches, ((pyRange pos generator.stop genRange).map
        (partitionTask genRange batchSize positive starts generator)).mapM
          (BatchedGenerator.drain skipValue calls) = some batches ∧
      ({ generator with itr := pos } : DocumentGeneratorState σ V).Covers (generator.stop - pos).toNat
        batches.flatten.flatten ∧
      ∀ batch ∈ batches.flatten, batch ≠ [] ∧ batch.length ≤ batchSize := by
  induction pos using @pyRange_induction generator.stop genRange range with
  | empty pos passed =>
    have none : (generator.stop - pos).toNat = 0 := by omega
    rw [pyRange_empty range passed, none]
    exact ⟨[], rfl, .nil _, by simp⟩
  | onward pos before ih =>
    obtain ⟨first, drained, covers, sizes⟩ :=
      drain_partition positive starts skipValue before (works before) enough
    obtain ⟨rest, restDrained, restCovers, restSizes⟩ := ih (fun _ => works before) (by omega)
    refine ⟨first :: rest, ?_, ?_, ?_⟩
    · rw [pyRange_step range before, List.map_cons, List.mapM_cons, drained, restDrained]
      rfl
    · rw [List.flatten_cons, List.flatten_append]
      by_cases full : pos + genRange ≤ generator.stop
      · have width : min genRange (generator.stop - pos).toNat = genRange := by omega
        have total : (generator.stop - pos).toNat =
            genRange + (generator.stop - (pos + genRange)).toNat := by omega
        rw [width] at covers
        rw [total]
        have advanced : ({ generator with itr := pos } : DocumentGeneratorState σ V).Advanced genRange
            { generator with itr := pos + genRange } :=
          ⟨rfl, rfl, rfl, rfl, fun pure => DocumentGeneratorState.docAt_congr pure.noCallable rfl rfl rfl⟩
        exact covers.append advanced restCovers
      · -- The last partition is clipped; behind it there is nothing.
        have width : min genRange (generator.stop - pos).toNat = (generator.stop - pos).toNat := by omega
        have none : (generator.stop - (pos + genRange)).toNat = 0 := by omega
        rw [none] at restCovers
        have nothing : rest.flatten.flatten = [] := List.length_eq_zero_iff.mp restCovers.length
        rw [width] at covers
        rw [nothing, List.append_nil]
        exact covers
    · intro batch member
      rw [List.flatten_cons, List.mem_append] at member
      cases member with
      | inl member => exact sizes batch member
      | inr member => exact restSizes batch member

/-- Cut into partitions and taken in batches, a generator gives the documents that `next` gives. -/
theorem partitions_agree (generator : DocumentGeneratorState σ V)
    (unread : generator.itr = generator.start) {processConcurrency batchSize : Int}
    (concurrency : 1 ≤ processConcurrency) (size : 1 ≤ batchSize) (starts : Int → TaskStart σ V)
    (skipValue : Bool) {calls : Nat} {docs : List (String × DocValue V)}
    (produced : generator.drain calls = some docs) {batchCalls : Nat}
    (enough : (generator.stop - generator.start).toNat ≤ batchCalls) :
    ∃ tasks batches,
      loadGeneratorsGetTasks processConcurrency batchSize starts generator = .ok tasks ∧
      tasks.mapM (BatchedGenerator.drain skipValue batchCalls) = some batches ∧
      docs.map Prod.fst = (generator.args.view generator.start generator.stop).keys ∧
      batches.flatten.flatten.map Prod.fst = docs.map Prod.fst ∧
      (∀ batch ∈ batches.flatten, batch ≠ [] ∧ (batch.length : Int) ≤ batchSize) ∧
      (generator.args.deepCopy = true →
        (∀ name, generator.args.kwargs name ≠ some .callable) →
        batches.flatten.flatten = docs.map fun doc => (doc.1, some doc.2)) := by
  have positive : 0 < batchSize.toNat := by omega
  have nonzero : processConcurrency ≠ 0 := by omega
  obtain ⟨genRange, range, tasksOk⟩ := loadGeneratorsGetTasks_eq nonzero positive starts generator
  obtain ⟨covers, works⟩ := DocumentGeneratorState.drain_covers produced
  have remaining : generator.remaining = (generator.stop - generator.start).toNat := by
    rw [DocumentGeneratorState.remaining, unread]
  rw [remaining] at covers works
  have worksFromStart (before : generator.start < generator.stop) : generator.Works := works (by omega)
  obtain ⟨batches, drained, batchesCover, sizes⟩ := drain_partitions range positive starts skipValue
    generator.start worksFromStart enough
  have batchesCover : generator.Covers (generator.stop - generator.start).toNat
      batches.flatten.flatten :=
    batchesCover.congr rfl unread.symm fun pure =>
      DocumentGeneratorState.docAt_congr pure.noCallable rfl rfl rfl
  have sameKeys : batches.flatten.flatten.map Prod.fst = docs.map Prod.fst := by
    rw [batchesCover.keys, ← covers.keys, List.map_map]
    rfl
  refine ⟨_, batches, tasksOk, drained, ?_, sameKeys, ?_, ?_⟩
  · rw [← sameKeys, batchesCover.keys, DocumentGenerator.keys_eq_map, window, unread, List.map_map]
    rfl
  · intro batch member
    obtain ⟨notEmpty, length⟩ := sizes batch member
    exact ⟨notEmpty, by omega⟩
  · intro deepCopy noCallable
    have same := (batchesCover.values ⟨deepCopy, noCallable⟩).trans
      (covers.values ⟨deepCopy, noCallable⟩).symm
    exact List.map_injective_iff.mpr (fun _ _ => Except.ok.inj) same

/-- Three documents with a random field, in two partitions of batches of at most two. -/
def agedDocs : DocumentGeneratorState Nat String where
  args :=
    { random :=
        { seed := String.length
          scaled := fun state bound => (bound % (state + 1), state + 1)
          randint := fun state low _ => (low, state + 1)
          choice := fun state first rest => (rest.getD state first, state + 1) }
      name := "test_docs"
      randomize := true
      deepCopy := true
      kwargs := fun name => if name = "age" then some (.items ["17", "18"]) else none
      text := id }
  start := 8
  itr := 8
  stop := 11
  rng := 0
  body := "aaa"
  template := ⟨["age", "body"], by decide, fun _ => ""⟩
  answers := fun _ => ""

theorem partitions_agree_agedDocs :
    ∃ docs, agedDocs.drain 3 = some docs ∧ ∃ tasks batches,
      loadGeneratorsGetTasks 2 2 (fun _ => ⟨0, fun _ => ""⟩) agedDocs = .ok tasks ∧
      tasks.mapM (BatchedGenerator.drain false 3) = some batches ∧
      batches.flatten.flatten = docs.map fun doc => (doc.1, some doc.2) := by
  have produced : ∃ docs, agedDocs.drain 3 = some docs := ⟨_, rfl⟩
  obtain ⟨docs, produced⟩ := produced
  obtain ⟨tasks, batches, tasksOk, drained, -, -, -, agree⟩ :=
    @partitions_agree _ _ agedDocs rfl 2 2 (by decide) (by decide) (fun _ => ⟨0, fun _ => ""⟩) false 3
      docs produced 3 (by decide)
  refine ⟨docs, produced, tasks, batches, tasksOk, drained, agree rfl ?_⟩
  intro name
  dsimp only [agedDocs]
  split <;> simp

end Taf.Tasks
