import Taf.Lib.PyText
import Taf.Tasks.GeneratorPartitions

/-! # A client for every partition

`async_load_gen_docs` and `async_load_gen_sub_docs` make a client for every partition of a generator
before its task is there.  The task cuts the generator again, by itself, and takes `clients[i]` for
the `i`-th partition. -/

namespace Taf.Tasks.GeneratorLoad

open Taf.Lib

variable {D C : Type}

/-- What is read and set of a generator; everything else is copied with it. -/
structure KVGenerator (D : Type) where
  start : ℤ
  itr : ℤ
  stop : ℤ
  data : D

namespace KVGenerator

variable (processConcurrency : ℤ) (generator : KVGenerator D)

/-- `gen_range`, which all of them compute in the same way -/
def genRange : ℕ :=
  (max ((generator.stop - generator.start).fdiv processConcurrency) 1).toNat

/-- The deep copy for the partition at `pos` -/
def partitionGen (pos : ℤ) : KVGenerator D :=
  let stop := pos + generator.genRange processConcurrency
  { generator with
    start := pos
    itr := pos
    stop := if stop > generator.stop then generator.stop else stop }

def partitions (genEnd : ℤ) : List (KVGenerator D) :=
  (pyRange generator.start genEnd (generator.genRange processConcurrency)).map
    (generator.partitionGen processConcurrency)

/-- `clients`: `newClient` is the `SDKClient` of a round, or `None` if there is a pool. -/
def clients (newClient : ℕ → C) : List C :=
  (pyRange generator.start generator.stop (generator.genRange processConcurrency)).zipIdx.map
    fun round => newClient round.2

end KVGenerator

/-- `BatchedDocumentGenerator(partition_gen, batch_size)` -/
def batchGen (batchSize : ℤ) (partition : KVGenerator D) : Except PyError (KVGenerator D × ℤ) :=
  if batchSize ≤ 0 then .error (.valueError s!"Invalid Batch size {batchSize}")
  else .ok (partition, batchSize)

/-- The tasks of the partitions, each with its client -/
def tasksOf (clients : List C) (batchSize : ℤ) (partitions : List (KVGenerator D)) :
    Except PyError (List (C × KVGenerator D × ℤ)) := do
  let generators ← partitions.mapM (batchGen batchSize)
  generators.zipIdx.mapM fun generator =>
    match clients[generator.2]? with
    | some client => .ok (client, generator.1)
    | none => .error .indexError

inductive MainTask where
  | loadDocumentsGenerators
  | loadSubDocumentsGenerators
  | durability
  deriving DecidableEq

namespace MainTask

/-- `gen_end`; `Durability.call` takes it to be at least 1. -/
def genEnd (generator : KVGenerator D) : MainTask → ℤ
  | .loadDocumentsGenerators => generator.stop
  | .loadSubDocumentsGenerators => generator.stop
  | .durability => max generator.stop 1

variable (task : MainTask) (processConcurrency : ℤ) (generator : KVGenerator D)

def partitions : List (KVGenerator D) :=
  generator.partitions processConcurrency (task.genEnd generator)

/-- `get_tasks`, and the first part of `Durability.call` -/
def getTasks (clients : List C) (batchSize : ℤ) : Except PyError (List (C × KVGenerator D × ℤ)) :=
  if processConcurrency = 0 then .error .zeroDivisionError
  else tasksOf clients batchSize (task.partitions processConcurrency generator)

end MainTask

/-- `async_load_gen_docs` with `active_resident_threshold` 100 -/
def asyncLoadGenDocs (ryow : Bool) (processConcurrency batchSize : ℤ) (newClient : ℕ → C)
    (generator : KVGenerator D) : Except PyError (List (C × KVGenerator D × ℤ)) :=
  let clients := generator.clients processConcurrency newClient
  if ryow then MainTask.durability.getTasks processConcurrency generator clients batchSize
  else MainTask.loadDocumentsGenerators.getTasks processConcurrency generator clients batchSize

def asyncLoadGenSubDocs (processConcurrency batchSize : ℤ) (newClient : ℕ → C)
    (generator : KVGenerator D) : Except PyError (List (C × KVGenerator D × ℤ)) :=
  MainTask.loadSubDocumentsGenerators.getTasks processConcurrency generator
    (generator.clients processConcurrency newClient) batchSize

namespace MainTask

/-- The call that makes the task and its clients -/
def load (processConcurrency batchSize : ℤ) (newClient : ℕ → C) (generator : KVGenerator D) :
    MainTask → Except PyError (List (C × KVGenerator D × ℤ))
  | .loadDocumentsGenerators => asyncLoadGenDocs false processConcurrency batchSize newClient generator
  | .loadSubDocumentsGenerators => asyncLoadGenSubDocs processConcurrency batchSize newClient generator
  | .durability => asyncLoadGenDocs true processConcurrency batchSize newClient generator

variable (task : MainTask) (processConcurrency : ℤ) (newClient : ℕ → C) (generator : KVGenerator D)

/-- There are as many partitions as clients, and none reaches outside the range of the generator. -/
structure Matches : Prop where
  count : (task.partitions processConcurrency generator).length =
    (generator.clients processConcurrency newClient).length
  indexed : ∀ batchSize, task.load processConcurrency batchSize newClient generator ≠ .error .indexError
  inside : ∀ partition ∈ task.partitions processConcurrency generator,
    Set.Ico partition.start partition.stop ⊆ Set.Ico generator.start generator.stop

/-- For `Durability`, a round that starts below 1 starts below the end of the generator. -/
def EndsInTime : Prop :=
  task = .durability → ∀ round : ℕ,
    generator.start + generator.genRange processConcurrency * round < 1 →
      generator.start + generator.genRange processConcurrency * round < generator.stop

end MainTask

/-! ## The rounds of a range -/

theorem lt_length_pyRange {start stop : ℤ} {step : ℕ} (positive : 0 < step) (round : ℕ) :
    round < (pyRange start stop step).length ↔ start + step * round < stop := by
  rw [pyRange, List.length_map, List.length_range, ← Nat.succ_le_iff, Nat.le_div_iff_mul_le positive,
    Nat.succ_mul, Nat.mul_comm]
  have cast : ((step * round : ℕ) : ℤ) = step * round := Nat.cast_mul step round
  omega

/-- Two ranges with the same start and step are the same if they have the same rounds. -/
theorem length_pyRange_eq_iff {start stop stop' : ℤ} {step : ℕ} (positive : 0 < step) :
    (pyRange start stop step).length = (pyRange start stop' step).length ↔
      ∀ round : ℕ, start + step * round < stop ↔ start + step * round < stop' := by
  simp only [← lt_length_pyRange positive]
  constructor
  · intro same round
    rw [same]
  · exact eq_of_forall_lt_iff

section

variable {task : MainTask} {processConcurrency batchSize : ℤ} {newClient : ℕ → C} {generator : KVGenerator D}

theorem genRange_pos : 0 < generator.genRange processConcurrency := by
  rw [KVGenerator.genRange]
  omega

theorem length_clients : (generator.clients processConcurrency newClient).length =
    (pyRange generator.start generator.stop (generator.genRange processConcurrency)).length := by
  simp [KVGenerator.clients]

/-- The partitions are as many as the clients exactly if the last round is the same for both. -/
theorem count_iff : (task.partitions processConcurrency generator).length =
    (generator.clients processConcurrency newClient).length ↔
      task.EndsInTime processConcurrency generator := by
  rw [MainTask.partitions, KVGenerator.partitions, List.length_map, length_clients,
    length_pyRange_eq_iff genRange_pos, MainTask.EndsInTime]
  cases task with
  | loadDocumentsGenerators => simp [MainTask.genEnd]
  | loadSubDocumentsGenerators => simp [MainTask.genEnd]
  | durability =>
    -- the partitions end at 1 where the generator ends before
    rw [MainTask.genEnd]
    constructor
    · intro same _ round below
      exact (same round).mp (lt_max_of_lt_right below)
    · intro early round
      constructor
      · intro before
        exact (lt_max_iff.mp before).elim id (early rfl round)
      · exact lt_max_of_lt_left

/-- No partition reaches outside, whatever its round is. -/
theorem partition_inside : ∀ partition ∈ task.partitions processConcurrency generator,
    Set.Ico partition.start partition.stop ⊆ Set.Ico generator.start generator.stop := by
  intro partition member
  obtain ⟨pos, listed, rfl⟩ := List.mem_map.mp member
  obtain ⟨round, _, rfl⟩ := List.mem_map.mp listed
  rw [KVGenerator.partitionGen]
  apply Set.Ico_subset_Ico
  · dsimp only
    omega
  · dsimp only
    split
    · exact le_rfl
    · omega

/-- With a client for each of the partitions no index is out of range. -/
theorem tasksOf_ne_indexError {clients : List C} {partitions : List (KVGenerator D)}
    (count : partitions.length = clients.length) :
    tasksOf clients batchSize partitions ≠ .error .indexError := by
  intro raised
  rw [tasksOf, bind_eq_error] at raised
  cases raised with
  | inl refused =>
    -- a batch size that is refused is a `ValueError`
    obtain ⟨partition, _, refused⟩ := mem_of_mapM_error refused
    rw [batchGen] at refused
    split at refused
    · cases refused
    · cases refused
  | inr missing =>
    obtain ⟨generators, made, missing⟩ := missing
    obtain ⟨generator, member, missing⟩ := mem_of_mapM_error missing
    have bound := List.snd_lt_of_mem_zipIdx member
    rw [Nat.add_zero, ← (forall₂_of_mapM_ok made).length_eq, count] at bound
    rw [List.getElem?_eq_getElem bound] at missing
    cases missing

theorem load_eq : task.load processConcurrency batchSize newClient generator =
    task.getTasks processConcurrency generator (generator.clients processConcurrency newClient) batchSize := by
  cases task with
  | loadDocumentsGenerators => rfl
  | loadSubDocumentsGenerators => rfl
  | durability => rfl

/-- A task finds a client for each of its partitions exactly if it is not a `Durability` with a round
    between the end of the generator and 1. -/
theorem matches_iff (task : MainTask) (processConcurrency : ℤ) (newClient : ℕ → C) (generator : KVGenerator D) :
    task.Matches processConcurrency newClient generator ↔ task.EndsInTime processConcurrency generator := by
  rw [← @count_iff _ _ _ _ newClient]
  constructor
  · intro matched
    exact matched.count
  · intro count
    refine ⟨count, fun batchSize => ?_, partition_inside⟩
    rw [load_eq, MainTask.getTasks]
    split
    · intro impossible
      cases impossible
    · exact tasksOf_ne_indexError count

end

/-! ## The tasks of a document generator -/

/-- The range of a document generator -/
def rangeOf {σ V : Type} (generator : DocGen.DocumentGeneratorState σ V) : KVGenerator Unit where
  start := generator.start
  itr := generator.itr
  stop := generator.stop
  data := ()

/-- The partitions of `LoadDocumentsGeneratorsTask` are those that its tasks go through in batches. -/
theorem loadGeneratorsGetTasks_ranges {σ V : Type} {processConcurrency batchSize : ℤ}
    {starts : ℤ → TaskStart σ V} {generator : DocGen.DocumentGeneratorState σ V}
    {tasks : List (DocGen.BatchedGenerator σ V)}
    (returned : loadGeneratorsGetTasks processConcurrency batchSize starts generator = .ok tasks) :
    tasks.map (fun task => rangeOf task.docGen) =
      MainTask.loadDocumentsGenerators.partitions processConcurrency (rangeOf generator) := by
  rw [loadGeneratorsGetTasks] at returned
  split at returned
  · cases returned
  · have made := forall₂_of_mapM_ok returned
    rw [MainTask.partitions, KVGenerator.partitions, ← List.forall₂_eq_eq_eq, List.forall₂_map_left_iff,
      List.forall₂_map_right_iff]
    refine List.Forall₂.flip (made.imp ?_)
    intro pos task built
    rw [DocGen.BatchedGenerator.new] at built
    split at built
    · cases built
      rfl
    · cases built

/-! An empty generator: there is no client for the one partition of `Durability`. -/

def noDocuments : KVGenerator Unit where
  start := 0
  itr := 0
  stop := 0
  data := ()

theorem noDocuments_partition_without_client :
    ¬ MainTask.durability.Matches 8 (fun _ => ()) noDocuments := by
  intro matched
  exact matched.indexed 1 rfl

end Taf.Tasks.GeneratorLoad
