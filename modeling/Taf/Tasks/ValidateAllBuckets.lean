import Taf.Bucket.Collection
import Taf.Tasks.PartitionClients

/-! # Validating the documents of all buckets

`_async_load_all_buckets` starts a load task for every bucket of a cluster, and `_async_validate_docs` a
task that reads the documents back.  A run of such a task is looked at as far as the reads that it sends:
what the servers answer, and what the task makes of the values, are parameters of a run. -/

namespace Taf.Tasks.ValidateAllBuckets

open Taf.Lib Taf.Bucket Taf.Tasks.GeneratorLoad

variable {B D : Type}

/-! ## What the calls are made with -/

/-- `SDKClient([cluster.master], bucket, scope, collection)` -/
structure Client (B : Type) where
  bucket : B
  scopeName : String
  collectionName : String

/-- A generator object.  The caller's has the number 0, and each deep copy one of its own. -/
structure GeneratorObject (D : Type) where
  number : ℕ
  generator : KVGenerator D

structure OpSettings where
  opType : DocOp
  exp : ℤ := 0
  timeout : ℤ := 5
  timeUnit : String := "seconds"
  ignoreExceptions : List String := []
  retryExceptions : List String := []
  replicateTo : ℤ := 0
  persistTo : ℤ := 0
  durability : String := ""

/-- The dictionary of an operation, without the parts that later calls fill -/
structure OpInfo (B : Type) extends OpSettings where
  opsFailed : Bool
  bucket : B
  scope : String
  collection : String

def getDocOpInfoDict (bucket : B) (settings : OpSettings) (scope collection : String) : OpInfo B :=
  { settings with opsFailed := false, bucket := bucket, scope := scope, collection := collection }

/-- The arguments of `_async_validate_docs` -/
structure ValidateArguments (B : Type) where
  settings : OpSettings
  batchSize : ℤ := 1
  processConcurrency : ℤ := 4
  checkReplica : Bool := false
  scope : String := "_default"
  collection : String := "_default"
  -- With `sdk_client_pool`: the client that `get_client_for_bucket` gives out for a batch, or `None`
  sdkClientPool : Option (B → String → String → List ℤ → Option (Client B)) := none

/-- The arguments of `_async_load_all_buckets` -/
structure LoadArguments where
  settings : OpSettings
  batchSize : ℤ := 1
  processConcurrency : ℤ := 8
  activeResidentThreshold : ℤ := 100
  ryow : Bool := false
  scope : String := "_default"
  collection : String := "_default"
  hasPool : Bool := false

/-! ## Loading all buckets -/

inductive LoadKind where
  | loadDocumentsGenerators
  | durability
  | loadDocumentsForDgm
  deriving DecidableEq

structure LoadTask (B D : Type) where
  kind : LoadKind
  bucket : B
  clients : List (Option (Client B))
  generator : GeneratorObject D
  batchSize : ℤ
  scope : String
  collection : String

/-- `ServerTasks.async_load_gen_docs` -/
def asyncLoadGenDocs (args : LoadArguments) (bucket : B) (generator : GeneratorObject D) :
    Except PyError (LoadTask B D) :=
  let client : Option (Client B) := if args.hasPool then none else some ⟨bucket, args.scope, args.collection⟩
  let task (kind : LoadKind) (clients : List (Option (Client B))) : LoadTask B D :=
    ⟨kind, bucket, clients, generator, args.batchSize, args.scope, args.collection⟩
  if args.activeResidentThreshold = 100 then
    if args.processConcurrency = 0 then .error .zeroDivisionError
    else
      let clients := generator.generator.clients args.processConcurrency fun _ => client
      .ok (task (if args.ryow then .durability else .loadDocumentsGenerators) clients)
  else .ok (task .loadDocumentsForDgm (List.replicate args.processConcurrency.toNat client))

/-- `_async_load_all_buckets` -/
def asyncLoadAllBuckets (args : LoadArguments) (kvGen : KVGenerator D) (buckets : List B) :
    Except PyError (List (LoadTask B D × OpInfo B)) :=
  buckets.mapM fun bucket => do
    let task ← asyncLoadGenDocs args bucket ⟨0, kvGen⟩
    return (task, getDocOpInfoDict bucket args.settings args.scope args.collection)

/-! ## Validating all buckets -/

structure DocumentsValidatorTask (B D : Type) where
  bucket : B
  clients : List (Option (Client B))
  generator : GeneratorObject D
  batchSize : ℤ
  processConcurrency : ℤ
  checkReplica : Bool
  scope : String
  collection : String
  sdkClientPool : Option (B → String → String → List ℤ → Option (Client B))

/-- The client that a partition is given -/
def ownClient (args : ValidateArguments B) (bucket : B) : Option (Client B) :=
  if args.sdkClientPool.isSome then none else some ⟨bucket, args.scope, args.collection⟩

/-- The task that `ServerTasks.async_validate_docs` makes -/
def validatorTask (args : ValidateArguments B) (bucket : B) (generator : GeneratorObject D) :
    DocumentsValidatorTask B D where
  bucket := bucket
  clients := generator.generator.clients args.processConcurrency fun _ => ownClient args bucket
  generator := generator
  batchSize := args.batchSize
  processConcurrency := args.processConcurrency
  checkReplica := args.checkReplica
  scope := args.scope
  collection := args.collection
  sdkClientPool := args.sdkClientPool

def asyncValidateDocs (args : ValidateArguments B) (bucket : B) (generator : GeneratorObject D) :
    Except PyError (DocumentsValidatorTask B D) :=
  if args.processConcurrency = 0 then .error .zeroDivisionError
  else .ok (validatorTask args bucket generator)

/-- The loop of `_async_validate_docs` over the buckets that are left; `none` is `None`. -/
def validateLoop (args : ValidateArguments B) (kvGen : KVGenerator D) (copies : ℕ)
    (taskInfo : List (DocumentsValidatorTask B D × OpInfo B)) :
    List B → Except PyError (Option (List (DocumentsValidatorTask B D × OpInfo B)))
  | [] => .ok none
  | bucket :: _ => do
    let task ← asyncValidateDocs args bucket ⟨copies + 1, kvGen⟩
    let info := getDocOpInfoDict bucket args.settings args.scope args.collection
    -- `return task_info` stands in the body of the loop.
    return some (taskInfo ++ [(task, info)])

/-- `_async_validate_docs` -/
def asyncValidateAllDocs (args : ValidateArguments B) (kvGen : KVGenerator D) (buckets : List B) :
    Except PyError (Option (List (DocumentsValidatorTask B D × OpInfo B))) :=
  validateLoop args kvGen 0 [] buckets

/-! ## A run of a validation -/

/-- What the servers answer, and the order of a dictionary's keys -/
structure Server (B : Type) where
  interp : Interpreter
  order : List String → List String
  order_perm : ∀ keys, (order keys).Perm keys.dedup
  -- What `get_from_all_replicas` of a key raises
  raises : Client B → List ℤ → String → Option Raised
  -- `batch_read` and `validate_key_val` of a batch leave no exception.
  passes : List ℤ → Bool

structure Reading (B : Type) where
  reads : List (Client B × String) := []
  -- `self.exception` is set.
  exception : Bool := false

/-- The reads with `check_replica`, one key after the other -/
def readReplicas (raises : String → Option Raised) : List String → List String × Option Raised
  | [] => ([], none)
  | key :: keys =>
    match raises key with
    | some raised => ([key], some raised)
    | none => (key :: (readReplicas raises keys).1, (readReplicas raises keys).2)

/-- The indices of a generator from `start` on -/
def indices (generator : KVGenerator D) : List ℤ :=
  (List.range (generator.stop - generator.start).toNat).map fun offset : ℕ => generator.start + offset

def batches (generator : KVGenerator D) (batchSize : ℤ) : List (List ℤ) :=
  batchesOf batchSize.toNat (indices generator).length (indices generator)

section

variable (keyAt : D → ℤ → String) (server : Server B)

/-- The keys of a generator -/
def keys (generator : KVGenerator D) : List String := (indices generator).map (keyAt generator.data)

namespace DocumentsValidatorTask

variable (task : DocumentsValidatorTask B D)

/-- `DocumentsValidatorTask.get_tasks` -/
def getTasks : Except PyError (List (Option (Client B) × KVGenerator D × ℤ)) :=
  let generator := task.generator.generator
  tasksOf task.clients task.batchSize (generator.partitions task.processConcurrency generator.stop)

/-- The client of a batch: with a pool the one of the partition is not used. -/
def clientFor (client : Option (Client B)) (batch : List ℤ) : Option (Client B) :=
  match task.sdkClientPool with
  | some getClientForBucket => getClientForBucket task.bucket task.scope task.collection batch
  | none => client

/-- The keys that are tried, and the exception that ends the loop over them; `None` has no attribute
`get_from_all_replicas`. -/
def tried (client : Option (Client B)) (batch : List ℤ) (keys : List String) : List String × Option Raised :=
  let raises := fun key =>
    match client with
    | none => some .exception
    | some client => server.raises client batch key
  readReplicas raises keys

def readsOf (client : Option (Client B)) (keys : List String) : List (Client B × String) :=
  client.toList.flatMap fun client => keys.map (client, ·)

/-- The end of `__validate_docs` -/
def conclude (state : Reading B) (batch : List ℤ) : Except Raised (Reading B) :=
  let exception := state.exception || !server.passes batch
  if exception then .error .exception else .ok { state with exception := exception }

/-- `ValidateDocumentsTask.__validate_docs` with the client of its partition -/
def validateDocs (own : Option (Client B)) (state : Reading B) (batch : List ℤ) : Except Raised (Reading B) :=
  let client := task.clientFor own batch
  let keyValue := server.order (batch.map (keyAt task.generator.generator.data))
  if task.checkReplica then
    let read := tried server client batch keyValue
    let state := { state with reads := state.reads ++ readsOf client read.1 }
    match read.2 with
    | some raised =>
      -- The exception is kept, and the method returns.
      if server.interp.exceptException raised then .ok { state with exception := true } else .error raised
    | none => conclude server state batch
  else if client.isNone then .error .exception
  else conclude server { state with reads := state.reads ++ readsOf client keyValue } batch

/-- The run of the task of one partition -/
def validatePartition (part : Option (Client B) × KVGenerator D × ℤ) : Except Raised (Reading B) :=
  GenericLoadingTask.call (task.validateDocs keyAt server part.1) [batches part.2.1 part.2.2] {}

/-- `DocumentsValidatorTask.call`: an exception of a partition comes out of `get_task_result`, and what
`except Exception` catches is raised again by `set_exception`. -/
def call : Except Raised (List (Reading B)) :=
  match task.getTasks with
  | .error _ => .error .exception
  | .ok tasks =>
    match tasks.mapM (task.validatePartition keyAt server) with
    | .error _ => .error (if server.interp.exceptException .java then .base else .java)
    | .ok readings => .ok readings

/-- The task ends without an exception, and a read of the key has been sent by a client. -/
def HasRead (client : Client B) (key : String) : Prop :=
  ∃ readings, task.call keyAt server = .ok readings ∧ ∃ reading ∈ readings, (client, key) ∈ reading.reads

end DocumentsValidatorTask

end

/-! ## The promise -/

section

variable (keyAt : D → ℤ → String) (args : ValidateArguments B) (generator : KVGenerator D)

/-- The tasks of the dictionary cover the buckets. -/
structure Validates (buckets : List B) (dictionary : List (DocumentsValidatorTask B D × OpInfo B)) : Prop where
  onePerBucket : dictionary.map (fun entry => entry.1.bucket) = buckets
  whole : ∀ entry ∈ dictionary, entry.1.generator.generator = generator
  ownCopy : (dictionary.map fun entry => entry.1.generator.number).Nodup ∧
    ∀ entry ∈ dictionary, entry.1.generator.number ≠ 0
  named : ∀ entry ∈ dictionary, entry.2 = getDocOpInfoDict entry.1.bucket args.settings args.scope args.collection
  read : ∀ server, (∀ entry ∈ dictionary, ∃ readings, entry.1.call keyAt server = .ok readings) →
    ∀ bucket ∈ buckets, ∀ key ∈ keys keyAt generator,
      ∃ entry ∈ dictionary, entry.1.HasRead keyAt server ⟨bucket, args.scope, args.collection⟩ key
  -- What has been loaded is validated.
  loaded : ∀ loadArgs loads, asyncLoadAllBuckets loadArgs generator buckets = .ok loads →
    loads.map (fun load => (load.1.bucket, load.1.generator.generator)) =
      dictionary.map fun entry => (entry.1.bucket, entry.1.generator.generator)

def ValidatesAll (buckets : List B) : Prop :=
  ∃ dictionary, asyncValidateAllDocs args generator buckets = .ok (some dictionary) ∧
    Validates keyAt args generator buckets dictionary

/-! ## What a single task reads -/

/-- The batches of all partitions -/
def cutBatches : List (List ℤ) :=
  (generator.partitions args.processConcurrency generator.stop).flatMap fun part => batches part args.batchSize

def batchClient (bucket : B) (batch : List ℤ) : Option (Client B) :=
  match args.sdkClientPool with
  | some getClientForBucket => getClientForBucket bucket args.scope args.collection batch
  | none => some ⟨bucket, args.scope, args.collection⟩

/-- The task of a bucket fails in any case, since batches are refused or some batch has no client, or each key is
in a batch that is read where it should be, and with `check_replica` it is the only key there. -/
def ReadsAll (bucket : B) : Prop :=
  0 < args.batchSize →
    (args.checkReplica = false ∧ ∃ batch ∈ cutBatches args generator, batchClient args bucket batch = none) ∨
      ∀ key ∈ keys keyAt generator, ∃ batch ∈ cutBatches args generator,
        batchClient args bucket batch = some ⟨bucket, args.scope, args.collection⟩ ∧
          key ∈ batch.map (keyAt generator.data) ∧
            (args.checkReplica = true → ∀ index ∈ batch, keyAt generator.data index = key)

end

/-! ## The batches of a range -/

section

variable {processConcurrency batchSize : ℤ} {generator : KVGenerator D} {index : ℤ}

theorem mem_indices : index ∈ indices generator ↔ generator.start ≤ index ∧ index < generator.stop := by
  rw [indices, List.mem_map]
  constructor
  · intro found
    obtain ⟨offset, member, rfl⟩ := found
    have below := List.mem_range.mp member
    omega
  · intro inside
    exact ⟨(index - generator.start).toNat, List.mem_range.mpr (by omega), by omega⟩

/-- Each index is in one of the partitions. -/
theorem exists_partition (inside : index ∈ indices generator) :
    ∃ part ∈ generator.partitions processConcurrency generator.stop, index ∈ indices part := by
  obtain ⟨low, high⟩ := mem_indices.mp inside
  obtain ⟨offset, rfl⟩ : ∃ offset : ℕ, index = generator.start + offset := ⟨(index - generator.start).toNat, by omega⟩
  have positive := @genRange_pos _ processConcurrency generator
  -- The round of the partition that the index falls into
  have lower := Nat.mul_div_le offset (generator.genRange processConcurrency)
  have upper := Nat.lt_mul_div_succ offset positive
  generalize offset / generator.genRange processConcurrency = round at lower upper
  rw [Nat.mul_add, Nat.mul_one] at upper
  have cast : ((generator.genRange processConcurrency * round : ℕ) : ℤ) =
      generator.genRange processConcurrency * round := Nat.cast_mul _ _
  have listed := (@lt_length_pyRange generator.start generator.stop _ positive round).mpr (by omega)
  refine ⟨_, List.mem_map_of_mem (List.getElem_mem listed), ?_⟩
  rw [mem_indices, KVGenerator.partitionGen]
  simp only [pyRange, List.getElem_map, List.getElem_range]
  constructor
  · omega
  · split_ifs <;> omega

theorem exists_batch (positive : 0 < batchSize) (inside : index ∈ indices generator) :
    ∃ batch ∈ batches generator batchSize, index ∈ batch := by
  have flatten := batchesOf_flatten (by omega : 0 < batchSize.toNat) _ (indices generator) le_rfl
  rw [← flatten] at inside
  exact List.mem_flatten.mp inside

/-- Each partition has the one client that there is. -/
theorem tasksOf_clients {C : Type} (positive : 0 < batchSize) (client : C) :
    tasksOf (generator.clients processConcurrency fun _ => client) batchSize
      (generator.partitions processConcurrency generator.stop) =
        .ok ((generator.partitions processConcurrency generator.stop).map fun part => (client, part, batchSize)) := by
  let partitions := generator.partitions processConcurrency generator.stop
  have generators : partitions.mapM (batchGen batchSize) = .ok (partitions.map fun part => (part, batchSize)) :=
    mapM_eq_ok_map fun part _ => if_neg (by omega)
  have count : partitions.length = (generator.clients processConcurrency fun _ => client).length := by
    rw [length_clients]
    exact List.length_map _
  rw [tasksOf, generators]
  refine (mapM_eq_ok_map (g := fun generator => (client, generator.1)) ?_).trans ?_
  · intro generator member
    have bound := List.snd_lt_of_mem_zipIdx member
    rw [Nat.add_zero, List.length_map, count] at bound
    rw [List.getElem?_eq_getElem bound]
    simp [KVGenerator.clients]
  · rw [← Function.comp_def (fun part => (client, part)) Prod.fst, ← List.map_map, List.zipIdx_map_fst, List.map_map]
    rfl

/-- A batch size that is refused leaves no task, unless there is nothing to read. -/
theorem tasksOf_refused {C : Type} {clients : List C} {tasks : List (C × KVGenerator D × ℤ)}
    {partitions : List (KVGenerator D)} (refused : batchSize ≤ 0)
    (made : tasksOf clients batchSize partitions = .ok tasks) : partitions = [] := by
  rw [tasksOf, bind_eq_ok] at made
  obtain ⟨generators, made, -⟩ := made
  cases partitions with
  | nil => rfl
  | cons part rest =>
    obtain _ | ⟨built, -⟩ := forall₂_of_mapM_ok made
    rw [batchGen, if_pos refused] at built
    cases built

end

/-! ## The reads of a run -/

section

variable {keyAt : D → ℤ → String} {server : Server B} {task : DocumentsValidatorTask B D}
  {own : Option (Client B)} {state next : Reading B} {batch : List ℤ}

namespace DocumentsValidatorTask

/-- The reads that a batch sends -/
def batchReads (keyAt : D → ℤ → String) (server : Server B) (task : DocumentsValidatorTask B D)
    (own : Option (Client B)) (batch : List ℤ) : List (Client B × String) :=
  let client := task.clientFor own batch
  let keyValue := server.order (batch.map (keyAt task.generator.generator.data))
  readsOf client (if task.checkReplica then (tried server client batch keyValue).1 else keyValue)

theorem conclude_eq_ok : conclude server state batch = .ok next ↔
    state.exception = false ∧ server.passes batch = true ∧ next = state := by
  obtain ⟨reads, exception⟩ := state
  rw [conclude]
  cases exception <;> cases server.passes batch <;> simp [eq_comm]

/-- A batch that does not raise has sent its reads, and has had a client for them. -/
theorem validateDocs_ok (returned : task.validateDocs keyAt server own state batch = .ok next) :
    next.reads = state.reads ++ task.batchReads keyAt server own batch ∧
      (task.checkReplica = false → (task.clientFor own batch).isSome) := by
  rw [validateDocs] at returned
  rw [batchReads]
  cases replica : task.checkReplica with
  | true =>
    simp only [replica, if_true] at returned ⊢
    split at returned
    · split at returned
      · cases returned
        exact ⟨rfl, nofun⟩
      · cases returned
    · rw [(conclude_eq_ok.mp returned).2.2]
      exact ⟨rfl, nofun⟩
  | false =>
    simp only [replica, Bool.false_eq_true, if_false] at returned ⊢
    split at returned
    · cases returned
    · rename_i someClient
      rw [(conclude_eq_ok.mp returned).2.2]
      refine ⟨rfl, fun _ => ?_⟩
      simpa [Option.isSome_iff_ne_none] using someClient

theorem validatePartition_ok {part : Option (Client B) × KVGenerator D × ℤ} {reading : Reading B}
    (returned : task.validatePartition keyAt server part = .ok reading) :
    reading.reads = (batches part.2.1 part.2.2).flatMap (task.batchReads keyAt server part.1) ∧
      (task.checkReplica = false → ∀ batch ∈ batches part.2.1 part.2.2, (task.clientFor part.1 batch).isSome) := by
  rw [validatePartition, GenericLoadingTask.call_eq_foldlM, List.flatten_singleton] at returned
  constructor
  · refine foldlM_ok_behind (R := fun behind state =>
      state.reads = behind.flatMap (task.batchReads keyAt server part.1)) returned rfl ?_
    intro behind state batch next stepped reached
    rw [(validateDocs_ok stepped).1, reached, List.flatMap_append, List.flatMap_singleton]
  · intro plain
    exact forall_of_foldlM_ok returned fun state batch next stepped => (validateDocs_ok stepped).2 plain

theorem call_eq_ok {readings : List (Reading B)} : task.call keyAt server = .ok readings ↔
    ∃ tasks, task.getTasks = .ok tasks ∧ tasks.mapM (task.validatePartition keyAt server) = .ok readings := by
  rw [call]
  cases task.getTasks with
  | error e => simp
  | ok tasks =>
    cases found : tasks.mapM (task.validatePartition keyAt server) with
    | error e => simp [found]
    | ok readings => simp [found]

end DocumentsValidatorTask

end

/-! ## The task of one bucket -/

section

variable {keyAt : D → ℤ → String} {server : Server B} {args : ValidateArguments B} {generator : KVGenerator D}
  {bucket : B} {number : ℕ} {client : Client B} {key : String} {batch : List ℤ}

theorem clientFor_eq : (validatorTask args bucket ⟨number, generator⟩).clientFor (ownClient args bucket) batch =
    batchClient args bucket batch := by
  obtain ⟨_, _, _, _, _, _, pool⟩ := args
  cases pool <;> rfl

theorem getTasks_eq (positive : 0 < args.batchSize) : (validatorTask args bucket ⟨number, generator⟩).getTasks =
    .ok ((generator.partitions args.processConcurrency generator.stop).map fun part =>
      (ownClient args bucket, part, args.batchSize)) :=
  tasksOf_clients positive _

theorem mem_order {keys : List String} : key ∈ server.order keys ↔ key ∈ keys :=
  (server.order_perm keys).mem_iff.trans List.mem_dedup

theorem mem_readsOf {own : Option (Client B)} {keys : List String} :
    (client, key) ∈ DocumentsValidatorTask.readsOf own keys ↔ own = some client ∧ key ∈ keys := by
  cases own with
  | none => simp [DocumentsValidatorTask.readsOf]
  | some own => simp [DocumentsValidatorTask.readsOf, and_comm, eq_comm]

theorem mem_batchReads_iff : (client, key) ∈ (validatorTask args bucket ⟨number, generator⟩).batchReads keyAt server
      (ownClient args bucket) batch ↔ batchClient args bucket batch = some client ∧
    key ∈ if args.checkReplica then (DocumentsValidatorTask.tried server (batchClient args bucket batch) batch
        (server.order (batch.map (keyAt generator.data)))).1
      else server.order (batch.map (keyAt generator.data)) := by
  rw [DocumentsValidatorTask.batchReads, clientFor_eq, mem_readsOf]
  rfl

/-- What a run that ends without an exception has read is what its batches have sent. -/
theorem exists_read_iff (positive : 0 < args.batchSize) {readings : List (Reading B)}
    (returned : (validatorTask args bucket ⟨number, generator⟩).call keyAt server = .ok readings) :
    (∃ reading ∈ readings, (client, key) ∈ reading.reads) ↔ ∃ batch ∈ cutBatches args generator,
      (client, key) ∈ (validatorTask args bucket ⟨number, generator⟩).batchReads keyAt server (ownClient args bucket)
        batch := by
  obtain ⟨tasks, made, returned⟩ := DocumentsValidatorTask.call_eq_ok.mp returned
  rw [getTasks_eq positive] at made
  cases made
  constructor
  · intro found
    obtain ⟨reading, member, read⟩ := found
    obtain ⟨task, given, ran⟩ := mem_of_mapM_ok returned member
    obtain ⟨part, listed, rfl⟩ := List.mem_map.mp given
    rw [(DocumentsValidatorTask.validatePartition_ok ran).1, List.mem_flatMap] at read
    obtain ⟨batch, inside, read⟩ := read
    exact ⟨batch, List.mem_flatMap.mpr ⟨part, listed, inside⟩, read⟩
  · intro found
    obtain ⟨batch, member, read⟩ := found
    obtain ⟨part, listed, inside⟩ := List.mem_flatMap.mp member
    obtain ⟨reading, member, ran⟩ := exists_of_forall₂_mem (forall₂_of_mapM_ok returned)
      (List.mem_map_of_mem (f := fun part => (ownClient args bucket, part, args.batchSize)) listed)
    refine ⟨reading, member, ?_⟩
    rw [(DocumentsValidatorTask.validatePartition_ok ran).1]
    exact List.mem_flatMap.mpr ⟨batch, inside, read⟩

/-- The first key that is tried is among those read. -/
theorem head_mem_readReplicas (raises : String → Option Raised) (keys : List String) :
    key ∈ (readReplicas raises (key :: keys)).1 := by
  rw [readReplicas]
  cases raises key <;> simp

/-- A task that ends without an exception has read what `ReadsAll` says. -/
theorem hasRead_of_readsAll (reads : ReadsAll keyAt args generator bucket) {readings : List (Reading B)}
    (returned : (validatorTask args bucket ⟨number, generator⟩).call keyAt server = .ok readings)
    (generated : key ∈ keys keyAt generator) :
    (validatorTask args bucket ⟨number, generator⟩).HasRead keyAt server ⟨bucket, args.scope, args.collection⟩ key := by
  refine ⟨readings, returned, ?_⟩
  obtain ⟨index, inside, _⟩ := List.mem_map.mp generated
  have positive : 0 < args.batchSize := by
    by_contra refused
    obtain ⟨tasks, made, _⟩ := DocumentsValidatorTask.call_eq_ok.mp returned
    obtain ⟨part, listed, _⟩ := @exists_partition _ args.processConcurrency _ _ inside
    have none : generator.partitions args.processConcurrency generator.stop = [] :=
      tasksOf_refused (le_of_not_gt refused) made
    rw [none] at listed
    cases listed
  obtain missing | reads := reads positive
  · -- Without a client the batch has raised.
    obtain ⟨plain, batch, member, none⟩ := missing
    obtain ⟨part, listed, inside⟩ := List.mem_flatMap.mp member
    obtain ⟨tasks, made, returned⟩ := DocumentsValidatorTask.call_eq_ok.mp returned
    rw [getTasks_eq positive] at made
    cases made
    obtain ⟨reading, _, ran⟩ := exists_of_forall₂_mem (forall₂_of_mapM_ok returned)
      (List.mem_map_of_mem (f := fun part => (ownClient args bucket, part, args.batchSize)) listed)
    have given := (DocumentsValidatorTask.validatePartition_ok ran).2 plain batch inside
    rw [clientFor_eq, none] at given
    cases given
  · obtain ⟨batch, member, given, found, alone⟩ := reads key generated
    refine (exists_read_iff positive returned).mpr ⟨batch, member, ?_⟩
    refine mem_batchReads_iff.mpr ⟨given, ?_⟩
    have ordered := (@mem_order _ server _ _).mpr found
    split_ifs with replica
    · -- The only key of the batch is tried first.
      cases order : server.order (batch.map (keyAt generator.data)) with
      | nil =>
        rw [order] at ordered
        cases ordered
      | cons first others =>
        have firstFound : first ∈ batch.map (keyAt generator.data) := by
          rw [← @mem_order _ server, order]
          exact List.mem_cons_self
        obtain ⟨index, listed, rfl⟩ := List.mem_map.mp firstFound
        rw [alone replica index listed]
        exact head_mem_readReplicas _ others
    · exact ordered

/-! ## Answers that show what is missing -/

/-- The key `last` is asked for behind all others, and no copy of a key can be read. -/
def stubbornServer (B : Type) (last : String) : Server B where
  interp := ⟨false⟩
  order keys := keys.dedup.filter (· ≠ last) ++ keys.dedup.filter (· = last)
  order_perm keys := by
    refine List.perm_append_comm.trans ?_
    simpa using List.filter_append_perm (fun key => decide (key = last)) keys.dedup
  raises _ _ _ := some .exception
  passes _ := true

theorem tried_stubborn {last : String} {own : Option (Client B)} (first : String) (others : List String) :
    DocumentsValidatorTask.tried (stubbornServer B last) own batch (first :: others) = ([first], some .exception) := by
  cases own <;> rfl

/-- Where `last` comes first there is no other key. -/
theorem eq_of_stubborn_order {last : String} {keys others : List String}
    (order : (stubbornServer B last).order keys = last :: others) (member : key ∈ keys) : key = last := by
  by_contra other
  have kept : key ∈ keys.dedup.filter (· ≠ last) := by simp [member, other]
  cases front : keys.dedup.filter (· ≠ last) with
  | nil =>
    rw [front] at kept
    cases kept
  | cons first rest =>
    have differs : first ∈ keys.dedup.filter (· ≠ last) := by
      rw [front]
      exact List.mem_cons_self
    change keys.dedup.filter (· ≠ last) ++ _ = _ at order
    rw [front, List.cons_append] at order
    simp [(List.cons.inj order).1] at differs

theorem mem_tried_stubborn {own : Option (Client B)} {keys : List String} (read : key ∈
      (DocumentsValidatorTask.tried (stubbornServer B key) own batch ((stubbornServer B key).order keys)).1) :
    key ∈ keys ∧ ∀ other ∈ keys, other = key := by
  cases order : (stubbornServer B key).order keys with
  | nil =>
    rw [order] at read
    cases read
  | cons first others =>
    rw [order, tried_stubborn, List.mem_singleton] at read
    rw [← read] at order
    have found : key ∈ (stubbornServer B key).order keys := by
      rw [order]
      exact List.mem_cons_self
    exact ⟨mem_order.mp found, fun other member => eq_of_stubborn_order order member⟩

variable {task : DocumentsValidatorTask B D} {own : Option (Client B)} {last : String}

/-- No batch raises that has a client, or with `check_replica`. -/
theorem stubborn_validateDocs (nonempty : batch ≠ [])
    (given : task.checkReplica = false → (task.clientFor own batch).isSome) (state : Reading B)
    (clean : task.checkReplica = false → state.exception = false) :
    ∃ next, task.validateDocs keyAt (stubbornServer B last) own state batch = .ok next ∧
      (task.checkReplica = false → next.exception = false) := by
  rw [DocumentsValidatorTask.validateDocs]
  cases replica : task.checkReplica with
  | true =>
    cases order : (stubbornServer B last).order (batch.map (keyAt task.generator.generator.data)) with
    | nil =>
      obtain ⟨index, member⟩ := List.exists_mem_of_ne_nil batch nonempty
      have found := (@mem_order _ (stubbornServer B last) _ _).mpr
        (List.mem_map_of_mem (f := keyAt task.generator.generator.data) member)
      rw [order] at found
      cases found
    | cons first others =>
      simp only [if_true, tried_stubborn]
      exact ⟨_, rfl, nofun⟩
  | false =>
    have some := given replica
    simp only [Bool.false_eq_true, if_false, Option.isNone_eq_false_iff.mpr some]
    exact ⟨_, DocumentsValidatorTask.conclude_eq_ok.mpr ⟨clean replica, rfl, rfl⟩, fun _ => clean replica⟩

theorem stubborn_foldlM {left : List (List ℤ)} (nonempty : ∀ batch ∈ left, batch ≠ [])
    (given : task.checkReplica = false → ∀ batch ∈ left, (task.clientFor own batch).isSome) :
    ∃ reading, left.foldlM (task.validateDocs keyAt (stubbornServer B last) own) {} = .ok reading := by
  let Clean (state : Reading B) : Prop := task.checkReplica = false → state.exception = false
  refine foldlM_returns_keeping Clean ?_ fun _ => rfl
  intro state batch member clean
  exact stubborn_validateDocs (nonempty batch member) (fun plain => given plain batch member) state clean

/-- The task of a bucket ends without an exception there, unless it lacks a client. -/
theorem stubborn_call (positive : 0 < args.batchSize) (given : args.checkReplica = false →
      ∀ batch ∈ cutBatches args generator, batchClient args bucket batch ≠ none) :
    ∃ readings, (validatorTask args bucket ⟨number, generator⟩).call keyAt (stubbornServer B last) = .ok readings := by
  simp only [DocumentsValidatorTask.call_eq_ok, getTasks_eq positive, Except.ok.injEq, exists_eq_left']
  cases ran : ((generator.partitions args.processConcurrency generator.stop).map fun part =>
    (ownClient args bucket, part, args.batchSize)).mapM
      ((validatorTask args bucket ⟨number, generator⟩).validatePartition keyAt (stubbornServer B last)) with
  | ok readings => exact ⟨readings, rfl⟩
  | error e =>
    obtain ⟨task, made, raised⟩ := mem_of_mapM_error ran
    obtain ⟨part, listed, rfl⟩ := List.mem_map.mp made
    rw [DocumentsValidatorTask.validatePartition, GenericLoadingTask.call_eq_foldlM, List.flatten_singleton] at raised
    obtain ⟨reading, returned⟩ := @stubborn_foldlM _ _ keyAt (validatorTask args bucket ⟨number, generator⟩)
      (ownClient args bucket) last (batches part args.batchSize)
      (fun batch => ne_nil_of_mem_batchesOf (by omega) _ _)
      (fun plain batch inside => by
        rw [clientFor_eq, Option.isSome_iff_ne_none]
        exact given plain batch (List.mem_flatMap.mpr ⟨part, listed, inside⟩))
    rw [returned] at raised
    cases raised

/-- A task that reads all keys, whatever the servers answer, is one of those that `ReadsAll` describes. -/
theorem readsAll_of_hasRead (reads : ∀ server,
      (∃ readings, (validatorTask args bucket ⟨number, generator⟩).call keyAt server = .ok readings) →
        ∀ key ∈ keys keyAt generator, (validatorTask args bucket ⟨number, generator⟩).HasRead keyAt server
          ⟨bucket, args.scope, args.collection⟩ key) : ReadsAll keyAt args generator bucket := by
  intro positive
  by_cases missing : args.checkReplica = false ∧
      ∃ batch ∈ cutBatches args generator, batchClient args bucket batch = none
  · exact .inl missing
  · refine .inr fun key generated => ?_
    have given : args.checkReplica = false →
        ∀ batch ∈ cutBatches args generator, batchClient args bucket batch ≠ none :=
      fun plain batch member none => missing ⟨plain, batch, member, none⟩
    obtain ⟨readings, returned, read⟩ := reads (stubbornServer B key) (stubborn_call positive given) key generated
    obtain ⟨batch, member, read⟩ := (exists_read_iff positive returned).mp read
    obtain ⟨client, read⟩ := mem_batchReads_iff.mp read
    refine ⟨batch, member, client, ?_⟩
    split_ifs at read with replica
    · obtain ⟨found, alone⟩ := mem_tried_stubborn read
      exact ⟨found, fun _ index inside => alone _ (List.mem_map_of_mem inside)⟩
    · exact ⟨mem_order.mp read, fun replicas => absurd replicas replica⟩

end

/-! ## The tasks of all buckets -/

section

variable {args : ValidateArguments B} {generator : KVGenerator D} {buckets : List B}

/-- Only the first bucket gets a task. -/
theorem asyncValidateAllDocs_eq_ok {dictionary : List (DocumentsValidatorTask B D × OpInfo B)} :
    asyncValidateAllDocs args generator buckets = .ok (some dictionary) ↔
      args.processConcurrency ≠ 0 ∧ ∃ bucket others, buckets = bucket :: others ∧
        dictionary = [(validatorTask args bucket ⟨1, generator⟩,
          getDocOpInfoDict bucket args.settings args.scope args.collection)] := by
  rw [asyncValidateAllDocs]
  cases buckets with
  | nil => simp [validateLoop]
  | cons bucket others =>
    rw [validateLoop, asyncValidateDocs]
    by_cases zero : args.processConcurrency = 0
    · simp [zero, bind, Except.bind]
    · simp [zero, bind, Except.bind, pure, Except.pure, eq_comm]

/-- Every bucket is loaded from the generator of the caller. -/
theorem asyncLoadAllBuckets_ok {loadArgs : LoadArguments} {loads : List (LoadTask B D × OpInfo B)}
    (returned : asyncLoadAllBuckets loadArgs generator buckets = .ok loads) :
    loads.map (fun load => (load.1.bucket, load.1.generator.generator)) =
      buckets.map fun bucket => (bucket, generator) := by
  rw [← List.forall₂_eq_eq_eq, List.forall₂_map_left_iff, List.forall₂_map_right_iff]
  refine (forall₂_of_mapM_ok returned).flip.imp ?_
  intro load bucket made
  obtain ⟨task, started, made⟩ := bind_eq_ok.mp made
  cases made
  rw [asyncLoadGenDocs] at started
  dsimp only at started
  split at started
  · split at started
    · cases started
    · cases started
      rfl
  · cases started
    rfl

/-- Without a pool and with one read for each key, each key is read where it should be. -/
theorem readsAll_of_plain {keyAt : D → ℤ → String} (noPool : args.sdkClientPool = none)
    (plain : args.checkReplica = false) (bucket : B) : ReadsAll keyAt args generator bucket := by
  refine fun positive => .inr fun key generated => ?_
  obtain ⟨index, inside, rfl⟩ := List.mem_map.mp generated
  obtain ⟨part, listed, inside⟩ := @exists_partition _ args.processConcurrency _ _ inside
  obtain ⟨batch, cut, inside⟩ := exists_batch positive inside
  refine ⟨batch, List.mem_flatMap.mpr ⟨part, listed, cut⟩, ?_, List.mem_map_of_mem inside, ?_⟩
  · rw [batchClient, noPool]
  · rw [plain]
    exact nofun

end

/-- All buckets are validated exactly if there is one bucket, whose task reads all keys. -/
theorem validatesAll_iff (keyAt : D → ℤ → String) (args : ValidateArguments B) (generator : KVGenerator D)
    (buckets : List B) : ValidatesAll keyAt args generator buckets ↔
      ∃ bucket, buckets = [bucket] ∧ args.processConcurrency ≠ 0 ∧ ReadsAll keyAt args generator bucket := by
  constructor
  · intro validates
    obtain ⟨dictionary, returned, validates⟩ := validates
    obtain ⟨concurrency, bucket, others, rfl, rfl⟩ := asyncValidateAllDocs_eq_ok.mp returned
    have alone : [bucket] = bucket :: others := validates.onePerBucket
    refine ⟨bucket, alone.symm, concurrency, @readsAll_of_hasRead _ _ keyAt args generator bucket 1 ?_⟩
    intro server ended key generated
    obtain ⟨entry, member, read⟩ := validates.read server (by simpa using ended) bucket List.mem_cons_self key generated
    rw [List.mem_singleton] at member
    subst member
    exact read
  · intro fits
    obtain ⟨bucket, rfl, concurrency, reads⟩ := fits
    refine ⟨_, asyncValidateAllDocs_eq_ok.mpr ⟨concurrency, bucket, [], rfl, rfl⟩, ?_⟩
    exact {
      onePerBucket := rfl
      whole := by simp [validatorTask]
      ownCopy := by simp [validatorTask]
      named := by simp [validatorTask]
      read := by
        intro server ended other member key generated
        obtain ⟨readings, returned⟩ := ended _ List.mem_cons_self
        rw [List.mem_singleton] at member
        subst member
        exact ⟨_, List.mem_cons_self, hasRead_of_readsAll reads returned generated⟩
      loaded := by
        intro loadArgs loads returned
        rw [asyncLoadAllBuckets_ok returned]
        rfl }

/-- The second of two buckets gets no task. -/
theorem second_bucket_not_validated : ¬ ∀ (buckets : List String) (generator : KVGenerator String),
    ValidatesAll (fun name index => name ++ "-" ++ toString index) { settings := { opType := .update } } generator
      buckets := by
  intro always
  obtain ⟨dictionary, returned, validates⟩ := always ["default", "second"] ⟨0, 0, 10, "test_docs"⟩
  obtain ⟨_, bucket, others, _, rfl⟩ := asyncValidateAllDocs_eq_ok.mp returned
  have count := congrArg List.length validates.onePerBucket
  cases count

end Taf.Tasks.ValidateAllBuckets
