import Taf.Bucket.Collection

/-! # Loading buckets beyond their memory

`LoadDocumentsForDgmTask` of `task.py` creates documents in batches until the resident ratio of a bucket is no
longer above a threshold.  Its loop is over a list of buckets, but its constructor takes one bucket only. -/

namespace Taf.Tasks.DgmLoading

open Taf.Bucket

variable {B : Type} [DecidableEq B]

/-- The samples of the two ratios in what `fetch_bucket_stats` returns; `none` is a missing key. -/
structure Samples where
  active : Option (List ℚ)
  replica : Option (List ℚ)

/-- The statistics are fetched once for each ratio. -/
structure Poll where
  first : Samples
  second : Samples

/-- `_get_bucket_dgm`; `none` is the `IndexError` of an empty list of samples. -/
def getBucketDgm (poll : Poll) : Option (ℚ × ℚ) :=
  match poll.first.active with
  | none => some (100, 100)
  | some samples =>
    match samples.getLast?, poll.second.replica with
    | none, _ => none
    | some _, none => some (100, 100)
    | some active, some samples => samples.getLast?.map fun replica => (active, replica)

structure DgmTask where
  activeResidentThreshold : ℚ
  dgmBatch : ℤ
  processConcurrency : ℕ

/-- A `LoadDocumentsTask` with the range of its generator -/
structure Load (B : Type) where
  bucket : B
  client : ℕ
  start : ℤ
  stop : ℤ
  deriving DecidableEq

structure State (B : Type) where
  docIndex : ℤ
  docsLoadedPerBucket : B → ℤ
  tasks : List (Load B)
  -- the collection that is loaded, of each bucket
  collections : B → Collection

/-- How the task stands when the statistics that are given have been used -/
inductive Ended (B : Type) where
  | waits (s : State B)
  | raised (s : State B)
  | loaded (polls : List Poll) (s : State B)

def Ended.state : Ended B → State B
  | .waits s | .raised s | .loaded _ s => s

variable (task : DgmTask)

def startLoad (bucket : B) (s : State B) (index : ℕ) : State B :=
  { s with
    docIndex := s.docIndex + task.dgmBatch
    docsLoadedPerBucket :=
      Function.update s.docsLoadedPerBucket bucket (s.docsLoadedPerBucket bucket + task.dgmBatch)
    tasks := s.tasks ++ [⟨bucket, index, s.docIndex, s.docIndex + task.dgmBatch⟩] }

/-- `_load_next_batch_of_docs`.  What its tasks return is not looked at. -/
def loadNextBatchOfDocs (bucket : B) (s : State B) : State B :=
  (List.range task.processConcurrency).foldl (startLoad task bucket) s

/-- `_load_bucket_into_dgm` -/
def loadBucketIntoDgm (bucket : B) : List Poll → State B → Ended B
  | [], s => .waits s
  | poll :: polls, s =>
    match getBucketDgm poll with
    | none => .raised s
    | some (active, replica) =>
      if task.activeResidentThreshold < active ∧ task.activeResidentThreshold < replica then
        loadBucketIntoDgm bucket polls (loadNextBatchOfDocs task bucket s)
      else .loaded polls s

/-- `collection.num_items` and the end of `collection.doc_index` -/
def grow (collection : Collection) (docs : ℤ) : Collection :=
  { collection with
    numItems := collection.numItems + docs
    docIndex := (collection.docIndex.1, collection.docIndex.2 + docs) }

/-- The loop of `call` over `self.buckets` -/
def call : List B → List Poll → State B → Ended B
  | [], polls, s => .loaded polls s
  | bucket :: buckets, polls, s =>
    let s := { s with docsLoadedPerBucket := Function.update s.docsLoadedPerBucket bucket 0 }
    match loadBucketIntoDgm task bucket polls s with
    | .loaded polls s =>
      let grown := grow (s.collections bucket) (s.docsLoadedPerBucket bucket)
      call buckets polls { s with collections := Function.update s.collections bucket grown }
    | ended => ended

/-- `__init__`, where the generator starts at `start` -/
def State.new (start : ℤ) (collections : B → Collection) : State B where
  docIndex := start
  docsLoadedPerBucket _ := 0
  tasks := []
  collections := collections

/-- The argument `bucket` of `__init__` -/
inductive BucketArg (B : Type) where
  | one (bucket : B)
  | list (buckets : List B)

/-- `self.buckets`.  The name of the task has `bucket.name` in it, and a list, which is looked for later on, has
    no name. -/
def BucketArg.buckets : BucketArg B → Option (List B)
  | .one bucket => some [bucket]
  | .list _ => none

/-- A task that is made and called; `none` is the `AttributeError` of its constructor. -/
def run (arg : BucketArg B) (start : ℤ) (collections : B → Collection) (polls : List Poll) : Option (Ended B) :=
  arg.buckets.map fun buckets => call task buckets polls (.new start collections)

/-! ## Ranges one after the other -/

/-- Ranges of `batch` documents from `start` up to `stop` without a gap -/
def Tiles (batch : ℤ) : ℤ → ℤ → List (Load B) → Prop
  | start, stop, [] => start = stop
  | start, stop, load :: loads =>
    load.start = start ∧ load.stop = start + batch ∧ Tiles batch (start + batch) stop loads

variable {task} {batch start middle stop : ℤ} {loads more : List (Load B)} {bucket : B}

omit [DecidableEq B] in
theorem Tiles.append (tiles : Tiles batch start middle loads) (tiles' : Tiles batch middle stop more) :
    Tiles batch start stop (loads ++ more) := by
  induction loads generalizing start with
  | nil =>
    cases tiles
    exact tiles'
  | cons load loads ih => exact ⟨tiles.1, tiles.2.1, ih tiles.2.2⟩

omit [DecidableEq B] in
theorem Tiles.length (tiles : Tiles batch start stop loads) : stop = start + batch * loads.length := by
  induction loads generalizing start with
  | nil => simpa [Tiles] using tiles.symm
  | cons load loads ih =>
    rw [ih tiles.2.2, List.length_cons]
    push_cast
    ring

omit [DecidableEq B] in
theorem Tiles.load (tiles : Tiles batch start stop loads) {k : ℕ} {load : Load B} (found : loads[k]? = some load) :
    load.start = start + batch * k ∧ load.stop = load.start + batch := by
  induction loads generalizing start k with
  | nil => simp at found
  | cons first loads ih =>
    obtain ⟨starts, stops, rest⟩ := tiles
    cases k with
    | zero =>
      obtain rfl : first = load := by simpa using found
      simp [starts, stops]
    | succ k =>
      obtain ⟨low, high⟩ := ih rest found
      refine ⟨?_, high⟩
      rw [low]
      push_cast
      ring

omit [DecidableEq B] in
/-- A document between the ends is in one range, and in no other. -/
theorem Tiles.existsUnique (positive : 0 < batch) (tiles : Tiles batch start stop loads) {i : ℤ}
    (low : start ≤ i) (high : i < stop) :
    ∃! k : ℕ, ∃ load : Load B, loads[k]? = some load ∧ load.start ≤ i ∧ i < load.stop := by
  have below := Int.mul_ediv_self_le (x := i - start) positive.ne'
  have above := Int.lt_mul_ediv_self_add (x := i - start) positive
  have nonneg : 0 ≤ (i - start) / batch := Int.ediv_nonneg (by omega) positive.le
  obtain ⟨k, quotient⟩ := Int.eq_ofNat_of_zero_le nonneg
  rw [quotient] at below above
  have inside : k < loads.length := by
    rw [tiles.length] at high
    have : batch * k < batch * loads.length := by linarith
    exact_mod_cast lt_of_mul_lt_mul_left this positive.le
  refine ⟨k, ⟨loads[k], List.getElem?_eq_getElem inside, ?_⟩, ?_⟩
  · obtain ⟨starts, stops⟩ := tiles.load (List.getElem?_eq_getElem inside)
    rw [stops, starts]
    constructor <;> linarith
  · rintro other ⟨load, found, fromLe, ltTo⟩
    obtain ⟨starts, stops⟩ := tiles.load found
    rw [stops, starts] at ltTo
    rw [starts] at fromLe
    have first : batch * other < batch * (k + 1) := by linarith
    have second : batch * k < batch * (other + 1) := by linarith
    have first := lt_of_mul_lt_mul_left first positive.le
    have second := lt_of_mul_lt_mul_left second positive.le
    omega

omit [DecidableEq B] in
theorem Tiles.between (positive : 0 < batch) (tiles : Tiles batch start stop loads) {load : Load B}
    (member : load ∈ loads) : start ≤ load.start ∧ load.stop ≤ stop := by
  obtain ⟨k, inside, rfl⟩ := List.getElem_of_mem member
  obtain ⟨starts, stops⟩ := tiles.load (List.getElem?_eq_getElem inside)
  have before : batch * (k + 1) ≤ batch * loads.length :=
    mul_le_mul_of_nonneg_left (by exact_mod_cast inside) positive.le
  have nonneg : 0 ≤ batch * k := by positivity
  rw [stops, starts, tiles.length]
  constructor <;> linarith

omit [DecidableEq B] in
/-- The documents of the ranges are those between the ends. -/
theorem Tiles.covers (positive : 0 < batch) (tiles : Tiles batch start stop loads) {i : ℤ} :
    (∃ load ∈ loads, load.start ≤ i ∧ i < load.stop) ↔ start ≤ i ∧ i < stop := by
  constructor
  · rintro ⟨load, member, low, high⟩
    obtain ⟨starts, stops⟩ := tiles.between positive member
    exact ⟨starts.trans low, high.trans_le stops⟩
  · rintro ⟨low, high⟩
    obtain ⟨k, ⟨load, found, low, high⟩, -⟩ := tiles.existsUnique positive low high
    exact ⟨load, List.mem_of_getElem? found, low, high⟩

/-! ## One bucket -/

/-- What is loaded into a bucket between two states -/
structure Loaded (task : DgmTask) (bucket : B) (s s' : State B) (own : List (Load B)) : Prop where
  tasks : s'.tasks = s.tasks ++ own
  tiles : Tiles task.dgmBatch s.docIndex s'.docIndex own
  bucket_eq : ∀ load ∈ own, load.bucket = bucket
  counted : s'.docsLoadedPerBucket =
    Function.update s.docsLoadedPerBucket bucket (s.docsLoadedPerBucket bucket + task.dgmBatch * own.length)
  collections : s'.collections = s.collections

variable {s s' : State B} {polls rest : List Poll}

theorem Loaded.refl (s : State B) : Loaded task bucket s s [] where
  tasks := (List.append_nil _).symm
  tiles := rfl
  bucket_eq := by simp
  counted := by simp
  collections := rfl

theorem Loaded.trans {s'' : State B} {own own' : List (Load B)} (first : Loaded task bucket s s' own)
    (second : Loaded task bucket s' s'' own') : Loaded task bucket s s'' (own ++ own') where
  tasks := by rw [second.tasks, first.tasks, List.append_assoc]
  tiles := first.tiles.append second.tiles
  bucket_eq load member := (List.mem_append.mp member).elim (first.bucket_eq load) (second.bucket_eq load)
  counted := by
    rw [second.counted, first.counted, Function.update_self, Function.update_idem, List.length_append]
    congr 1
    push_cast
    ring
  collections := by rw [second.collections, first.collections]

theorem loaded_startLoad (task : DgmTask) (bucket : B) (s : State B) (index : ℕ) : ∃ own, Loaded task bucket s (startLoad task bucket s index) own := by
  refine ⟨_, rfl, ⟨rfl, rfl, rfl⟩, ?_, ?_, rfl⟩
  · simp
  · simp [startLoad]

theorem loaded_nextBatch (task : DgmTask) (bucket : B) (s : State B) : ∃ own, Loaded task bucket s (loadNextBatchOfDocs task bucket s) own := by
  unfold loadNextBatchOfDocs
  generalize List.range task.processConcurrency = indices
  induction indices generalizing s with
  | nil => exact ⟨[], .refl s⟩
  | cons index indices ih =>
    obtain ⟨own, first⟩ := loaded_startLoad task bucket s index
    obtain ⟨others, rest⟩ := ih (startLoad task bucket s index)
    exact ⟨own ++ others, first.trans rest⟩

theorem loaded_intoDgm (task : DgmTask) (bucket : B) (polls : List Poll) (s : State B) :
    ∃ own, Loaded task bucket s (loadBucketIntoDgm task bucket polls s).state own := by
  induction polls generalizing s with
  | nil => exact ⟨[], .refl s⟩
  | cons poll polls ih =>
    rw [loadBucketIntoDgm]
    cases getBucketDgm poll with
    | none => exact ⟨[], .refl s⟩
    | some ratios =>
      dsimp only
      split
      · obtain ⟨own, first⟩ := loaded_nextBatch task bucket s
        obtain ⟨others, rest⟩ := ih (loadNextBatchOfDocs task bucket s)
        exact ⟨own ++ others, first.trans rest⟩
      · exact ⟨[], .refl s⟩

/-! ## All buckets -/

/-- Whatever the statistics are, the loads that are started follow each other without a gap. -/
theorem tiles_call (task : DgmTask) (buckets : List B) (polls : List Poll) (s : State B) :
    ∃ added, (call task buckets polls s).state.tasks = s.tasks ++ added ∧
      Tiles task.dgmBatch s.docIndex (call task buckets polls s).state.docIndex added := by
  induction buckets generalizing polls s with
  | nil => exact ⟨[], (List.append_nil _).symm, rfl⟩
  | cons bucket buckets ih =>
    rw [call]
    dsimp only
    obtain ⟨own, first⟩ := loaded_intoDgm task bucket polls
      { s with docsLoadedPerBucket := Function.update s.docsLoadedPerBucket bucket 0 }
    cases ended : loadBucketIntoDgm task bucket polls
      { s with docsLoadedPerBucket := Function.update s.docsLoadedPerBucket bucket 0 } with
    | waits after | raised after =>
      rw [ended] at first
      exact ⟨own, first.tasks, first.tiles⟩
    | loaded polls after =>
      rw [ended] at first
      obtain ⟨others, tasks, tiles⟩ := ih polls { after with
        collections := Function.update after.collections bucket
          (grow (after.collections bucket) (after.docsLoadedPerBucket bucket)) }
      refine ⟨own ++ others, ?_, first.tiles.append tiles⟩
      rw [tasks]
      exact (congrArg (· ++ others) first.tasks).trans (List.append_assoc ..)

/-- Every document between the index at which the task starts and the one it has reached is created by exactly
    one of its loads, whatever the statistics are, and no other document is. -/
theorem documents_loaded_once (task : DgmTask) (positive : 0 < task.dgmBatch) (start : ℤ) (collections : B → Collection)
    (buckets : List B) (polls : List Poll) :
    let s := (call task buckets polls (.new start collections)).state
    (∀ i, start ≤ i → i < s.docIndex → ∃! k : ℕ, ∃ load, s.tasks[k]? = some load ∧ load.start ≤ i ∧ i < load.stop) ∧
      ∀ load ∈ s.tasks, start ≤ load.start ∧ load.stop ≤ s.docIndex := by
  intro s
  obtain ⟨added, tasks, tiles⟩ := tiles_call task buckets polls (.new start collections)
  rw [show s.tasks = added from tasks]
  exact ⟨fun i low high => tiles.existsUnique positive low high, fun load member => tiles.between positive member⟩

/-- The resident ratio is above 90 twice. -/
def threePolls : List Poll :=
  let ratios (value : ℚ) : Poll := ⟨⟨some [value], none⟩, ⟨none, some [value]⟩⟩
  [ratios 100, ratios 95, ratios 80]

def loadedOnce (_ : Unit) : Collection := { Collection.new {} with docIndex := (0, 10) }

theorem oneBucket_loaded_once :
    let s := (call ⟨90, 5, 2⟩ [()] threePolls (.new 10 loadedOnce)).state
    (∀ i, 10 ≤ i → i < s.docIndex → ∃! k : ℕ, ∃ load, s.tasks[k]? = some load ∧ load.start ≤ i ∧ i < load.stop) ∧
      ∀ load ∈ s.tasks, 10 ≤ load.start ∧ load.stop ≤ s.docIndex :=
  documents_loaded_once ⟨90, 5, 2⟩ (by decide) 10 loadedOnce [()] threePolls

/-- What a task that returns has done for its bucket -/
theorem filled_call (returned : call task [bucket] polls (.new start collections) = .loaded rest s') :
    Tiles task.dgmBatch start s'.docIndex s'.tasks ∧ (∀ load ∈ s'.tasks, load.bucket = bucket) ∧
      s'.collections bucket = grow (collections bucket) (task.dgmBatch * s'.tasks.length) := by
  rw [call] at returned
  dsimp only at returned
  obtain ⟨own, filled⟩ := loaded_intoDgm task bucket polls
    { State.new start collections with
      docsLoadedPerBucket := Function.update (State.new start collections).docsLoadedPerBucket bucket 0 }
  cases ended : loadBucketIntoDgm task bucket polls
    { State.new start collections with
      docsLoadedPerBucket := Function.update (State.new start collections).docsLoadedPerBucket bucket 0 } with
  | waits after | raised after =>
    rw [ended] at returned
    cases returned
  | loaded polls after =>
    rw [ended] at returned filled
    cases returned
    have tasks : after.tasks = own := filled.tasks
    have counted : after.docsLoadedPerBucket bucket = task.dgmBatch * own.length := by
      have counted := congrFun filled.counted bucket
      simpa [Ended.state] using counted
    have collections : after.collections = collections := filled.collections
    rw [tasks]
    refine ⟨filled.tiles, filled.bucket_eq, ?_⟩
    rw [← counted, ← collections]
    exact Function.update_self ..

/-- The new part of the window of the bucket's collection is what was loaded exactly if nothing was, or the
    window ended where the generator starts. -/
theorem window_exact_iff (task : DgmTask) (positive : 0 < task.dgmBatch) (arg : BucketArg B) (start : ℤ)
    (collections : B → Collection) (returned : run task arg start collections polls = some (.loaded rest s')) :
    ∃ bucket, arg = .one bucket ∧
      ((∀ i, (∃ load ∈ s'.tasks, load.bucket = bucket ∧ load.start ≤ i ∧ i < load.stop) ↔
        (collections bucket).docIndex.2 ≤ i ∧ i < (s'.collections bucket).docIndex.2) ↔
      s'.tasks = [] ∨ (collections bucket).docIndex.2 = start) := by
  cases arg with
  | list buckets => cases returned
  | one bucket =>
    refine ⟨bucket, rfl, ?_⟩
    obtain ⟨tiles, ours, grown⟩ := filled_call (Option.some.inj returned)
    have loaded (i : ℤ) : (∃ load ∈ s'.tasks, load.bucket = bucket ∧ load.start ≤ i ∧ i < load.stop) ↔
        start ≤ i ∧ i < start + task.dgmBatch * s'.tasks.length := by
      rw [← tiles.length, ← tiles.covers positive]
      constructor
      · rintro ⟨load, member, -, inside⟩
        exact ⟨load, member, inside⟩
      · rintro ⟨load, member, inside⟩
        exact ⟨load, member, ours load member, inside⟩
    have stop : (s'.collections bucket).docIndex.2 =
        (collections bucket).docIndex.2 + task.dgmBatch * s'.tasks.length := by
      rw [grown]
      rfl
    simp only [loaded, stop]
    cases s'.tasks with
    | nil =>
      refine iff_of_true (fun i => ?_) (.inl rfl)
      simp only [List.length_nil, Nat.cast_zero, mul_zero, add_zero]
      omega
    | cons load loads =>
      have size : 0 < task.dgmBatch * (load :: loads).length := by
        rw [List.length_cons]
        positivity
      rw [or_iff_right (List.cons_ne_nil load loads)]
      generalize task.dgmBatch * (load :: loads).length = size at *
      constructor
      · intro same
        have low := (same start).mp (by omega)
        have high := (same (collections bucket).docIndex.2).mpr (by omega)
        omega
      · intro same i
        rw [same]

theorem oneBucket_window_exact : ∃ s', run ⟨90, 5, 2⟩ (.one ()) 10 loadedOnce threePolls = some (.loaded [] s') ∧
    ∀ i, (∃ load ∈ s'.tasks, load.bucket = () ∧ load.start ≤ i ∧ i < load.stop) ↔
      10 ≤ i ∧ i < (s'.collections ()).docIndex.2 := by
  have returned : run ⟨90, 5, 2⟩ (.one ()) 10 loadedOnce threePolls = some (.loaded [] _) := rfl
  obtain ⟨bucket, -, exact⟩ := window_exact_iff ⟨90, 5, 2⟩ (by decide) (.one ()) 10 loadedOnce returned
  exact ⟨_, returned, exact.mpr (.inr rfl)⟩

end Taf.Tasks.DgmLoading
