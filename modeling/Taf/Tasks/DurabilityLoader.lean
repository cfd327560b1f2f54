import Taf.Lib.Run
import Taf.Lib.Window

/-! # The threads of a durability loader

`Durability.Loader` writes batches while two other threads go over the same range of
documents one by one: `Reader` asks the SDK for each of them, `Persistence` the nodes.
The threads share the two offsets and the dictionaries of failures and nothing else.  A
schedule is a list of actions, each of which lets one thread do its next step; what a
batch reports and whether an inspection raises comes with the action. -/

namespace Taf.Tasks.Durability

open Taf.Lib

inductive OpType where
  | create
  | update
  | delete
  deriving DecidableEq

/-- What the threads of one loader share from the beginning: the range of
    `self.generator._doc_gen` and its batches. -/
structure Loader where
  start : Int
  -- The source's `end`.
  stop : Int
  batchSize : Nat
  positive : 0 < batchSize
  opType : OpType

/-- How far `next` has come with its batch. -/
inductive WritePhase where
  | head
  | taken (batch : List Int)
  -- The batch is written, with the documents that failed.
  | written (batch : List Int) (fDocs : List String)
  | recorded (batch : List Int)
  deriving DecidableEq

inductive CheckPhase where
  | setup
  -- `if self.read_offset < self.write_offset or self.read_offset == self.end`
  | test
  | inspect
  -- `if self.read_offset == self.end: break`, and the new offset
  | leave
  | broken
  | raised
  deriving DecidableEq

/-- A thread that follows the loader: its offset, its own copy of the generator, and the indices
    it has looked at. -/
structure Checker where
  phase : CheckPhase := .setup
  offset : Int
  itr : Int
  visited : List Int := []
  deriving DecidableEq

structure State where
  itr : Int
  phase : WritePhase := .head
  writeOffset : Int
  -- `create_failed`, `update_failed` or `delete_failed`
  failed : List String := []
  -- The batches written so far, each with what it reported.
  writes : List (List Int × List String) := []
  reader : Checker
  persistence : Checker
  deriving DecidableEq

inductive Action where
  | loader (fDocs : List String)
  | reader (raises : Bool)
  | persistence (raises : Bool)
  deriving DecidableEq

/-- The indices that `next_batch` takes: at most `count` of them behind `has_next`. -/
def nextBatch (stop : Int) : Nat → Int → List Int
  | 0, _ => []
  | count + 1, itr => if itr < stop then itr :: nextBatch stop count (itr + 1) else []

namespace Loader

variable (loader : Loader)

def init : State where
  itr := loader.start
  writeOffset := loader.start
  reader := { offset := loader.start, itr := loader.start }
  persistence := { offset := loader.start, itr := loader.start }

/-- `while self.has_next(): self.next()` -/
def next (s : State) (fDocs : List String) : State :=
  match s.phase with
  | .head =>
    if s.itr < loader.stop then
      let batch := nextBatch loader.stop loader.batchSize s.itr
      { s with phase := .taken batch, itr := s.itr + batch.length }
    else s
  | .taken batch => { s with phase := .written batch fDocs, writes := s.writes ++ [(batch, fDocs)] }
  | .written batch fDocs => { s with phase := .recorded batch, failed := s.failed ++ fDocs }
  | .recorded batch => { s with phase := .head, writeOffset := s.writeOffset + batch.length }

/-- The loop that `Reader` and `Persistence` have in common; they differ in the offset that a
    round ends with. -/
def follow (writeOffset : Int) (advance : Int → Int) (raises : Bool) (c : Checker) : Checker :=
  match c.phase with
  | .setup => { c with phase := .test, offset := loader.start, itr := loader.start }
  | .test =>
    if c.offset < writeOffset ∨ c.offset = loader.stop then { c with phase := .inspect } else c
  | .inspect =>
    if c.itr < loader.stop then
      { c with
        phase := if raises then .raised else .leave
        itr := c.itr + 1
        visited := c.visited ++ [c.itr] }
    else { c with phase := .leave }
  | .leave =>
    if c.offset = loader.stop then { c with phase := .broken }
    else { c with phase := .test, offset := advance c.offset }
  | .broken => c
  | .raised => c

/-- `Reader`: `self.read_offset += 1` -/
def readerStep (s : State) (raises : Bool) : Checker :=
  loader.follow s.writeOffset (fun readOffset => readOffset + 1) raises s.reader

/-- `Persistence`: `self.persistence_offset = self.write_offset`.  For updates and deletes the
    check looks `self.instance` up in a dictionary of document keys, a `KeyError`. -/
def persistenceStep (s : State) (raises : Bool) : Checker :=
  loader.follow s.writeOffset (fun _ => s.writeOffset) (raises || loader.opType != .create)
    s.persistence

def step (s : State) : Action → State
  | .loader fDocs => loader.next s fDocs
  | .reader raises => { s with reader := loader.readerStep s raises }
  | .persistence raises => { s with persistence := loader.persistenceStep s raises }

end Loader

/-! ## Batches -/

theorem nextBatch_eq_window (stop : Int) (count : Nat) (itr : Int) :
    nextBatch stop count itr = window itr (min count (stop - itr).toNat) := by
  induction count generalizing itr with
  | zero => simp [nextBatch]
  | succ count ih =>
    by_cases more : itr < stop
    · have width : (stop - itr).toNat = (stop - (itr + 1)).toNat + 1 := by omega
      rw [nextBatch, if_pos more, ih, width, Nat.add_min_add_right, window_succ]
    · have empty : (stop - itr).toNat = 0 := by omega
      rw [nextBatch, if_neg more, empty, Nat.min_zero, window_zero]

theorem length_nextBatch (stop : Int) (count : Nat) (itr : Int) :
    (nextBatch stop count itr).length = min count (stop - itr).toNat := by
  rw [nextBatch_eq_window, length_window]

/-! ## What the write offset stands for -/

/-- The batch of the index is written and all that it reported is recorded. -/
def State.Recorded (s : State) (index : Int) : Prop :=
  ∃ write ∈ s.writes, index ∈ write.1 ∧ ∀ key ∈ write.2, key ∈ s.failed

namespace Loader

variable {loader : Loader} {s : State}

/-- The batch in the loader's hands, if there is one. -/
def batchOf : WritePhase → List Int
  | .head => []
  | .taken batch => batch
  | .written batch _ => batch
  | .recorded batch => batch

structure WriteInv (loader : Loader) (s : State) : Prop where
  started : loader.start ≤ s.writeOffset
  bounded : s.itr = loader.start ∨ s.itr ≤ loader.stop
  held : batchOf s.phase = window s.writeOffset (batchOf s.phase).length
  ahead : s.itr = s.writeOffset + (batchOf s.phase).length
  nonempty : s.phase ≠ .head → 0 < (batchOf s.phase).length
  behind : ∀ index, loader.start ≤ index → index < s.writeOffset → s.Recorded index
  -- The batch in hand is one of the writes from the phase `written` on.
  reported : ∀ batch fDocs, s.phase = .written batch fDocs → (batch, fDocs) ∈ s.writes
  recorded : ∀ batch, s.phase = .recorded batch → ∀ index ∈ batch, s.Recorded index

theorem writeInv_init (loader : Loader) : loader.WriteInv loader.init where
  started := le_refl _
  bounded := .inl rfl
  held := rfl
  ahead := by simp [init, batchOf]
  nonempty := by simp [init]
  behind := by
    intro index low high
    simp only [init] at high
    omega
  reported := by simp [init]
  recorded := by simp [init]

theorem WriteInv.writeOffset_le (inv : loader.WriteInv s) :
    s.writeOffset = loader.start ∨ s.writeOffset ≤ loader.stop := by
  have started := inv.started
  have ahead := inv.ahead
  cases inv.bounded with
  | inl still => left; omega
  | inr within => right; omega

/-- A write, or a failure, that is added later leaves what is recorded recorded. -/
theorem recorded_mono {s' : State} {index : Int} (writes : ∀ write ∈ s.writes, write ∈ s'.writes)
    (failed : ∀ key ∈ s.failed, key ∈ s'.failed) (recorded : s.Recorded index) :
    s'.Recorded index := by
  obtain ⟨write, member, within, known⟩ := recorded
  exact ⟨write, writes write member, within, fun key reported => failed key (known key reported)⟩

/-! One lemma for each phase of the loop; the batch in hand moves from phase to phase. -/

theorem WriteInv.takeBatch (inv : loader.WriteInv s) (phase : s.phase = .head)
    (more : s.itr < loader.stop) : loader.WriteInv
      { s with
        phase := .taken (nextBatch loader.stop loader.batchSize s.itr)
        itr := s.itr + (nextBatch loader.stop loader.batchSize s.itr).length } := by
  have position : s.itr = s.writeOffset := by simpa [batchOf, phase] using inv.ahead
  exact
    { started := inv.started
      bounded := by
        right
        simp only [length_nextBatch]
        omega
      held := by simp only [batchOf, nextBatch_eq_window, length_window, position]
      ahead := by simp only [batchOf, position]
      nonempty := by
        intro _
        have positive := loader.positive
        simp only [batchOf, length_nextBatch]
        omega
      behind := inv.behind
      reported := by simp
      recorded := by simp }

theorem WriteInv.writeBatch (inv : loader.WriteInv s) {batch : List Int}
    (phase : s.phase = .taken batch) (fDocs : List String) : loader.WriteInv
      { s with phase := .written batch fDocs, writes := s.writes ++ [(batch, fDocs)] } := by
  have held := inv.held
  have ahead := inv.ahead
  have nonempty := inv.nonempty (by simp [phase])
  rw [phase] at held ahead nonempty
  exact
    { started := inv.started
      bounded := inv.bounded
      held := held
      ahead := ahead
      nonempty := fun _ => nonempty
      behind := fun index low high =>
        recorded_mono (fun _ member => List.mem_append_left _ member) (fun _ known => known)
          (inv.behind index low high)
      reported := by
        intro batch' fDocs' same
        cases same
        simp
      recorded := by simp }

theorem WriteInv.recordBatch (inv : loader.WriteInv s) {batch : List Int} {reports : List String}
    (phase : s.phase = .written batch reports) : loader.WriteInv
      { s with phase := .recorded batch, failed := s.failed ++ reports } := by
  have held := inv.held
  have ahead := inv.ahead
  have nonempty := inv.nonempty (by simp [phase])
  rw [phase] at held ahead nonempty
  exact
    { started := inv.started
      bounded := inv.bounded
      held := held
      ahead := ahead
      nonempty := fun _ => nonempty
      behind := fun index low high =>
        recorded_mono (s := s) (fun _ member => member) (fun _ known => List.mem_append_left _ known)
          (inv.behind index low high)
      reported := by simp
      recorded := by
        intro batch' same index member
        cases same
        exact ⟨(batch, reports), inv.reported batch reports phase, member,
          fun key reported => List.mem_append_right _ reported⟩ }

theorem WriteInv.passBatch (inv : loader.WriteInv s) {batch : List Int}
    (phase : s.phase = .recorded batch) : loader.WriteInv
      { s with phase := .head, writeOffset := s.writeOffset + batch.length } := by
  have held := inv.held
  have ahead := inv.ahead
  have recorded := inv.recorded batch phase
  rw [phase] at held ahead
  simp only [batchOf] at held ahead
  exact
    { started := by
        have started := inv.started
        simp only
        omega
      bounded := inv.bounded
      held := rfl
      ahead := by simp [batchOf, ahead]
      nonempty := by simp
      behind := by
        intro index low high
        by_cases old : index < s.writeOffset
        · exact inv.behind index low old
        · apply recorded index
          rw [held, mem_window]
          simp only at high
          omega
      reported := by simp
      recorded := by simp }

theorem WriteInv.next (inv : loader.WriteInv s) (fDocs : List String) :
    loader.WriteInv (loader.next s fDocs) := by
  cases phase : s.phase with
  | head =>
    by_cases more : s.itr < loader.stop
    · simpa only [Loader.next, phase, if_pos more] using inv.takeBatch phase more
    · simpa only [Loader.next, phase, if_neg more] using inv
  | taken batch => simpa only [Loader.next, phase] using inv.writeBatch phase fDocs
  | written batch reports => simpa only [Loader.next, phase] using inv.recordBatch phase
  | recorded batch => simpa only [Loader.next, phase] using inv.passBatch phase

/-- A step of another thread leaves the loader's part alone. -/
theorem WriteInv.step (inv : loader.WriteInv s) (action : Action) :
    loader.WriteInv (loader.step s action) := by
  cases action with
  | loader fDocs => exact inv.next fDocs
  | reader raises => exact { inv with }
  | persistence raises => exact { inv with }

theorem writeOffset_mono (loader : Loader) (s : State) (action : Action) :
    s.writeOffset ≤ (loader.step s action).writeOffset := by
  cases action with
  | reader raises => exact le_refl _
  | persistence raises => exact le_refl _
  | loader fDocs =>
    cases phase : s.phase with
    | head => simp only [step, next, phase]; split <;> exact le_refl _
    | taken batch => simp only [step, next, phase]; exact le_refl _
    | written batch reports => simp only [step, next, phase]; exact le_refl _
    | recorded batch => simp [step, next, phase]

end Loader

end Taf.Tasks.Durability
