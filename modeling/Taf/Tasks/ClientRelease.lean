import Taf.Tasks.BatchMutations

/-! # Clients of loader tasks

`LoadDocumentsTask.next` and `LoadSubDocumentsTask.next` take a client from the pool, hand the batch to the function of
their operation, and give the client back behind it.  Nothing gives it back when an exception gets out of that function. -/

namespace Taf.Tasks.Batches

open Taf.Lib

variable {κ ν : Type} [DecidableEq κ] [DecidableEq ν]

/-! ## What gets out of the batch functions -/

/-- What is raised inside of `batch_create`, `batch_update` or `batch_replace` -/
def Batch.raises (m : Batch κ ν) : Option Raised :=
  match m.mutated with
  | .error raised => some raised
  | .ok dicts => (m.reclassify dicts).2

/-- `delete_multi`, `touch_multi` or `get_multi` with the keys that failed, and what the table meets -/
structure PlainClient (κ : Type) where
  call : Except Raised (List κ)
  addRow : κ → Option Raised
  display : Option Raised

/-- `batch_delete`, `batch_touch` and `batch_read`: nothing is caught. -/
def batchPlain (suppressErrorTable : Bool) (client : PlainClient κ) : Option Raised :=
  match client.call with
  | .error raised => some raised
  | .ok fail =>
    if fail = [] ∨ suppressErrorTable then none else (fail.findSome? client.addRow).or client.display

/-- `batch_sub_doc_insert` and the like: what is caught goes into `set_exception`, which raises again. -/
def batchSubDoc (interp : Interpreter) (call : Option Raised) : Option Raised :=
  call.map fun raised => if interp.exceptException raised then .base else raised

/-! ## One call of `next` -/

inductive ClientEvent where
  | acquired (client : ℕ)
  | released (client : ℕ)
  deriving DecidableEq

/-- What a call of `next` meets; `none` is no exception, or no pool. -/
structure Surroundings (κ ν : Type) [DecidableEq κ] [DecidableEq ν] where
  nextBatch : Option Raised
  randint : Option Raised
  pool : Option (Except Raised ℕ)
  batch : Batch κ ν
  plain : PlainClient κ
  subDoc : Option Raised

inductive LoaderTask where
  | documents (opType : String) (randomExp : Bool)
  | subDocuments (opType : String)
  deriving DecidableEq

namespace LoaderTask

variable (interp : Interpreter) (meets : Surroundings κ ν)

/-- The `if` over `self.op_type` in `LoadDocumentsTask.next`, by what it raises -/
def loadDocuments (opType : String) : Option Raised :=
  let mutate (op : Mutation) : Option Raised :=
    match ({ meets.batch with op := op } : Batch κ ν).run interp with
    | .ok _ => none
    | .error raised => some raised
  if opType = "create" then mutate .create
  else if opType = "update" then mutate .update
  else if opType = "replace" then mutate .replace
  else if opType = "delete" then batchPlain meets.batch.suppressErrorTable meets.plain
  else if opType = "touch" then batchPlain meets.batch.suppressErrorTable meets.plain
  else if opType = "read" then batchPlain meets.batch.suppressErrorTable meets.plain
  -- `set_exception`
  else some .base

/-- That of `LoadSubDocumentsTask.next` -/
def loadSubDocuments (opType : String) : Option Raised :=
  if opType = "insert" then batchSubDoc interp meets.subDoc
  else if opType = "upsert" then batchSubDoc interp meets.subDoc
  else if opType = "remove" then batchSubDoc interp meets.subDoc
  else if opType = "replace" then batchSubDoc interp meets.subDoc
  else if opType ∈ ["read", "lookup"] then batchSubDoc interp meets.subDoc
  else some .base

def load : LoaderTask → Option Raised
  | .documents opType _ => loadDocuments interp meets opType
  | .subDocuments opType => loadSubDocuments interp meets opType

/-- What is raised before a client is taken -/
def before : LoaderTask → Option Raised
  | .documents _ randomExp => meets.nextBatch.or (if randomExp then meets.randint else none)
  | .subDocuments _ => meets.nextBatch

/-- `next`: what happens with clients, and what it raises -/
def next (task : LoaderTask) : List ClientEvent × Option Raised :=
  match before meets task with
  | some raised => ([], some raised)
  | none =>
    match meets.pool with
    | none => ([], load interp meets task)
    | some (.error raised) => ([], some raised)
    | some (.ok client) =>
      match load interp meets task with
      | some raised => ([.acquired client], some raised)
      | none => ([.acquired client, .released client], none)

/-- A client that was acquired has been released exactly once when `next` is left. -/
def ReleasesClient (task : LoaderTask) : Prop :=
  ∀ client, ClientEvent.acquired client ∈ (next interp meets task).1 →
    (next interp meets task).1.count (.released client) = 1

/-- The operation is one that the task has a branch for, and no exception gets out of its function: of those for the
    mutations of documents, none that `except Exception` does not match; of the others, none at all. -/
def GetsThrough : LoaderTask → Prop
  | .documents opType _ =>
    (∃ op, (opType, op) ∈ [("create", Mutation.create), ("update", Mutation.update), ("replace", Mutation.replace)] ∧
      ∀ raised, ({ meets.batch with op := op } : Batch κ ν).raises = some raised → interp.exceptException raised) ∨
    (opType ∈ ["delete", "touch", "read"] ∧ ∃ fail, meets.plain.call = .ok fail ∧
      (fail = [] ∨ meets.batch.suppressErrorTable = true ∨
        (∀ key ∈ fail, meets.plain.addRow key = none) ∧ meets.plain.display = none))
  | .subDocuments opType => opType ∈ ["insert", "upsert", "remove", "replace", "read", "lookup"] ∧ meets.subDoc = none

end LoaderTask

/-! ## What gets out of the functions -/

theorem Batch.run_ok_iff (m : Batch κ ν) (interp : Interpreter) : (∃ dicts, m.run interp = .ok dicts) ↔
    ∀ raised, m.raises = some raised → interp.exceptException raised := by
  have caught (raised : Raised) (dicts : Dicts κ ν) :
      (∃ last, (if interp.exceptException raised then Except.ok dicts else .error raised) = .ok last) ↔
        interp.exceptException raised := by
    by_cases matched : interp.exceptException raised = true
    · simp [matched]
    · simp [matched]
  rw [Batch.run, Batch.raises]
  cases m.mutated with
  | error raised =>
    dsimp only
    rw [caught]
    simp
  | ok dicts =>
    dsimp only
    cases m.reclassify dicts with
    | mk last ended =>
      cases ended with
      | none => simp
      | some raised =>
        dsimp only
        rw [caught]
        simp

omit [DecidableEq κ] in
theorem batchPlain_none_iff [DecidableEq κ] {suppressErrorTable : Bool} {client : PlainClient κ} :
    batchPlain suppressErrorTable client = none ↔ ∃ fail, client.call = .ok fail ∧
      (fail = [] ∨ suppressErrorTable = true ∨
        (∀ key ∈ fail, client.addRow key = none) ∧ client.display = none) := by
  rw [batchPlain]
  cases client.call with
  | error raised => simp
  | ok fail =>
    dsimp only
    by_cases noTable : fail = [] ∨ suppressErrorTable = true
    · rw [if_pos noTable]
      refine iff_of_true rfl ⟨fail, rfl, ?_⟩
      cases noTable with
      | inl empty => exact Or.inl empty
      | inr suppressed => exact Or.inr (Or.inl suppressed)
    · rw [if_neg noTable, Option.or_eq_none_iff, List.findSome?_eq_none_iff]
      constructor
      · intro quiet
        exact ⟨fail, rfl, Or.inr (Or.inr quiet)⟩
      · intro found
        obtain ⟨other, same, either⟩ := found
        cases same
        rw [← or_assoc] at either
        exact either.resolve_left noTable

theorem batchSubDoc_none_iff (interp : Interpreter) (call : Option Raised) :
    batchSubDoc interp call = none ↔ call = none := by
  rw [batchSubDoc, Option.map_eq_none_iff]

/-! ## When the client is released -/

namespace LoaderTask

variable {interp : Interpreter} {meets : Surroundings κ ν}

theorem mutate_none_iff (m : Batch κ ν) : (match m.run interp with
    | .ok _ => (none : Option Raised)
    | .error raised => some raised) = none ↔ ∀ raised, m.raises = some raised → interp.exceptException raised := by
  rw [← Batch.run_ok_iff]
  cases m.run interp with
  | ok dicts => simp
  | error raised => simp

theorem loadDocuments_none_iff (opType : String) (randomExp : Bool) :
    loadDocuments interp meets opType = none ↔ GetsThrough interp meets (.documents opType randomExp) := by
  -- one case for each branch, where a name decides about both sides
  rw [loadDocuments]
  dsimp only
  by_cases create : opType = "create"
  · rw [if_pos create, mutate_none_iff]
    simp [GetsThrough, create]
  by_cases update : opType = "update"
  · rw [if_neg create, if_pos update, mutate_none_iff]
    simp [GetsThrough, update]
  by_cases replace : opType = "replace"
  · rw [if_neg create, if_neg update, if_pos replace, mutate_none_iff]
    simp [GetsThrough, replace]
  rw [if_neg create, if_neg update, if_neg replace]
  by_cases plain : opType ∈ ["delete", "touch", "read"]
  · have called : (if opType = "delete" then batchPlain meets.batch.suppressErrorTable meets.plain
        else if opType = "touch" then batchPlain meets.batch.suppressErrorTable meets.plain
        else if opType = "read" then batchPlain meets.batch.suppressErrorTable meets.plain
        else some .base) = batchPlain meets.batch.suppressErrorTable meets.plain := by
      simp only [List.mem_cons, List.not_mem_nil, or_false] at plain
      split_ifs <;> tauto
    rw [called, batchPlain_none_iff]
    simp [GetsThrough, create, update, replace, plain]
  · have refused : (if opType = "delete" then batchPlain meets.batch.suppressErrorTable meets.plain
        else if opType = "touch" then batchPlain meets.batch.suppressErrorTable meets.plain
        else if opType = "read" then batchPlain meets.batch.suppressErrorTable meets.plain
        else some .base) = some .base := by
      simp only [List.mem_cons, List.not_mem_nil, or_false] at plain
      split_ifs <;> tauto
    rw [refused]
    simp [GetsThrough, create, update, replace, plain]

theorem loadSubDocuments_none_iff (opType : String) :
    loadSubDocuments interp meets opType = none ↔ GetsThrough interp meets (.subDocuments opType) := by
  have dispatched : loadSubDocuments interp meets opType =
      if opType ∈ ["insert", "upsert", "remove", "replace", "read", "lookup"] then batchSubDoc interp meets.subDoc
      else some .base := by
    rw [loadSubDocuments]
    simp only [List.mem_cons, List.not_mem_nil, or_false]
    split_ifs <;> tauto
  rw [dispatched, GetsThrough]
  by_cases known : opType ∈ ["insert", "upsert", "remove", "replace", "read", "lookup"]
  · rw [if_pos known, batchSubDoc_none_iff]
    exact (and_iff_right known).symm
  · rw [if_neg known]
    exact iff_of_false (by simp) fun through => known through.1

theorem load_none_iff (task : LoaderTask) : load interp meets task = none ↔ GetsThrough interp meets task := by
  cases task with
  | documents opType randomExp => exact loadDocuments_none_iff opType randomExp
  | subDocuments opType => exact loadSubDocuments_none_iff opType

/-- The client comes back exactly if none was taken or the operation gets through. -/
theorem releasesClient_iff (interp : Interpreter) (meets : Surroundings κ ν) (task : LoaderTask) :
    ReleasesClient interp meets task ↔
      before meets task ≠ none ∨ (∀ client, meets.pool ≠ some (.ok client)) ∨ GetsThrough interp meets task := by
  rw [← load_none_iff, ReleasesClient, next]
  cases before meets task with
  | some raised => simp
  | none =>
    cases meets.pool with
    | none => simp
    | some got =>
      cases got with
      | error raised => simp
      | ok client =>
        cases load interp meets task with
        | none => simp [List.count_cons]
        | some raised => simp

/-- A client is there, and every call of it raises an exception of Python. -/
def raisingClient : Surroundings String String where
  nextBatch := none
  randint := none
  pool := some (.ok 0)
  batch := Batch.noMessage
  plain := ⟨.error .exception, fun _ => none, none⟩
  subDoc := some .exception

theorem raising_delete_keeps_client :
    ¬ ReleasesClient { catchesJava := true } raisingClient (.documents "delete" false) := by
  intro releases
  have once := releases 0 (List.mem_singleton_self _)
  cases once

end LoaderTask

end Taf.Tasks.Batches
