import Taf.Lib.Dict
import Taf.Tasks.Task

/-! # Mutating a batch

`batch_create`, `batch_update` and `batch_replace` hand a batch to the client and get back a dictionary of the keys
that succeeded and one of those that failed.  Failed keys are read back, and moved if they turn out to be there. -/

namespace Taf.Tasks.Batches

open Taf.Lib

/-! ## What the client answers -/

/-- `status`, and for a failure the text that is made of `error`; `none` if making it raises. -/
inductive Status where
  | done
  | failed (error : Option String)
  deriving DecidableEq

/-- One entry of what `bulkInsert`, `bulkUpsert` or `bulkReplace` returns -/
structure Answered (κ ν : Type) where
  id : κ
  document : ν
  cas : ℤ
  status : Status

/-- The dictionary that is kept under a key; without `error` for a key that succeeded. -/
structure Record (ν : Type) where
  cas : ℤ
  value : ν
  error : Option String
  deriving DecidableEq

structure Dicts (κ ν : Type) where
  success : AList fun _ : κ => Record ν
  fail : AList fun _ : κ => Record ν

/-- The values that are compared: a Python dictionary is never equal to a document. -/
inductive PyValue (ν : Type) where
  | dict (record : Record ν)
  | document (value : ν)
  deriving DecidableEq

variable {κ ν : Type} [DecidableEq κ] [DecidableEq ν]

/-- One round of the loop in `__translate_upsert_multi_results` -/
def translateResult (dicts : Dicts κ ν) (result : Answered κ ν) : Except Raised (Dicts κ ν) :=
  match result.status with
  | .done => .ok { dicts with success := dicts.success.insert result.id ⟨result.cas, result.document, none⟩ }
  | .failed (some error) =>
    .ok { dicts with fail := dicts.fail.insert result.id ⟨result.cas, result.document, some error⟩ }
  | .failed none => .error .exception

def translateUpsertMultiResults (results : List (Answered κ ν)) : Except Raised (Dicts κ ν) :=
  results.foldlM translateResult ⟨∅, ∅⟩

/-- What a call meets: the list that comes back from Java, and what is raised behind that, if anything is. -/
structure Client (κ ν : Type) where
  call : Except Raised (List (Answered κ ν))
  sleep : Option Raised
  -- `cas` and `value` of the keys in the map that `batch_read` returns
  readBack : Except Raised (κ → Option (ℤ × ν))
  addRow : κ → Option Raised
  display : Option Raised

inductive Mutation where
  | create | update | replace
  deriving DecidableEq

/-- The test for a failed key, given its record and what was read back for it -/
def Mutation.landed (op : Mutation) (value : Record ν) (found : Option (ℤ × ν)) : Bool :=
  match op, found with
  | _, none => false
  | .create, some read => read.1 ≠ 0
  | .update, some read => read.1 ≠ 0 && PyValue.dict value = PyValue.document read.2
  | .replace, some read => read.1 ≠ 0

/-- A batch of documents with different keys, each of which gets one answer -/
structure Batch (κ ν : Type) where
  op : Mutation
  keys : List κ
  nodup : keys.Nodup
  skipReadOnError : Bool
  suppressErrorTable : Bool
  client : Client κ ν
  answers : ∀ results, client.call = .ok results → (results.map Answered.id).Perm keys

/-- `success[key] = value; success[key].pop("error"); fail.pop(key)` -/
def Dicts.move (dicts : Dicts κ ν) (key : κ) (value : Record ν) : Dicts κ ν :=
  ⟨dicts.success.insert key { value with error := none }, dicts.fail.erase key⟩

namespace Batch

variable (m : Batch κ ν)

/-- `set_multi`, `upsert_multi` or `replace_multi` -/
def mutated : Except Raised (Dicts κ ν) := do
  let results ← m.client.call
  translateUpsertMultiResults results

/-- `for key, value in fail.items()`, with the test that moves a key; it may be left by an exception. -/
def visit (landed : κ → Record ν → Bool) : List (Σ _ : κ, Record ν) → Dicts κ ν → Dicts κ ν × Option Raised
  | [], dicts => (dicts, none)
  | ⟨key, value⟩ :: items, dicts =>
    if landed key value then visit landed items (dicts.move key value)
    else if m.suppressErrorTable then visit landed items dicts
    else
      match m.client.addRow key with
      | some raised => (dicts, some raised)
      | none => visit landed items dicts

/-- `if fail:` -/
def reclassify (dicts : Dicts κ ν) : Dicts κ ν × Option Raised :=
  if dicts.fail.entries = [] then (dicts, none)
  else
    let visited : Dicts κ ν × Option Raised :=
      if m.skipReadOnError then m.visit (fun _ _ => false) dicts.fail.entries dicts
      else
        match m.client.sleep, m.client.readBack with
        | some raised, _ => (dicts, some raised)
        | none, .error raised => (dicts, some raised)
        | none, .ok readMap => m.visit (fun key value => m.op.landed value (readMap key)) dicts.fail.entries dicts
    match visited with
    | (dicts, some raised) => (dicts, some raised)
    | (dicts, none) => if m.suppressErrorTable then (dicts, none) else (dicts, m.client.display)

/-- `batch_create`, `batch_update` or `batch_replace` -/
def run (interp : Interpreter) : Except Raised (Dicts κ ν) :=
  match m.mutated with
  | .error raised => if interp.exceptException raised then .ok ⟨∅, ∅⟩ else .error raised
  | .ok dicts =>
    match m.reclassify dicts with
    | (dicts, none) => .ok dicts
    | (dicts, some raised) => if interp.exceptException raised then .ok dicts else .error raised

end Batch

/-! ## Every key is accounted for -/

/-- The key is in one of the dictionaries, and not in both. -/
def Dicts.Has (dicts : Dicts κ ν) (key : κ) : Prop := Xor (key ∈ dicts.success) (key ∈ dicts.fail)

/-- Each key of the batch appears in exactly one of the dictionaries that are returned. -/
def Batch.AccountsForKeys (m : Batch κ ν) (interp : Interpreter) : Prop :=
  ∀ dicts, m.run interp = .ok dicts → ∀ key ∈ m.keys, dicts.Has key

section Accounts

variable {dicts last : Dicts κ ν}

omit [DecidableEq ν]

/-- A result is put under its key in one of the dictionaries. -/
theorem translateResult_cases {result : Answered κ ν} {next : Dicts κ ν}
    (translated : translateResult dicts result = .ok next) :
    ∃ record, (result.status = .done ∧ next = { dicts with success := dicts.success.insert result.id record }) ∨
      (result.status ≠ .done ∧ record.value = result.document ∧
        next = { dicts with fail := dicts.fail.insert result.id record }) := by
  rw [translateResult] at translated
  cases status : result.status with
  | done =>
    rw [status] at translated
    cases translated
    exact ⟨_, Or.inl ⟨rfl, rfl⟩⟩
  | failed error =>
    rw [status] at translated
    cases error with
    | none => cases translated
    | some error =>
      cases translated
      exact ⟨⟨result.cas, result.document, some error⟩, Or.inr ⟨Status.noConfusion, rfl, rfl⟩⟩

theorem translateResult_mem {result : Answered κ ν} {next : Dicts κ ν}
    (translated : translateResult dicts result = .ok next) {key : κ} (other : key ≠ result.id) :
    (key ∈ next.success ↔ key ∈ dicts.success) ∧ (key ∈ next.fail ↔ key ∈ dicts.fail) := by
  obtain ⟨record, either⟩ := translateResult_cases translated
  cases either with
  | inl done =>
    rw [done.2]
    exact ⟨by simp [AList.mem_insert, other], Iff.rfl⟩
  | inr failed =>
    rw [failed.2.2]
    exact ⟨Iff.rfl, by simp [AList.mem_insert, other]⟩

/-- The first result of a key decides about it, and the other results leave it alone. -/
theorem translate_has {results : List (Answered κ ν)} (distinct : (results.map Answered.id).Nodup)
    (fresh : ∀ result ∈ results, result.id ∉ dicts.success ∧ result.id ∉ dicts.fail)
    (translated : results.foldlM translateResult dicts = .ok last) (key : κ) :
    (key ∈ results.map Answered.id → last.Has key) ∧
      (key ∉ results.map Answered.id →
        (key ∈ last.success ↔ key ∈ dicts.success) ∧ (key ∈ last.fail ↔ key ∈ dicts.fail)) := by
  induction results generalizing dicts with
  | nil =>
    cases translated
    exact ⟨fun member => absurd member List.not_mem_nil, fun _ => ⟨Iff.rfl, Iff.rfl⟩⟩
  | cons result results ih =>
    rw [List.map_cons, List.nodup_cons] at distinct
    rw [List.foldlM_cons, bind_eq_ok] at translated
    obtain ⟨next, first, rest⟩ := translated
    have stillFresh : ∀ later ∈ results, later.id ∉ next.success ∧ later.id ∉ next.fail := by
      intro later member
      have other : later.id ≠ result.id := fun same => distinct.1 (same ▸ List.mem_map_of_mem member)
      have kept := translateResult_mem first other
      rw [kept.1, kept.2]
      exact fresh later (List.mem_cons_of_mem result member)
    have later := ih distinct.2 stillFresh rest
    constructor
    · intro member
      by_cases again : key ∈ results.map Answered.id
      · exact later.1 again
      · have isFirst : key = result.id := (List.mem_cons.mp member).resolve_right again
        have kept := later.2 again
        rw [isFirst] at kept ⊢
        have new := fresh result List.mem_cons_self
        obtain ⟨record, either⟩ := translateResult_cases first
        cases either with
        | inl done =>
          rw [done.2] at kept
          exact Or.inl ⟨kept.1.mpr ((AList.mem_insert _).mpr (Or.inl rfl)), fun failed => new.2 (kept.2.mp failed)⟩
        | inr failed =>
          rw [failed.2.2] at kept
          exact Or.inr ⟨kept.2.mpr ((AList.mem_insert _).mpr (Or.inl rfl)), fun done => new.1 (kept.1.mp done)⟩
    · intro absent
      rw [List.map_cons, List.mem_cons, not_or] at absent
      have kept := later.2 absent.2
      have here := translateResult_mem first absent.1
      exact ⟨kept.1.trans here.1, kept.2.trans here.2⟩

/-- A key that is moved is in one of the dictionaries only, and for other keys nothing changes. -/
theorem Dicts.Has.move {key : κ} (has : dicts.Has key) (moved : κ) (value : Record ν) :
    (dicts.move moved value).Has key := by
  have inSuccess : key ∈ (dicts.move moved value).success ↔ key = moved ∨ key ∈ dicts.success :=
    AList.mem_insert _
  have inFail : key ∈ (dicts.move moved value).fail ↔ key ≠ moved ∧ key ∈ dicts.fail := AList.mem_erase
  rw [Dicts.Has, inSuccess, inFail]
  by_cases same : key = moved
  · exact Or.inl ⟨Or.inl same, fun both => both.1 same⟩
  · cases has with
    | inl done => exact Or.inl ⟨Or.inr done.1, fun both => done.2 both.2⟩
    | inr failed => exact Or.inr ⟨⟨same, failed.1⟩, fun either => failed.2 (either.resolve_left same)⟩

end Accounts

namespace Batch

section Runs

variable {m : Batch κ ν} {dicts : Dicts κ ν}

omit [DecidableEq ν]

theorem visit_has {landed : κ → Record ν → Bool} {items : List (Σ _ : κ, Record ν)} {key : κ} (has : dicts.Has key) :
    (m.visit landed items dicts).1.Has key := by
  induction items generalizing dicts with
  | nil => exact has
  | cons item items ih =>
    obtain ⟨moved, value⟩ := item
    rw [visit]
    split
    · exact ih (has.move moved value)
    · split
      · exact ih has
      · split
        · exact has
        · exact ih has

end Runs

variable {m : Batch κ ν} {dicts : Dicts κ ν}

/-- Whatever is read back, and wherever the loop is left, no key gets lost. -/
theorem reclassify_has {key : κ} (has : dicts.Has key) : (m.reclassify dicts).1.Has key := by
  rw [reclassify]
  split
  · exact has
  · have visited : (if m.skipReadOnError then m.visit (fun _ _ => false) dicts.fail.entries dicts
        else
          match m.client.sleep, m.client.readBack with
          | some raised, _ => (dicts, some raised)
          | none, .error raised => (dicts, some raised)
          | none, .ok readMap =>
            m.visit (fun key value => m.op.landed value (readMap key)) dicts.fail.entries dicts).1.Has key := by
      split
      · exact visit_has has
      · split
        · exact has
        · exact has
        · exact visit_has has
    dsimp only
    split
    · rename_i left raised ended
      rw [ended] at visited
      exact visited
    · rename_i left ended
      rw [ended] at visited
      split
      · exact visited
      · exact visited

omit [DecidableEq ν] in
theorem mutated_has (returned : m.mutated = .ok dicts) {key : κ} (member : key ∈ m.keys) : dicts.Has key := by
  rw [mutated, bind_eq_ok] at returned
  obtain ⟨results, answered, translated⟩ := returned
  have perm := m.answers results answered
  have distinct : (results.map Answered.id).Nodup := perm.nodup_iff.mpr m.nodup
  have fresh : ∀ result ∈ results, result.id ∉ (∅ : AList fun _ : κ => Record ν) ∧
      result.id ∉ (∅ : AList fun _ : κ => Record ν) := fun result _ => ⟨AList.notMem_empty _, AList.notMem_empty _⟩
  exact (translate_has distinct fresh translated key).1 (perm.mem_iff.mpr member)

/-- All keys of a batch are accounted for, except when the client raises an exception that is caught: then
    two empty dictionaries are returned. -/
theorem accountsForKeys_iff (m : Batch κ ν) (interp : Interpreter) : m.AccountsForKeys interp ↔
    m.keys = [] ∨ ∀ raised, m.mutated = .error raised → interp.exceptException raised = false := by
  constructor
  · intro accounts
    by_contra neither
    rw [not_or, not_forall] at neither
    obtain ⟨some', raised, caught⟩ := neither
    rw [Classical.not_imp, Bool.not_eq_false] at caught
    obtain ⟨key, member⟩ := List.exists_mem_of_ne_nil _ some'
    have returned : m.run interp = .ok ⟨∅, ∅⟩ := by
      rw [run, caught.1]
      exact if_pos caught.2
    cases accounts _ returned key member with
    | inl done => exact AList.notMem_empty key done.1
    | inr failed => exact AList.notMem_empty key failed.1
  · intro either dicts returned key member
    cases either with
    | inl empty =>
      rw [empty] at member
      cases member
    | inr uncaught =>
      rw [run] at returned
      cases outcome : m.mutated with
      | error raised =>
        rw [outcome] at returned
        dsimp only at returned
        rw [uncaught raised outcome, if_neg Bool.false_ne_true] at returned
        cases returned
      | ok first =>
        rw [outcome] at returned
        dsimp only at returned
        have has := @reclassify_has _ _ _ _ m first key (mutated_has outcome member)
        split at returned
        · rename_i ended
          rw [ended] at has
          cases returned
          exact has
        · rename_i ended
          rw [ended] at has
          split at returned
          · cases returned
            exact has
          · cases returned

/-- One document whose insert fails with an error without a message, so that its text cannot be made -/
def noMessage : Batch String String where
  op := .create
  keys := ["key"]
  nodup := List.nodup_singleton _
  skipReadOnError := false
  suppressErrorTable := false
  client := ⟨.ok [⟨"key", "document", 0, .failed none⟩], none, .ok fun _ => none, fun _ => none, none⟩
  answers := by
    intro results answered
    cases answered
    exact List.Perm.refl _

theorem noMessage_lost : ¬ noMessage.AccountsForKeys { catchesJava := true } := by
  intro accounts
  cases accounts ⟨∅, ∅⟩ rfl "key" (List.mem_singleton_self _) with
  | inl done => exact AList.notMem_empty _ done.1
  | inr failed => exact AList.notMem_empty _ failed.1

end Batch

end Taf.Tasks.Batches
