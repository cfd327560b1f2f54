import Taf.Tasks.BatchMutations

/-! # Which failed keys are moved

The three functions read failed keys back alike and test what they find in different ways.  Here nothing is raised:
the client answers, the failed keys are read back, and the table is written. -/

namespace Taf.Tasks.Batches

open Taf.Lib

variable {κ ν : Type} [DecidableEq κ] [DecidableEq ν]

structure ReadBatch (κ ν : Type) [DecidableEq κ] [DecidableEq ν] extends Batch κ ν where
  results : List (Answered κ ν)
  readMap : κ → Option (ℤ × ν)
  first : Dicts κ ν
  answered : client.call = .ok results
  translated : translateUpsertMultiResults results = .ok first
  reads : skipReadOnError = false
  sleeps : client.sleep = none
  readBack : client.readBack = .ok readMap
  addsRows : ∀ key, client.addRow key = none
  displays : client.display = none

namespace ReadBatch

variable (m : ReadBatch κ ν)

/-- The dictionaries in the end -/
def last : Dicts κ ν := (m.toBatch.reclassify m.first).1

/-- What was read back is the document that the batch tried to write. -/
def Landed (result : Answered κ ν) : Prop :=
  ∃ read, m.readMap result.id = some read ∧ read.1 ≠ 0 ∧ read.2 = result.document

/-- A key that failed is moved to `success` if and only if its document has landed. -/
def Exact (interp : Interpreter) : Prop :=
  ∀ dicts, m.toBatch.run interp = .ok dicts → ∀ result ∈ m.results, result.status ≠ .done →
    (result.id ∈ dicts.success ∧ result.id ∉ dicts.fail ↔ m.Landed result)

/-- A create or a replace finds no other document for a failed key than its own, and an update does not find its own. -/
def FindsWhatItTakes : Prop :=
  ∀ result ∈ m.results, result.status ≠ .done → ∀ read, m.readMap result.id = some read → read.1 ≠ 0 →
    if m.op = .update then read.2 ≠ result.document else read.2 = result.document

end ReadBatch

/-! ## The dictionaries -/

section Dictionaries

variable {dicts last : Dicts κ ν}

omit [DecidableEq ν] in
theorem translateResult_grows {result : Answered κ ν} (translated : translateResult dicts result = .ok last) {key : κ}
    (failed : key ∈ dicts.fail) : key ∈ last.fail := by
  obtain ⟨record, either⟩ := translateResult_cases translated
  cases either with
  | inl done =>
    rw [done.2]
    exact failed
  | inr other =>
    rw [other.2.2]
    exact (AList.mem_insert _).mpr (Or.inr failed)

omit [DecidableEq ν] in
theorem translate_grows {results : List (Answered κ ν)} (translated : results.foldlM translateResult dicts = .ok last)
    {key : κ} (failed : key ∈ dicts.fail) : key ∈ last.fail := by
  apply @foldlM_invariant _ _ _ _ _ (fun dicts => key ∈ dicts.fail) _ _ translated
  · intro dicts result next stepped member
    exact translateResult_grows stepped member
  · exact failed

omit [DecidableEq ν] in
/-- The key of a failed result is in the dictionary of the failures. -/
theorem mem_fail_of_translate {results : List (Answered κ ν)}
    (translated : results.foldlM translateResult dicts = .ok last) {result : Answered κ ν} (member : result ∈ results)
    (failed : result.status ≠ .done) : result.id ∈ last.fail := by
  induction results generalizing dicts with
  | nil => cases member
  | cons first results ih =>
    rw [List.foldlM_cons, bind_eq_ok] at translated
    obtain ⟨next, stepped, rest⟩ := translated
    cases List.mem_cons.mp member with
    | inl isFirst =>
      rw [← isFirst] at stepped
      obtain ⟨record, either⟩ := translateResult_cases stepped
      cases either with
      | inl done => exact absurd done.1 failed
      | inr put =>
        apply translate_grows rest
        rw [put.2.2]
        exact (AList.mem_insert _).mpr (Or.inl rfl)
    | inr later => exact ih rest later

omit [DecidableEq ν] in
/-- Without an exception the loop moves the keys that pass the test. -/
theorem visit_moves {m : Batch κ ν} (addsRows : ∀ key, m.client.addRow key = none) (landed : κ → Record ν → Bool)
    (items : List (Σ _ : κ, Record ν)) (dicts : Dicts κ ν) :
    (m.visit landed items dicts).2 = none ∧ ∀ key,
      (key ∈ (m.visit landed items dicts).1.success ↔
        key ∈ dicts.success ∨ ∃ value, ⟨key, value⟩ ∈ items ∧ landed key value = true) ∧
      (key ∈ (m.visit landed items dicts).1.fail ↔
        key ∈ dicts.fail ∧ ¬ ∃ value, ⟨key, value⟩ ∈ items ∧ landed key value = true) := by
  induction items generalizing dicts with
  | nil => exact ⟨rfl, fun key => by simp [Batch.visit]⟩
  | cons item items ih =>
    obtain ⟨moved, value⟩ := item
    have others (key : κ) : (∃ value', (⟨key, value'⟩ : Σ _ : κ, Record ν) ∈ ⟨moved, value⟩ :: items ∧
        landed key value' = true) ↔ (key = moved ∧ landed moved value = true) ∨
          ∃ value', (⟨key, value'⟩ : Σ _ : κ, Record ν) ∈ items ∧ landed key value' = true := by
      constructor
      · intro found
        obtain ⟨value', member, lands⟩ := found
        cases List.mem_cons.mp member with
        | inl here =>
          cases here
          exact Or.inl ⟨rfl, lands⟩
        | inr later => exact Or.inr ⟨value', later, lands⟩
      · intro either
        cases either with
        | inl here => exact ⟨value, by rw [here.1]; exact List.mem_cons_self, by rw [here.1]; exact here.2⟩
        | inr later =>
          obtain ⟨value', member, lands⟩ := later
          exact ⟨value', List.mem_cons_of_mem _ member, lands⟩
    by_cases lands : landed moved value = true
    · rw [Batch.visit, if_pos lands]
      obtain ⟨quiet, rest⟩ := ih (dicts.move moved value)
      refine ⟨quiet, fun key => ?_⟩
      have inSuccess : key ∈ (dicts.move moved value).success ↔ key = moved ∨ key ∈ dicts.success :=
        AList.mem_insert _
      have inFail : key ∈ (dicts.move moved value).fail ↔ key ≠ moved ∧ key ∈ dicts.fail := AList.mem_erase
      rw [(rest key).1, (rest key).2, inSuccess, inFail, others]
      generalize (∃ value', (⟨key, value'⟩ : Σ _ : κ, Record ν) ∈ items ∧ landed key value' = true) = later
      clear ih others rest
      tauto
    · have goesOn : m.visit landed (⟨moved, value⟩ :: items) dicts = m.visit landed items dicts := by
        rw [Batch.visit, if_neg lands, addsRows]
        split <;> rfl
      obtain ⟨quiet, rest⟩ := ih dicts
      rw [goesOn]
      refine ⟨quiet, fun key => ?_⟩
      rw [(rest key).1, (rest key).2, others]
      generalize (∃ value', (⟨key, value'⟩ : Σ _ : κ, Record ν) ∈ items ∧ landed key value' = true) = later
      clear ih others rest goesOn
      tauto

end Dictionaries

/-! ## The test of each function -/

omit [DecidableEq κ] in
/-- An update compares the record of the failure with the document, and they are never equal. -/
theorem landed_iff (op : Mutation) (value : Record ν) (found : Option (ℤ × ν)) :
    op.landed value found = true ↔ op ≠ .update ∧ ∃ read, found = some read ∧ read.1 ≠ 0 := by
  cases found with
  | none => cases op <;> simp [Mutation.landed]
  | some read => cases op <;> simp [Mutation.landed]

namespace ReadBatch

variable {m : ReadBatch κ ν}

/-- What one function moves: keys that failed and were found, except in an update -/
def Moves (m : ReadBatch κ ν) (key : κ) : Prop :=
  key ∈ m.first.fail ∧ m.op ≠ .update ∧ ∃ read, m.readMap key = some read ∧ read.1 ≠ 0

theorem reclassify_last (m : ReadBatch κ ν) : m.toBatch.reclassify m.first = (m.last, none) ∧ ∀ key,
    (key ∈ m.last.success ↔ key ∈ m.first.success ∨ m.Moves key) ∧
      (key ∈ m.last.fail ↔ key ∈ m.first.fail ∧ ¬ m.Moves key) := by
  by_cases empty : m.first.fail.entries = []
  · have none : m.toBatch.reclassify m.first = (m.first, none) := by
      rw [Batch.reclassify, if_pos empty]
    refine ⟨by rw [last, none], fun key => ?_⟩
    have absent : key ∉ m.first.fail := by
      rw [AList.mem_keys, AList.keys, empty]
      exact List.not_mem_nil
    have stays : ¬ m.Moves key := fun moves => absent moves.1
    rw [last, none]
    exact ⟨by simp [stays], by simp [stays]⟩
  · obtain ⟨quiet, moved⟩ := visit_moves m.addsRows
      (fun key value => m.op.landed value (m.readMap key)) m.first.fail.entries m.first
    have visited : m.toBatch.visit (fun key value => m.op.landed value (m.readMap key)) m.first.fail.entries m.first =
        ((m.toBatch.visit (fun key value => m.op.landed value (m.readMap key)) m.first.fail.entries m.first).1, none) := by
      rw [← quiet]
    have whole : m.toBatch.reclassify m.first =
        ((m.toBatch.visit (fun key value => m.op.landed value (m.readMap key)) m.first.fail.entries m.first).1, none) := by
      rw [Batch.reclassify, if_neg empty, m.reads, if_neg Bool.false_ne_true, m.sleeps, m.readBack]
      dsimp only
      rw [visited, m.displays]
      dsimp only
      split <;> rfl
    refine ⟨by rw [last, whole], fun key => ?_⟩
    have found : (∃ value, (⟨key, value⟩ : Σ _ : κ, Record ν) ∈ m.first.fail.entries ∧
        m.op.landed value (m.readMap key) = true) ↔ m.Moves key := by
      constructor
      · intro item
        obtain ⟨value, member, lands⟩ := item
        exact ⟨List.mem_keys_of_mem member, (landed_iff m.op value (m.readMap key)).mp lands⟩
      · intro moves
        obtain ⟨value, member⟩ := List.exists_of_mem_keys moves.1
        exact ⟨value, member, (landed_iff m.op value (m.readMap key)).mpr moves.2⟩
    rw [last, whole, ← found]
    exact moved key

theorem mem_first_fail {result : Answered κ ν} (member : result ∈ m.results) (failed : result.status ≠ .done) :
    result.id ∈ m.first.fail ∧ result.id ∉ m.first.success := by
  have inFail : result.id ∈ m.first.fail := mem_fail_of_translate m.translated member failed
  have mutated : m.toBatch.mutated = .ok m.first := by
    rw [Batch.mutated, m.answered]
    exact m.translated
  have inKeys : result.id ∈ m.keys := (m.answers _ m.answered).mem_iff.mp (List.mem_map_of_mem member)
  have has := Batch.mutated_has mutated inKeys
  exact ⟨inFail, has.elim (fun done => absurd inFail done.2) (fun other => other.2)⟩

theorem run_eq (m : ReadBatch κ ν) (interp : Interpreter) : m.toBatch.run interp = .ok m.last := by
  have mutated : m.toBatch.mutated = .ok m.first := by
    rw [Batch.mutated, m.answered]
    exact m.translated
  rw [Batch.run, mutated]
  dsimp only
  rw [(reclassify_last m).1]

/-- A key that failed is moved if it was found, whatever it was found with, and never by an update. -/
theorem moved_iff {result : Answered κ ν} (member : result ∈ m.results) (failed : result.status ≠ .done) :
    result.id ∈ m.last.success ∧ result.id ∉ m.last.fail ↔
      m.op ≠ .update ∧ ∃ read, m.readMap result.id = some read ∧ read.1 ≠ 0 := by
  obtain ⟨inFail, notInSuccess⟩ := mem_first_fail member failed
  have both := (reclassify_last m).2 result.id
  rw [both.1, both.2]
  constructor
  · intro moved
    exact (moved.1.resolve_left notInSuccess).2
  · intro found
    exact ⟨Or.inr ⟨inFail, found⟩, fun stays => stays.2 ⟨inFail, found⟩⟩

/-- The keys that are moved are those whose documents have landed exactly if a create or a replace finds nothing else,
    and an update, which moves nothing, does not find them. -/
theorem exact_iff_findsWhatItTakes (m : ReadBatch κ ν) (interp : Interpreter) :
    m.Exact interp ↔ m.FindsWhatItTakes := by
  have exact_iff : m.Exact interp ↔ ∀ result ∈ m.results, result.status ≠ .done →
      ((m.op ≠ .update ∧ ∃ read, m.readMap result.id = some read ∧ read.1 ≠ 0) ↔ m.Landed result) := by
    constructor
    · intro exact result member failed
      rw [← moved_iff member failed]
      exact exact m.last (run_eq m interp) result member failed
    · intro same dicts returned result member failed
      rw [run_eq, Except.ok.injEq] at returned
      rw [← returned, moved_iff member failed]
      exact same result member failed
  rw [exact_iff]
  apply forall_congr'
  intro result
  apply forall_congr'
  intro member
  apply forall_congr'
  intro failed
  by_cases isUpdate : m.op = .update
  · simp only [isUpdate, if_true]
    constructor
    · intro same read found present landed
      exact (same.mpr ⟨read, found, present, landed⟩).1 rfl
    · intro others
      refine iff_of_false (fun moved => moved.1 rfl) ?_
      intro landed
      obtain ⟨read, found, present, equal⟩ := landed
      exact others read found present equal
  · simp only [if_neg isUpdate]
    constructor
    · intro same read found present
      obtain ⟨other, isOther, _, equal⟩ := same.mp ⟨isUpdate, read, found, present⟩
      rw [isOther, Option.some_inj] at found
      rw [← found]
      exact equal
    · intro own
      constructor
      · intro moved
        obtain ⟨_, read, found, present⟩ := moved
        exact ⟨read, found, present, own read found present⟩
      · intro landed
        obtain ⟨read, found, present, _⟩ := landed
        exact ⟨isUpdate, read, found, present⟩

/-- An insert that failed because of an older document under its key -/
def olderDocument : ReadBatch String String where
  op := .create
  keys := ["key"]
  nodup := List.nodup_singleton _
  skipReadOnError := false
  suppressErrorTable := true
  client := ⟨.ok [⟨"key", "new", 0, .failed (some "DocumentExistsException")⟩], none, .ok fun _ => some (7, "old"),
    fun _ => none, none⟩
  answers := by
    intro results answered
    cases answered
    exact List.Perm.refl _
  results := [⟨"key", "new", 0, .failed (some "DocumentExistsException")⟩]
  readMap := fun _ => some (7, "old")
  first := ⟨∅, AList.insert "key" ⟨0, "new", some "DocumentExistsException"⟩ ∅⟩
  answered := rfl
  translated := rfl
  reads := rfl
  sleeps := rfl
  readBack := rfl
  addsRows := fun _ => rfl
  displays := rfl

theorem olderDocument_moved : ¬ olderDocument.Exact { catchesJava := true } := by
  intro exact
  have moved := (moved_iff (m := olderDocument) (List.mem_singleton_self _) (by decide)).mpr
    ⟨by decide, (7, "old"), rfl, by decide⟩
  obtain ⟨read, found, _, landed⟩ := (exact olderDocument.last (run_eq _ _) _ (List.mem_singleton_self _)
    (by decide)).mp moved
  cases found
  exact absurd landed (by decide)

end ReadBatch

end Taf.Tasks.Batches
