import Taf.Transactions.ModeAgreement

/-! # Failures that are lost

Each reactive transaction overwrites the result of those before it.  A failure is reported exactly if
there is one transaction at most, or if the last one fails in any case. -/

namespace Taf.SimpleTransaction

open Taf.Lib Taf.Lib.Actions

variable {κ α : Type} [DecidableEq κ]

namespace Call

variable {call : Call κ α} {collection : κ}

/-- The reactive transactions that are run -/
def steps (call : Call κ α) : List (List (Actions (κ × String) (JsonObject α))) :=
  (call.collections.flatMap call.batches).filter fun batch => !batch.isEmpty

theorem runTransaction_steps (fates : ℕ → Fate κ α) : call.runTransaction false fates =
    call.steps.foldl (runStep call.commit) (⟨call.content, fates, false⟩, []) := by
  rw [runTransaction_async, steps, List.foldl_filter]
  congr 1
  funext state batch
  cases batch <;> rfl

omit [DecidableEq κ] in
theorem length_steps : call.steps.length = call.collections.length * call.kinds := by
  have one (collection : κ) : ((call.batches collection).filter fun batch => !batch.isEmpty).length = call.kinds := by
    rw [batches, kinds]
    cases call.createkeys <;> cases call.updatekeys <;> cases call.deletekeys <;> rfl
  rw [steps, List.filter_flatMap, List.length_flatMap]
  simp [one]

/-- The last list that there is a transaction for -/
def lastBatch (call : Call κ α) (collection : κ) : Batch (κ × String) (JsonObject α) :=
  if call.deletekeys ≠ [] then call.deleteBatch collection
  else if call.updatekeys ≠ [] then call.updateBatch collection
  else call.createBatch collection

omit [DecidableEq κ] in
theorem steps_eq (some : call.steps ≠ []) : ∃ before, ∃ collection ∈ call.collections,
    call.steps = before ++ [(call.lastBatch collection).actions] := by
  rcases List.eq_nil_or_concat call.collections with none | ⟨first, collection, split⟩
  · simp [steps, none] at some
  · have kinds : call.kinds ≠ 0 := by
      intro none
      have length := call.length_steps
      rw [none, Nat.mul_zero] at length
      exact some (List.length_eq_zero_iff.mp length)
    have last : ∃ before, (call.batches collection).filter (fun batch => !batch.isEmpty) =
        before ++ [(call.lastBatch collection).actions] := by
      have actions : (call.createBatch collection).actions = call.createkeys.map (insertOne collection) ∧
          (call.updateBatch collection).actions = call.updatekeys.map (replaceOne collection) ∧
            (call.deleteBatch collection).actions = call.deletekeys.map (removeOne collection) := by
        simp [createBatch, updateBatch, deleteBatch, Batch.actions, Function.comp_def]
      rw [batches, lastBatch]
      cases deletes : call.deletekeys with
      | cons key keys =>
        refine ⟨[call.createkeys.map (insertOne collection), call.updatekeys.map (replaceOne collection)].filter
          fun batch => !batch.isEmpty, ?_⟩
        rw [if_pos (by simp), actions.2.2, deletes]
        exact List.filter_append [_, _] [_]
      | nil =>
        rw [if_neg (by simp)]
        cases updates : call.updatekeys with
        | cons key keys =>
          refine ⟨[call.createkeys.map (insertOne collection)].filter fun batch => !batch.isEmpty, ?_⟩
          rw [if_pos (by simp), actions.2.1, updates]
          exact List.filter_append [_] [_, _]
        | nil =>
          rw [if_neg (by simp), actions.1]
          cases creates : call.createkeys with
          | cons document documents => exact ⟨[], rfl⟩
          | nil => simp [Call.kinds, creates, updates, deletes] at kinds
    obtain ⟨before, last⟩ := last
    refine ⟨(first.flatMap call.batches).filter (fun batch => !batch.isEmpty) ++ before, collection, ?_, ?_⟩
    · rw [split]
      simp
    · rw [steps, split, List.concat_eq_append, List.flatMap_append, List.filter_append, List.flatMap_singleton, last,
        List.append_assoc]

/-- A fault leaves what its fate says, and the transactions after it have the fates that are left. -/
theorem foldl_runStep_faults {commit : Bool} {content : Content κ α}
    {batches : List (List (Actions (κ × String) (JsonObject α)))} (some : ∀ batch ∈ batches, batch ≠ [])
    {state : Progress κ α × List String}
    (faults : ∀ n < batches.length, (state.1.fates n).fault = true ∧ (state.1.fates n).left = content) :
    (batches.foldl (runStep commit) state).1.fates = (fun n => state.1.fates (n + batches.length)) ∧
      (batches ≠ [] → (batches.foldl (runStep commit) state).1.content = content ∧
        (batches.foldl (runStep commit) state).1.failed = true) := by
  induction batches generalizing state with
  | nil => exact ⟨rfl, fun none => absurd rfl none⟩
  | cons batch batches ih =>
    obtain ⟨firstDoc, remainingDocs, rfl⟩ := List.exists_cons_of_ne_nil (some batch List.mem_cons_self)
    have fault := faults 0 (by simp)
    have one : (runStep commit state (firstDoc :: remainingDocs)).1 =
        ⟨content, fun n => state.1.fates (n + 1), true⟩ := by
      rw [runStep, transact]
      simp [fault.1, fault.2]
    have rest := @ih (fun other member => some other (List.mem_cons_of_mem _ member))
      (runStep commit state (firstDoc :: remainingDocs)) (by
        intro n inside
        rw [one]
        exact faults (n + 1) (by simpa using inside))
    rw [List.foldl_cons, rest.1, one]
    refine ⟨rfl, ?_⟩
    intro _
    by_cases none : batches = []
    · rw [none, List.foldl_nil, one]
      exact ⟨rfl, rfl⟩
    · exact rest.2 none

/-- Where the last list repeats no document, its transaction can succeed. -/
theorem fits_lastBatch (inside : collection ∈ call.collections)
    (single : ¬ if call.deletekeys ≠ [] then ¬ call.deletekeys.Nodup
      else call.updatekeys = [] ∧ ¬ (call.createkeys.map Prod.fst).Nodup) :
    (call.lastBatch collection).Fits call.content := by
  rw [lastBatch]
  split
  · rename_i removes
    rw [if_pos removes, not_not] at single
    exact fits_deleteBatch inside single
  · rename_i keeps
    rw [if_neg keeps] at single
    split
    · exact fits_updateBatch inside
    · rename_i none
      exact fits_createBatch inside (by tauto)

/-- Where the last list repeats a document, its transaction fails. -/
theorem lastBatch_stuck (repeated : if call.deletekeys ≠ [] then ¬ call.deletekeys.Nodup
      else call.updatekeys = [] ∧ ¬ (call.createkeys.map Prod.fst).Nodup) {order : List ℕ} {content last : Content κ α}
    (ended : interleave order (call.lastBatch collection).actions content = some last) : False := by
  have named (keys : List String) (distinct : (keys.map fun key => (collection, key)).Nodup) : keys.Nodup :=
    distinct.of_map _
  rw [lastBatch] at ended
  split at repeated
  · rename_i removes
    rw [if_pos removes, deleteBatch, Batch.actions, List.map_map] at ended
    exact repeated (named _ (interleave_map_nodup (fun key => .get fun _ => .remove .done) ended))
  · rename_i keeps
    rw [if_neg keeps, if_neg (not_not.mpr repeated.1), createBatch, Batch.actions, List.map_map] at ended
    have distinct := interleave_map_nodup (fun document => .insert .done) ended
    apply repeated.2
    apply named
    rw [List.map_map]
    exact distinct

omit [DecidableEq κ] in
/-- The last transaction that is run -/
theorem last_step {before : List (List (Actions (κ × String) (JsonObject α)))}
    (split : call.steps = before ++ [(call.lastBatch collection).actions]) :
    (∀ batch ∈ before, batch ≠ []) ∧
      ∃ firstDoc remainingDocs, (call.lastBatch collection).actions = firstDoc :: remainingDocs := by
  have some : ∀ batch ∈ call.steps, batch ≠ [] := by
    intro batch member none
    have kept := (List.mem_filter.mp member).2
    rw [none] at kept
    cases kept
  rw [split] at some
  refine ⟨fun batch member => some batch (List.mem_append_left _ member), ?_⟩
  exact List.exists_cons_of_ne_nil (some _ (by simp))

/-- All but the last of several transactions fail. -/
theorem exists_lost (several : ¬ call.steps.length ≤ 1)
    (single : ¬ if call.deletekeys ≠ [] then ¬ call.deletekeys.Nodup
      else call.updatekeys = [] ∧ ¬ (call.createkeys.map Prod.fst).Nodup) : ∃ fates,
    (call.runTransaction false fates).1.failed = true ∧ (call.runTransaction false fates).2 = [] := by
  obtain ⟨before, collection, inside, split⟩ := steps_eq (by
    intro none
    rw [none] at several
    exact several (Nat.zero_le 1))
  have others : before ≠ [] := by
    intro none
    rw [split, none] at several
    exact several (Nat.le_refl 1)
  obtain ⟨some, firstDoc, remainingDocs, actions⟩ := last_step split
  obtain ⟨last, ran, _⟩ := (fits_lastBatch inside single).run
  rw [actions] at ran
  obtain ⟨turns, ended⟩ := reactive_of_runAll ran
  let fates (n : ℕ) : Fate κ α :=
    if n < before.length then ⟨[], true, [""], by simp, call.content⟩ else ⟨turns, false, [""], by simp, call.content⟩
  have faults : ∀ n < before.length, (fates n).fault = true ∧ (fates n).left = call.content := by
    intro n small
    simp [fates, small]
  have behind : fates (0 + before.length) = ⟨turns, false, [""], by simp, call.content⟩ := by
    simp [fates]
  refine ⟨fates, ?_⟩
  rw [runTransaction_steps, split, List.foldl_append, List.foldl_cons, List.foldl_nil, actions]
  obtain ⟨shifted, failed⟩ := @foldl_runStep_faults _ _ _ call.commit call.content before some
    (⟨call.content, fates, false⟩, []) faults
  rw [runStep, transact, shifted]
  simp only [behind, (failed others).1, ended]
  exact ⟨(failed others).2, trivial⟩

theorem reports_iff (call : Call κ α) : call.Reports ↔ call.LastReports := by
  rw [LastReports, ← length_steps]
  constructor
  · intro reports
    by_contra lost
    rw [not_or] at lost
    obtain ⟨fates, failed, unreported⟩ := exists_lost lost.1 lost.2
    exact reports false fates failed unreported
  · intro condition sync fates failure
    cases sync with
    | true =>
      rw [runTransaction_sync] at failure ⊢
      exact transact_failed rfl failure
    | false =>
      rw [runTransaction_steps] at failure ⊢
      by_cases some : call.steps = []
      · rw [some] at failure
        cases failure
      · obtain ⟨before, collection, inside, split⟩ := steps_eq some
        obtain ⟨_, firstDoc, remainingDocs, actions⟩ := last_step split
        rw [split, List.foldl_append, List.foldl_cons, List.foldl_nil, actions] at failure ⊢
        rcases condition with one | repeated
        · have alone : before = [] := by
            rw [split, List.length_append, List.length_singleton] at one
            exact List.length_eq_zero_iff.mp (by omega)
          rw [alone] at failure ⊢
          exact transact_failed rfl failure
        · apply transact_stuck
          intro order
          cases ended : reactive firstDoc remainingDocs order _ with
          | none => rfl
          | some staged =>
            obtain ⟨turns, done⟩ := reactive_interleave ended
            rw [← actions] at done
            exact (lastBatch_stuck repeated done).elim

/-- The modes agree and no failure is lost exactly if the updates come to the same, and there is one
    reactive transaction at most or the last one fails in any case. -/
theorem modes_agree_iff (call : Call κ α) :
    call.Agrees ∧ call.Reports ↔ call.SameUpdates ∧ call.LastReports := by
  rw [agrees_iff, reports_iff]

end Call

/-- One document, updated twice -/
def twoUpdates : Call Unit Unit where
  collections := [()]
  createkeys := []
  updatekeys := ["doc"]
  deletekeys := []
  commit := true
  updatecount := 2
  content := fun _ => some ∅
  absent := by simp
  present := by simp
  apart := by simp
  fresh := by simp
  counted := by decide
  int := by decide

/-- One document, created in two collections -/
def twoCollections : Call Bool Unit where
  collections := [false, true]
  createkeys := [("doc", ∅)]
  updatekeys := []
  deletekeys := []
  commit := true
  updatecount := 1
  content := fun _ => none
  absent := by simp
  present := by simp
  apart := by simp
  fresh := by simp
  counted := Nat.one_pos
  int := by decide

theorem modes_differ : ¬ twoUpdates.Agrees ∧ ¬ twoCollections.Reports := by
  refine ⟨?_, ?_⟩
  · rw [Call.agrees_iff]
    simp [Call.SameUpdates, twoUpdates, Call.created, Call.deleted, intMax]
  · rw [Call.reports_iff]
    simp [Call.LastReports, twoCollections, Call.kinds]

end Taf.SimpleTransaction
