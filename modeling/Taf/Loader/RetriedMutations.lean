import Taf.Lib.FailFast
import Taf.Loader.PoolBalance

/-! # What the retry of failed mutations does

Behind the main loop `run` goes through `failedMutations` and retries every result by the kind it is kept under.
Here the store answers for itself: a document that exists is not inserted, and one that does not is not deleted. -/

namespace Taf.Loader.FailedMutations

open Taf.Lib

/-- `Result`: what it has of the mutation that failed -/
structure Result (κ δ : Type) where
  id : κ
  document : δ
  deriving DecidableEq

/-- The results are objects, which are equal only to themselves. -/
structure State (κ δ ρ : Type) where
  store : κ → Option δ
  failed : OpType → ArrayList ρ

variable {κ δ ρ : Type} [DecidableEq κ] [DecidableEq ρ]

/-- `DocOps.insert`, `upsert` and `delete` -/
def docop (label : OpType) (r : Result κ δ) (store : κ → Option δ) : Except SdkException (κ → Option δ) :=
  match label with
  | .create =>
    if (store r.id).isSome then .error .documentExists else .ok (Function.update store r.id (some r.document))
  | .update => .ok (Function.update store r.id (some r.document))
  | .delete => if (store r.id).isSome then .ok (Function.update store r.id none) else .error .documentNotFound
  | .expiry => .ok store
  | .read => .ok store

variable (result : ρ → Result κ δ)

/-- The statements behind one `case`, for a result that is kept under `op` -/
def retryCase (op : OpType) (r : ρ) (state : State κ δ ρ) (label : OpType) : State κ δ ρ :=
  match docop label (result r) state.store with
  | .ok store => ⟨store, Function.update state.failed op ((state.failed op).remove r)⟩
  -- it is caught and logged
  | .error _ => state

def retryResult (op : OpType) (r : ρ) (state : State κ δ ρ) : State κ δ ρ :=
  (switchLabels op).foldl (retryCase result op r) state

/-- `for (Result r: optype.getValue())` -/
def retryResults (op : OpType) (state : State κ δ ρ) : Bool × State κ δ ρ :=
  ArrayList.forEach (fun state => state.failed op) (retryResult result op) (state.failed op).modCount
    (state.failed op).elements 0 state

/-- `for (Entry<String, List<Result>> optype: this.failedMutations.entrySet())`; `false` is the end with an exception. -/
def retryEntries : List OpType → State κ δ ρ → Bool × State κ δ ρ
  | [], state => (true, state)
  | op :: ops, state =>
    match retryResults result op state with
    | (true, state) => retryEntries ops state
    | (false, state) => (false, state)

/-- What `run` has when it gets to the retry: `order` is that in which the map lists its keys. -/
structure Retry (κ δ ρ : Type) [DecidableEq κ] [DecidableEq ρ] where
  result : ρ → Result κ δ
  order : List OpType
  nodup : order.Nodup
  before : State κ δ ρ
  listed : ∀ op, (before.failed op).elements ≠ [] → op ∈ order

/-- The kinds that are retried -/
def retried : List OpType := [.create, .update, .delete]

namespace Retry

variable (m : Retry κ δ ρ)

/-- The results kept under a key -/
def kept (op : OpType) : List ρ := (m.before.failed op).elements

def run : Bool × State κ δ ρ := retryEntries m.result m.order m.before

def after : State κ δ ρ := m.run.2

/-- Every operation that is to be retried succeeds, one after the other. -/
def Succeeds : Prop :=
  ∃ store, (m.order.flatMap fun op => (m.kept op).map fun r => (op, r)).foldlM
    (fun store entry => docop entry.1 (m.result entry.2) store) m.before.store = .ok store

/-- The documents of the creates and updates are in the store and those of the deletes are not, nothing else is
    touched, and no result is kept. -/
structure Retried : Prop where
  present : ∀ op ∈ [OpType.create, OpType.update], ∀ r ∈ m.kept op,
    m.after.store (m.result r).id = some (m.result r).document
  absent : ∀ r ∈ m.kept .delete, m.after.store (m.result r).id = none
  untouched : ∀ k, (∀ op ∈ retried, ∀ r ∈ m.kept op, (m.result r).id ≠ k) → m.after.store k = m.before.store k
  removed : ∀ op ∈ retried, ∀ r ∈ m.kept op, r ∉ (m.after.failed op).elements

end Retry

/-! ## One result -/

section OneResult

variable {result : ρ → Result κ δ} {op : OpType} {r : ρ} {state : State κ δ ρ}

/-- A `case` touches only the document of the result. -/
theorem retryCase_store (label : OpType) :
    ∃ document, (retryCase result op r state label).store = Function.update state.store (result r).id document := by
  have same : state.store = Function.update state.store (result r).id (state.store (result r).id) :=
    (Function.update_eq_self _ _).symm
  rw [retryCase]
  cases label with
  | create =>
    rw [docop]
    by_cases there : (state.store (result r).id).isSome
    · rw [if_pos there]
      exact ⟨_, same⟩
    · rw [if_neg there]
      exact ⟨some (result r).document, rfl⟩
  | update => exact ⟨some (result r).document, rfl⟩
  | delete =>
    rw [docop]
    by_cases there : (state.store (result r).id).isSome
    · rw [if_pos there]
      exact ⟨none, rfl⟩
    · rw [if_neg there]
      exact ⟨_, same⟩
  | expiry => exact ⟨_, same⟩
  | read => exact ⟨_, same⟩

theorem retryCase_delete :
    (retryCase result op r state .delete).store = Function.update state.store (result r).id none := by
  rw [retryCase, docop]
  by_cases there : (state.store (result r).id).isSome
  · rw [if_pos there]
  · rw [if_neg there]
    have absent : state.store (result r).id = none := Option.not_isSome_iff_eq_none.mp there
    show state.store = _
    rw [← absent, Function.update_eq_self]

/-- Every label falls through to that of the deletes: whatever a result was kept for, its document is deleted. -/
theorem retryResult_store (isRetried : op ∈ retried) :
    (retryResult result op r state).store = Function.update state.store (result r).id none := by
  have deleted (before : State κ δ ρ) (label : OpType) :
      (retryCase result op r (retryCase result op r before label) .delete).store =
        Function.update before.store (result r).id none := by
    obtain ⟨document, stored⟩ := @retryCase_store _ _ _ _ _ result op r before label
    rw [retryCase_delete, stored, Function.update_idem]
  cases op with
  | create =>
    obtain ⟨document, stored⟩ := @retryCase_store _ _ _ _ _ result .create r state .create
    show (retryCase result .create r (retryCase result .create r (retryCase result .create r state .create)
      .update) .delete).store = _
    rw [deleted, stored, Function.update_idem]
  | update => exact deleted state .update
  | delete => exact retryCase_delete
  | expiry => simp [retried] at isRetried
  | read => simp [retried] at isRetried

theorem retryCase_failed (label : OpType) : (retryCase result op r state label).failed = state.failed ∨
    (retryCase result op r state label).failed =
      Function.update state.failed op ((state.failed op).remove r) := by
  rw [retryCase]
  cases docop label (result r) state.store with
  | ok store => exact Or.inr rfl
  | error e => exact Or.inl rfl

/-- The other lists are left alone. -/
theorem retryResult_failed {other : OpType} (different : other ≠ op) :
    (retryResult result op r state).failed other = state.failed other := by
  rw [retryResult]
  induction switchLabels op generalizing state with
  | nil => rfl
  | cons label labels ih =>
    rw [List.foldl_cons, ih]
    cases @retryCase_failed _ _ _ _ _ result op r state label with
    | inl same => rw [same]
    | inr removed => rw [removed, Function.update_of_ne different]

theorem retryResult_idle (notRetried : op ∉ retried) : retryResult result op r state = state := by
  cases op with
  | expiry => rfl
  | read => rfl
  | create => simp [retried] at notRetried
  | update => simp [retried] at notRetried
  | delete => simp [retried] at notRetried

end OneResult

/-! ## The results of one kind -/

section OneKind

variable {result : ρ → Result κ δ} {op : OpType} {state : State κ δ ρ}

theorem retryResults_invariant (I : State κ δ ρ → Prop)
    (step : ∀ r ∈ (state.failed op).elements, ∀ middle, (middle.failed op).modCount = (state.failed op).modCount →
      I middle → I (retryResult result op r middle)) (start : I state) : I (retryResults result op state).2 :=
  ArrayList.forEach_invariant step start

theorem retryResults_failed {other : OpType} (different : other ≠ op) :
    (retryResults result op state).2.failed other = state.failed other := by
  apply retryResults_invariant fun after => after.failed other = state.failed other
  · intro r _ middle _ same
    rw [retryResult_failed different, same]
  · rfl

/-- A document that is not there is not there afterwards. -/
theorem retryResults_absent {k : κ} (absent : state.store k = none) :
    (retryResults result op state).2.store k = none := by
  apply retryResults_invariant fun after => after.store k = none
  · intro r _ middle _ gone
    by_cases isRetried : op ∈ retried
    · rw [retryResult_store isRetried, Function.update_apply]
      split
      · rfl
      · exact gone
    · rw [retryResult_idle isRetried]
      exact gone
  · exact absent

/-- If the list has changed, then the document of one of its results is gone. -/
theorem retryResults_changed (isRetried : op ∈ retried) :
    (retryResults result op state).2.failed op = state.failed op ∨
      ∃ r ∈ (state.failed op).elements, (retryResults result op state).2.store (result r).id = none := by
  apply retryResults_invariant fun after => after.failed op = state.failed op ∨
    ∃ r ∈ (state.failed op).elements, after.store (result r).id = none
  · intro r listed middle _ _
    exact Or.inr ⟨r, listed, by rw [retryResult_store isRetried, Function.update_self]⟩
  · exact Or.inl rfl

/-- The loop over the deletes removes one of them at most. -/
theorem retryResults_delete : (retryResults result .delete state).2.failed .delete = state.failed .delete ∨
    ∃ r, (retryResults result .delete state).2.failed .delete = (state.failed .delete).remove r := by
  have unchanged : ∀ after : State κ δ ρ, (after.failed .delete = state.failed .delete ∨
      ∃ r, after.failed .delete = (state.failed .delete).remove r) →
      (after.failed .delete).modCount = (state.failed .delete).modCount → after.failed .delete = state.failed .delete := by
    intro after one same
    cases one with
    | inl equal => exact equal
    | inr removed =>
      obtain ⟨r, removed⟩ := removed
      cases ArrayList.remove_cases (state.failed .delete) r with
      | inl kept => rw [removed, kept.2]
      | inr gone =>
        rw [removed, gone.2] at same
        exact absurd same (Nat.succ_ne_self _)
  apply retryResults_invariant fun after => after.failed .delete = state.failed .delete ∨
    ∃ r, after.failed .delete = (state.failed .delete).remove r
  · intro r _ middle same one
    have equal := unchanged middle one same
    cases @retryCase_failed _ _ _ _ _ result .delete r middle .delete with
    | inl kept => exact Or.inl ((congrFun kept .delete).trans equal)
    | inr removed =>
      apply Or.inr
      refine ⟨r, (congrFun removed .delete).trans ?_⟩
      rw [Function.update_self, equal]
  · exact Or.inl rfl

/-- There is nothing to do for an empty list, or for a kind that has no label. -/
theorem retryResults_idle (idle : (state.failed op).elements = [] ∨ op ∉ retried) :
    retryResults result op state = (true, state) := by
  apply ArrayList.forEach_idle
  · intro r listed
    cases idle with
    | inl empty => rw [empty] at listed; cases listed
    | inr notRetried => exact retryResult_idle notRetried
  · rfl
  · exact Nat.zero_add _

/-- After a single delete the cursor is past the end, and the loop is left by an exception. -/
theorem retryResults_single {r : ρ} (single : (state.failed .delete).elements = [r])
    (there : (state.store (result r).id).isSome) :
    retryResults result .delete state = (false, ⟨Function.update state.store (result r).id none,
      Function.update state.failed .delete ⟨[], (state.failed .delete).modCount + 1⟩⟩) := by
  have body : retryResult result .delete r state = ⟨Function.update state.store (result r).id none,
      Function.update state.failed .delete ⟨[], (state.failed .delete).modCount + 1⟩⟩ := by
    show retryCase result .delete r state .delete = _
    rw [retryCase, docop, if_pos there]
    have removed : (state.failed .delete).remove r = ⟨[], (state.failed .delete).modCount + 1⟩ := by
      rw [ArrayList.remove, single, if_pos (List.mem_singleton_self r), List.erase_cons_head]
    rw [← removed]
  rw [retryResults, single, ArrayList.forEach_next (by rw [single]; exact Nat.zero_ne_one) rfl, body]
  apply ArrayList.forEach_changed
  · simp
  · simp

end OneKind

/-! ## All kinds -/

section AllKinds

variable {result : ρ → Result κ δ} {order : List OpType} {state : State κ δ ρ}

/-- Behind the first kind come the others, or the end with an exception. -/
theorem retryEntries_cons (first : OpType) :
    retryEntries result (first :: order) state = retryEntries result order (retryResults result first state).2 ∨
      retryEntries result (first :: order) state = (false, (retryResults result first state).2) := by
  rw [retryEntries]
  split
  case h_1 next ended =>
    rw [ended]
    exact Or.inl rfl
  case h_2 next ended =>
    rw [ended]
    exact Or.inr rfl

theorem retryEntries_invariant (I : State κ δ ρ → Prop)
    (step : ∀ op ∈ order, ∀ middle, I middle → I (retryResults result op middle).2) (start : I state) :
    I (retryEntries result order state).2 := by
  induction order generalizing state with
  | nil => exact start
  | cons first order ih =>
    have here := step first List.mem_cons_self state start
    cases @retryEntries_cons _ _ _ _ _ result order state first with
    | inl later =>
      rw [later]
      exact ih (fun op member => step op (List.mem_cons_of_mem first member)) here
    | inr ended =>
      rw [ended]
      exact here

theorem retryEntries_failed {op : OpType} (notListed : op ∉ order) :
    (retryEntries result order state).2.failed op = state.failed op := by
  apply retryEntries_invariant fun after => after.failed op = state.failed op
  · intro other listed middle same
    have different : op ≠ other := fun equal => notListed (equal ▸ listed)
    rw [retryResults_failed different, same]
  · rfl

theorem retryEntries_absent {k : κ} (absent : state.store k = none) :
    (retryEntries result order state).2.store k = none := by
  apply retryEntries_invariant fun after => after.store k = none
  · intro op _ middle gone
    exact retryResults_absent gone
  · exact absent

/-- A list is left alone, or it is what one loop has left of it. -/
theorem retryEntries_cases (nodup : order.Nodup) (op : OpType) :
    (retryEntries result order state).2.failed op = state.failed op ∨
      ∃ middle, middle.failed op = state.failed op ∧
        (retryEntries result order state).2.failed op = (retryResults result op middle).2.failed op ∧
        ∀ k, (retryResults result op middle).2.store k = none → (retryEntries result order state).2.store k = none := by
  induction order generalizing state with
  | nil => exact Or.inl rfl
  | cons first order ih =>
    rw [List.nodup_cons] at nodup
    have cases := @retryEntries_cons _ _ _ _ _ result order state first
    by_cases this : op = first
    · rw [this]
      refine Or.inr ⟨state, rfl, ?_⟩
      cases cases with
      | inl later =>
        rw [later]
        exact ⟨retryEntries_failed nodup.1, fun k absent => retryEntries_absent absent⟩
      | inr ended =>
        rw [ended]
        exact ⟨rfl, fun k absent => absent⟩
    · have same := @retryResults_failed _ _ _ _ _ result first state op this
      cases cases with
      | inl later =>
        rw [later]
        cases ih nodup.2 with
        | inl kept => exact Or.inl (kept.trans same)
        | inr loop =>
          obtain ⟨middle, before, after, absent⟩ := loop
          exact Or.inr ⟨middle, before.trans same, after, absent⟩
      | inr ended =>
        rw [ended]
        exact Or.inl same

theorem retryEntries_idle (idle : ∀ op ∈ order, (state.failed op).elements = [] ∨ op ∉ retried) :
    retryEntries result order state = (true, state) := by
  induction order with
  | nil => rfl
  | cons first order ih =>
    rw [retryEntries, retryResults_idle (idle first List.mem_cons_self)]
    exact ih fun op later => idle op (List.mem_cons_of_mem first later)

/-- With only one delete to retry, its loop is the end. -/
theorem retryEntries_single {r : ρ} (listed : OpType.delete ∈ order)
    (others : ∀ op ≠ .delete, (state.failed op).elements = [] ∨ op ∉ retried)
    (single : (state.failed .delete).elements = [r]) (there : (state.store (result r).id).isSome) :
    retryEntries result order state = (false, ⟨Function.update state.store (result r).id none,
      Function.update state.failed .delete ⟨[], (state.failed .delete).modCount + 1⟩⟩) := by
  induction order with
  | nil => cases listed
  | cons first order ih =>
    rw [retryEntries]
    by_cases this : first = .delete
    · rw [this, retryResults_single single there]
    · rw [retryResults_idle (others first this)]
      exact ih ((List.mem_cons.mp listed).resolve_left (Ne.symm this))

omit [DecidableEq ρ] in
/-- Deletes alone succeed only for documents that are there. -/
theorem isSome_of_deleted {entries : List (OpType × ρ)} {store last : κ → Option δ}
    (succeeds : entries.foldlM (fun store entry => docop entry.1 (result entry.2) store) store = .ok last)
    (noneAdded : ∀ entry ∈ entries, entry.1 ≠ .create ∧ entry.1 ≠ .update) {r : ρ} (deleted : (.delete, r) ∈ entries) :
    (store (result r).id).isSome := by
  by_contra absent
  rw [Option.not_isSome_iff_eq_none] at absent
  induction entries generalizing store with
  | nil => cases deleted
  | cons entry entries ih =>
    rw [List.foldlM_cons] at succeeds
    obtain ⟨op, r'⟩ := entry
    have later := fun entry member => noneAdded entry (List.mem_cons_of_mem (op, r') member)
    have here := noneAdded (op, r') List.mem_cons_self
    cases op with
    | create => exact here.1 rfl
    | update => exact here.2 rfl
    | expiry =>
      cases List.mem_cons.mp deleted with
      | inl now => cases now
      | inr rest => exact ih succeeds later rest absent
    | read =>
      cases List.mem_cons.mp deleted with
      | inl now => cases now
      | inr rest => exact ih succeeds later rest absent
    | delete =>
      by_cases there : (store (result r').id).isSome
      · rw [docop, if_pos there] at succeeds
        cases List.mem_cons.mp deleted with
        | inl now =>
          cases now
          rw [absent] at there
          cases there
        | inr rest =>
          apply ih succeeds later rest
          rw [Function.update_apply]
          split
          · rfl
          · exact absent
      · rw [docop, if_neg there] at succeeds
        cases succeeds

end AllKinds

/-! ## The whole retry -/

namespace Retry

variable {m : Retry κ δ ρ}

theorem not_added_of_retried (right : m.Retried) {op : OpType} (added : op ∈ [OpType.create, OpType.update]) :
    m.kept op = [] := by
  have isRetried : op ∈ retried := by
    simp only [retried, List.mem_cons, List.not_mem_nil, or_false] at added ⊢
    tauto
  by_contra some'
  obtain ⟨first, member⟩ := List.exists_mem_of_ne_nil _ some'
  have gone := right.removed op isRetried first member
  cases @retryEntries_cases _ _ _ _ _ m.result m.order m.before m.nodup op with
  | inl same =>
    rw [after, run, same] at gone
    exact gone member
  | inr visited =>
    obtain ⟨middle, before, ended, absent⟩ := visited
    cases @retryResults_changed _ _ _ _ _ m.result op middle isRetried with
    | inl same =>
      rw [after, run, ended, same, before] at gone
      exact gone member
    | inr deleted =>
      obtain ⟨r, listed, isAbsent⟩ := deleted
      rw [before] at listed
      have there := right.present op added r listed
      rw [after, run, absent _ isAbsent] at there
      cases there

theorem one_delete_of_retried (right : m.Retried) : (m.kept .delete).length ≤ 1 := by
  by_contra more
  rw [not_le] at more
  have gone := right.removed .delete (by simp [retried])
  have unchanged : m.after.failed .delete ≠ m.before.failed .delete := by
    intro same
    obtain ⟨first, member⟩ := List.exists_mem_of_length_pos (Nat.lt_trans Nat.one_pos more)
    apply gone first member
    rw [same]
    exact member
  cases @retryEntries_cases _ _ _ _ _ m.result m.order m.before m.nodup .delete with
  | inl same => exact unchanged same
  | inr visited =>
    obtain ⟨middle, before, ended, _⟩ := visited
    cases @retryResults_delete _ _ _ _ _ m.result middle with
    | inl same => exact unchanged (ended.trans (same.trans before))
    | inr removed =>
      obtain ⟨r, removed⟩ := removed
      rw [before] at removed
      cases ArrayList.remove_cases (m.before.failed .delete) r with
      | inl kept => exact unchanged (ended.trans (removed.trans kept.2))
      | inr one =>
        have final : (m.after.failed .delete).elements = (m.kept .delete).erase r := by
          rw [after, run, ended, removed, one.2, kept]
        have length := List.length_erase_of_mem one.1
        rw [← kept] at length
        obtain ⟨left, member⟩ := List.exists_mem_of_length_pos (show 0 < ((m.kept .delete).erase r).length by omega)
        apply gone left (List.mem_of_mem_erase member)
        rw [final]
        exact member

/-- Nothing but deletes, and nothing that has no label, is kept. -/
theorem idle_of_empty (noCreate : m.kept .create = []) (noUpdate : m.kept .update = []) (op : OpType)
    (other : op ≠ .delete) : (m.before.failed op).elements = [] ∨ op ∉ retried := by
  cases op with
  | create => exact Or.inl noCreate
  | update => exact Or.inl noUpdate
  | delete => exact absurd rfl other
  | expiry => exact Or.inr (by simp [retried])
  | read => exact Or.inr (by simp [retried])

theorem run_of_empty (noCreate : m.kept .create = []) (noUpdate : m.kept .update = [])
    (noDelete : m.kept .delete = []) : m.run = (true, m.before) := by
  apply retryEntries_idle
  intro op _
  by_cases other : op = .delete
  · rw [other]
    exact Or.inl noDelete
  · exact idle_of_empty noCreate noUpdate op other

theorem run_of_single (succeeds : m.Succeeds) (noCreate : m.kept .create = []) (noUpdate : m.kept .update = [])
    {r : ρ} (single : m.kept .delete = [r]) :
    m.run = (false, ⟨Function.update m.before.store (m.result r).id none,
      Function.update m.before.failed .delete ⟨[], (m.before.failed .delete).modCount + 1⟩⟩) := by
  have listed : OpType.delete ∈ m.order := m.listed .delete (by rw [kept] at single; rw [single]; exact List.cons_ne_nil r [])
  obtain ⟨last, passed⟩ := succeeds
  have there : (m.before.store (m.result r).id).isSome := by
    apply isSome_of_deleted passed
    · intro entry member
      obtain ⟨op, _, inKept⟩ := List.mem_flatMap.mp member
      obtain ⟨r', inList, isEntry⟩ := List.mem_map.mp inKept
      rw [← isEntry]
      constructor
      · intro created
        rw [show op = OpType.create from created, noCreate] at inList
        cases inList
      · intro updated
        rw [show op = OpType.update from updated, noUpdate] at inList
        cases inList
    · exact List.mem_flatMap.mpr ⟨.delete, listed, List.mem_map.mpr ⟨r, by rw [single]; exact List.mem_singleton_self r, rfl⟩⟩
  exact retryEntries_single listed (idle_of_empty noCreate noUpdate) single there

theorem retried_of_empty (noCreate : m.kept .create = []) (noUpdate : m.kept .update = [])
    (noDelete : m.kept .delete = []) : m.Retried := by
  have nothing (op : OpType) (isRetried : op ∈ retried) : m.kept op = [] := by
    cases op with
    | create => exact noCreate
    | update => exact noUpdate
    | delete => exact noDelete
    | expiry => simp [retried] at isRetried
    | read => simp [retried] at isRetried
  constructor
  · intro op added r member
    rw [nothing op (by simp only [retried, List.mem_cons, List.not_mem_nil, or_false] at added ⊢; tauto)] at member
    cases member
  · intro r member
    rw [noDelete] at member
    cases member
  · intro k _
    rw [after, run_of_empty noCreate noUpdate noDelete]
  · intro op isRetried r member
    rw [nothing op isRetried] at member
    cases member

theorem retried_of_single (succeeds : m.Succeeds) (noCreate : m.kept .create = []) (noUpdate : m.kept .update = [])
    {r : ρ} (single : m.kept .delete = [r]) : m.Retried := by
  have ended := congrArg Prod.snd (run_of_single succeeds noCreate noUpdate single)
  constructor
  · intro op added r member
    cases op with
    | create => rw [noCreate] at member; cases member
    | update => rw [noUpdate] at member; cases member
    | delete => simp at added
    | expiry => simp at added
    | read => simp at added
  · intro r' member
    rw [single, List.mem_singleton] at member
    rw [after, ended, member]
    exact Function.update_self _ _ _
  · intro k outside
    rw [after, ended]
    apply Function.update_of_ne
    exact (outside .delete (by simp [retried]) r (by rw [single]; exact List.mem_singleton_self r)).symm
  · intro op isRetried r' member
    cases op with
    | create => rw [noCreate] at member; cases member
    | update => rw [noUpdate] at member; cases member
    | delete =>
      rw [after, ended]
      show r' ∉ (Function.update m.before.failed .delete _ OpType.delete).elements
      rw [Function.update_self]
      exact List.not_mem_nil
    | expiry => simp [retried] at isRetried
    | read => simp [retried] at isRetried

theorem retried_iff (succeeds : m.Succeeds) :
    m.Retried ↔ m.kept .create = [] ∧ m.kept .update = [] ∧ (m.kept .delete).length ≤ 1 := by
  constructor
  · intro right
    exact ⟨not_added_of_retried right (by simp), not_added_of_retried right (by simp), one_delete_of_retried right⟩
  · intro only
    obtain ⟨noCreate, noUpdate, one⟩ := only
    cases Nat.le_one_iff_eq_zero_or_eq_one.mp one with
    | inl zero => exact retried_of_empty noCreate noUpdate (List.length_eq_zero_iff.mp zero)
    | inr one =>
      obtain ⟨r, single⟩ := List.length_eq_one_iff.mp one
      exact retried_of_single succeeds noCreate noUpdate single

/-- The retry leaves what it should exactly if there is nothing to retry but a single delete, and behind that one
    it is left by an exception. -/
theorem retry_right_iff (m : Retry κ δ ρ) (succeeds : m.Succeeds) :
    (m.Retried ↔ m.kept .create = [] ∧ m.kept .update = [] ∧ (m.kept .delete).length ≤ 1) ∧
      (m.Retried ∧ m.run.1 = true ↔ m.kept .create = [] ∧ m.kept .update = [] ∧ m.kept .delete = []) := by
  refine ⟨retried_iff succeeds, ?_, ?_⟩
  · intro both
    obtain ⟨noCreate, noUpdate, one⟩ := (retried_iff succeeds).mp both.1
    refine ⟨noCreate, noUpdate, ?_⟩
    cases Nat.le_one_iff_eq_zero_or_eq_one.mp one with
    | inl zero => exact List.length_eq_zero_iff.mp zero
    | inr one =>
      obtain ⟨r, single⟩ := List.length_eq_one_iff.mp one
      have ended := both.2
      rw [run_of_single succeeds noCreate noUpdate single] at ended
      cases ended
  · intro nothing
    obtain ⟨noCreate, noUpdate, noDelete⟩ := nothing
    exact ⟨retried_of_empty noCreate noUpdate noDelete, by rw [run_of_empty noCreate noUpdate noDelete]⟩

/-- An insert that timed out, of a document that is not there -/
def oneCreate : Retry String String Unit where
  result := fun _ => ⟨"key", "document"⟩
  order := [.create]
  nodup := List.nodup_singleton _
  before := ⟨fun _ => none, fun op => if op = .create then ⟨[()], 1⟩ else ⟨[], 0⟩⟩
  listed := by
    intro op some'
    by_cases isCreate : op = .create
    · rw [isCreate]
      exact List.mem_singleton_self _
    · dsimp only at some'
      rw [if_neg isCreate] at some'
      exact absurd rfl some'

theorem oneCreate_succeeds : oneCreate.Succeeds := ⟨_, rfl⟩

theorem retry_right_oneCreate : (oneCreate.Retried ↔ oneCreate.kept .create = [] ∧ oneCreate.kept .update = [] ∧
    (oneCreate.kept .delete).length ≤ 1) ∧ (oneCreate.Retried ∧ oneCreate.run.1 = true ↔
      oneCreate.kept .create = [] ∧ oneCreate.kept .update = [] ∧ oneCreate.kept .delete = []) :=
  retry_right_iff oneCreate ⟨_, rfl⟩

/-- It is inserted, and deleted at once. -/
theorem oneCreate_deleted : oneCreate.Succeeds ∧ ¬ oneCreate.Retried := by
  refine ⟨oneCreate_succeeds, ?_⟩
  intro right
  have there : oneCreate.after.store "key" = some "document" :=
    right.present .create (by simp) () (List.mem_singleton_self _)
  have deleted : oneCreate.after.store "key" = none := by decide
  rw [deleted] at there
  cases there

end Retry

end Taf.Loader.FailedMutations
