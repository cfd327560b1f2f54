import Taf.Tasks.Task

/-! # Failures of continuous document operations

`ContinuousDocOpsTask._start_doc_ops` submits one `LoadDocumentsTask` for each client, round
after round, and copies the failures of a task into its own dictionary right after the task is
submitted.  The tasks record failures from pool threads of their own.  A schedule lets the
scheduling thread, the tasks and the caller of `end_task` take their steps in any order. -/

namespace Taf.Tasks.ContinuousDocOps

open Taf.Lib

/-- A `LoadDocumentsTask` that was submitted: the keys of its `fail` and how its future ended. -/
structure DocTask where
  fail : List String := []
  ended : Option TaskEnd := none
  deriving DecidableEq

inductive Phase where
  -- `while not self.__stop_updates`
  | head
  -- The loop over `doc_gens`.
  | submit (index : Nat)
  -- The task is submitted; `self.fail.update(task.fail)` comes next.
  | copy (index : Nat)
  -- The loop over `doc_tasks`, with the tasks still to wait for.
  | wait (docTasks : List Nat)
  | returned
  | raised
  deriving DecidableEq

structure State where
  phase : Phase := .head
  stopUpdates : Bool := false
  itrCount : Nat := 0
  -- All tasks of all rounds, in the order they were submitted.
  tasks : List DocTask := []
  -- The tasks of this round.
  docTasks : List Nat := []
  fail : List String := []
  deriving DecidableEq

inductive Action where
  -- The thread that runs `_start_doc_ops`.
  | schedule
  | endTask
  -- A batch of the task returned these failures: `self.fail.update(fail)`.
  | record (task : Nat) (keys : List String)
  | finish (task : Nat) (ended : TaskEnd)
  deriving DecidableEq

/-- The thread of the task still runs; a cancelled future says nothing about its thread. -/
def DocTask.running (task : DocTask) : Bool :=
  match task.ended with
  | none => true
  | some .cancelled => true
  | some .returned => false
  | some .raised => false

def DocTask.record (task : DocTask) (keys : List String) : DocTask :=
  if task.running then { task with fail := task.fail ++ keys } else task

def DocTask.finish (task : DocTask) (ended : TaskEnd) : DocTask :=
  if task.ended.isNone then { task with ended := some ended } else task

/-- One step of `_start_doc_ops` with as many clients. -/
def scheduleStep (clients : Nat) (s : State) : State :=
  match s.phase with
  | .head =>
    if s.stopUpdates then { s with phase := .returned }
    else { s with phase := .submit 0, itrCount := s.itrCount + 1, docTasks := [] }
  | .submit index =>
    if index < clients then
      { s with
        phase := .copy index
        tasks := s.tasks ++ [{}]
        docTasks := s.docTasks ++ [s.tasks.length] }
    else { s with phase := .wait s.docTasks }
  | .copy index =>
    { s with
      phase := .submit (index + 1)
      fail := s.fail ++ (s.tasks.getLast?.map DocTask.fail).getD [] }
  | .wait [] => { s with phase := .head }
  | .wait (task :: docTasks) =>
    match s.tasks[task]?.bind DocTask.ended with
    -- `future.get()` does not return yet.
    | none => s
    | some ended =>
      match getTaskResult ended with
      | .ok () => { s with phase := .wait docTasks }
      | .error _ => { s with phase := .raised }
  | .returned => s
  | .raised => s

def step (clients : Nat) (s : State) : Action → State
  | .schedule => scheduleStep clients s
  | .endTask => { s with stopUpdates := true }
  | .record task keys => { s with tasks := s.tasks.modify task (·.record keys) }
  | .finish task ended => { s with tasks := s.tasks.modify task (·.finish ended) }

/-! ## Failures that are copied -/

/-- How many of the tasks have had their failures copied: all but one just submitted. -/
def State.copied (s : State) : Nat :=
  match s.phase with
  | .copy _ => s.tasks.length - 1
  | _ => s.tasks.length

/-- Nothing that a copied task has recorded is missing. -/
def State.Complete (s : State) : Prop :=
  ∀ task docTask, s.tasks[task]? = some docTask → task < s.copied →
    ∀ key ∈ docTask.fail, key ∈ s.fail

/-- A task records before its failures are copied, or only what is known by then. -/
def InTime (s : State) : Action → Prop
  | .record task keys =>
    task < s.copied → (s.tasks[task]?.map DocTask.running).getD false = true →
      ∀ key ∈ keys, key ∈ s.fail
  | .schedule => True
  | .endTask => True
  | .finish _ _ => True

variable {clients : Nat} {s : State}

/-- The tasks after a step of one of them. -/
theorem getElem?_modify_eq_some {tasks : List DocTask} {task other : Nat} {change : DocTask → DocTask}
    {docTask : DocTask} (found : (tasks.modify task change)[other]? = some docTask) :
    ∃ before, tasks[other]? = some before ∧
      docTask = if task = other then change before else before := by
  rw [List.getElem?_modify] at found
  cases entry : tasks[other]? with
  | none => simp [entry] at found
  | some before =>
    refine ⟨before, rfl, ?_⟩
    simp only [entry, Option.map_eq_map, Option.map_some, Option.some.injEq] at found
    rw [← found]

theorem record_fail (docTask : DocTask) (keys : List String) :
    (docTask.record keys).fail = if docTask.running then docTask.fail ++ keys else docTask.fail := by
  unfold DocTask.record
  split <;> rfl

theorem finish_fail (docTask : DocTask) (ended : TaskEnd) :
    (docTask.finish ended).fail = docTask.fail := by
  unfold DocTask.finish
  split <;> rfl

/-- A step of the scheduling thread that leaves the tasks and their failures alone. -/
theorem State.Complete.of_same {s' : State} (complete : s.Complete) (tasks : s'.tasks = s.tasks)
    (copied : s'.copied ≤ s.copied) (fail : s'.fail = s.fail) : s'.Complete := by
  intro task docTask found isCopied key member
  rw [tasks] at found
  rw [fail]
  exact complete task docTask found (by omega) key member

theorem copied_eq_length (notCopying : ∀ index, s.phase ≠ .copy index) :
    s.copied = s.tasks.length := by
  unfold State.copied
  split
  case h_1 index phase => exact absurd phase (notCopying index)
  case h_2 => rfl

theorem copied_le_length (s : State) : s.copied ≤ s.tasks.length := by
  unfold State.copied
  split <;> omega

/-- The scheduling thread copies the failures of a task before it counts the task as copied. -/
theorem State.Complete.scheduleStep (complete : s.Complete) :
    (scheduleStep clients s).Complete := by
  cases phase : s.phase with
  | head =>
    have all := copied_eq_length (s := s) (by simp [phase])
    simp only [ContinuousDocOps.scheduleStep, phase]
    split <;> exact complete.of_same rfl (by rw [all]; exact copied_le_length _) rfl
  | submit index =>
    have all := copied_eq_length (s := s) (by simp [phase])
    simp only [ContinuousDocOps.scheduleStep, phase]
    split
    case isTrue more =>
      -- The new task is behind the ones that are copied.
      intro task docTask found isCopied key member
      simp only [State.copied, List.length_append, List.length_singleton, Nat.add_sub_cancel]
        at isCopied
      rw [List.getElem?_append_left isCopied] at found
      exact complete task docTask found (by omega) key member
    case isFalse => exact complete.of_same rfl (by rw [all]; exact copied_le_length _) rfl
  | copy index =>
    simp only [ContinuousDocOps.scheduleStep, phase]
    intro task docTask found isCopied key member
    simp only [State.copied] at isCopied
    by_cases last : task < s.tasks.length - 1
    · have old := complete task docTask found (by simpa [State.copied, phase] using last) key member
      exact List.mem_append_left _ old
    · have position : s.tasks.getLast? = some docTask := by
        rw [List.getLast?_eq_getElem?, ← found]
        congr 1
        omega
      refine List.mem_append_right _ ?_
      rw [position]
      exact member
  | wait docTasks =>
    have all := copied_eq_length (s := s) (by simp [phase])
    cases docTasks with
    | nil =>
      simp only [ContinuousDocOps.scheduleStep, phase]
      exact complete.of_same rfl (by rw [all]; exact copied_le_length _) rfl
    | cons task docTasks =>
      cases ended : s.tasks[task]?.bind DocTask.ended with
      | none =>
        simp only [ContinuousDocOps.scheduleStep, phase, ended]
        exact complete
      | some ended' =>
        simp only [ContinuousDocOps.scheduleStep, phase, ended]
        cases getTaskResult ended' with
        | ok _ => exact complete.of_same rfl (by rw [all]; exact copied_le_length _) rfl
        | error _ => exact complete.of_same rfl (by rw [all]; exact copied_le_length _) rfl
  | returned =>
    simp only [ContinuousDocOps.scheduleStep, phase]
    exact complete
  | raised =>
    simp only [ContinuousDocOps.scheduleStep, phase]
    exact complete

/-- A step of a task does not change which tasks are copied. -/
theorem copied_modify (s : State) (task : Nat) (change : DocTask → DocTask) :
    State.copied { s with tasks := s.tasks.modify task change } = s.copied := by
  unfold State.copied
  simp only [List.length_modify]

theorem complete_record_iff (complete : s.Complete) (task : Nat) (keys : List String) :
    (step clients s (.record task keys)).Complete ↔ InTime s (.record task keys) := by
  constructor
  · intro after isCopied running key member
    cases entry : s.tasks[task]? with
    | none => simp [entry] at running
    | some docTask =>
      have recorded : (s.tasks.modify task (·.record keys))[task]? = some (docTask.record keys) := by
        simp [entry]
      have runs : docTask.running = true := by simpa [entry] using running
      refine after task _ recorded (by rwa [step, copied_modify]) key ?_
      rw [record_fail, if_pos runs]
      exact List.mem_append_right _ member
  · intro inTime other docTask found isCopied key member
    rw [step, copied_modify] at isCopied
    obtain ⟨before, entry, rfl⟩ := getElem?_modify_eq_some found
    have old := complete other before entry isCopied key
    split at member
    case isTrue same =>
      subst same
      rw [record_fail] at member
      split at member
      case isTrue runs =>
        cases List.mem_append.mp member with
        | inl known => exact old known
        | inr new => exact inTime isCopied (by simpa [entry] using runs) key new
      case isFalse => exact old member
    case isFalse => exact old member

theorem State.Complete.finish (complete : s.Complete) (task : Nat) (ended : TaskEnd) :
    (step clients s (.finish task ended)).Complete := by
  intro other docTask found isCopied key member
  rw [step, copied_modify] at isCopied
  obtain ⟨before, entry, rfl⟩ := getElem?_modify_eq_some found
  refine complete other before entry isCopied key ?_
  split at member
  case isTrue => rwa [finish_fail] at member
  case isFalse => exact member

theorem complete_step_iff (complete : s.Complete) (action : Action) :
    (step clients s action).Complete ↔ InTime s action := by
  cases action with
  | schedule => exact iff_of_true complete.scheduleStep trivial
  | endTask => exact iff_of_true complete trivial
  | record task keys => exact complete_record_iff complete task keys
  | finish task ended => exact iff_of_true (complete.finish task ended) trivial

/-! ## Runs -/

theorem complete_throughout_iff (actions : List Action) :
    (∀ before after, actions = before ++ after → (run (step clients) {} before).Complete) ↔
      Guarded (step clients) InTime {} actions :=
  @run_forall_prefix_iff _ _ (step clients) (fun _ => True) State.Complete InTime
    (fun _ _ _ => trivial) (fun _ action _ complete => complete_step_iff complete action)
    _ trivial (by intro task docTask found; simp at found) actions

/-- `self.fail` has all that the tasks recorded when `_start_doc_ops` returns, if no task records
    a failure after its dictionary was copied; and such a failure is missing until another task
    that is copied later has it too. -/
theorem fail_complete_of_inTime (clients : Nat) (actions : List Action) :
    (Guarded (step clients) InTime {} actions →
      (run (step clients) {} actions).phase = .returned →
        ∀ docTask ∈ (run (step clients) {} actions).tasks, ∀ key ∈ docTask.fail,
          key ∈ (run (step clients) {} actions).fail) ∧
    ((∀ before after, actions = before ++ after → (run (step clients) {} before).Complete) ↔
      Guarded (step clients) InTime {} actions) := by
  refine ⟨?_, complete_throughout_iff actions⟩
  intro inTime returned docTask member key failed
  have complete := (complete_throughout_iff actions).mpr inTime actions [] (List.append_nil _).symm
  obtain ⟨task, found⟩ := List.mem_iff_getElem?.mp member
  have isCopied := (List.getElem?_eq_some_iff.mp found).1
  refine complete task docTask found ?_ key failed
  rwa [copied_eq_length (by simp [returned])]

/-- One client and one round; the task reports its failure while the scheduler waits for it. -/
def failureWhileWaiting : List Action :=
  [.schedule, .schedule, .schedule, .schedule, .record 0 ["doc-1"], .finish 0 .returned, .schedule,
    .endTask, .schedule, .schedule]

theorem failure_while_waiting_is_lost :
    let s := run (step 1) {} failureWhileWaiting
    s.phase = .returned ∧ s.tasks = [{ fail := ["doc-1"], ended := some .returned }] ∧
      s.fail = [] := by
  decide

end Taf.Tasks.ContinuousDocOps
