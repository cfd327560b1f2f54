import Taf.DocGen.GeneratorClasses
import Taf.Lib.Polling
import Taf.Lib.PyText

/-! # Loading durable writes that abort

`BucketUtils.load_durable_aborts` stops memcached on a node while some of its load tasks run, and
expects these to fail for all their keys and the other ones for none.  How many keys that are is
taken from the generator: from its `doc_keys`, where there are any, and else from its `end`.  What
the tasks fail for, and when they are complete, are parameters of a call. -/

namespace Taf.Tasks.DurableAborts

open Taf.Lib Taf.DocGen

/-! ## Generators and tasks -/

/-- A generator, as far as the function and its task look at it: the keys are those that the task
goes through.  Without the attribute `doc_keys` they are the keys of the index range. -/
structure LoadGen where
  start : ℤ
  -- The source's `end`
  stop : ℤ
  docKeys : Option (List String)
  keys : List String
  collected : ∀ key rest, docKeys = some (key :: rest) → keys = key :: rest
  ranged : docKeys.getD [] = [] → keys.length = (stop - start).toNat

/-- A load task and the keys of its `fail` in the end -/
structure LoadTask where
  gen : LoadGen
  fail : Finset String
  within : fail ⊆ gen.keys.toFinset

/-- `get_num_items(doc_gen)` -/
def getNumItems (docGen : LoadGen) : Except PyError ℤ :=
  match docGen.docKeys with
  | none => .error .attributeError
  | some docKeys => if docKeys ≠ [] then .ok docKeys.length else .ok docGen.stop

inductive LoadType where
  | allAborts
  | initialAborts
  | abortsAtEnd
  | mixedAborts
  deriving DecidableEq

inductive Event where
  -- `cb_err.create(STOP_MEMCACHED)`
  | stop
  -- `cb_err.revert(STOP_MEMCACHED)`
  | revert
  | started (task : LoadTask)
  -- `get_task_result(task)`
  | awaited (task : LoadTask)
  -- The tasks have been looked through: all of them were complete, or not.
  | seen (complete : Bool)

/-- What a part of the function does, and the `result` that it leaves -/
structure Call where
  events : List Event
  result : Except PyError Bool

/-- One part behind the other; an exception ends the call. -/
def Call.andThen (first next : Call) : Call :=
  match first.result with
  | .error e => ⟨first.events, .error e⟩
  | .ok result => ⟨first.events ++ next.events, next.result.map (result && ·)⟩

/-! ## `load_durable_aborts` -/

/-- One task that runs while memcached is stopped -/
def abortLoad (task : LoadTask) : Call :=
  match getNumItems task.gen with
  | .error e => ⟨[], .error e⟩
  | .ok numItems => ⟨[.stop, .started task, .awaited task, .revert], .ok (decide ((task.fail.card : ℤ) = numItems))⟩

/-- `load_docs` starts each task at once. -/
def startAll : List LoadTask → Call
  | [] => ⟨[], .ok true⟩
  | task :: tasks =>
    match getNumItems task.gen with
    | .error e => ⟨[.started task], .error e⟩
    | .ok _ => Call.andThen ⟨[.started task], .ok true⟩ (startAll tasks)

/-- The tasks that are to succeed -/
def normalLoads (tasks : List LoadTask) : Call :=
  (startAll tasks).andThen ⟨tasks.map .awaited, .ok (tasks.all fun task => task.fail.card = 0)⟩

def initialAborts : List LoadTask → Call
  | [] => ⟨[], .error .indexError⟩
  | first :: others => (abortLoad first).andThen (normalLoads others)

def abortsAtEnd (tasks : List LoadTask) : Call :=
  let lastLoad : Call :=
    match tasks.getLast? with
    | none => ⟨[], .error .indexError⟩
    | some last => abortLoad last
  (normalLoads tasks.dropLast).andThen lastLoad

def allAborts (tasks : List LoadTask) : Call :=
  match tasks.mapM fun task => getNumItems task.gen with
  | .error e => ⟨[], .error e⟩
  | .ok numItems =>
    ⟨.stop :: (tasks.map .started ++ tasks.map .awaited ++ [.revert]),
      .ok ((tasks.zip numItems).all fun pair => (pair.1.fail.card : ℤ) = pair.2)⟩

structure MixedLoop where
  tasksCompleted : Bool
  events : List Event

/-- One round of the loop, with its test behind it: which tasks are complete is looked at first. -/
def mixedStep (loop : MixedLoop) (completed : List Bool) : Except (List Event) MixedLoop :=
  let complete := completed.all id
  let tasksCompleted := if complete then loop.tasksCompleted else false
  let events := loop.events ++ [.seen complete, .stop, .revert]
  if !tasksCompleted then .ok ⟨tasksCompleted, events⟩ else .error events

/-- `while not tasks_completed` with at most `n` rounds; the flag is `True` in front of the loop. -/
def mixedLoop (events : List Event) (completed : ℕ → List Bool) (n : ℕ) : Except (List Event) MixedLoop :=
  let loop : MixedLoop := ⟨true, events⟩
  if !loop.tasksCompleted then afterPolls mixedStep completed loop n else .error loop.events

/-- `none` while the loop goes on -/
def mixedAborts (tasks : List LoadTask) (completed : ℕ → List Bool) (n : ℕ) : Option Call :=
  match mixedLoop (tasks.map .started) completed n with
  | .ok _ => none
  | .error events => some ⟨events ++ tasks.map .awaited, .ok true⟩

/-- `load_durable_aborts(.., load_gens, .., load_type)`, with the states of the tasks in each round -/
def loadDurableAborts (loadType : LoadType) (tasks : List LoadTask) (completed : ℕ → List Bool) (n : ℕ) :
    Option Call :=
  match loadType with
  | .initialAborts => some (initialAborts tasks)
  | .abortsAtEnd => some (abortsAtEnd tasks)
  | .mixedAborts => mixedAborts tasks completed n
  | .allAborts => some (allAborts tasks)

/-! ## The promise -/

/-- What a pattern runs while memcached is stopped -/
def runStopped {α : Type*} (loadType : LoadType) (items : List α) : List α :=
  match loadType with
  | .initialAborts => items.head?.toList
  | .abortsAtEnd => items.getLast?.toList
  | _ => items

/-- What it runs otherwise -/
def runNormally {α : Type*} (loadType : LoadType) (items : List α) : List α :=
  match loadType with
  | .initialAborts => items.tail
  | .abortsAtEnd => items.dropLast
  | _ => []

/-- The tasks that have been started while memcached was stopped -/
def startedStopped : Bool → List Event → List LoadTask
  | _, [] => []
  | _, .stop :: events => startedStopped true events
  | _, .revert :: events => startedStopped false events
  | stopped, .started task :: events =>
    if stopped then task :: startedStopped stopped events else startedStopped stopped events
  | stopped, _ :: events => startedStopped stopped events

/-- All keys of the tasks that run while memcached is stopped have failed, and none of the others. -/
def Expected (loadType : LoadType) (tasks : List LoadTask) : Prop :=
  (∀ task ∈ runStopped loadType tasks, task.fail = task.gen.keys.toFinset) ∧
    ∀ task ∈ runNormally loadType tasks, task.fail = ∅

/-- Every stop of memcached is followed by its revert. -/
def Reverted (events : List Event) : Prop :=
  ∀ before after : List Event, events = before ++ .stop :: after → .revert ∈ after

/-- Memcached was stopped and resumed while some task was incomplete, and all were complete in the end. -/
def PeriodicallyStopped (events : List Event) : Prop :=
  (∃ before after : List Event, events = before ++ .seen false :: .stop :: .revert :: after) ∧
    ∃ before after : List Event, events = before ++ .seen true :: after ∧ ∀ complete, .seen complete ∉ after

/-- The promise about a pattern and its generators, for all that their tasks may do -/
structure AbortsRight (loadType : LoadType) (gens : List LoadGen) : Prop where
  verdict : loadType ≠ .mixedAborts → ∀ tasks, tasks.map LoadTask.gen = gens → ∀ completed n call,
    loadDurableAborts loadType tasks completed n = some call → (call.result = .ok true ↔ Expected loadType tasks)
  stopped : loadType ≠ .mixedAborts → ∀ tasks, tasks.map LoadTask.gen = gens → ∀ completed n call result,
    loadDurableAborts loadType tasks completed n = some call → call.result = .ok result →
      startedStopped false call.events = runStopped loadType tasks
  mixed : loadType = .mixedAborts → ∀ tasks, tasks.map LoadTask.gen = gens → ∀ completed,
    (∀ k, (completed k).length = tasks.length) → (completed 0).all id = false → (∃ k, (completed k).all id = true) →
      ∃ n call, loadDurableAborts loadType tasks completed n = some call ∧ PeriodicallyStopped call.events
  reverted : ∀ tasks, tasks.map LoadTask.gen = gens → ∀ completed n call,
    loadDurableAborts loadType tasks completed n = some call → Reverted call.events

/-- Either there are collected keys, all different, or the end of the range is the number of different keys. -/
def CountsRight (gen : LoadGen) : Prop :=
  if gen.docKeys.getD [] = [] then gen.stop = gen.keys.toFinset.card else gen.keys.Nodup

/-! ## The number of keys -/

section

variable {gen : LoadGen} {task : LoadTask}

theorem keys_of_collected (collected : gen.docKeys.getD [] ≠ []) : gen.keys = gen.docKeys.getD [] := by
  cases found : gen.docKeys with
  | none => simp [found] at collected
  | some docKeys =>
    cases docKeys with
    | nil => simp [found] at collected
    | cons key rest => exact gen.collected key rest found

theorem getNumItems_eq_ok {numItems : ℤ} : getNumItems gen = .ok numItems ↔
    gen.docKeys.isSome ∧ numItems = if gen.docKeys.getD [] = [] then gen.stop else (gen.docKeys.getD []).length := by
  rw [getNumItems]
  cases gen.docKeys with
  | none => simp
  | some docKeys =>
    by_cases none : docKeys = []
    · simp [none, eq_comm]
    · simp [none, eq_comm]

theorem getNumItems_card_iff : getNumItems gen = .ok gen.keys.toFinset.card ↔
    gen.docKeys.isSome ∧ CountsRight gen := by
  rw [getNumItems_eq_ok, CountsRight]
  refine and_congr_right fun _ => ?_
  by_cases none : gen.docKeys.getD [] = []
  · simp only [none, if_true]
    exact eq_comm
  · rw [if_neg none, if_neg none, ← keys_of_collected none, Nat.cast_inj]
    exact Multiset.toFinset_card_eq_card_iff_nodup (m := (gen.keys : Multiset String))

/-- For an index range without a repeated key, one of its bounds is 0. -/
theorem countsRight_range_iff (range : gen.docKeys.getD [] = []) (different : gen.keys.Nodup) :
    CountsRight gen ↔ gen.start = 0 ∧ 0 ≤ gen.stop ∨ gen.stop = 0 ∧ 0 ≤ gen.start := by
  rw [CountsRight, if_pos range, List.toFinset_card_of_nodup different, gen.ranged range]
  omega

theorem card_fail_eq_iff : task.fail.card = task.gen.keys.toFinset.card ↔ task.fail = task.gen.keys.toFinset := by
  constructor
  · intro same
    exact Finset.eq_of_subset_of_card_le task.within same.ge
  · intro same
    rw [same]

end

/-! ## The verdict of a call -/

section

variable {task : LoadTask} {tasks : List LoadTask} {first next : Call}

theorem andThen_true : (first.andThen next).result = .ok true ↔
    first.result = .ok true ∧ next.result = .ok true := by
  rw [Call.andThen]
  cases first.result with
  | error e => simp
  | ok result =>
    cases next.result with
    | error e => simp [Except.map]
    | ok later => simp [Except.map]

/-- As many failures as are expected -/
def FailsAll (task : LoadTask) : Prop := getNumItems task.gen = .ok (task.fail.card : ℤ)

/-- No failure, where the number of keys has been asked for all the same -/
def FailsNone (task : LoadTask) : Prop := task.gen.docKeys.isSome ∧ task.fail = ∅

theorem abortLoad_true : (abortLoad task).result = .ok true ↔ FailsAll task := by
  rw [abortLoad, FailsAll]
  cases getNumItems task.gen with
  | error e => simp
  | ok numItems => simp [eq_comm]

theorem startAll_true : (startAll tasks).result = .ok true ↔ ∀ task ∈ tasks, task.gen.docKeys.isSome := by
  induction tasks with
  | nil => simp [startAll]
  | cons task tasks ih =>
    rw [startAll, List.forall_mem_cons, ← ih, getNumItems]
    cases task.gen.docKeys with
    | none => simp
    | some docKeys =>
      by_cases none : docKeys = []
      · simp [none, andThen_true]
      · simp [none, andThen_true]

theorem normalLoads_true : (normalLoads tasks).result = .ok true ↔ ∀ task ∈ tasks, FailsNone task := by
  rw [normalLoads, andThen_true, startAll_true]
  simp only [Except.ok.injEq, List.all_eq_true, decide_eq_true_eq, Finset.card_eq_zero, FailsNone, ← forall₂_and]

theorem zip_failures : ((tasks.mapM fun task => getNumItems task.gen).map fun numItems =>
    (tasks.zip numItems).all fun pair => decide ((pair.1.fail.card : ℤ) = pair.2)) = .ok true ↔
      ∀ task ∈ tasks, FailsAll task := by
  induction tasks with
  | nil => exact iff_of_true rfl (by simp)
  | cons task tasks ih =>
    rw [List.mapM_cons, List.forall_mem_cons]
    refine Iff.trans ?_ (and_congr_right fun _ => ih)
    rw [FailsAll]
    cases getNumItems task.gen with
    | error e => simp [bind, Except.bind, Except.map]
    | ok numItems =>
      cases tasks.mapM fun task => getNumItems task.gen with
      | error e => simp [bind, Except.bind, Except.map]
      | ok rest =>
        have swap : numItems = (task.fail.card : ℤ) ↔ (task.fail.card : ℤ) = numItems := eq_comm
        simp [bind, Except.bind, Except.map, pure, Except.pure, swap]

theorem allAborts_true : (allAborts tasks).result = .ok true ↔ ∀ task ∈ tasks, FailsAll task := by
  rw [← zip_failures, allAborts]
  cases tasks.mapM fun task => getNumItems task.gen <;> rfl

/-- The verdict of the three patterns that have one -/
theorem verdict_iff {loadType : LoadType} (pattern : loadType ≠ .mixedAborts) (nonempty : tasks ≠ [])
    {completed : ℕ → List Bool} {n : ℕ} {call : Call}
    (called : loadDurableAborts loadType tasks completed n = some call) : call.result = .ok true ↔
      (∀ task ∈ runStopped loadType tasks, FailsAll task) ∧ ∀ task ∈ runNormally loadType tasks, FailsNone task := by
  cases loadType with
  | mixedAborts => exact absurd rfl pattern
  | allAborts =>
    cases called
    simp [allAborts_true, runStopped, runNormally]
  | initialAborts =>
    cases called
    cases tasks with
    | nil => exact absurd rfl nonempty
    | cons first others => simp [initialAborts, andThen_true, abortLoad_true, normalLoads_true, runStopped, runNormally]
  | abortsAtEnd =>
    cases called
    cases found : tasks.getLast? with
    | none => exact absurd (List.getLast?_eq_none_iff.mp found) nonempty
    | some last =>
      simp only [abortsAtEnd, found, andThen_true, abortLoad_true, normalLoads_true, runStopped, runNormally,
        Option.mem_toList, Option.some_inj, forall_eq']
      exact and_comm

end

/-! ## Stops and reverts -/

section

variable {task : LoadTask} {tasks : List LoadTask} {events events' : List Event}

theorem Reverted.append (first : Reverted events) (second : Reverted events') : Reverted (events ++ events') := by
  intro before after split
  obtain ⟨rest, rfl, later⟩ | ⟨rest, rfl, later⟩ := List.append_eq_append_iff.mp split
  · exact second rest after later
  · cases rest with
    | nil => exact second [] after (by simpa using later.symm)
    | cons event rest =>
      rw [List.cons_append] at later
      cases later
      exact List.mem_append_left _ (first before rest rfl)

theorem reverted_of_quiet (quiet : .stop ∉ events) : Reverted events := by
  intro before after split
  exact absurd (by simp [split]) quiet

/-- A stop with its revert around events that are neither -/
theorem reverted_pair (quiet : .stop ∉ events) : Reverted (.stop :: (events ++ [.revert])) := by
  intro before after split
  cases before with
  | nil =>
    cases split
    simp
  | cons event before =>
    rw [List.cons_append] at split
    have later := (List.cons.inj split).2
    have member : Event.stop ∈ events ++ [Event.revert] := by simp [later]
    obtain inside | last := List.mem_append.mp member
    · exact absurd inside quiet
    · cases List.mem_singleton.mp last

theorem stop_notMem_awaited : Event.stop ∉ tasks.map .awaited := by simp

theorem Reverted.andThen {first next : Call} (here : Reverted first.events) (later : Reverted next.events) :
    Reverted (first.andThen next).events := by
  rw [Call.andThen]
  cases first.result with
  | error e => exact here
  | ok result => exact here.append later

theorem reverted_abortLoad : Reverted (abortLoad task).events := by
  rw [abortLoad]
  cases getNumItems task.gen with
  | error e => exact reverted_of_quiet List.not_mem_nil
  | ok numItems => exact @reverted_pair [.started task, .awaited task] (by simp)

theorem reverted_startAll : Reverted (startAll tasks).events := by
  induction tasks with
  | nil => exact reverted_of_quiet List.not_mem_nil
  | cons task tasks ih =>
    rw [startAll]
    cases getNumItems task.gen with
    | error e => exact reverted_of_quiet (by simp)
    | ok numItems => exact Reverted.andThen (reverted_of_quiet (by simp)) ih

theorem reverted_normalLoads : Reverted (normalLoads tasks).events :=
  reverted_startAll.andThen (reverted_of_quiet stop_notMem_awaited)

theorem reverted_allAborts : Reverted (allAborts tasks).events := by
  rw [allAborts]
  cases tasks.mapM fun task => getNumItems task.gen with
  | error e => exact reverted_of_quiet List.not_mem_nil
  | ok numItems => exact reverted_pair (by simp)

/-- The loop of the mixed pattern is not entered. -/
theorem mixedAborts_eq (completed : ℕ → List Bool) (n : ℕ) :
    mixedAborts tasks completed n = some ⟨tasks.map .started ++ tasks.map .awaited, .ok true⟩ := rfl

theorem reverted_call {loadType : LoadType} {completed : ℕ → List Bool} {n : ℕ} {call : Call}
    (called : loadDurableAborts loadType tasks completed n = some call) : Reverted call.events := by
  cases loadType with
  | allAborts =>
    cases called
    exact reverted_allAborts
  | initialAborts =>
    cases called
    cases tasks with
    | nil => exact reverted_of_quiet List.not_mem_nil
    | cons first others => exact reverted_abortLoad.andThen reverted_normalLoads
  | abortsAtEnd =>
    cases called
    refine reverted_normalLoads.andThen ?_
    cases tasks.getLast? with
    | none => exact reverted_of_quiet List.not_mem_nil
    | some last => exact reverted_abortLoad
  | mixedAborts =>
    cases called
    exact reverted_of_quiet (by simp)

/-! ## What runs while memcached is stopped -/

theorem startedStopped_started (stopped : Bool) : startedStopped stopped (tasks.map .started ++ events) =
    (if stopped then tasks else []) ++ startedStopped stopped events := by
  induction tasks with
  | nil => cases stopped <;> rfl
  | cons task tasks ih => cases stopped <;> simpa [startedStopped] using ih

theorem startedStopped_awaited (stopped : Bool) :
    startedStopped stopped (tasks.map .awaited ++ events) = startedStopped stopped events := by
  induction tasks with
  | nil => rfl
  | cons task tasks ih => simpa [startedStopped] using ih

theorem events_of_andThen {first next : Call} {result : Bool} (returned : (first.andThen next).result = .ok result) :
    (∃ own, first.result = .ok own) ∧ (∃ own, next.result = .ok own) ∧
      (first.andThen next).events = first.events ++ next.events := by
  rw [Call.andThen] at returned ⊢
  cases found : first.result with
  | error e => simp [found] at returned
  | ok own =>
    simp only [found] at returned ⊢
    obtain ⟨later, here, -⟩ := map_eq_ok.mp returned
    exact ⟨⟨own, rfl⟩, ⟨later, here⟩, trivial⟩

theorem events_abortLoad {result : Bool} (returned : (abortLoad task).result = .ok result) :
    (abortLoad task).events = [.stop, .started task, .awaited task, .revert] := by
  rw [abortLoad] at returned ⊢
  cases found : getNumItems task.gen with
  | error e => simp [found] at returned
  | ok numItems => rfl

theorem events_startAll {result : Bool} (returned : (startAll tasks).result = .ok result) :
    (startAll tasks).events = tasks.map .started := by
  induction tasks generalizing result with
  | nil => rfl
  | cons task tasks ih =>
    rw [startAll] at returned ⊢
    cases found : getNumItems task.gen with
    | error e => simp [found] at returned
    | ok numItems =>
      simp only [found] at returned ⊢
      obtain ⟨-, ⟨own, later⟩, events⟩ := events_of_andThen returned
      rw [events, ih later]
      rfl

theorem events_normalLoads {result : Bool} (returned : (normalLoads tasks).result = .ok result) :
    (normalLoads tasks).events = tasks.map .started ++ tasks.map .awaited := by
  obtain ⟨⟨own, first⟩, -, events⟩ := events_of_andThen returned
  rw [normalLoads, events, events_startAll first]

theorem events_allAborts {result : Bool} (returned : (allAborts tasks).result = .ok result) :
    (allAborts tasks).events = .stop :: (tasks.map .started ++ tasks.map .awaited ++ [.revert]) := by
  rw [allAborts] at returned ⊢
  cases found : tasks.mapM fun task => getNumItems task.gen with
  | error e => simp [found] at returned
  | ok numItems => rfl

/-- The tasks that a call starts while memcached is stopped are those of its pattern. -/
theorem startedStopped_call {loadType : LoadType} (pattern : loadType ≠ .mixedAborts) {completed : ℕ → List Bool}
    {n : ℕ} {call : Call} {result : Bool} (called : loadDurableAborts loadType tasks completed n = some call)
    (returned : call.result = .ok result) : startedStopped false call.events = runStopped loadType tasks := by
  cases loadType with
  | mixedAborts => exact absurd rfl pattern
  | allAborts =>
    cases called
    rw [events_allAborts returned, startedStopped, List.append_assoc, startedStopped_started, startedStopped_awaited]
    simp [startedStopped, runStopped]
  | initialAborts =>
    cases called
    cases tasks with
    | nil => cases returned
    | cons first others =>
      rw [initialAborts] at returned ⊢
      obtain ⟨⟨_, first⟩, ⟨_, later⟩, events⟩ := events_of_andThen returned
      rw [events, events_abortLoad first, events_normalLoads later]
      have quiet : startedStopped false (others.map .started ++ others.map .awaited) = [] := by
        rw [startedStopped_started, ← List.append_nil (others.map Event.awaited), startedStopped_awaited]
        rfl
      simp [startedStopped, quiet, runStopped]
  | abortsAtEnd =>
    cases called
    rw [abortsAtEnd] at returned ⊢
    obtain ⟨⟨_, first⟩, ⟨_, later⟩, events⟩ := events_of_andThen returned
    rw [events, events_normalLoads first, List.append_assoc, startedStopped_started, startedStopped_awaited]
    cases found : tasks.getLast? with
    | none => simp [found] at later
    | some last =>
      simp only [found] at later ⊢
      rw [events_abortLoad later]
      simp [startedStopped, runStopped, found]

end

/-! ## When the promise is kept -/

section

variable {α β : Type*}

theorem runStopped_map (loadType : LoadType) (f : α → β) (items : List α) :
    runStopped loadType (items.map f) = (runStopped loadType items).map f := by
  cases loadType with
  | initialAborts => cases items <;> rfl
  | abortsAtEnd => cases found : items.getLast? <;> simp [runStopped, List.getLast?_map, found]
  | _ => rfl

/-- Every item is run in one way or the other. -/
theorem mem_run {loadType : LoadType} {items : List α} {item : α} :
    item ∈ items ↔ item ∈ runStopped loadType items ∨ item ∈ runNormally loadType items := by
  cases loadType with
  | initialAborts => cases items <;> simp [runStopped, runNormally]
  | abortsAtEnd =>
    obtain rfl | ⟨front, last, rfl⟩ := List.eq_nil_or_concat items
    · simp [runStopped, runNormally]
    · simp [runStopped, runNormally, or_comm]
  | _ => simp [runStopped, runNormally]

end

/-- A task that fails for all its keys -/
def failing (gen : LoadGen) : LoadTask := ⟨gen, gen.keys.toFinset, Finset.Subset.refl _⟩

def succeeding (gen : LoadGen) : LoadTask := ⟨gen, ∅, Finset.empty_subset _⟩

/-- Tasks that do what a pattern expects of them -/
def expectedTasks (loadType : LoadType) (gens : List LoadGen) : List LoadTask :=
  match loadType with
  | .initialAborts => gens.head?.toList.map failing ++ gens.tail.map succeeding
  | .abortsAtEnd => gens.dropLast.map succeeding ++ gens.getLast?.toList.map failing
  | _ => gens.map failing

theorem expectedTasks_gen (loadType : LoadType) (gens : List LoadGen) :
    (expectedTasks loadType gens).map LoadTask.gen = gens := by
  have failed : LoadTask.gen ∘ failing = id := rfl
  have succeeded : LoadTask.gen ∘ succeeding = id := rfl
  cases loadType with
  | initialAborts => cases gens <;> simp [expectedTasks, succeeded, failing]
  | abortsAtEnd =>
    obtain rfl | ⟨front, last, rfl⟩ := List.eq_nil_or_concat gens
    · rfl
    · simp [expectedTasks, succeeded, failing]
  | _ => simp [expectedTasks, failed]

theorem ne_nil_of_gens {tasks : List LoadTask} {first : LoadGen} {others : List LoadGen}
    (gens : tasks.map LoadTask.gen = first :: others) : tasks ≠ [] := by
  intro none
  rw [none] at gens
  cases gens

theorem runs_expectedTasks (loadType : LoadType) (gens : List LoadGen) :
    runStopped loadType (expectedTasks loadType gens) = (runStopped loadType gens).map failing ∧
      runNormally loadType (expectedTasks loadType gens) = (runNormally loadType gens).map succeeding := by
  cases loadType with
  | initialAborts => cases gens <;> simp [expectedTasks, runStopped, runNormally]
  | abortsAtEnd =>
    obtain rfl | ⟨front, last, rfl⟩ := List.eq_nil_or_concat gens
    · exact ⟨rfl, rfl⟩
    · simp [expectedTasks, runStopped, runNormally]
  | _ => exact ⟨rfl, rfl⟩

theorem expected_expectedTasks (loadType : LoadType) (gens : List LoadGen) :
    Expected loadType (expectedTasks loadType gens) := by
  obtain ⟨stopped, normally⟩ := runs_expectedTasks loadType gens
  rw [Expected, stopped, normally]
  simp [failing, succeeding]

theorem failsAll_iff {task : LoadTask} (keyed : task.gen.docKeys.isSome) (counts : CountsRight task.gen) :
    FailsAll task ↔ task.fail = task.gen.keys.toFinset := by
  rw [FailsAll, getNumItems_card_iff.mpr ⟨keyed, counts⟩, Except.ok.injEq, Nat.cast_inj, ← card_fail_eq_iff]
  exact eq_comm

theorem counted_of_failsAll {gen : LoadGen} (fails : FailsAll (failing gen)) :
    gen.docKeys.isSome ∧ CountsRight gen :=
  getNumItems_card_iff.mp fails

/-- The mixed pattern never stops memcached. -/
theorem not_periodicallyStopped {tasks : List LoadTask} {completed : ℕ → List Bool} {n : ℕ} {call : Call}
    (called : loadDurableAborts .mixedAborts tasks completed n = some call) : ¬ PeriodicallyStopped call.events := by
  intro stopped
  cases (mixedAborts_eq completed n).symm.trans called
  obtain ⟨before, after, split⟩ := stopped.1
  change tasks.map Event.started ++ tasks.map Event.awaited = _ at split
  have member : Event.seen false ∈ tasks.map Event.started ++ tasks.map Event.awaited := by simp [split]
  simp at member

theorem not_abortsRight_mixed (first : LoadGen) (others : List LoadGen) :
    ¬ AbortsRight .mixedAborts (first :: others) := by
  intro right
  have gens := expectedTasks_gen .mixedAborts (first :: others)
  -- The tasks are all incomplete at first, and complete from then on.
  let completed : ℕ → List Bool := fun k => List.replicate (others.length + 1) (decide (k ≠ 0))
  have states : ∀ k, (completed k).length = (expectedTasks .mixedAborts (first :: others)).length := by
    intro k
    rw [← List.length_map LoadTask.gen, gens]
    simp [completed]
  obtain ⟨n, call, called, stopped⟩ := right.mixed rfl _ gens completed states (by simp [completed])
    ⟨1, by simp [completed]⟩
  exact not_periodicallyStopped called stopped

/-- The promise is kept exactly for the patterns but the mixed one, with generators that have `doc_keys`, of
which those that run while memcached is stopped are counted right. -/
theorem abortsRight_iff (loadType : LoadType) (first : LoadGen) (others : List LoadGen) :
    AbortsRight loadType (first :: others) ↔ loadType ≠ .mixedAborts ∧
      (∀ gen ∈ first :: others, gen.docKeys.isSome) ∧
        ∀ gen ∈ runStopped loadType (first :: others), CountsRight gen := by
  constructor
  · intro right
    have pattern : loadType ≠ .mixedAborts := by
      intro mixed
      rw [mixed] at right
      exact not_abortsRight_mixed first others right
    have called : ∃ call, loadDurableAborts loadType (expectedTasks loadType (first :: others)) (fun _ => []) 0 =
        some call := by
      cases loadType with
      | mixedAborts => exact absurd rfl pattern
      | _ => exact ⟨_, rfl⟩
    obtain ⟨call, called⟩ := called
    have nonempty := ne_nil_of_gens (expectedTasks_gen loadType (first :: others))
    have verdict := (right.verdict pattern _ (expectedTasks_gen loadType _) _ _ call called).mpr
      (expected_expectedTasks loadType _)
    rw [verdict_iff pattern nonempty called, (runs_expectedTasks _ _).1, (runs_expectedTasks _ _).2,
      List.forall_mem_map, List.forall_mem_map] at verdict
    refine ⟨pattern, fun gen member => ?_, fun gen member => (counted_of_failsAll (verdict.1 gen member)).2⟩
    obtain stopped | normally := mem_run.mp member
    · exact (counted_of_failsAll (verdict.1 gen stopped)).1
    · exact (verdict.2 gen normally).1
  · intro fits
    obtain ⟨pattern, keyed, counts⟩ := fits
    refine ⟨?_, ?_, fun mixed => absurd mixed pattern, fun _ _ _ _ _ called => reverted_call called⟩
    · intro _ tasks gens completed n call called
      have nonempty := ne_nil_of_gens gens
      rw [← gens] at keyed counts
      rw [runStopped_map, List.forall_mem_map] at counts
      rw [List.forall_mem_map] at keyed
      rw [verdict_iff pattern nonempty called, Expected]
      refine and_congr (forall₂_congr fun task member => ?_) (forall₂_congr fun task member => ?_)
      · exact failsAll_iff (keyed task (mem_run.mpr (.inl member))) (counts task member)
      · exact and_iff_right (keyed task (mem_run.mpr (.inr member)))
    · intro _ tasks _ completed n call result called returned
      exact startedStopped_call pattern called returned

/-- A generator of the keys of one vbucket -/
def oneKey : LoadGen where
  start := 0
  stop := 1
  docKeys := some ["test_docs-0"]
  keys := ["test_docs-0"]
  collected := by
    intro key rest found
    exact Option.some_inj.mp found
  ranged := by
    intro none
    cases none

/-- Memcached is not stopped once while the task runs. -/
theorem mixed_aborts_never_stopped : ¬ ∀ loadType first others, AbortsRight loadType (first :: others) := by
  intro right
  exact not_abortsRight_mixed oneKey [] (right .mixedAborts oneKey [])

end Taf.Tasks.DurableAborts
