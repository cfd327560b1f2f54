import Taf.Lib.Run

/-! # The events a test has recorded

`EventHelper` of `SystemEventLogLib/Events.py`.  Its list holds single events and, for the
events of a parallel stretch, one list of them; the counter counts events, and beyond
`max_events` every new event drops the first entry of the list. -/

namespace Taf.SystemEvents

open Taf.Lib

/-- An entry of `self.events`. -/
inductive Entry (E : Type*) where
  | single (event : E)
  | group (events : List E)
  deriving DecidableEq

inductive EventError where
  -- `self.events[-1]` on the empty list
  | indexError
  -- An event is a dictionary, which has no `append`.
  | attributeError
  deriving DecidableEq

structure EventHelper (E : Type*) where
  testStartTime : Option String := none
  events : List (Entry E) := []
  parallelEvents : Bool := false
  eventCounter : Nat := 0
  deriving DecidableEq

/-- `CbServer.sys_event_def_logs` -/
def sysEventDefLogs : Nat := 10000

variable {E : Type*}

def Entry.toList : Entry E → List E
  | .single event => [event]
  | .group events => events

namespace EventHelper

def enableParallelEvents (helper : EventHelper E) : EventHelper E :=
  { helper with parallelEvents := true, events := helper.events ++ [.group []] }

def disableParallelEvents (helper : EventHelper E) : EventHelper E :=
  { helper with parallelEvents := false }

/-- The list with the new event in it. -/
def appendEvent (helper : EventHelper E) (event : E) : Except EventError (List (Entry E)) :=
  if helper.parallelEvents then
    match helper.events.getLast? with
    | none => .error .indexError
    | some (.single _) => .error .attributeError
    | some (.group events) => .ok (helper.events.dropLast ++ [.group (events ++ [event])])
  else .ok (helper.events ++ [.single event])

def addEvent (maxEvents : Nat) (helper : EventHelper E) (event : E) :
    Except EventError (EventHelper E) :=
  if helper.testStartTime.isNone then .ok helper
  else do
    let events ← helper.appendEvent event
    let eventCounter := helper.eventCounter + 1
    -- `self.events.pop(0)`
    let events := if maxEvents < eventCounter then events.tail else events
    return { helper with events, eventCounter }

/-- The recorded events, flattened over the parallel groups. -/
def recorded (helper : EventHelper E) : List E := helper.events.flatMap Entry.toList

end EventHelper

/-! ## Runs -/

inductive Call (E : Type*) where
  | enableParallelEvents
  | disableParallelEvents
  | addEvent (event : E)
  deriving DecidableEq

/-- A helper with the events passed to `add_event` so far and the exceptions that came out. -/
structure Log (E : Type*) where
  helper : EventHelper E
  added : List E := []
  raised : List EventError := []
  deriving DecidableEq

namespace Log

/-- A new helper after `set_test_start_time`. -/
def started (time : String) : Log E where
  helper := { testStartTime := some time }

def step (maxEvents : Nat) (log : Log E) : Call E → Log E
  | .enableParallelEvents => { log with helper := log.helper.enableParallelEvents }
  | .disableParallelEvents => { log with helper := log.helper.disableParallelEvents }
  | .addEvent event =>
    match log.helper.addEvent maxEvents event with
    | .ok helper => { log with helper, added := log.added ++ [event] }
    | .error error => { log with added := log.added ++ [event], raised := log.raised ++ [error] }

/-- No call raised, and the helper has the last `max_events` of the events that were added. -/
structure Holds (maxEvents : Nat) (log : Log E) : Prop where
  returned : log.raised = []
  last : log.helper.recorded = log.added.rtake (min log.added.length maxEvents)

/-- Once the new event is in, and if this makes the helper drop an entry, the oldest entry has
    exactly one event. -/
def DropsOne (maxEvents : Nat) (log : Log E) : Call E → Prop
  | .addEvent event =>
    match log.helper.appendEvent event with
    | .error _ => False
    | .ok events => maxEvents ≤ log.helper.eventCounter →
        ∀ oldest ∈ events.head?, oldest.toList.length = 1
  | .enableParallelEvents => True
  | .disableParallelEvents => True

end Log

/-! ## One call -/

variable {maxEvents : Nat} {helper : EventHelper E} {log : Log E}

theorem recorded_enableParallelEvents (helper : EventHelper E) :
    helper.enableParallelEvents.recorded = helper.recorded := by
  simp [EventHelper.recorded, EventHelper.enableParallelEvents, Entry.toList]

/-- The new event comes last, in a group or on its own. -/
theorem flatMap_appendEvent {event : E} {events : List (Entry E)}
    (appended : helper.appendEvent event = .ok events) :
    events.flatMap Entry.toList = helper.recorded ++ [event] := by
  unfold EventHelper.appendEvent at appended
  split at appended
  case isTrue parallel =>
    split at appended
    case h_1 => cases appended
    case h_2 => cases appended
    case h_3 group last =>
      cases appended
      have split : helper.events = helper.events.dropLast ++ [.group group] :=
        (List.dropLast_append_getLast? _ last).symm
      rw [EventHelper.recorded]
      nth_rewrite 2 [split]
      simp [Entry.toList]
  case isFalse =>
    cases appended
    simp [EventHelper.recorded, Entry.toList]

theorem addEvent_started {event : E} (started : helper.testStartTime.isSome = true) :
    helper.addEvent maxEvents event =
      (helper.appendEvent event).map fun events =>
        { helper with
          events := if maxEvents < helper.eventCounter + 1 then events.tail else events
          eventCounter := helper.eventCounter + 1 } := by
  unfold EventHelper.addEvent
  rw [if_neg (by simpa using Option.isSome_iff_ne_none.mp started)]
  cases helper.appendEvent event <;> rfl

/-- The last `maxEvents` of one more event, while there is room and beyond it. -/
theorem rtake_min_concat (added : List E) (event : E) (maxEvents : Nat) :
    (added ++ [event]).rtake (min (added ++ [event]).length maxEvents) =
      if maxEvents < added.length + 1 then
        (added.rtake (min added.length maxEvents) ++ [event]).tail
      else added.rtake (min added.length maxEvents) ++ [event] := by
  rw [List.length_append, List.length_singleton]
  split
  case isTrue full =>
    have least : min (added.length + 1) maxEvents = maxEvents := by omega
    have least' : min added.length maxEvents = maxEvents := by omega
    rw [least, least', List.rtake, List.rtake, List.length_append, List.length_singleton,
      ← List.drop_one, ← List.drop_append_of_le_length (by omega), List.drop_drop]
    congr 1
    omega
  case isFalse room =>
    have least : min (added.length + 1) maxEvents = added.length + 1 := by omega
    have least' : min added.length maxEvents = added.length := by omega
    rw [least, least', List.rtake_concat_succ]

namespace Log

/-- The start time is set, and as long as nothing was raised every event is counted. -/
structure Counted (log : Log E) : Prop where
  started : log.helper.testStartTime.isSome = true
  counter : log.raised = [] → log.helper.eventCounter = log.added.length

theorem Counted.step (counted : log.Counted) (call : Call E) : (log.step maxEvents call).Counted := by
  cases call with
  | enableParallelEvents => exact { counted with }
  | disableParallelEvents => exact { counted with }
  | addEvent event =>
    have added := @addEvent_started E maxEvents log.helper event counted.started
    cases outcome : log.helper.appendEvent event with
    | error error =>
      rw [outcome] at added
      simp only [Log.step, added, Except.map]
      exact { started := counted.started, counter := by simp }
    | ok events =>
      rw [outcome] at added
      simp only [Log.step, added, Except.map]
      exact
        { started := counted.started
          counter := by
            intro returned
            simp [counted.counter returned] }

/-- Dropping the first of some lists leaves all but the first element exactly if that list has
    one element. -/
theorem flatMap_tail_eq_tail_iff {events : List (Entry E)} (nonempty : events ≠ []) :
    events.tail.flatMap Entry.toList = (events.flatMap Entry.toList).tail ↔
      ∀ oldest ∈ events.head?, oldest.toList.length = 1 ∨ events.flatMap Entry.toList = [] := by
  cases events with
  | nil => exact absurd rfl nonempty
  | cons oldest events =>
    simp only [List.tail_cons, List.flatMap_cons, List.head?_cons, Option.mem_some_iff, forall_eq']
    constructor
    · intro same
      have lengths := congrArg List.length same
      simp only [List.length_tail, List.length_append] at lengths
      by_cases none : oldest.toList.length + (events.flatMap Entry.toList).length = 0
      · right
        exact List.length_eq_zero_iff.mp (by rw [List.length_append]; exact none)
      · left
        omega
    · intro one
      cases one with
      | inl one =>
        obtain ⟨event, single⟩ := List.length_eq_one_iff.mp one
        rw [single]
        rfl
      | inr empty =>
        obtain ⟨front, rest⟩ := List.append_eq_nil_iff.mp empty
        rw [front, rest]
        rfl

theorem holds_step_iff (counted : log.Counted) (holds : log.Holds maxEvents) (call : Call E) :
    (log.step maxEvents call).Holds maxEvents ↔ log.DropsOne maxEvents call := by
  cases call with
  | enableParallelEvents =>
    have last := (recorded_enableParallelEvents log.helper).trans holds.last
    exact iff_of_true { returned := holds.returned, last } trivial
  | disableParallelEvents => exact iff_of_true { holds with } trivial
  | addEvent event =>
    have added := @addEvent_started E maxEvents log.helper event counted.started
    cases outcome : log.helper.appendEvent event with
    | error error =>
      rw [outcome] at added
      refine iff_of_false ?_ (by simp [DropsOne, outcome])
      intro after
      have returned := after.returned
      simp [Log.step, added, Except.map] at returned
    | ok events =>
      rw [outcome] at added
      have counter := counted.counter holds.returned
      have flat := flatMap_appendEvent outcome
      have nonempty : events ≠ [] := by
        intro none
        rw [none] at flat
        simp at flat
      have target := rtake_min_concat log.added event maxEvents
      rw [← holds.last, ← counter, ← flat] at target
      have stepped : log.step maxEvents (.addEvent event) =
          { log with
            helper := { log.helper with
              events := if maxEvents < log.helper.eventCounter + 1 then events.tail else events
              eventCounter := log.helper.eventCounter + 1 }
            added := log.added ++ [event] } := by
        simp only [Log.step, added, Except.map]
      have iff : (log.step maxEvents (.addEvent event)).Holds maxEvents ↔
          (if maxEvents < log.helper.eventCounter + 1 then events.tail else events).flatMap
              Entry.toList =
            if maxEvents < log.helper.eventCounter + 1 then (events.flatMap Entry.toList).tail
            else events.flatMap Entry.toList := by
        rw [stepped, ← target]
        exact ⟨fun after => after.last, fun last => ⟨holds.returned, last⟩⟩
      rw [iff]
      simp only [DropsOne, outcome]
      by_cases full : maxEvents < log.helper.eventCounter + 1
      · rw [if_pos full, if_pos full, flatMap_tail_eq_tail_iff nonempty, flat]
        simp only [List.append_eq_nil_iff, List.cons_ne_nil, and_false, or_false]
        exact ⟨fun one _ => one, fun one => one (by omega)⟩
      · rw [if_neg full, if_neg full]
        exact iff_of_true rfl (fun reached => absurd reached (by omega))

/-! ## Whole runs -/

/-- The helper has the last `max_events` events after every call of a run, and no call raises,
    exactly if every entry that is dropped has one event. -/
theorem holds_throughout_iff (time : String) (maxEvents : Nat) (calls : List (Call E)) :
    (∀ before after, calls = before ++ after →
      (run (step maxEvents) (started time) before).Holds maxEvents) ↔
      Guarded (step maxEvents) (DropsOne maxEvents) (started time) calls :=
  @run_forall_prefix_iff _ _ (step maxEvents) Counted (Holds maxEvents) (DropsOne maxEvents)
    (fun _ call counted => counted.step call)
    (fun _ call counted holds => holds_step_iff counted holds call)
    (started time) { started := rfl, counter := fun _ => rfl }
    { returned := rfl, last := by simp [started, EventHelper.recorded] } calls

/-- Events added in parallel, as long as they all fit. -/
theorem run_group (time : String) (events : List E) (room : events.length ≤ maxEvents) :
    run (step maxEvents) (started time) (.enableParallelEvents :: events.map .addEvent) =
      { helper :=
          { testStartTime := some time
            events := [.group events]
            parallelEvents := true
            eventCounter := events.length }
        added := events } := by
  induction events using List.reverseRecOn with
  | nil => rfl
  | append_singleton events event ih =>
    rw [List.length_append, List.length_singleton] at room
    rw [List.map_append, ← List.cons_append, run_append, ih (by omega)]
    have fits : ¬ maxEvents < events.length + 1 := by omega
    simp [step, EventHelper.addEvent, EventHelper.appendEvent, fits, bind, Except.bind, pure,
      Except.pure]

/-- One event more and the group is dropped as a whole. -/
theorem run_group_full (time : String) (events : List E) (event : E)
    (full : events.length = maxEvents) :
    run (step maxEvents) (started time)
        (.enableParallelEvents :: (events ++ [event]).map .addEvent) =
      { helper :=
          { testStartTime := some time
            events := []
            parallelEvents := true
            eventCounter := events.length + 1 }
        added := events ++ [event] } := by
  have overfull : maxEvents < events.length + 1 := by omega
  rw [List.map_append, ← List.cons_append, run_append, run_group time events (by omega)]
  simp [step, EventHelper.addEvent, EventHelper.appendEvent, overfull, bind, Except.bind, pure,
    Except.pure]

/-- With the limit of the source, 10001 events of one parallel stretch: none of them is left,
    and the next one raises. -/
theorem whole_group_is_dropped :
    let log := run (step sysEventDefLogs) (started "")
      (.enableParallelEvents :: (List.replicate sysEventDefLogs 0 ++ [1]).map .addEvent)
    log.helper.recorded = [] ∧ ¬ log.Holds sysEventDefLogs ∧
      (log.step sysEventDefLogs (.addEvent 2)).raised = [.indexError] := by
  have dropped := @run_group_full Nat sysEventDefLogs "" (List.replicate sysEventDefLogs 0) 1
    (List.length_replicate)
  rw [dropped]
  refine ⟨rfl, ?_, rfl⟩
  intro holds
  have lengths := congrArg List.length holds.last
  simp only [EventHelper.recorded, List.flatMap_nil, List.length_nil, List.rtake, List.length_drop,
    List.length_append, List.length_replicate, List.length_singleton, sysEventDefLogs] at lengths
  omega

end Log

end Taf.SystemEvents
