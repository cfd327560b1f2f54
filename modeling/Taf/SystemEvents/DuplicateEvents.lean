import Taf.Lib.Spacing
import Taf.SystemEvents.EventMatching

/-! # The order and the UUIDs of events

`__duplicate_event_ids_present` keeps the last timestamp of the list and, for each node and UUID, the
last timestamp of its events.  A new event is compared with these two only. -/

namespace Taf.SystemEvents

open Taf.Lib

/-- The node and the UUID of an event -/
def eventId (event : Fields) : Option PyJson × Option PyJson := (event.lookup "node", event.lookup "uuid")

def eventTimestamp (event : Fields) : String :=
  match event.lookup "timestamp" with
  | some (.str text) => text
  | _ => ""

/-- The time of an event that is `Stamped` -/
def eventTime (strptime : String → Option Int) (event : Fields) : Int :=
  (strptime (eventTimestamp event)).getD 0

/-- The timestamps do not decrease along the list, and events of one node with one UUID are apart. -/
structure WellTimed (strptime : String → Option Int) (events : List Fields) : Prop where
  ordered : InOrder (eventTime strptime) events
  apart : Apart eventId (eventTime strptime) uuidUniquenessTime events

section

variable {strptime : String → Option Int} {check next : DuplicateCheck} {done : List Fields} {event : Fields}

/-! ## One check -/

/-- What a check does to the flag and the failures if `good` says when it finds nothing -/
structure DuplicateCheck.Judges (check next : DuplicateCheck) (good : Prop) : Prop where
  nodeEvents : next.nodeEvents = check.nodeEvents
  present : next.duplicatesPresent = false ↔ check.duplicatesPresent = false ∧ good
  failures : (check.failures ≠ [] ↔ check.duplicatesPresent = true) →
    (next.failures ≠ [] ↔ next.duplicatesPresent = true)

theorem DuplicateCheck.judges_good {good : Prop} (holds : good) : check.Judges check good where
  nodeEvents := rfl
  present := (and_iff_left holds).symm
  failures := id

theorem DuplicateCheck.judges_bad {good : Prop} (fails : ¬ good) (failure : Failure) :
    check.Judges { check with duplicatesPresent := true, failures := check.failures ++ [failure] } good where
  nodeEvents := rfl
  present := by simp [fails]
  failures := by simp

theorem getDatetime_eq_ok {text : String} {time : Int} :
    getDatetime strptime text = .ok time ↔ strptime text = some time := by
  rw [getDatetime]
  cases strptime text with
  | none => simp
  | some found => simp

theorem checkOrder_judges {uuid : PyJson} {timestamp : String} {time : Int}
    (returned : check.checkOrder strptime uuid timestamp time = .ok next) :
    check.Judges next (∀ prev ∈ check.prevTimestamp, (strptime prev).getD 0 ≤ time) := by
  rw [DuplicateCheck.checkOrder] at returned
  cases last : check.prevTimestamp with
  | none =>
    simp only [last] at returned
    cases returned
    exact DuplicateCheck.judges_good (by simp)
  | some prev =>
    simp only [last, bind_eq_ok, getDatetime_eq_ok] at returned
    obtain ⟨prevTime, parsed, returned⟩ := returned
    cases returned
    have good : (∀ text ∈ some prev, (strptime text).getD 0 ≤ time) ↔ prevTime ≤ time := by
      simp [parsed]
    rw [good]
    split
    case isTrue earlier =>
      rw [← last]
      exact DuplicateCheck.judges_bad (not_le.mpr earlier) _
    case isFalse later => exact DuplicateCheck.judges_good (not_lt.mp later)

theorem checkUuid_judges {known : AList fun _ : PyJson => String} {uuid : PyJson} {timestamp : String}
    {time : Int} (returned : check.checkUuid strptime known uuid timestamp time = .ok next) :
    check.Judges next (∀ prev ∈ known.lookup uuid, uuidUniquenessTime ≤ time - (strptime prev).getD 0) := by
  rw [DuplicateCheck.checkUuid] at returned
  cases last : known.lookup uuid with
  | none =>
    simp only [last] at returned
    cases returned
    exact DuplicateCheck.judges_good (by simp)
  | some prev =>
    simp only [last, bind_eq_ok, getDatetime_eq_ok] at returned
    obtain ⟨prevTime, parsed, returned⟩ := returned
    cases returned
    have good : (∀ text ∈ some prev, uuidUniquenessTime ≤ time - (strptime text).getD 0) ↔
        uuidUniquenessTime ≤ time - prevTime := by
      simp [parsed]
    rw [good]
    split
    case isTrue near => exact DuplicateCheck.judges_bad (not_le.mpr near) _
    case isFalse far => exact DuplicateCheck.judges_good (not_lt.mp far)

/-! ## The scan -/

/-- What the check knows of the events behind it -/
structure DuplicateCheck.Knows (strptime : String → Option Int) (check : DuplicateCheck) (done : List Fields) :
    Prop where
  prev : check.prevTimestamp = done.getLast?.map eventTimestamp
  known : ∀ node uuid text, ((check.nodeEvents.lookup node).getD ∅).lookup uuid = some text ↔
    ∃ last, IsLast eventId done last ∧ eventId last = (some node, some uuid) ∧ eventTimestamp last = text
  present : check.duplicatesPresent = false ↔ WellTimed strptime done
  failures : check.failures ≠ [] ↔ check.duplicatesPresent = true

theorem hashed_eq_ok {value value' : PyJson} (returned : hashed value = .ok value') : value' = value := by
  cases value with
  | obj | arr => cases returned
  | null | num | str =>
    cases returned
    rfl

/-- The parts of a step that returns -/
theorem checkEvent_parts (returned : check.checkEvent strptime event = .ok next) :
    ∃ node uuid ordered unique, eventId event = (some node, some uuid) ∧
      check.checkOrder strptime uuid (eventTimestamp event) (eventTime strptime event) = .ok ordered ∧
      ordered.checkUuid strptime ((ordered.nodeEvents.lookup node).getD ∅) uuid (eventTimestamp event)
        (eventTime strptime event) = .ok unique ∧
      next = { unique with
        prevTimestamp := some (eventTimestamp event)
        nodeEvents := unique.nodeEvents.insert node
          (((ordered.nodeEvents.lookup node).getD ∅).insert uuid (eventTimestamp event)) } := by
  simp only [DuplicateCheck.checkEvent, bind_eq_ok] at returned
  obtain ⟨uuid, hasUuid, stamp, hasStamp, text, isText, time, parsed, ordered, inOrder, node, hasNode, node',
    nodeHashed, uuid', uuidHashed, unique, isUnique, same⟩ := returned
  obtain rfl := hashed_eq_ok nodeHashed
  obtain rfl := hashed_eq_ok uuidHashed
  have isStamp : eventTimestamp event = text := by
    rw [eventTimestamp, lookup_of_eventField hasStamp, text_of_timestampText isText]
  have isTime : eventTime strptime event = time := by
    rw [eventTime, isStamp, getDatetime_eq_ok.mp parsed]
    rfl
  rw [isStamp, isTime]
  refine ⟨node', uuid', ordered, unique, ?_, inOrder, isUnique, (Except.ok.inj same).symm⟩
  rw [eventId, lookup_of_eventField hasUuid, lookup_of_eventField hasNode]

/-- The timestamp of the new event is the last one for its node and UUID. -/
theorem lookup_remembered {nodeEvents : AList fun _ : PyJson => AList fun _ : PyJson => String} {node uuid : PyJson}
    {timestamp : String} (other otherUuid : PyJson) (text : String) :
    (((nodeEvents.insert node (((nodeEvents.lookup node).getD ∅).insert uuid timestamp)).lookup other).getD
      ∅).lookup otherUuid = some text ↔
        (other = node ∧ otherUuid = uuid ∧ text = timestamp) ∨
          ((other, otherUuid) ≠ (node, uuid) ∧
            ((nodeEvents.lookup other).getD ∅).lookup otherUuid = some text) := by
  by_cases sameNode : other = node
  · subst sameNode
    rw [AList.lookup_insert, Option.getD_some, lookup_insert_eq_some]
    simp
  · rw [AList.lookup_insert_ne sameNode]
    simp [sameNode]

/-- A step keeps what the check knows. -/
theorem DuplicateCheck.Knows.step (knows : check.Knows strptime done)
    (returned : check.checkEvent strptime event = .ok next) : next.Knows strptime (done ++ [event]) := by
  obtain ⟨node, uuid, ordered, unique, identity, inOrder, isUnique, same⟩ := checkEvent_parts returned
  have first := checkOrder_judges inOrder
  have second := checkUuid_judges isUnique
  subst same
  constructor
  case prev => rw [List.getLast?_concat, Option.map_some]
  case known =>
    -- the new event is the last one of its identity, and no other identity has another last one
    intro other otherUuid text
    rw [second.nodeEvents, lookup_remembered, first.nodeEvents, knows.known]
    simp only [isLast_concat]
    constructor
    · intro either
      cases either with
      | inl new =>
        obtain ⟨rfl, rfl, rfl⟩ := new
        exact ⟨event, .inl rfl, identity, rfl⟩
      | inr old =>
        obtain ⟨different, last, isLast, sameId, sameText⟩ := old
        refine ⟨last, .inr ⟨isLast, ?_⟩, sameId, sameText⟩
        rw [identity, sameId]
        intro same
        simp only [Prod.mk.injEq, Option.some.injEq] at same
        exact different (Prod.ext same.1.symm same.2.symm)
    · intro ⟨last, either, sameId, sameText⟩
      cases either with
      | inl new =>
        subst new
        rw [identity, Prod.mk.injEq, Option.some.injEq, Option.some.injEq] at sameId
        exact .inl ⟨sameId.1.symm, sameId.2.symm, sameText.symm⟩
      | inr old =>
        right
        refine ⟨?_, last, old.1, sameId, sameText⟩
        intro same
        rw [Prod.mk.injEq] at same
        apply old.2
        rw [identity, sameId, same.1, same.2]
  case present =>
    -- the two checks compare with the last event of all and with the last one of the same identity
    have afterLast : (∀ prev ∈ check.prevTimestamp, (strptime prev).getD 0 ≤ eventTime strptime event) ↔
        ∀ last ∈ done.getLast?, eventTime strptime last ≤ eventTime strptime event := by
      rw [knows.prev]
      simp [eventTime]
    have afterSame : (∀ prev ∈ ((ordered.nodeEvents.lookup node).getD ∅).lookup uuid,
        uuidUniquenessTime ≤ eventTime strptime event - (strptime prev).getD 0) ↔
        ∀ last, IsLast eventId done last → eventId last = eventId event →
          uuidUniquenessTime ≤ eventTime strptime event - eventTime strptime last := by
      simp only [Option.mem_def, first.nodeEvents, knows.known, identity]
      constructor
      · intro far last isLast sameId
        exact far _ ⟨last, isLast, sameId, rfl⟩
      · intro far prev ⟨last, isLast, sameId, sameText⟩
        rw [← sameText]
        exact far last isLast sameId
    rw [second.present, first.present, knows.present, afterLast, afterSame]
    constructor
    · intro ⟨⟨timed, later⟩, far⟩
      have inOrder := inOrder_concat.mpr ⟨timed.ordered, later⟩
      exact ⟨inOrder, (apart_concat inOrder).mpr ⟨timed.apart, far⟩⟩
    · intro timed
      have apart := (apart_concat timed.ordered).mp timed.apart
      have inOrder := inOrder_concat.mp timed.ordered
      exact ⟨⟨⟨inOrder.1, apart.1⟩, inOrder.2⟩, apart.2⟩
  case failures => exact second.failures (first.failures knows.failures)

theorem knows_start : DuplicateCheck.Knows strptime {} [] where
  prev := rfl
  known := by simp [IsLast]
  present := iff_of_true rfl ⟨List.Pairwise.nil, List.Pairwise.nil⟩
  failures := by simp

theorem knows_of_returned {events : List Fields} {present : Bool} {failures : List Failure}
    (returned : duplicateEventIdsPresent strptime events = .ok (present, failures)) :
    (present = false ↔ WellTimed strptime events) ∧ (failures ≠ [] ↔ present = true) := by
  rw [duplicateEventIdsPresent, bind_eq_ok] at returned
  obtain ⟨last, folded, same⟩ := returned
  cases same
  have knows : last.Knows strptime events :=
    foldlM_ok_behind (R := fun done check => check.Knows strptime done) folded knows_start
      fun _ _ _ _ stepped known => known.step stepped
  exact ⟨knows.present, knows.failures⟩

/-- `False` comes back exactly for events in order of which those with one UUID are apart, `True` for
    all other ones, and a failure is appended exactly in the second case. -/
theorem duplicateEventIdsPresent_iff (strptime : String → Option Int) (events : List Fields) :
    ((∃ failures, duplicateEventIdsPresent strptime events = .ok (false, failures)) ↔
      (∀ event ∈ events, Stamped strptime event) ∧ WellTimed strptime events) ∧
    ((∃ failures, duplicateEventIdsPresent strptime events = .ok (true, failures)) ↔
      (∀ event ∈ events, Stamped strptime event) ∧ ¬ WellTimed strptime events) ∧
    ∀ present failures, duplicateEventIdsPresent strptime events = .ok (present, failures) →
      (failures ≠ [] ↔ present = true) := by
  refine ⟨?_, ?_, fun present failures returned => (knows_of_returned returned).2⟩
  · constructor
    · intro ⟨failures, returned⟩
      exact ⟨duplicateEventIdsPresent_returns_iff.mp ⟨_, returned⟩, (knows_of_returned returned).1.mp rfl⟩
    · intro ⟨stamped, timed⟩
      obtain ⟨⟨present, failures⟩, returned⟩ := duplicateEventIdsPresent_returns_iff.mpr stamped
      cases present with
      | false => exact ⟨failures, returned⟩
      | true => cases (knows_of_returned returned).1.mpr timed
  · constructor
    · intro ⟨failures, returned⟩
      refine ⟨duplicateEventIdsPresent_returns_iff.mp ⟨_, returned⟩, fun timed => ?_⟩
      have absent := (knows_of_returned returned).1.mpr timed
      cases absent
    · intro ⟨stamped, untimely⟩
      obtain ⟨⟨present, failures⟩, returned⟩ := duplicateEventIdsPresent_returns_iff.mpr stamped
      cases present with
      | false => exact absurd ((knows_of_returned returned).1.mp rfl) untimely
      | true => exact ⟨failures, returned⟩

end

end Taf.SystemEvents
