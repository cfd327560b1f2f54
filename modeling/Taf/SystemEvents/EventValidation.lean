import Taf.SystemEvents.EventHelper
import Taf.Lib.PyOrder
import Taf.Lib.Subsequence
import Taf.Lib.Text

/-! # Validating the recorded events

`EventHelper.validate`: the events of the cluster are checked for their order and their
UUIDs, and then walked once against the recorded ones.  An object is the list of its fields
in the order of their keys, so that Python's `==` is equality.  What `extract_req_values`
raises on values it does not expect comes out of `validate`. -/

namespace Taf.SystemEvents

open Taf.Lib

abbrev Fields := List (String × PyJson)

inductive ValidateError where
  | keyError
  | typeError
  -- A value that is no list has no `sort`.
  | attributeError
  | indexError
  -- `datetime.strptime` does not know the format.
  | valueError
  deriving DecidableEq

/-- An entry of `failures`. -/
inductive Failure where
  -- "Events not ordered by time !! UUID %s - timestamp (curr) %s < %s (prev)"
  | notOrdered (uuid : PyJson) (curr prev : String)
  -- "Duplicate UUID detected for timestamps!! %s is present during %s and %s"
  | duplicateUuid (uuid : PyJson) (prev curr : String)
  -- "Duplicate event_ids seen"
  | duplicateEventIds
  -- "Unable to validate event: %s"
  | unableToValidate (event : Entry Fields)
  deriving DecidableEq

/-! ## One event against another -/

/-- `key in value`: a key of a dictionary, a part of a string or an item of a list. -/
def contains (value : PyJson) (key : String) : Except ValidateError Bool :=
  match value with
  | .obj fields => .ok (fields.lookup key).isSome
  | .str text => .ok (occursIn key text)
  | .arr items => .ok (items.contains (.str key))
  | .num _ => .error .typeError
  | .null => .error .typeError

/-- `value[key]` with a string as the key. -/
def getItem (value : PyJson) (key : String) : Except ValidateError PyJson :=
  match value with
  | .obj fields =>
    match fields.lookup key with
    | some found => .ok found
    | none => .error .keyError
  | _ => .error .typeError

mutual

/-- `extract_req_values(cluster_event, local_event)`: the output, and the local event with the
    lists that were sorted in place. -/
def extractReqValues (clusterEvent : PyJson) : Fields → Except ValidateError (Fields × Fields)
  | [] => .ok ([], [])
  | (key, value) :: localEvent => do
    if ← contains clusterEvent key then
      let found ← getItem clusterEvent key
      let extracted ← extractValue found value
      let rest ← extractReqValues clusterEvent localEvent
      return ((key, extracted.1) :: rest.1, (key, extracted.2) :: rest.2)
    else
      let rest ← extractReqValues clusterEvent localEvent
      return (rest.1, (key, value) :: rest.2)

/-- Its branches on the types of the two values. -/
def extractValue (found : PyJson) : PyJson → Except ValidateError (PyJson × PyJson)
  | .obj fields => do
    let inner ← extractReqValues found fields
    return (.obj inner.1, .obj inner.2)
  | .arr own =>
    match found with
    | .arr items => .ok (.arr (PyJson.sort items), .arr (PyJson.sort own))
    | found => .ok (found, .arr own)
  | value =>
    match found with
    | .arr _ => .error .attributeError
    | found => .ok (found, value)

end

/-! ## The order and the UUIDs of the cluster's events -/

/-- `event[Event.Fields.UUID]` and the like. -/
def eventField (event : Fields) (name : String) : Except ValidateError PyJson :=
  getItem (.obj event) name

/-- A list or a dictionary is not hashable. -/
def hashed : PyJson → Except ValidateError PyJson
  | .obj _ => .error .typeError
  | .arr _ => .error .typeError
  | value => .ok value

/-- `EventHelper.get_datetime_obj_from_str`, in microseconds. -/
def getDatetime (strptime : String → Option Int) (text : String) : Except ValidateError Int :=
  match strptime text with
  | some time => .ok time
  | none => .error .valueError

def timestampText : PyJson → Except ValidateError String
  | .str text => .ok text
  | _ => .error .typeError

/-- `CbServer.sys_event_log_uuid_uniqueness_time`, in microseconds. -/
def uuidUniquenessTime : Int := 60 * 1000000

structure DuplicateCheck where
  duplicatesPresent : Bool := false
  nodeEvents : AList fun _ : PyJson => AList fun _ : PyJson => String := ∅
  prevTimestamp : Option String := none
  failures : List Failure := []

namespace DuplicateCheck

variable (strptime : String → Option Int)

/-- The events are ordered by time. -/
def checkOrder (check : DuplicateCheck) (uuid : PyJson) (timestamp : String) (time : Int) :
    Except ValidateError DuplicateCheck :=
  match check.prevTimestamp with
  | none => .ok check
  | some prev => do
    let prevTime ← getDatetime strptime prev
    return if time < prevTime then
      { check with
        duplicatesPresent := true
        failures := check.failures ++ [.notOrdered uuid timestamp prev] }
    else check

/-- No UUID comes twice within the blocked window. -/
def checkUuid (check : DuplicateCheck) (known : AList fun _ : PyJson => String) (uuid : PyJson)
    (timestamp : String) (time : Int) : Except ValidateError DuplicateCheck :=
  match known.lookup uuid with
  | none => .ok check
  | some prev => do
    let prevTime ← getDatetime strptime prev
    return if time - prevTime < uuidUniquenessTime then
      { check with
        duplicatesPresent := true
        failures := check.failures ++ [.duplicateUuid uuid prev timestamp] }
    else check

def checkEvent (check : DuplicateCheck) (event : Fields) : Except ValidateError DuplicateCheck := do
  let uuid ← eventField event "uuid"
  let timestamp ← timestampText (← eventField event "timestamp")
  let time ← getDatetime strptime timestamp
  let check ← check.checkOrder strptime uuid timestamp time
  let node ← hashed (← eventField event "node")
  let known := (check.nodeEvents.lookup node).getD ∅
  let uuid ← hashed uuid
  let check ← check.checkUuid strptime known uuid timestamp time
  return { check with
    prevTimestamp := some timestamp
    nodeEvents := check.nodeEvents.insert node (known.insert uuid timestamp) }

end DuplicateCheck

/-- `__duplicate_event_ids_present`, with the failures it appends. -/
def duplicateEventIdsPresent (strptime : String → Option Int) (events : List Fields) :
    Except ValidateError (Bool × List Failure) := do
  let check ← events.foldlM (DuplicateCheck.checkEvent strptime) {}
  return (check.duplicatesPresent, check.failures)

/-! ## The recorded events against the cluster's -/

/-- The loop over the events of the cluster.  It ends with the entry it did not get past, or with
    `none` when it breaks. -/
def matchEvents (eventCounter maxEvents : Nat) :
    List Fields → List (Entry Fields) → Nat → Except ValidateError (Option (Entry Fields) × List (Entry Fields))
  | [], recorded, vIndex =>
    match recorded[vIndex]? with
    | none => .error .indexError
    | some entry => .ok (some entry, recorded)
  | event :: events, recorded, vIndex =>
    match recorded[vIndex]? with
    | none => .error .indexError
    | some (.group _) => matchEvents eventCounter maxEvents events recorded vIndex
    | some (.single own) => do
      let extracted ← extractReqValues (.obj event) own
      let recorded := recorded.set vIndex (.single extracted.2)
      if extracted.1 = extracted.2 then
        if vIndex + 1 = eventCounter ∨ vIndex + 1 = maxEvents then return (none, recorded)
        else matchEvents eventCounter maxEvents events recorded (vIndex + 1)
      else matchEvents eventCounter maxEvents events recorded vIndex

/-- `EventHelper.validate`, with the answers of the two REST calls: all events of the cluster, and
    those since `since_time`.  The failures come with the recorded events as they are left. -/
def validate (strptime : String → Option Int) (maxEvents : Nat) (helper : EventHelper Fields)
    (allEvents events : List Fields) : Except ValidateError (List Failure × List (Entry Fields)) :=
  if helper.events.isEmpty then .ok ([], [])
  else do
    let generic ← duplicateEventIdsPresent strptime allEvents
    let failures := if generic.1 then generic.2 ++ [.duplicateEventIds] else generic.2
    let compared ← matchEvents helper.eventCounter maxEvents events helper.events 0
    match compared.1 with
    | none => return (failures, compared.2)
    | some entry => return (failures ++ [.unableToValidate entry], compared.2)

end Taf.SystemEvents
