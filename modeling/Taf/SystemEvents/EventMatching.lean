import Taf.SystemEvents.EventValidation
import Taf.Lib.Dict

/-! # What a validation says

A cluster event matches a recorded one if, restricted to the keys of the recorded event, it
is the recorded event up to the order of list-valued fields.  A validation that returns has
the failure `unableToValidate` exactly if the recorded events do not match a subsequence of
the cluster's; it returns exactly if it never compares two events of different kinds. -/

namespace Taf.SystemEvents

open Taf.Lib

/-! ## The match of two events -/

/-- The value of a key; only an object has one. -/
def field? (value : PyJson) (key : String) : Option PyJson :=
  match value with
  | .obj fields => fields.lookup key
  | _ => none

mutual

/-- An event restricted to the keys of another one, and below a dictionary to the keys there. -/
def restrict (event : PyJson) : Fields → Fields
  | [] => []
  | (key, value) :: fields =>
    match field? event key with
    | none => restrict event fields
    | some found => (key, restrictValue found value) :: restrict event fields

def restrictValue (found : PyJson) : PyJson → PyJson
  | .obj fields => .obj (restrict found fields)
  | .null => found
  | .num _ => found
  | .str _ => found
  | .arr _ => found

end

mutual

/-- The same fields up to the order of the lists among their values. -/
inductive UpToOrder : Fields → Fields → Prop
  | nil : UpToOrder [] []
  | cons {key value value' fields fields'} (same : ValueUpToOrder value value')
      (rest : UpToOrder fields fields') : UpToOrder ((key, value) :: fields) ((key, value') :: fields')

inductive ValueUpToOrder : PyJson → PyJson → Prop
  | refl (value) : ValueUpToOrder value value
  | arr {items items'} (perm : items.Perm items') : ValueUpToOrder (.arr items) (.arr items')
  | obj {fields fields'} (same : UpToOrder fields fields') :
      ValueUpToOrder (.obj fields) (.obj fields')

end

/-- The cluster event matches the recorded one. -/
def Matches (event recorded : Fields) : Prop := UpToOrder (restrict (.obj event) recorded) recorded

/-! ## Comparable events -/

/-- A key may be asked for in the event, and what a dictionary has there is of the wanted kind. -/
def ComparableAt (event : PyJson) (key : String) (wanted : PyJson → Prop) : Prop :=
  match event with
  | .obj own => ∀ found ∈ own.lookup key, wanted found
  | .str text => occursIn key text = false
  | .arr items => .str key ∉ items
  | .num _ => False
  | .null => False

mutual

/-- `extract_req_values` knows what to do with every value it meets: where the recorded event has
    a dictionary, so has the other one (or a text or a list without the keys of the dictionary),
    and where the other event has a list, the recorded one has a list or a dictionary. -/
def Comparable (event : PyJson) : Fields → Prop
  | [] => True
  | (key, value) :: fields =>
    ComparableAt event key (fun found => ComparableValue found value) ∧ Comparable event fields

def ComparableValue (found : PyJson) : PyJson → Prop
  | .obj fields => Comparable found fields
  | .arr _ => True
  | .null => ∀ items, found ≠ .arr items
  | .num _ => ∀ items, found ≠ .arr items
  | .str _ => ∀ items, found ≠ .arr items

end

/-! ## Sorted lists as a normal form -/

mutual

def sortLists : Fields → Fields
  | [] => []
  | (key, value) :: fields => (key, sortValue value) :: sortLists fields

def sortValue : PyJson → PyJson
  | .obj fields => .obj (sortLists fields)
  | .arr items => .arr (PyJson.sort items)
  | .null => .null
  | .num value => .num value
  | .str text => .str text

end

@[simp] theorem length_sortLists (fields : Fields) : (sortLists fields).length = fields.length := by
  induction fields with
  | nil => simp [sortLists]
  | cons field fields ih => simp [sortLists, ih]

mutual

theorem UpToOrder.sortLists_eq {fields other : Fields} (same : UpToOrder fields other) :
    sortLists fields = sortLists other := by
  cases same with
  | nil => rfl
  | cons value rest => rw [sortLists, sortLists, value.sortValue_eq, rest.sortLists_eq]
  termination_by sizeOf fields

theorem ValueUpToOrder.sortValue_eq {value other : PyJson} (same : ValueUpToOrder value other) :
    sortValue value = sortValue other := by
  cases same with
  | refl => rfl
  | arr perm => rw [sortValue, sortValue, PyJson.sort_eq_sort_iff.mpr perm]
  | obj fields => rw [sortValue, sortValue, fields.sortLists_eq]
  termination_by sizeOf value

end

mutual

theorem upToOrder_of_sortLists_eq : ∀ fields other : Fields, sortLists fields = sortLists other →
    UpToOrder fields other
  | [], [], _ => .nil
  | [], _ :: _, same => by simp [sortLists] at same
  | _ :: _, [], same => by simp [sortLists] at same
  | (key, value) :: fields, (key', value') :: other, same => by
    simp only [sortLists, List.cons.injEq, Prod.mk.injEq] at same
    obtain ⟨⟨rfl, values⟩, rest⟩ := same
    exact .cons (valueUpToOrder_of_sortValue_eq value value' values)
      (upToOrder_of_sortLists_eq fields other rest)

theorem valueUpToOrder_of_sortValue_eq : ∀ value other : PyJson, sortValue value = sortValue other →
    ValueUpToOrder value other
  | .obj fields, other, same => by
    cases other with
    | obj other =>
      simp only [sortValue, PyJson.obj.injEq] at same
      exact .obj (upToOrder_of_sortLists_eq fields other same)
    | null | num | str | arr => simp [sortValue] at same
  | .arr items, other, same => by
    cases other with
    | arr other =>
      simp only [sortValue, PyJson.arr.injEq] at same
      exact .arr (PyJson.sort_eq_sort_iff.mp same)
    | null | num | str | obj => simp [sortValue] at same
  | .null, other, same => by
    cases other with
    | null => exact .refl _
    | num | str | arr | obj => simp [sortValue] at same
  | .num value, other, same => by
    cases other with
    | num other =>
      simp only [sortValue] at same
      exact same ▸ .refl _
    | null | str | arr | obj => simp [sortValue] at same
  | .str text, other, same => by
    cases other with
    | str other =>
      simp only [sortValue] at same
      exact same ▸ .refl _
    | null | num | arr | obj => simp [sortValue] at same

end

theorem upToOrder_iff {fields other : Fields} :
    UpToOrder fields other ↔ sortLists fields = sortLists other :=
  ⟨UpToOrder.sortLists_eq, upToOrder_of_sortLists_eq fields other⟩

mutual

/-- A restriction reads the keys of the recorded event and which values are dictionaries. -/
theorem restrict_sortLists (event : PyJson) : ∀ fields : Fields,
    restrict event (sortLists fields) = restrict event fields
  | [] => by simp [sortLists]
  | (key, value) :: fields => by
    rw [sortLists, restrict, restrict, restrict_sortLists event fields]
    cases field? event key with
    | none => rfl
    | some found => simp only [restrictValue_sortValue found value]

theorem restrictValue_sortValue (found : PyJson) : ∀ value : PyJson,
    restrictValue found (sortValue value) = restrictValue found value
  | .obj fields => by rw [sortValue, restrictValue, restrictValue, restrict_sortLists found fields]
  | .arr _ => by simp [sortValue, restrictValue]
  | .null => by simp [sortValue]
  | .num _ => by simp [sortValue]
  | .str _ => by simp [sortValue]

end

mutual

theorem comparable_sortLists (event : PyJson) : ∀ fields : Fields,
    Comparable event (sortLists fields) ↔ Comparable event fields
  | [] => by simp [sortLists]
  | (key, value) :: fields => by
    rw [sortLists, Comparable, Comparable, comparable_sortLists event fields]
    simp only [comparableValue_sortValue _ value]

theorem comparableValue_sortValue (found : PyJson) : ∀ value : PyJson,
    ComparableValue found (sortValue value) ↔ ComparableValue found value
  | .obj fields => by
    rw [sortValue, ComparableValue, ComparableValue, comparable_sortLists found fields]
  | .arr _ => by simp [sortValue, ComparableValue]
  | .null => by simp [sortValue]
  | .num _ => by simp [sortValue]
  | .str _ => by simp [sortValue]

end

section Reordered

variable {event recorded sorted : Fields}

/-- Sorting lists in a recorded event changes neither what matches it nor what it can be compared
    with. -/
theorem matches_congr (same : sortLists sorted = sortLists recorded) :
    Matches event sorted ↔ Matches event recorded := by
  rw [Matches, Matches, upToOrder_iff, upToOrder_iff, same, ← restrict_sortLists _ sorted, same,
    restrict_sortLists]

theorem comparable_congr (same : sortLists sorted = sortLists recorded) :
    Comparable (.obj event) sorted ↔ Comparable (.obj event) recorded := by
  rw [← comparable_sortLists _ sorted, same, comparable_sortLists]

end Reordered

/-! ## What `extract_req_values` returns -/

theorem length_restrict_le (event : PyJson) (fields : Fields) :
    (restrict event fields).length ≤ fields.length := by
  induction fields with
  | nil => simp [restrict]
  | cons field fields ih =>
    obtain ⟨key, value⟩ := field
    rw [restrict]
    cases field? event key with
    | none => exact Nat.le_succ_of_le ih
    | some found => exact Nat.succ_le_succ ih

/-- What there is to say about one value: the output and the sorted value are equal exactly if the
    two values match. -/
def ValueExtracted (found value : PyJson) : Prop :=
  ∃ output sorted, extractValue found value = .ok (output, sorted) ∧
    sortValue sorted = sortValue value ∧
    (output = sorted ↔ sortValue (restrictValue found value) = sortValue value)

def Extracted (event : PyJson) (fields : Fields) : Prop :=
  ∃ output sorted, extractReqValues event fields = .ok (output, sorted) ∧
    sortLists sorted = sortLists fields ∧ output.length = (restrict event fields).length ∧
    (output = sorted ↔ sortLists (restrict event fields) = sortLists fields)

/-- A key that the other event does not have goes into no output. -/
theorem Extracted.skip {event : PyJson} {key : String} {value : PyJson} {fields : Fields}
    (rest : Extracted event fields) (absent : contains event key = .ok false)
    (missing : field? event key = none) : Extracted event ((key, value) :: fields) := by
  obtain ⟨output, sorted, returned, same, length, _⟩ := rest
  refine ⟨output, (key, value) :: sorted, ?_, ?_, ?_, ?_⟩
  · rw [extractReqValues, absent, returned]
    rfl
  · rw [sortLists, sortLists, same]
  · rw [length, restrict, missing]
  · have fewer := length_restrict_le event fields
    have lengths := congrArg List.length same
    simp only [length_sortLists] at lengths
    refine iff_of_false ?_ ?_
    · intro equal
      have sizes := congrArg List.length equal
      rw [List.length_cons] at sizes
      omega
    · intro equal
      have sizes := congrArg List.length equal
      rw [restrict, missing] at sizes
      simp only [length_sortLists, List.length_cons] at sizes
      omega

theorem Extracted.take {event found : PyJson} {key : String} {value : PyJson} {fields : Fields}
    (rest : Extracted event fields) (here : ValueExtracted found value)
    (present : contains event key = .ok true) (item : getItem event key = .ok found)
    (isField : field? event key = some found) : Extracted event ((key, value) :: fields) := by
  obtain ⟨output, sorted, returned, same, length, equal⟩ := rest
  obtain ⟨valueOutput, valueSorted, valueReturned, valueSame, valueEqual⟩ := here
  refine ⟨(key, valueOutput) :: output, (key, valueSorted) :: sorted, ?_, ?_, ?_, ?_⟩
  · rw [extractReqValues, present, item]
    simp only [bind, Except.bind, valueReturned, returned, if_true]
    rfl
  · rw [sortLists, sortLists, same, valueSame]
  · rw [restrict, isField, List.length_cons, List.length_cons, length]
  · rw [restrict, isField]
    simp only [sortLists, List.cons.injEq, Prod.mk.injEq, true_and, valueEqual, equal]

/-- A value that is compared as it is. -/
theorem valueExtracted_whole {found value : PyJson} (returned : extractValue found value = .ok (found, value))
    (kept : restrictValue found value = found)
    (whole : found = value ↔ sortValue found = sortValue value) : ValueExtracted found value :=
  ⟨found, value, returned, rfl, by rw [kept]; exact whole⟩

mutual

theorem extracted_of_comparable (event : PyJson) : ∀ fields : Fields, Comparable event fields →
    Extracted event fields
  | [], _ => ⟨[], [], by simp [extractReqValues], rfl, by simp [restrict], by simp [restrict]⟩
  | (key, value) :: fields, comparable => by
    rw [Comparable] at comparable
    have rest := extracted_of_comparable event fields comparable.2
    cases event with
    | obj own =>
      cases entry : own.lookup key with
      | none => exact rest.skip (by simp [contains, entry]) (by simp [field?, entry])
      | some found =>
        have here := valueExtracted_of_comparable found value (comparable.1 found entry)
        exact rest.take here (by simp [contains, entry]) (by simp [getItem, entry])
          (by simp [field?, entry])
    | str text => exact rest.skip (by simpa [contains, ComparableAt] using comparable.1) rfl
    | arr items => exact rest.skip (by simpa [contains, ComparableAt] using comparable.1) rfl
    | num number => exact comparable.1.elim
    | null => exact comparable.1.elim

theorem valueExtracted_of_comparable (found : PyJson) : ∀ value : PyJson,
    ComparableValue found value → ValueExtracted found value
  | .obj fields, comparable => by
    rw [ComparableValue] at comparable
    obtain ⟨output, sorted, returned, same, _, equal⟩ :=
      extracted_of_comparable found fields comparable
    refine ⟨.obj output, .obj sorted, ?_, ?_, ?_⟩
    · rw [extractValue, returned]
      rfl
    · rw [sortValue, sortValue, same]
    · rw [restrictValue, sortValue, sortValue, PyJson.obj.injEq, PyJson.obj.injEq, equal]
  | .arr own, _ => by
    cases found with
    | arr items =>
      refine ⟨.arr (PyJson.sort items), .arr (PyJson.sort own), by simp [extractValue], ?_, ?_⟩
      · simp only [sortValue, PyJson.arr.injEq]
        exact PyJson.sort_eq_sort_iff.mpr (PyJson.sort_perm own)
      · simp [restrictValue, sortValue]
    | null | num | str | obj =>
      exact valueExtracted_whole (by simp [extractValue]) (by simp [restrictValue]) (by simp [sortValue])
  | .null, comparable => by
    cases found with
    | arr items =>
      rw [ComparableValue] at comparable
      exact absurd rfl (comparable items)
    | null | num | str | obj =>
      exact valueExtracted_whole (by simp [extractValue]) (by simp [restrictValue]) (by simp [sortValue])
  | .num number, comparable => by
    cases found with
    | arr items =>
      rw [ComparableValue] at comparable
      exact absurd rfl (comparable items)
    | null | num | str | obj =>
      exact valueExtracted_whole (by simp [extractValue]) (by simp [restrictValue]) (by simp [sortValue])
  | .str text, comparable => by
    cases found with
    | arr items =>
      rw [ComparableValue] at comparable
      exact absurd rfl (comparable items)
    | null | num | str | obj =>
      exact valueExtracted_whole (by simp [extractValue]) (by simp [restrictValue]) (by simp [sortValue])

end

mutual

/-- Values of different kinds make it raise. -/
theorem raises_of_not_comparable (event : PyJson) : ∀ fields : Fields, ¬ Comparable event fields →
    ∃ error, extractReqValues event fields = .error error
  | [], different => absurd (by simp [Comparable]) different
  | (key, value) :: fields, different => by
    rw [Comparable, not_and_or] at different
    rw [extractReqValues]
    cases event with
    | num number => exact ⟨.typeError, by simp [contains, bind, Except.bind]⟩
    | null => exact ⟨.typeError, by simp [contains, bind, Except.bind]⟩
    | str text =>
      cases occurs : occursIn key text with
      | true => exact ⟨.typeError, by simp [contains, getItem, occurs, bind, Except.bind]⟩
      | false =>
        have later := different.resolve_left (by simp [ComparableAt, occurs])
        obtain ⟨error, raised⟩ := raises_of_not_comparable (.str text) fields later
        exact ⟨error, by simp [contains, occurs, raised, bind, Except.bind]⟩
    | arr items =>
      by_cases member : .str key ∈ items
      · exact ⟨.typeError, by simp [contains, getItem, member, bind, Except.bind]⟩
      · have later := different.resolve_left (by simp [ComparableAt, member])
        obtain ⟨error, raised⟩ := raises_of_not_comparable (.arr items) fields later
        exact ⟨error, by simp [contains, member, raised, bind, Except.bind]⟩
    | obj own =>
      cases entry : own.lookup key with
      | none =>
        have later := different.resolve_left (by simp [ComparableAt, entry])
        obtain ⟨error, raised⟩ := raises_of_not_comparable (.obj own) fields later
        exact ⟨error, by simp [contains, entry, raised, bind, Except.bind]⟩
      | some found =>
        by_cases here : ComparableValue found value
        · obtain ⟨output, sorted, returned, _⟩ := valueExtracted_of_comparable found value here
          have later := different.resolve_left (by simpa [ComparableAt, entry] using here)
          obtain ⟨error, raised⟩ := raises_of_not_comparable (.obj own) fields later
          exact ⟨error, by simp [contains, getItem, entry, returned, raised, bind, Except.bind]⟩
        · obtain ⟨error, raised⟩ := value_raises_of_not_comparable found value here
          exact ⟨error, by simp [contains, getItem, entry, raised, bind, Except.bind]⟩

theorem value_raises_of_not_comparable (found : PyJson) : ∀ value : PyJson,
    ¬ ComparableValue found value → ∃ error, extractValue found value = .error error
  | .obj fields, different => by
    rw [ComparableValue] at different
    obtain ⟨error, raised⟩ := raises_of_not_comparable found fields different
    exact ⟨error, by simp [extractValue, raised, bind, Except.bind]⟩
  | .arr own, different => absurd (by simp [ComparableValue]) different
  | .null, different => by
    simp only [ComparableValue, not_forall, not_not] at different
    obtain ⟨items, rfl⟩ := different
    exact ⟨.attributeError, by simp [extractValue]⟩
  | .num _, different => by
    simp only [ComparableValue, not_forall, not_not] at different
    obtain ⟨items, rfl⟩ := different
    exact ⟨.attributeError, by simp [extractValue]⟩
  | .str _, different => by
    simp only [ComparableValue, not_forall, not_not] at different
    obtain ⟨items, rfl⟩ := different
    exact ⟨.attributeError, by simp [extractValue]⟩

end

/-! ## The walk over the cluster's events -/

/-- Every event of the cluster, up to the one that completes the match, is comparable with the
    recorded event that is next to be matched. -/
def ComparableWalk : List Fields → List Fields → Prop
  | [], _ => True
  | _ :: _, [] => True
  | event :: events, own :: recorded =>
    Comparable (.obj event) own ∧ (Matches event own → ComparableWalk events recorded) ∧
      (¬ Matches event own → ComparableWalk events (own :: recorded))

variable {eventCounter maxEvents : Nat}

theorem getElem?_walk (done : List (Entry Fields)) (own : Fields) (recorded : List Fields) :
    (done ++ (own :: recorded).map Entry.single)[done.length]? = some (.single own) := by
  simp

theorem set_walk (done : List (Entry Fields)) (own sorted : Fields) (recorded : List Fields) :
    (done ++ (own :: recorded).map Entry.single).set done.length (.single sorted) =
      done ++ (sorted :: recorded).map Entry.single := by
  simp

/-- What the loop ends with, if the recorded events from `sorted` on are still to be matched and
    the first of them is `own` up to the order of lists. -/
theorem matchEvents_of_comparable (within : eventCounter ≤ maxEvents) (events : List Fields) :
    ∀ (done : List (Entry Fields)) (own sorted : Fields) (recorded : List Fields),
      sortLists sorted = sortLists own → done.length + recorded.length + 1 = eventCounter →
      ComparableWalk events (own :: recorded) →
      ∃ result left, matchEvents eventCounter maxEvents events
          (done ++ (sorted :: recorded).map Entry.single) done.length = .ok (result, left) ∧
        (result = none ↔ MatchesSubsequence Matches events (own :: recorded)) := by
  induction events with
  | nil =>
    intro done own sorted recorded _ _ _
    refine ⟨some (.single sorted), done ++ (sorted :: recorded).map Entry.single, ?_, ?_⟩
    · rw [matchEvents, getElem?_walk]
    · exact iff_of_false (by simp) not_matchesSubsequence_nil_cons
  | cons event events ih =>
    intro done own sorted recorded same counted comparable
    obtain ⟨here, taken, passed⟩ := comparable
    obtain ⟨output, sortedAgain, returned, sameAgain, _, equal⟩ :=
      extracted_of_comparable (.obj event) sorted ((comparable_congr same).mpr here)
    rw [← upToOrder_iff] at equal
    have verdict : output = sortedAgain ↔ Matches event own := equal.trans (matches_congr same)
    rw [matchEvents, getElem?_walk]
    simp only [returned, bind, Except.bind, set_walk]
    by_cases matched : Matches event own
    · rw [if_pos (verdict.mpr matched), matchesSubsequence_cons_of_matches matched]
      cases recorded with
      | nil =>
        have last : done.length + 1 = eventCounter ∨ done.length + 1 = maxEvents := by
          left
          simpa using counted
        rw [if_pos last]
        exact ⟨none, _, rfl, iff_of_true rfl (matchesSubsequence_nil events)⟩
      | cons next recorded =>
        simp only [List.length_cons] at counted
        have more : ¬ (done.length + 1 = eventCounter ∨ done.length + 1 = maxEvents) := by omega
        rw [if_neg more]
        have moved := ih (done ++ [.single sortedAgain]) next next recorded rfl
          (by simp only [List.length_append, List.length_singleton]; omega) (taken matched)
        simpa using moved
    · rw [if_neg (mt verdict.mp matched), matchesSubsequence_cons_of_not_matches matched]
      exact ih done own sortedAgain recorded (sameAgain.trans same) counted (passed matched)

theorem matchEvents_of_not_comparable (within : eventCounter ≤ maxEvents) (events : List Fields) :
    ∀ (done : List (Entry Fields)) (own sorted : Fields) (recorded : List Fields),
      sortLists sorted = sortLists own → done.length + recorded.length + 1 = eventCounter →
      ¬ ComparableWalk events (own :: recorded) →
      ∃ error, matchEvents eventCounter maxEvents events
          (done ++ (sorted :: recorded).map Entry.single) done.length = .error error := by
  induction events with
  | nil =>
    intro done own sorted recorded _ _ different
    exact absurd trivial different
  | cons event events ih =>
    intro done own sorted recorded same counted different
    rw [matchEvents, getElem?_walk]
    by_cases here : Comparable (.obj event) own
    · obtain ⟨output, sortedAgain, returned, sameAgain, _, equal⟩ :=
        extracted_of_comparable (.obj event) sorted ((comparable_congr same).mpr here)
      rw [← upToOrder_iff] at equal
      have verdict : output = sortedAgain ↔ Matches event own := equal.trans (matches_congr same)
      simp only [returned, bind, Except.bind, set_walk]
      by_cases matched : Matches event own
      · have later : ¬ ComparableWalk events recorded := by
          intro comparable
          exact different ⟨here, fun _ => comparable, fun other => absurd matched other⟩
        rw [if_pos (verdict.mpr matched)]
        cases recorded with
        | nil => exact absurd (by cases events <;> trivial) later
        | cons next recorded =>
          simp only [List.length_cons] at counted
          have more : ¬ (done.length + 1 = eventCounter ∨ done.length + 1 = maxEvents) := by omega
          rw [if_neg more]
          have moved := ih (done ++ [.single sortedAgain]) next next recorded rfl
            (by simp only [List.length_append, List.length_singleton]; omega) later
          simpa using moved
      · have later : ¬ ComparableWalk events (own :: recorded) := by
          intro comparable
          exact different ⟨here, fun other => absurd other matched, fun _ => comparable⟩
        rw [if_neg (mt verdict.mp matched)]
        exact ih done own sortedAgain recorded (sameAgain.trans same) counted later
    · obtain ⟨error, raised⟩ := raises_of_not_comparable (.obj event) sorted
        (mt (comparable_congr same).mp here)
      exact ⟨error, by simp [raised, bind, Except.bind]⟩

/-! ## The generic checks -/

section Generic

variable {strptime : String → Option Int} {check : DuplicateCheck} {event : Fields}

/-- The event has what the generic checks read: a UUID and a node that can be keys of a dictionary
    and a timestamp in the format of the source. -/
def Stamped (strptime : String → Option Int) (event : Fields) : Prop :=
  (∃ uuid ∈ event.lookup "uuid", hashed uuid = .ok uuid) ∧
  (∃ node ∈ event.lookup "node", hashed node = .ok node) ∧
  ∃ text, event.lookup "timestamp" = some (.str text) ∧ (strptime text).isSome

/-- Every timestamp that is kept was parsed before, and no failure is about a recorded event. -/
structure DuplicateCheck.Sound (strptime : String → Option Int) (check : DuplicateCheck) : Prop where
  prev : ∀ text ∈ check.prevTimestamp, (strptime text).isSome
  known : ∀ node known, check.nodeEvents.lookup node = some known →
    ∀ uuid text, known.lookup uuid = some text → (strptime text).isSome
  failures : ∀ entry, Failure.unableToValidate entry ∉ check.failures

theorem getDatetime_of_isSome {text : String} (parsed : (strptime text).isSome) :
    ∃ time, getDatetime strptime text = .ok time := by
  obtain ⟨time, found⟩ := Option.isSome_iff_exists.mp parsed
  exact ⟨time, by simp [getDatetime, found]⟩

theorem checkOrder_sound (sound : check.Sound strptime) (uuid : PyJson) (timestamp : String)
    (time : Int) :
    ∃ next, check.checkOrder strptime uuid timestamp time = .ok next ∧ next.Sound strptime := by
  cases prev : check.prevTimestamp with
  | none => exact ⟨check, by simp [DuplicateCheck.checkOrder, prev], sound⟩
  | some text =>
    obtain ⟨prevTime, parsed⟩ := getDatetime_of_isSome (sound.prev text prev)
    have checked : check.checkOrder strptime uuid timestamp time = .ok
        (if time < prevTime then
          { check with
            duplicatesPresent := true
            failures := check.failures ++ [.notOrdered uuid timestamp text] }
        else check) := by
      simp only [DuplicateCheck.checkOrder, prev, parsed, bind, Except.bind]
      rfl
    refine ⟨_, checked, ?_⟩
    split
    case isTrue => exact { sound with failures := by simp [sound.failures] }
    case isFalse => exact sound

theorem checkUuid_sound (sound : check.Sound strptime) {known : AList fun _ : PyJson => String}
    (parsed : ∀ uuid text, known.lookup uuid = some text → (strptime text).isSome) (uuid : PyJson)
    (timestamp : String) (time : Int) :
    ∃ next, check.checkUuid strptime known uuid timestamp time = .ok next ∧ next.Sound strptime := by
  cases prev : known.lookup uuid with
  | none => exact ⟨check, by simp [DuplicateCheck.checkUuid, prev], sound⟩
  | some text =>
    obtain ⟨prevTime, prevParsed⟩ := getDatetime_of_isSome (parsed uuid text prev)
    simp only [DuplicateCheck.checkUuid, prev, prevParsed, bind, Except.bind]
    split
    case isTrue => exact ⟨_, rfl, { sound with failures := by simp [sound.failures] }⟩
    case isFalse => exact ⟨_, rfl, sound⟩

/-- The timestamp of the event joins those that were parsed. -/
theorem DuplicateCheck.Sound.remember (sound : check.Sound strptime) {timestamp : String}
    (parsed : (strptime timestamp).isSome) {known : AList fun _ : PyJson => String}
    (knownParsed : ∀ uuid text, known.lookup uuid = some text → (strptime text).isSome)
    (node uuid : PyJson) :
    DuplicateCheck.Sound strptime { check with
      prevTimestamp := some timestamp
      nodeEvents := check.nodeEvents.insert node (known.insert uuid timestamp) } where
  prev := by
    intro text isPrev
    cases isPrev
    exact parsed
  known := by
    intro node' known' found uuid' text entry
    rcases lookup_insert_eq_some.mp found with ⟨_, rfl⟩ | ⟨_, old⟩
    · rcases lookup_insert_eq_some.mp entry with ⟨_, rfl⟩ | ⟨_, oldEntry⟩
      · exact parsed
      · exact knownParsed uuid' text oldEntry
    · exact sound.known node' known' old uuid' text entry
  failures := sound.failures

theorem checkEvent_of_stamped (sound : check.Sound strptime) (stamped : Stamped strptime event) :
    ∃ next, check.checkEvent strptime event = .ok next ∧ next.Sound strptime := by
  obtain ⟨⟨uuid, hasUuid, uuidHashed⟩, ⟨node, hasNode, nodeHashed⟩, text, hasTimestamp, parsed⟩ := stamped
  rw [Option.mem_def] at hasUuid hasNode
  obtain ⟨time, timeParsed⟩ := getDatetime_of_isSome parsed
  obtain ⟨ordered, orderChecked, orderSound⟩ := checkOrder_sound sound uuid text time
  have knownParsed : ∀ uuid text, ((ordered.nodeEvents.lookup node).getD ∅).lookup uuid = some text →
      (strptime text).isSome := by
    intro uuid text found
    cases entry : ordered.nodeEvents.lookup node with
    | none => simp [entry] at found
    | some known =>
      rw [entry] at found
      exact orderSound.known node known entry uuid text found
  obtain ⟨last, uuidChecked, lastSound⟩ := checkUuid_sound orderSound knownParsed uuid text time
  refine ⟨_, ?_, lastSound.remember parsed knownParsed node uuid⟩
  simp only [DuplicateCheck.checkEvent, eventField, getItem, hasUuid, hasNode, hasTimestamp,
    timestampText, timeParsed, orderChecked, nodeHashed, uuidHashed, uuidChecked, bind, Except.bind]
  rfl

theorem lookup_of_eventField {name : String} {value : PyJson}
    (returned : eventField event name = .ok value) : event.lookup name = some value := by
  simp only [eventField, getItem] at returned
  split at returned
  case h_1 found entry =>
    cases returned
    exact entry
  case h_2 => cases returned

theorem hashed_of_ok {value value' : PyJson} (returned : hashed value = .ok value') :
    hashed value = .ok value := by
  cases value with
  | obj | arr => cases returned
  | null | num | str => rfl

theorem text_of_timestampText {value : PyJson} {text : String}
    (returned : timestampText value = .ok text) : value = .str text := by
  cases value with
  | str =>
    cases returned
    rfl
  | null | num | arr | obj => cases returned

theorem stamped_of_checkEvent {next : DuplicateCheck}
    (returned : check.checkEvent strptime event = .ok next) : Stamped strptime event := by
  simp only [DuplicateCheck.checkEvent, bind_eq_ok] at returned
  obtain ⟨uuid, hasUuid, stamp, hasStamp, text, isText, time, parsed, _, _, node, hasNode, _,
    nodeHashed, _, uuidHashed, _⟩ := returned
  refine ⟨⟨uuid, lookup_of_eventField hasUuid, hashed_of_ok uuidHashed⟩,
    ⟨node, lookup_of_eventField hasNode, hashed_of_ok nodeHashed⟩, text, ?_, ?_⟩
  · rw [lookup_of_eventField hasStamp, text_of_timestampText isText]
  · unfold getDatetime at parsed
    split at parsed
    case h_1 time' found => simp [found]
    case h_2 => cases parsed

theorem checkEvents_of_stamped {events : List Fields} (sound : check.Sound strptime)
    (stamped : ∀ event ∈ events, Stamped strptime event) :
    ∃ last, events.foldlM (DuplicateCheck.checkEvent strptime) check = .ok last ∧
      last.Sound strptime := by
  induction events generalizing check with
  | nil => exact ⟨check, rfl, sound⟩
  | cons event events ih =>
    obtain ⟨next, stepped, nextSound⟩ := checkEvent_of_stamped sound (stamped event List.mem_cons_self)
    rw [List.foldlM_cons, stepped]
    exact ih nextSound fun later member => stamped later (List.mem_cons_of_mem event member)

/-- The generic checks return exactly if every event of the cluster is stamped, and then none of
    their failures is about a recorded event. -/
theorem duplicateEventIdsPresent_returns_iff {events : List Fields} :
    (∃ generic, duplicateEventIdsPresent strptime events = .ok generic) ↔
      ∀ event ∈ events, Stamped strptime event := by
  constructor
  · rintro ⟨generic, returned⟩
    rw [duplicateEventIdsPresent, bind_eq_ok] at returned
    obtain ⟨last, folded, _⟩ := returned
    exact forall_of_foldlM_ok folded fun _ _ _ stepped => stamped_of_checkEvent stepped
  · intro stamped
    have sound : DuplicateCheck.Sound strptime {} :=
      { prev := by simp, known := by simp, failures := by simp }
    obtain ⟨last, folded, _⟩ := checkEvents_of_stamped sound stamped
    exact ⟨(last.duplicatesPresent, last.failures), by simp [duplicateEventIdsPresent, folded, bind,
      Except.bind, pure, Except.pure]⟩

theorem duplicateEventIdsPresent_failures {events : List Fields} {generic : Bool × List Failure}
    (returned : duplicateEventIdsPresent strptime events = .ok generic) (entry : Entry Fields) :
    Failure.unableToValidate entry ∉ generic.2 := by
  have stamped := duplicateEventIdsPresent_returns_iff.mp ⟨generic, returned⟩
  have sound : DuplicateCheck.Sound strptime {} :=
    { prev := by simp, known := by simp, failures := by simp }
  obtain ⟨last, folded, lastSound⟩ := checkEvents_of_stamped sound stamped
  simp only [duplicateEventIdsPresent, folded, bind, Except.bind, pure, Except.pure] at returned
  cases returned
  exact lastSound.failures entry

end Generic

/-! ## The validation as a whole -/

/-- A helper to which events were added one after the other. -/
theorem run_addEvent (time : String) (recorded : List Fields) (room : recorded.length ≤ maxEvents) :
    (run (Log.step maxEvents) (Log.started time) (recorded.map .addEvent)).helper =
      { testStartTime := some time
        events := recorded.map .single
        eventCounter := recorded.length } := by
  induction recorded using List.reverseRecOn with
  | nil => rfl
  | append_singleton recorded event ih =>
    rw [List.length_append, List.length_singleton] at room
    have fits : ¬ maxEvents < recorded.length + 1 := by omega
    rw [List.map_append, run_append, List.map_singleton, run_cons, run_nil]
    simp [Log.step, ih (by omega), EventHelper.addEvent, EventHelper.appendEvent, fits, bind,
      Except.bind, pure, Except.pure]

/-- The parts of a validation that returns. -/
theorem validate_eq_ok_iff {strptime : String → Option Int} {helper : EventHelper Fields}
    {allEvents events : List Fields} {failures : List Failure} {left : List (Entry Fields)}
    (nonempty : helper.events ≠ []) :
    validate strptime maxEvents helper allEvents events = .ok (failures, left) ↔
      ∃ generic result, duplicateEventIdsPresent strptime allEvents = .ok generic ∧
        matchEvents helper.eventCounter maxEvents events helper.events 0 = .ok (result, left) ∧
        failures = (if generic.1 then generic.2 ++ [.duplicateEventIds] else generic.2) ++
          (result.map Failure.unableToValidate).toList := by
  have entered : ¬ helper.events.isEmpty = true := by simpa using nonempty
  rw [validate, if_neg entered]
  constructor
  · intro returned
    obtain ⟨generic, checked, returned⟩ := bind_eq_ok.mp returned
    obtain ⟨compared, walked, returned⟩ := bind_eq_ok.mp returned
    obtain ⟨result, recorded⟩ := compared
    cases result with
    | none =>
      cases returned
      exact ⟨generic, none, checked, walked, by simp⟩
    | some entry =>
      cases returned
      exact ⟨generic, some entry, checked, walked, by simp⟩
  · rintro ⟨generic, result, checked, walked, rfl⟩
    simp only [checked, walked, bind, Except.bind]
    cases result with
    | none => simp [pure, Except.pure]
    | some entry => simp [pure, Except.pure]

/-- Whether a recorded event could not be validated is what the walk ended with. -/
theorem exists_unableToValidate_iff {strptime : String → Option Int} {allEvents : List Fields}
    {generic : Bool × List Failure} (checked : duplicateEventIdsPresent strptime allEvents = .ok generic)
    (result : Option (Entry Fields)) :
    (∃ entry, Failure.unableToValidate entry ∈
      (if generic.1 then generic.2 ++ [.duplicateEventIds] else generic.2) ++
        (result.map Failure.unableToValidate).toList) ↔ result ≠ none := by
  have others := duplicateEventIdsPresent_failures checked
  have generic' : ∀ entry, Failure.unableToValidate entry ∉
      (if generic.1 then generic.2 ++ [.duplicateEventIds] else generic.2) := by
    intro entry
    split <;> simp [others]
  cases result with
  | none => simp [generic']
  | some entry => simp [generic']

/-- A validation of events that were added one after the other returns, with the failure
    `unableToValidate` exactly if they do not match a subsequence of the cluster's events, if and
    only if all events of the cluster are stamped and it compares no two events of different
    kinds. -/
theorem validate_reports_mismatch_iff (strptime : String → Option Int) (time : String)
    (maxEvents : Nat) (recorded allEvents events : List Fields) (nonempty : 1 ≤ recorded.length)
    (room : recorded.length ≤ maxEvents) :
    (∃ failures left,
      validate strptime maxEvents
          (run (Log.step maxEvents) (Log.started time) (recorded.map .addEvent)).helper
          allEvents events = .ok (failures, left) ∧
        ((∃ entry, Failure.unableToValidate entry ∈ failures) ↔
          ¬ MatchesSubsequence Matches events recorded)) ↔
      (∀ event ∈ allEvents, Stamped strptime event) ∧ ComparableWalk events recorded := by
  rw [run_addEvent time recorded room, ← duplicateEventIdsPresent_returns_iff]
  obtain ⟨own, recorded, rfl⟩ := List.exists_cons_of_length_pos nonempty
  have counted : ([] : List (Entry Fields)).length + recorded.length + 1 = (own :: recorded).length := by
    simp
  constructor
  · rintro ⟨failures, left, returned, _⟩
    obtain ⟨generic, result, checked, walked, _⟩ := (validate_eq_ok_iff (by simp)).mp returned
    refine ⟨⟨generic, checked⟩, ?_⟩
    by_contra different
    obtain ⟨error, raised⟩ := matchEvents_of_not_comparable room events [] own own recorded rfl
      counted different
    cases walked.symm.trans raised
  · rintro ⟨⟨generic, checked⟩, comparable⟩
    obtain ⟨result, left, walked, verdict⟩ := matchEvents_of_comparable room events [] own own
      recorded rfl counted comparable
    refine ⟨_, left, (validate_eq_ok_iff (by simp)).mpr ⟨generic, result, checked, walked, rfl⟩, ?_⟩
    rw [exists_unableToValidate_iff checked, ne_eq, verdict]

/-- An event of the cluster with a list-valued field. -/
def nodesEvent : Fields :=
  [("node", .str "n1"), ("nodes", .arr [.str "n2", .str "n1"]),
    ("timestamp", .str "2022-01-01T00:00:00.000Z"), ("uuid", .str "u1")]

/-- `strptime` on the timestamp of the event. -/
def newYear2022 (text : String) : Option Int :=
  if text = "2022-01-01T00:00:00.000Z" then some 1640995200000000 else none

theorem validate_reports_nodesEvent :
    (∃ failures left,
      validate newYear2022 10000
          (run (Log.step 10000) (Log.started "") ([[("node", .str "n1")]].map .addEvent)).helper
          [nodesEvent] [nodesEvent] = .ok (failures, left) ∧
        ((∃ entry, Failure.unableToValidate entry ∈ failures) ↔
          ¬ MatchesSubsequence Matches [nodesEvent] [[("node", .str "n1")]])) ↔
      (∀ event ∈ [nodesEvent], Stamped newYear2022 event) ∧
        ComparableWalk [nodesEvent] [[("node", .str "n1")]] :=
  validate_reports_mismatch_iff newYear2022 "" 10000 [[("node", .str "n1")]] [nodesEvent] [nodesEvent]
    (by decide) (by decide)

/-- A recorded text where the cluster has a list: `sort` of the text is an `AttributeError`, and
    no failure is returned although the events do not match. -/
theorem text_against_list_raises :
    validate newYear2022 10000
        (run (Log.step 10000) (Log.started "") ([[("nodes", .str "n1")]].map .addEvent)).helper
        [nodesEvent] [nodesEvent] = .error .attributeError ∧
      ¬ MatchesSubsequence Matches [nodesEvent] [[("nodes", .str "n1")]] := by
  refine ⟨by rfl, ?_⟩
  have different : ¬ Matches nodesEvent [("nodes", .str "n1")] := by
    have restricted : restrict (.obj nodesEvent) [("nodes", .str "n1")] =
        [("nodes", .arr [.str "n2", .str "n1"])] := rfl
    rw [Matches, upToOrder_iff, restricted]
    simp [sortLists, sortValue]
  rw [matchesSubsequence_cons_of_not_matches different]
  exact not_matchesSubsequence_nil_cons

end Taf.SystemEvents
