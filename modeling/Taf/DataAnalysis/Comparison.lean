import Taf.Lib.Dict
import Taf.Lib.Run

/-! # What two data sets differ in

`compare_data_maps` and `compare_maps` go through the same sets of keys and differ in the reasons they
find for one key.  A value is what Python has, with its conversions and its comparisons; `None` is
`none`. -/

namespace Taf.DataAnalysis

open Taf.Lib

universe u

/-! ## Values and rules -/

/-- The values of a statistic other than `None` -/
structure PyValues (V : Type u) where
  text : String → V
  toInt : V → Except String V
  toLong : V → Except String V
  toFloat : V → Except String V
  ge : Option V → Option V → Bool
  le : Option V → Option V → Bool
  gt : Option V → Option V → Bool
  lt : Option V → Option V → Bool
  eq : Option V → Option V → Bool
  ne : Option V → Option V → Bool
  format : Option V → String

/-- The rule of `comparisonMap` for a key -/
structure Logic where
  type : String
  operation : String

/-- The keys that do not match, each with a message -/
abbrev Reason (ν : Type u) := AList fun _ : ν => String

variable {κ ν ι V : Type u} [DecidableEq κ]

/-- `dict[key]` -/
def getItem (dict : AList fun _ : κ => ι) (key : κ) : Except String ι :=
  match dict.lookup key with
  | some value => .ok value
  | none => .error "KeyError"

def convertValue (py : PyValues V) (val : Option V) (type : String) : Except String (Option V) :=
  match val with
  | none => .ok (some (py.text ""))
  | some val =>
    if type = "int" then some <$> py.toInt val
    else if type = "long" then some <$> py.toLong val
    else if type = "float" then some <$> py.toFloat val
    else if type = "string" then .ok (some val)
    else .ok none

/-- An operation that is none of the six always fails. -/
def satisfies (py : PyValues V) (operation : String) (val1 val2 : Option V) : Bool :=
  if operation = ">=" then py.ge val1 val2
  else if operation = "<=" then py.le val1 val2
  else if operation = ">" then py.gt val1 val2
  else if operation = "<" then py.lt val1 val2
  else if operation = "==" then py.eq val1 val2
  else if operation = "!=" then py.ne val1 val2
  else false

def compareValues [DecidableEq ν] (py : PyValues V) (val1 val2 : Option V) (key : ν) (reason : Reason ν) (logic : Logic) :
    Except String (Reason ν) := do
  let val1 ← convertValue py val1 logic.type
  let val2 ← convertValue py val2 logic.type
  -- a filtered value is converted all the same
  if logic.operation = "filter" then return reason
  if satisfies py logic.operation val1 val2 then return reason
  return reason.insert key
    ("Condition Fail:: " ++ py.format val1 ++ " " ++ logic.operation ++ " " ++ py.format val2)

/-- The rule is a comparison, and the converted values fail it. -/
def Fails (py : PyValues V) (logic : Logic) (val1 val2 : Option V) : Prop :=
  logic.operation ≠ "filter" ∧ ∃ converted1 converted2, convertValue py val1 logic.type = .ok converted1 ∧
    convertValue py val2 logic.type = .ok converted2 ∧ satisfies py logic.operation converted1 converted2 = false

def Converts (py : PyValues V) (val : Option V) (type : String) : Prop :=
  ∃ converted, convertValue py val type = .ok converted

/-! ## The comparison of two dictionaries -/

structure Comparison (κ ν : Type u) where
  deletedItems : List κ
  addedItems : List κ
  updatedItems : AList fun _ : κ => Reason ν

structure Logical where
  deletedItems : Bool
  addedItems : Bool
  updatedItems : Bool
deriving DecidableEq

structure ComparisonResult (κ ν : Type u) where
  logicalResult : Logical
  result : Comparison κ ν

/-- A round of the loop over the keys that both dictionaries have -/
def compareKey (reasonOf : ι → ι → Except String (Reason ν)) (info1 info2 : AList fun _ : κ => ι)
    (updatedItemsMap : AList fun _ : κ => Reason ν) (key : κ) : Except String (AList fun _ : κ => Reason ν) := do
  let data1 ← getItem info1 key
  let data2 ← getItem info2 key
  let reason ← reasonOf data1 data2
  return if 0 < reason.keys.length then updatedItemsMap.insert key reason else updatedItemsMap

/-- The body that the two comparisons share; `sets` is the order in which Python iterates a set. -/
def compareItems (sets : KeyOrder κ) (reasonOf : ι → ι → Except String (Reason ν))
    (info1 info2 : AList fun _ : κ => ι) : Except String (ComparisonResult κ ν) := do
  let deletedItemsList := sets.order (info1.keys.filter (· ∉ info2.keys))
  let addedItemsList := sets.order (info2.keys.filter (· ∉ info1.keys))
  let updatedItemsMap ← (sets.order (info1.keys.filter (· ∈ info2.keys))).foldlM
    (compareKey reasonOf info1 info2) ∅
  return {
    logicalResult := {
      deletedItems := 0 < deletedItemsList.length
      addedItems := 0 < addedItemsList.length
      updatedItems := 0 < updatedItemsMap.keys.length }
    result := {
      deletedItems := deletedItemsList
      addedItems := addedItemsList
      updatedItems := updatedItemsMap } }

/-! ## Exact comparisons -/

/-- The result tells the keys apart: those of one dictionary only, and those of both whose values
    differ. -/
structure Exact (differ : ι → ι → Prop) (info1 info2 : AList fun _ : κ => ι) (compared : ComparisonResult κ ν) :
    Prop where
  deleted : ∀ key, key ∈ compared.result.deletedItems ↔ key ∈ info1 ∧ key ∉ info2
  deletedOnce : compared.result.deletedItems.Nodup
  added : ∀ key, key ∈ compared.result.addedItems ↔ key ∈ info2 ∧ key ∉ info1
  addedOnce : compared.result.addedItems.Nodup
  updated : ∀ key, key ∈ compared.result.updatedItems ↔
    ∃ data1 data2, info1.lookup key = some data1 ∧ info2.lookup key = some data2 ∧ differ data1 data2
  deletedFlag : compared.logicalResult.deletedItems = true ↔ compared.result.deletedItems ≠ []
  addedFlag : compared.logicalResult.addedItems = true ↔ compared.result.addedItems ≠ []
  updatedFlag : compared.logicalResult.updatedItems = true ↔ compared.result.updatedItems ≠ ∅

section

variable [DecidableEq ν] {py : PyValues V} {val1 val2 : Option V} {key : ν} {reason next : Reason ν} {logic : Logic}

/-- What is left to do when both values are converted -/
theorem compareValues_converted {converted1 converted2 : Option V}
    (isConverted1 : convertValue py val1 logic.type = .ok converted1)
    (isConverted2 : convertValue py val2 logic.type = .ok converted2) :
    compareValues py val1 val2 key reason logic = .ok
      (if logic.operation = "filter" ∨ satisfies py logic.operation converted1 converted2 = true then reason
      else reason.insert key ("Condition Fail:: " ++ py.format converted1 ++ " " ++ logic.operation ++ " " ++
        py.format converted2)) := by
  rw [compareValues, isConverted1, isConverted2]
  by_cases filter : logic.operation = "filter"
  · simp [filter, bind, Except.bind, pure, Except.pure]
  · by_cases satisfied : satisfies py logic.operation converted1 converted2
    · simp [filter, satisfied, bind, Except.bind, pure, Except.pure]
    · simp [filter, satisfied, bind, Except.bind, pure, Except.pure]

theorem compareValues_returns : (∃ next, compareValues py val1 val2 key reason logic = .ok next) ↔
    Converts py val1 logic.type ∧ Converts py val2 logic.type := by
  constructor
  · rintro ⟨next, stepped⟩
    rw [compareValues, bind_eq_ok] at stepped
    obtain ⟨converted1, isConverted1, stepped⟩ := stepped
    rw [bind_eq_ok] at stepped
    obtain ⟨converted2, isConverted2, _⟩ := stepped
    exact ⟨⟨converted1, isConverted1⟩, converted2, isConverted2⟩
  · rintro ⟨⟨converted1, isConverted1⟩, converted2, isConverted2⟩
    exact ⟨_, compareValues_converted isConverted1 isConverted2⟩

/-- A rule that fails leaves a reason, and only that does. -/
theorem compareValues_ok (stepped : compareValues py val1 val2 key reason logic = .ok next) :
    next ≠ ∅ ↔ reason ≠ ∅ ∨ Fails py logic val1 val2 := by
  obtain ⟨⟨converted1, isConverted1⟩, converted2, isConverted2⟩ := compareValues_returns.mp ⟨next, stepped⟩
  rw [compareValues_converted isConverted1 isConverted2] at stepped
  cases stepped
  by_cases passes : logic.operation = "filter" ∨ satisfies py logic.operation converted1 converted2 = true
  · rw [if_pos passes]
    have kept : ¬ Fails py logic val1 val2 := by
      rintro ⟨compares, other1, other2, isOther1, isOther2, failed⟩
      cases isConverted1.symm.trans isOther1
      cases isConverted2.symm.trans isOther2
      rcases passes with filter | satisfied
      · exact compares filter
      · exact absurd satisfied (by simp [failed])
    simp [kept]
  · rw [if_neg passes]
    rw [not_or] at passes
    have fails : Fails py logic val1 val2 :=
      ⟨passes.1, converted1, converted2, isConverted1, isConverted2, by simpa using passes.2⟩
    simp [fails, insert_ne_empty]

end

section

variable {sets : KeyOrder κ} {reasonOf : ι → ι → Except String (Reason ν)} {info1 info2 : AList fun _ : κ => ι}
  {differ : ι → ι → Prop} {compared : ComparisonResult κ ν} {key : κ}

theorem getItem_eq_ok {dict : AList fun _ : κ => ι} {value : ι} :
    getItem dict key = .ok value ↔ dict.lookup key = some value := by
  rw [getItem]
  split
  case h_1 found => simp [found]
  case h_2 missing => simp [missing]

theorem mem_common {data1 data2 : ι} (found1 : info1.lookup key = some data1) (found2 : info2.lookup key = some data2) :
    key ∈ sets.order (info1.keys.filter (· ∈ info2.keys)) := by
  rw [mem_order, List.mem_filter, decide_eq_true_eq]
  exact ⟨AList.lookup_isSome.mp (Option.isSome_of_eq_some found1),
    AList.lookup_isSome.mp (Option.isSome_of_eq_some found2)⟩

/-- One round records the key if there is a reason. -/
theorem compareKey_ok {updated next : AList fun _ : κ => Reason ν} {o : κ}
    (stepped : compareKey reasonOf info1 info2 updated key = .ok next) :
    o ∈ next ↔ o ∈ updated ∨ ∃ data1 data2 reason, info1.lookup key = some data1 ∧
      info2.lookup key = some data2 ∧ reasonOf data1 data2 = .ok reason ∧ reason ≠ ∅ ∧ o = key := by
  rw [compareKey, bind_eq_ok] at stepped
  obtain ⟨data1, found1, stepped⟩ := stepped
  rw [bind_eq_ok] at stepped
  obtain ⟨data2, found2, stepped⟩ := stepped
  rw [bind_eq_ok] at stepped
  obtain ⟨reason, judged, stepped⟩ := stepped
  cases stepped
  rw [getItem_eq_ok] at found1 found2
  by_cases nonempty : reason = ∅
  · rw [if_neg (keys_length_pos.not.mpr (not_not.mpr nonempty))]
    simp [found1, found2, judged, nonempty]
  · rw [if_pos (keys_length_pos.mpr nonempty), AList.mem_insert]
    simp [found1, found2, judged, nonempty, or_comm]

/-- Where the reasons are found without an exception, the comparison returns. -/
theorem compareItems_returns (returns : ∀ key data1 data2, info1.lookup key = some data1 →
    info2.lookup key = some data2 → ∃ reason, reasonOf data1 data2 = .ok reason) :
    ∃ compared, compareItems sets reasonOf info1 info2 = .ok compared := by
  have each : ∀ updated, ∀ key ∈ sets.order (info1.keys.filter (· ∈ info2.keys)),
      ∃ next, compareKey reasonOf info1 info2 updated key = .ok next := by
    intro updated key member
    rw [mem_order, List.mem_filter, decide_eq_true_eq] at member
    obtain ⟨data1, found1⟩ := Option.isSome_iff_exists.mp (AList.lookup_isSome.mpr member.1)
    obtain ⟨data2, found2⟩ := Option.isSome_iff_exists.mp (AList.lookup_isSome.mpr member.2)
    obtain ⟨reason, judged⟩ := returns key data1 data2 found1 found2
    rw [compareKey, getItem_eq_ok.mpr found1, getItem_eq_ok.mpr found2]
    simp [judged, pure, Except.pure, bind, Except.bind]
  obtain ⟨updated, folded⟩ := foldlM_returns each ∅
  rw [compareItems, folded]
  exact ⟨_, rfl⟩

/-- It returns only there. -/
theorem compareItems_ok_inv (returned : compareItems sets reasonOf info1 info2 = .ok compared) {data1 data2 : ι}
    (found1 : info1.lookup key = some data1) (found2 : info2.lookup key = some data2) :
    ∃ reason, reasonOf data1 data2 = .ok reason := by
  cases judged : reasonOf data1 data2 with
  | ok reason => exact ⟨reason, rfl⟩
  | error e =>
    have raises : ∀ updated, ∃ e, compareKey reasonOf info1 info2 updated key = .error e := by
      intro updated
      rw [compareKey, getItem_eq_ok.mpr found1, getItem_eq_ok.mpr found2]
      exact ⟨e, by simp [judged, bind, Except.bind]⟩
    have member : key ∈ sets.order (info1.keys.filter (· ∈ info2.keys)) := mem_common found1 found2
    obtain ⟨e', raised⟩ := foldlM_eq_error member raises ∅
    rw [compareItems, raised] at returned
    cases returned

/-- The comparison is exact if there is a reason exactly where values differ. -/
theorem compareItems_exact (returned : compareItems sets reasonOf info1 info2 = .ok compared)
    (judges : ∀ key data1 data2 reason, info1.lookup key = some data1 → info2.lookup key = some data2 →
      reasonOf data1 data2 = .ok reason → (reason ≠ ∅ ↔ differ data1 data2)) :
    Exact differ info1 info2 compared := by
  have whole := returned
  rw [compareItems, bind_eq_ok] at returned
  obtain ⟨updated, folded, same⟩ := returned
  cases same
  have deletedOnce : (info1.keys.filter (· ∉ info2.keys)).Nodup := info1.nodupKeys.filter _
  have addedOnce : (info2.keys.filter (· ∉ info1.keys)).Nodup := info2.nodupKeys.filter _
  have shown := fun key => foldlM_shows_iff (fun _ _ _ stepped => compareKey_ok (o := key) stepped) folded
  refine ⟨?_, ?_, ?_, ?_, ?_, ?_, ?_, ?_⟩
  · intro key
    rw [mem_order, List.mem_filter, decide_eq_true_eq]
    exact Iff.rfl
  · exact (sets.perm _).nodup_iff.mpr deletedOnce
  · intro key
    rw [mem_order, List.mem_filter, decide_eq_true_eq]
    exact Iff.rfl
  · exact (sets.perm _).nodup_iff.mpr addedOnce
  · intro key
    rw [shown key]
    constructor
    · rintro (impossible | ⟨call, _, data1, data2, reason, found1, found2, judged, nonempty, rfl⟩)
      · exact absurd impossible (AList.notMem_empty key)
      · exact ⟨data1, data2, found1, found2, (judges key data1 data2 reason found1 found2 judged).mp nonempty⟩
    · rintro ⟨data1, data2, found1, found2, differs⟩
      obtain ⟨reason, judged⟩ := compareItems_ok_inv whole found1 found2
      have common : key ∈ sets.order (info1.keys.filter (· ∈ info2.keys)) := mem_common found1 found2
      exact .inr ⟨key, common, data1, data2, reason, found1, found2, judged,
        (judges key data1 data2 reason found1 found2 judged).mpr differs, rfl⟩
  · simp [List.length_pos_iff]
  · simp [List.length_pos_iff]
  · exact decide_eq_true_iff.trans keys_length_pos

end

end Taf.DataAnalysis
