import Taf.Lib.Run
import Taf.Lib.Rotation
import Taf.Lib.Dict

/-! # Verified transaction loads

`Atomicity.Loader.call` runs the transactions of a load for the operations `create`, `update` and
`delete` and compares afterwards what every client reads with the documents of the generator.  What
a transaction reports only decides whether it is tried again; what the collections hold at the end is
an input.  Documents are dictionaries over values that are equal exactly if Python's `==` says so.

A generator without `deep_copy` gives one and the same `JsonObject` for all of its keys, so the list of
keys and values holds references. -/

namespace Taf.Atomicity

open Taf.Lib

abbrev Doc (α : Type) := Finmap fun _ : String => α

/-- A document that a client has read; its CAS is never zero. -/
structure Found (α : Type) where
  value : Doc α
  cas : ℕ
  stored : cas ≠ 0

/-- The collection as a client sees it -/
abbrev Content (α : Type) := String → Option (Found α)

inductive TxnOp where
  | create | update | delete
  deriving DecidableEq

/-- The three lists of operations that a load is made of -/
inductive Scenario where
  | create | createUpdate | createDelete

def Scenario.opType : Scenario → List TxnOp
  | .create => [.create]
  | .createUpdate => [.create, .update]
  | .createDelete => [.create, .delete]

variable {α : Type}

/-- The arguments of a loader whose transactions are not deferred and whose failures are not
    recorded, with the keys and the documents of its generator -/
structure Loader (α : Type) where
  keyValueList : List (String × ℕ)
  document : ℕ → Doc α
  distinct : (keyValueList.map Prod.fst).Nodup
  numDocs : ℕ
  positive : 0 < numDocs
  scenario : Scenario
  commit : Bool
  updateCount : ℕ
  updates : 1 ≤ updateCount

structure Progress where
  allKeys : List String
  updateKeys : List String
  deleteKeys : List String
  retries : ℕ
  calls : ℕ

/-! ## The transactions -/

def durabilityImpossible := "com.couchbase.client.core.error.DurabilityImpossibleException"

/-- `transaction_load`: the text of what a call of `RunTransaction` returns, unless it is empty,
    decides about another call. -/
def transactionLoad (outcome : ℕ → Option String) : ℕ → ℕ → ℕ × ℕ
  | 0, calls => (0, calls + 1)
  | retries + 1, calls =>
    match outcome calls with
    | none => (retries + 1, calls + 1)
    | some err =>
      if durabilityImpossible.toList <:+: err.toList then transactionLoad outcome retries (calls + 1)
      else (retries + 1, calls + 1)

/-- `__chunks`: `range(0, len(l), n)` with the slices from its positions on -/
def chunks {β : Type} (n : ℕ) (items : List β) : List (List β) :=
  (List.range ((items.length + n - 1) / n)).map fun i => (items.drop (n * i)).take n

def loadChunks {β : Type} (outcome : ℕ → Option String) (docs : List (List β)) (state : Progress) : Progress :=
  docs.foldl (fun state _ =>
    let (retries, calls) := transactionLoad outcome state.retries state.calls
    { state with retries := retries, calls := calls }) state

namespace Loader

variable (args : Loader α)

def keys : List String := args.keyValueList.map Prod.fst

/-- One round of the loop over `self.op_type` -/
def runOp (outcome : ℕ → Option String) (state : Progress) (op : TxnOp) : Progress :=
  match op with
  | .create =>
    let commit := if args.scenario.opType.length ≠ 1 then true else args.commit
    let loaded := loadChunks outcome (chunks args.numDocs args.keyValueList) state
    if commit then loaded else { loaded with allKeys := [] }
  | .update =>
    let loaded := loadChunks outcome (chunks args.numDocs args.keys) state
    if args.commit then { loaded with updateKeys := loaded.allKeys } else loaded
  | .delete =>
    let loaded := loadChunks outcome (chunks args.numDocs args.keys) state
    if args.commit then { loaded with deleteKeys := loaded.allKeys } else loaded

def runOps (outcome : ℕ → Option String) (retries : ℕ) : Progress :=
  args.scenario.opType.foldl (args.runOp outcome) ⟨args.keys, [], [], retries, 0⟩

/-! ## The verification -/

variable (number : ℕ → α)

def mutated (value : Doc α) : Doc α := value.insert "mutated" (number args.updateCount)

/-- `value.put('mutated', self.update_count)`: every item with the same reference has the new value. -/
def put (document : ℕ → Doc α) (item : String × ℕ) : ℕ → Doc α :=
  Function.update document item.2 (args.mutated number (document item.2))

/-- The items and the documents in the end -/
def processValuesForVerification (updateKeys : List String) : List (String × ℕ) × (ℕ → Doc α) :=
  let (visited, items) :=
    moveFrom (fun item => item.1 ∈ updateKeys) args.keyValueList.length 0 args.keyValueList
  (items, visited.foldl (args.put number) args.document)

end Loader

/-- The documents that `batch_read` finds -/
def batchRead (content : Content α) (keys : List String) : Content α := fun key =>
  if key ∈ keys then content key else none

section

variable [DecidableEq α]

/-- `inserted_keys` and `wrong_values` -/
def validateItem (map : Content α) (state : List String × List String) (item : String × Doc α) :
    Option (List String × List String) :=
  match map item.1 with
  | none => some state
  | some found =>
    if item.2 = found.value ∨ found.cas = 0 then some (state.1.erase item.1, state.2)
    else if item.1 ∈ state.1 then some (state.1.erase item.1, state.2 ++ [item.1])
    -- `list.remove` raises for a key that is not there.
    else none

def validateKeyVal (map : Content α) (keyValue : List (String × Doc α)) (insertedKeys : List String) :
    Option (List String × List String) :=
  keyValue.foldlM (validateItem map) (insertedKeys, [])

/-- The round of the verification for one client -/
def verifyClient (state : Progress) (keyValue : List (String × Doc α)) (exception : Option String)
    (content : Content α) : Option (Option String) := do
  let (inserted, wrongValues) ← validateKeyVal (batchRead content state.allKeys) keyValue state.allKeys
  let exception :=
    if wrongValues.isEmpty then exception
    else some ("Wrong key value: " ++ ",".intercalate wrongValues)
  let inserted := state.deleteKeys.foldl List.erase inserted
  return if inserted.isEmpty then exception else some ("Keys missing: " ++ ",".intercalate inserted)

/-- `Atomicity.Loader.call`: the exception of the task in the end; `none` is a Python exception. -/
def Loader.call (args : Loader α) (number : ℕ → α) (outcome : ℕ → Option String) (retries : ℕ)
    (clients : List (Content α)) : Option (Option String) :=
  let state := args.runOps outcome retries
  let (items, document) := args.processValuesForVerification number state.updateKeys
  let keyValue := items.map fun item => (item.1, document item.2)
  clients.foldlM (verifyClient state keyValue) none

end

/-! ## What the operations imply -/

/-- The document that a key is left with -/
def Loader.implied (args : Loader α) (number : ℕ → α) (item : String × ℕ) : Option (Doc α) :=
  match args.scenario, args.commit with
  | .create, true => some (args.document item.2)
  | .create, false => none
  | .createUpdate, true => some (args.mutated number (args.document item.2))
  | .createUpdate, false => some (args.document item.2)
  | .createDelete, true => none
  | .createDelete, false => some (args.document item.2)

/-- The document is the one of an item at an even position, too. -/
def Loader.Shared (args : Loader α) (item : String × ℕ) : Prop :=
  ∃ i other, args.keyValueList[2 * i]? = some other ∧ other.2 = item.2

/-- Nothing that is verified is meant to be absent, and every document that the loop over the positions
    leaves as it was generated is the mutated one already. -/
def Loader.Verified (args : Loader α) (number : ℕ → α) : Prop :=
  match args.scenario, args.commit with
  | .create, false => args.keyValueList = []
  | .createDelete, true => args.keyValueList = []
  | .createUpdate, true => ∀ item ∈ args.keyValueList, ¬ args.Shared item →
      args.mutated number (args.document item.2) = args.document item.2
  | _, _ => True

/-- If the task ends without an exception, every client finds what the operations imply. -/
def Loader.Sound [DecidableEq α] (args : Loader α) (number : ℕ → α) : Prop :=
  ∀ outcome retries clients, args.call number outcome retries clients = some none →
    ∀ content ∈ clients, ∀ item ∈ args.keyValueList,
      (content item.1).map Found.value = args.implied number item

/-! ## What the transactions leave behind -/

theorem loadChunks_keys {β : Type} (outcome : ℕ → Option String) (docs : List (List β)) (state : Progress) :
    (loadChunks outcome docs state).allKeys = state.allKeys ∧
      (loadChunks outcome docs state).updateKeys = state.updateKeys ∧
        (loadChunks outcome docs state).deleteKeys = state.deleteKeys := by
  rw [loadChunks]
  induction docs generalizing state with
  | nil => exact ⟨rfl, rfl, rfl⟩
  | cons doc docs ih =>
    rw [List.foldl_cons]
    exact ih _

namespace Loader

/-- The keys that are read, that are taken for updated and that are taken for deleted -/
def verifiedKeys (args : Loader α) : List String × List String × List String :=
  match args.scenario, args.commit with
  | .create, false => ([], [], [])
  | .createUpdate, true => (args.keys, args.keys, [])
  | .createDelete, true => (args.keys, [], args.keys)
  | _, _ => (args.keys, [], [])

variable {args : Loader α}

theorem runOps_keys (outcome : ℕ → Option String) (retries : ℕ) :
    (args.runOps outcome retries).allKeys = args.verifiedKeys.1 ∧
      (args.runOps outcome retries).updateKeys = args.verifiedKeys.2.1 ∧
        (args.runOps outcome retries).deleteKeys = args.verifiedKeys.2.2 := by
  rw [verifiedKeys, runOps]
  have loaded {β : Type} (items : List β) (state : Progress) :=
    loadChunks_keys outcome (chunks args.numDocs items) state
  cases scenario : args.scenario <;> cases committed : args.commit <;>
    simp [Scenario.opType, runOp, scenario, committed, loaded]

end Loader

namespace Loader

variable {args : Loader α} (number : ℕ → α)

/-! ## The documents that are compared -/

theorem foldl_put (visited : List (String × ℕ)) (document : ℕ → Doc α) (ref : ℕ) :
    visited.foldl (args.put number) document ref =
      if ref ∈ visited.map Prod.snd then args.mutated number (document ref) else document ref := by
  induction visited generalizing document with
  | nil => simp
  | cons item visited ih =>
    rw [List.foldl_cons, ih]
    by_cases same : ref = item.2
    · subst same
      simp [put, mutated]
    · have members : ref ∈ (item :: visited).map Prod.snd ↔ ref ∈ visited.map Prod.snd := by
        rw [List.map_cons, List.mem_cons, or_iff_right same]
      simp only [put, Function.update_of_ne same, members]

theorem processed_none : (args.processValuesForVerification number []).2 = args.document := by
  rw [processValuesForVerification, moveFrom_none (by simp)]
  rfl

open Classical in
/-- The loop over the positions reaches the documents at even positions. -/
theorem processed_keys (item : String × ℕ) :
    (args.processValuesForVerification number args.keys).2 item.2 =
      if args.Shared item then args.mutated number (args.document item.2) else args.document item.2 := by
  have distinct : args.keyValueList.Nodup := List.Nodup.of_map Prod.fst args.distinct
  have each : ∀ item ∈ args.keyValueList, decide (item.1 ∈ args.keys) = true := by
    intro item member
    exact decide_eq_true (List.mem_map_of_mem member)
  have shared : item.2 ∈ ((moveFrom (fun item => item.1 ∈ args.keys) args.keyValueList.length 0
      args.keyValueList).1.map Prod.snd) ↔ args.Shared item := by
    rw [List.mem_map, Shared]
    constructor
    · intro ⟨other, visited, same⟩
      obtain ⟨i, found⟩ := (mem_moveFrom distinct each).mp visited
      exact ⟨i, other, found, same⟩
    · intro ⟨i, other, found, same⟩
      exact ⟨other, (mem_moveFrom distinct each).mpr ⟨i, found⟩, same⟩
  rw [processValuesForVerification]
  show List.foldl (args.put number) args.document _ item.2 = _
  rw [foldl_put]
  by_cases own : args.Shared item
  · rw [if_pos (shared.mpr own), if_pos own]
  · rw [if_neg (mt shared.mp own), if_neg own]

theorem processed_perm (updateKeys : List String) :
    (args.processValuesForVerification number updateKeys).1.Perm args.keyValueList :=
  moveFrom_perm args.keyValueList.length 0 args.keyValueList

/-- What the verification of one client comes to -/
def Accepts (args : Loader α) (content : Content α) : Prop :=
  ∀ item ∈ args.keyValueList, item.1 ∈ args.verifiedKeys.1 →
    match content item.1 with
    | some found => (args.processValuesForVerification number args.verifiedKeys.2.1).2 item.2 = found.value
    | none => item.1 ∈ args.verifiedKeys.2.2

theorem accepts_iff_of_read (visible : args.verifiedKeys.1 = args.keys) (kept : args.verifiedKeys.2.2 = [])
    (content : Content α) : args.Accepts number content ↔ ∀ item ∈ args.keyValueList,
      (content item.1).map Found.value =
        some ((args.processValuesForVerification number args.verifiedKeys.2.1).2 item.2) := by
  constructor
  · intro accepted item member
    have own := accepted item member (by rw [visible]; exact List.mem_map_of_mem member)
    cases read : content item.1 with
    | none =>
      rw [read, kept] at own
      exact absurd own List.not_mem_nil
    | some found =>
      rw [read] at own
      rw [Option.map_some, ← own]
  · intro equal item member _
    have own := equal item member
    cases read : content item.1 with
    | none =>
      rw [read] at own
      cases own
    | some found =>
      rw [read, Option.map_some, Option.some_inj] at own
      exact own.symm

/-- A collection that holds one document for each generated key -/
def stored (args : Loader α) (value : String × ℕ → Doc α) : Content α := fun key =>
  (args.keyValueList.find? fun item => item.1 = key).map fun item => ⟨value item, 1, Nat.one_ne_zero⟩

theorem stored_apply (value : String × ℕ → Doc α) {item : String × ℕ} (member : item ∈ args.keyValueList) :
    args.stored value item.1 = some ⟨value item, 1, Nat.one_ne_zero⟩ := by
  rw [stored, find?_named args.distinct member, Option.map_some]

end Loader

variable [DecidableEq α]

/-! ## What the verification accepts -/

/-- The keys that are still missing are those that were not read; a value that differs is noted. -/
theorem validateKeyVal_spec {map : Content α} (items : List (String × Doc α))
    (distinct : (items.map Prod.fst).Nodup) :
    ∀ (inserted wrong : List String), inserted.Nodup →
      (∀ item ∈ items, (map item.1).isSome → item.1 ∈ inserted) → ∃ next : List String × List String,
        items.foldlM (validateItem map) (inserted, wrong) = some next ∧ next.1.Nodup ∧
          (∀ key, key ∈ next.1 ↔ key ∈ inserted ∧ ¬ (key ∈ items.map Prod.fst ∧ (map key).isSome)) ∧
            (next.2 = [] ↔ wrong = [] ∧
              ∀ item ∈ items, ∀ found, map item.1 = some found → item.2 = found.value) := by
  induction items with
  | nil =>
    intro inserted wrong unique _
    exact ⟨(inserted, wrong), rfl, unique, by simp, by simp⟩
  | cons item items ih =>
    intro inserted wrong unique known
    rw [List.map_cons, List.nodup_cons] at distinct
    rw [List.foldlM_cons]
    cases read : map item.1 with
    | none =>
      obtain ⟨next, returned, nodup, members, values⟩ := ih distinct.2 inserted wrong unique
        fun other member => known other (List.mem_cons_of_mem item member)
      refine ⟨next, by simpa [validateItem, read] using returned, nodup, ?_, ?_⟩
      · intro key
        rw [members, List.map_cons, List.mem_cons]
        by_cases same : key = item.1
        · simp [same, read]
        · simp [same]
      · simp [values, read]
    | some found =>
      have inside : item.1 ∈ inserted := known item List.mem_cons_self (by simp [read])
      -- A document that is stored has a CAS, so only equal values pass.
      have step : validateItem map (inserted, wrong) item = some (inserted.erase item.1,
          if item.2 = found.value then wrong else wrong ++ [item.1]) := by
        by_cases equal : item.2 = found.value
        · simp [validateItem, read, equal]
        · simp [validateItem, read, equal, found.stored, inside]
      have later : ∀ other ∈ items, (map other.1).isSome → other.1 ∈ inserted.erase item.1 := by
        intro other member present
        have apart : other.1 ≠ item.1 := by
          intro same
          exact distinct.1 (same ▸ List.mem_map_of_mem member)
        exact (List.mem_erase_of_ne apart).mpr (known other (List.mem_cons_of_mem item member) present)
      obtain ⟨next, returned, nodup, members, values⟩ := ih distinct.2 (inserted.erase item.1)
        (if item.2 = found.value then wrong else wrong ++ [item.1]) (unique.erase item.1) later
      refine ⟨next, by rw [step]; exact returned, nodup, ?_, ?_⟩
      · intro key
        rw [members, unique.mem_erase_iff, List.map_cons, List.mem_cons]
        by_cases same : key = item.1
        · simp [same, read]
        · simp [same]
      · rw [values]
        by_cases equal : item.2 = found.value
        · simp [equal, read]
        · simp [equal, read]

/-- A client passes if it finds the expected documents and misses only deleted ones. -/
def Passes (state : Progress) (keyValue : List (String × Doc α)) (content : Content α) : Prop :=
  ∀ item ∈ keyValue, item.1 ∈ state.allKeys →
    match content item.1 with
    | some found => item.2 = found.value
    | none => item.1 ∈ state.deleteKeys

theorem verifyClient_spec {state : Progress} {keyValue : List (String × Doc α)}
    (distinct : (keyValue.map Prod.fst).Nodup) (unique : state.allKeys.Nodup)
    (covered : ∀ key ∈ state.allKeys, key ∈ keyValue.map Prod.fst) (exception : Option String)
    (content : Content α) : ∃ next, verifyClient state keyValue exception content = some next ∧
      (next = none ↔ exception = none ∧ Passes state keyValue content) := by
  have known : ∀ item ∈ keyValue, (batchRead content state.allKeys item.1).isSome →
      item.1 ∈ state.allKeys := by
    intro item _ present
    by_contra absent
    simp [batchRead, absent] at present
  obtain ⟨⟨inserted, wrongValues⟩, returned, nodup, members, values⟩ :=
    validateKeyVal_spec keyValue distinct state.allKeys [] unique known
  have missing : state.deleteKeys.foldl List.erase inserted = [] ↔
      ∀ key ∈ inserted, key ∈ state.deleteKeys := by
    rw [← List.diff_eq_foldl, List.eq_nil_iff_forall_not_mem]
    simp [nodup.mem_sdiff_iff]
  have passes : Passes state keyValue content ↔ wrongValues = [] ∧ ∀ key ∈ inserted, key ∈ state.deleteKeys := by
    rw [values]
    constructor
    · intro pass
      refine ⟨⟨rfl, ?_⟩, ?_⟩
      · intro item member found read
        have visible : item.1 ∈ state.allKeys := known item member (by simp [read])
        have own := pass item member visible
        rw [batchRead, if_pos visible] at read
        rwa [read] at own
      · intro key missing
        obtain ⟨visible, unread⟩ := (members key).mp missing
        obtain ⟨item, member, rfl⟩ := List.mem_map.mp (covered key visible)
        have own := pass item member visible
        cases read : content item.1 with
        | none => rwa [read] at own
        | some found =>
          exact absurd ⟨List.mem_map_of_mem member, by simp [batchRead, visible, read]⟩ unread
    · intro ⟨⟨_, equal⟩, deleted⟩ item member visible
      cases read : content item.1 with
      | none =>
        apply deleted item.1
        rw [members]
        exact ⟨visible, fun present => by simp [batchRead, read] at present⟩
      | some found => exact equal item member found (by rw [batchRead, if_pos visible, read])
  refine ⟨_, by rw [verifyClient, validateKeyVal, returned]; rfl, ?_⟩
  rw [passes, ← missing]
  by_cases left : state.deleteKeys.foldl List.erase inserted = []
  · by_cases right : wrongValues = []
    · simp [left, right]
    · simp [left, right]
  · simp [left]

theorem verifyClients_iff {state : Progress} {keyValue : List (String × Doc α)}
    (distinct : (keyValue.map Prod.fst).Nodup) (unique : state.allKeys.Nodup)
    (covered : ∀ key ∈ state.allKeys, key ∈ keyValue.map Prod.fst) (clients : List (Content α))
    (exception : Option String) : clients.foldlM (verifyClient state keyValue) exception = some none ↔
      exception = none ∧ ∀ content ∈ clients, Passes state keyValue content := by
  induction clients generalizing exception with
  | nil => simp
  | cons content clients ih =>
    obtain ⟨next, returned, passed⟩ := verifyClient_spec distinct unique covered exception content
    rw [List.foldlM_cons, returned]
    show clients.foldlM (verifyClient state keyValue) next = some none ↔ _
    rw [ih, passed, List.forall_mem_cons, and_assoc]

namespace Loader

variable {args : Loader α} (number : ℕ → α)

theorem call_eq_none_iff (outcome : ℕ → Option String) (retries : ℕ) (clients : List (Content α)) :
    args.call number outcome retries clients = some none ↔ ∀ content ∈ clients, args.Accepts number content := by
  obtain ⟨allKeys, updateKeys, deleteKeys⟩ := @runOps_keys _ args outcome retries
  have visible : args.verifiedKeys.1 = args.keys ∨ args.verifiedKeys.1 = [] := by
    rw [verifiedKeys]
    cases args.scenario <;> cases args.commit <;> simp
  have perm := @processed_perm _ args number args.verifiedKeys.2.1
  set processed := args.processValuesForVerification number args.verifiedKeys.2.1 with processed_eq
  have names : ((processed.1.map fun item => (item.1, processed.2 item.2)).map Prod.fst).Perm args.keys := by
    rw [List.map_map]
    exact perm.map Prod.fst
  have unique : (args.runOps outcome retries).allKeys.Nodup := by
    rw [allKeys]
    rcases visible with all | none
    · rw [all]
      exact args.distinct
    · rw [none]
      exact List.nodup_nil
  have covered : ∀ key ∈ (args.runOps outcome retries).allKeys,
      key ∈ (processed.1.map fun item => (item.1, processed.2 item.2)).map Prod.fst := by
    intro key member
    rw [allKeys] at member
    rcases visible with all | none
    · rw [all] at member
      exact names.mem_iff.mpr member
    · rw [none] at member
      exact absurd member List.not_mem_nil
  have verified := verifyClients_iff (names.nodup_iff.mpr args.distinct) unique covered clients none
  rw [call, updateKeys, ← processed_eq]
  rw [verified]
  simp only [true_and, Passes, Accepts, List.forall_mem_map, allKeys, deleteKeys, ← processed_eq]
  constructor
  · intro pass content member item inside
    exact pass content member item (perm.mem_iff.mpr inside)
  · intro pass content member item inside
    exact pass content member item (perm.mem_iff.mp inside)

/-- A client whose content is accepted finds what the operations imply. -/
theorem sound_iff_accepts : args.Sound number ↔ ∀ content, args.Accepts number content →
    ∀ item ∈ args.keyValueList, (content item.1).map Found.value = args.implied number item := by
  constructor
  · intro sound content accepted
    apply sound (fun _ => none) 0 [content] _ content List.mem_cons_self
    rw [call_eq_none_iff]
    simpa using accepted
  · intro sound outcome retries clients returned content member
    exact sound content ((call_eq_none_iff number outcome retries clients).mp returned content member)

theorem sound_of_generated (visible : args.verifiedKeys = (args.keys, [], []))
    (expected : ∀ item, args.implied number item = some (args.document item.2)) : args.Sound number := by
  rw [sound_iff_accepts]
  intro content accepted item member
  rw [accepts_iff_of_read number (by rw [visible]) (by rw [visible])] at accepted
  rw [accepted item member, expected, visible, processed_none]

/-- The generated documents pass although nothing should be there. -/
theorem sound_iff_nil (absent : ∀ item, args.implied number item = none)
    (accepted : args.Accepts number (args.stored fun item => args.document item.2)) :
    args.Sound number ↔ args.keyValueList = [] := by
  rw [sound_iff_accepts]
  constructor
  · intro sound
    rw [List.eq_nil_iff_forall_not_mem]
    intro item member
    have own := sound _ accepted item member
    rw [absent, stored_apply _ member] at own
    cases own
  · intro none content _ item member
    rw [none] at member
    cases member

theorem sound_iff_reached (visible : args.verifiedKeys = (args.keys, args.keys, []))
    (expected : ∀ item, args.implied number item = some (args.mutated number (args.document item.2))) :
    args.Sound number ↔ ∀ item ∈ args.keyValueList, ¬ args.Shared item →
      args.mutated number (args.document item.2) = args.document item.2 := by
  have read := @accepts_iff_of_read _ args number (by rw [visible]) (by rw [visible])
  rw [sound_iff_accepts]
  simp only [read, visible, expected]
  constructor
  · intro sound item member passed
    -- A client that holds exactly what is compared is accepted.
    have own := sound (args.stored fun item => (args.processValuesForVerification number args.keys).2 item.2)
      (fun other inside => by rw [stored_apply _ inside]; rfl) item member
    rw [stored_apply _ member, Option.map_some, processed_keys, if_neg passed, Option.some_inj] at own
    exact own.symm
  · intro reached content accepted item member
    rw [accepted item member, processed_keys]
    by_cases shared : args.Shared item
    · rw [if_pos shared]
    · rw [if_neg shared, reached item member shared]

/-- The verification of a load is sound exactly if none of its documents is meant to be absent, and no
    update is expected of a document that the loop passes. -/
theorem verification_sound_iff (args : Loader α) : args.Sound number ↔ args.Verified number := by
  rw [Verified]
  cases scenario : args.scenario <;> cases committed : args.commit
  case create.false =>
    apply sound_iff_nil
    · simp [implied, scenario, committed]
    · intro item _ visible
      simp [verifiedKeys, scenario, committed] at visible
  case createUpdate.true =>
    apply sound_iff_reached
    · rw [verifiedKeys, scenario, committed]
    · simp [implied, scenario, committed]
  case createDelete.true =>
    apply sound_iff_nil
    · simp [implied, scenario, committed]
    · intro item member _
      simp [stored_apply _ member, verifiedKeys, scenario, committed, processed_none]
  all_goals
    rw [iff_true]
    apply sound_of_generated
    · rw [verifiedKeys, scenario, committed]
    · simp [implied, scenario, committed]

end Loader

/-- Two documents that do not share their `JsonObject` -/
def twoDocuments (scenario : Scenario) (commit : Bool) : Loader ℕ where
  keyValueList := [("doc-0", 0), ("doc-1", 1)]
  document ref := Finmap.singleton "body" ref
  distinct := by decide
  numDocs := 1
  positive := by decide
  scenario := scenario
  commit := commit
  updateCount := 1
  updates := by decide

/-- An update that reaches the first document only, a delete that leaves both and a create that is not
    rolled back are all accepted. -/
theorem verification_accepts_wrong_contents : ¬ (twoDocuments .createUpdate true).Sound id ∧
    ¬ (twoDocuments .createDelete true).Sound id ∧ ¬ (twoDocuments .create false).Sound id := by
  refine ⟨?_, ?_, ?_⟩
  · rw [Loader.sound_iff_reached id rfl fun _ => rfl]
    intro reached
    have passed : ¬ (twoDocuments .createUpdate true).Shared ("doc-1", 1) := by
      intro ⟨i, other, found, same⟩
      have inside := (List.getElem?_eq_some_iff.mp found).1
      obtain rfl : i = 0 := by simp [twoDocuments] at inside; omega
      obtain rfl : ("doc-0", 0) = other := by simpa [twoDocuments] using found
      cases same
    have equal := congrArg (Finmap.lookup "mutated") (reached ("doc-1", 1) (by simp [twoDocuments]) passed)
    have absent : Finmap.lookup "mutated" (Finmap.singleton "body" 1 : Doc ℕ) = none := by
      rw [Finmap.lookup_eq_none, Finmap.mem_singleton]
      decide
    simp [Loader.mutated, twoDocuments, absent] at equal
  · rw [Loader.sound_iff_nil id (fun _ => rfl)]
    · simp [twoDocuments]
    · intro item member _
      rw [Loader.stored_apply _ member]
      exact congrFun (Loader.processed_none id) item.2
  · rw [Loader.sound_iff_nil id (fun _ => rfl)]
    · simp [twoDocuments]
    · intro item _ visible
      cases visible

end Taf.Atomicity
