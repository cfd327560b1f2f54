import Taf.Lib.PyJson
import Taf.Lib.PyText
import Taf.Lib.Run
import Taf.Tasks.ClientRelease

/-! # Comparing an index with its documents

`CompareIndexKVData` reads rows of an index and the documents with their ids, and compares a field of both.  The
comparison looks each row up among the documents, and leaves it to the numbers of both that no row
stands twice. -/

namespace Taf.Tasks.IndexComparison

open Taf.Lib Taf.Tasks Taf.Tasks.Batches

/-- A row of the index with its id -/
structure IndexRow where
  row : PyDict
  id : String
  hasId : row.lookup "id" = some (.str id)

/-- The documents by their keys, with what `json.loads` makes of `str(value)`; `none` is a `ValueError`. -/
abbrev KvList := AList fun _ : String => Option PyJson

/-! ## The comparison -/

/-- `value[field]`: only a dictionary can be indexed with a name. -/
def getItem (field : String) : PyJson → Except PyError PyJson
  | .obj fields =>
    match fields.lookup field with
    | some value => .ok value
    | none => .error .keyError
  | _ => .error .typeError

def IndexRow.getField (row : IndexRow) (field : String) : Except PyError PyJson :=
  match row.row.lookup field with
  | some value => .ok value
  | none => .error .keyError

/-- The field of a document -/
def docField (field : String) (doc : Option PyJson) : Except PyError PyJson :=
  match doc with
  | none => .error (.valueError "No JSON object could be decoded")
  | some value => getItem field value

/-- The rows from the last one on.  The search through the items is a lookup, as their keys are distinct. -/
def compareRows (kvList : KvList) (field : String) : List IndexRow → Except PyError Bool
  | [] => .ok true
  | row :: rows =>
    match kvList.lookup row.id with
    | none => .ok false
    | some doc => do
      let indexValue ← row.getField field
      let kvValue ← docField field doc
      if indexValue.pyEq kvValue then compareRows kvList field rows else pure false

def compareResult (kvList : KvList) (indexList : List IndexRow) (field : String) : Except PyError Bool :=
  if kvList.entries.length ≠ indexList.length then .ok false
  else compareRows kvList field indexList.reverse

/-- The field of the row is that of the document with its id. -/
def SameField (kvList : KvList) (field : String) (row : IndexRow) : Prop :=
  ∃ doc indexValue kvValue, kvList.lookup row.id = some doc ∧ row.getField field = .ok indexValue ∧
    docField field doc = .ok kvValue ∧ indexValue.pyEq kvValue = true

/-- The ids are distinct and those of the documents, and the fields are the same. -/
structure SameData (kvList : KvList) (indexList : List IndexRow) (field : String) : Prop where
  distinct : (indexList.map IndexRow.id).Nodup
  keys : ∀ key, key ∈ indexList.map IndexRow.id ↔ key ∈ kvList
  fields : ∀ row ∈ indexList, SameField kvList field row

/-! ## The task -/

/-- What `call` meets -/
structure Surroundings where
  gsiHelper : Except Raised Unit
  executeQuery : Except Raised Unit
  -- `json.loads(content)['results']`
  results : Except Raised (List PyDict)
  -- `None` if the bucket has no pool
  getClientForBucket : Except Raised (Option ℕ)
  getMulti : List String → Except Raised KvList
  releaseClient : Except Raised Unit

structure CallEnd where
  result : Bool
  exception : Option Raised
  completed : Bool
  -- What is done with clients; a release counts as soon as it is asked for.
  events : List ClientEvent
  -- An exception comes out of `call`.
  raised : Bool

section

variable (interp : Interpreter) (meets : Surroundings) (field : String)

def query : Except Raised (List PyDict) := do
  meets.gsiHelper
  meets.executeQuery
  meets.results

/-- `create_list` for one row; an id that is not a string is no key for `get_multi`. -/
def rowId (row : PyDict) : Except Raised IndexRow :=
  match found : row.lookup "id" with
  | some (.str id) => .ok ⟨row, id, found⟩
  | _ => .error .exception

/-- What follows the client -/
def compareWith (client : Option ℕ) (resultList : List PyDict) : Except Raised Bool := do
  let rows ← resultList.mapM rowId
  -- `None` has no `get_multi`.
  let success ← if client.isSome then meets.getMulti (rows.map IndexRow.id) else .error .exception
  (compareResult success rows field).mapError fun _ => .exception

/-- `self.client`, if it is set, and the result or what is raised -/
def body : Option (Option ℕ) × Except Raised Bool :=
  match query meets with
  | .error e => (none, .error e)
  | .ok resultList =>
    match meets.getClientForBucket with
    | .error e => (none, .error e)
    | .ok client => (some client, compareWith meets field client resultList)

/-- What is asked of the pool, and whether that raises; there is no `self.client`, or it is `None`. -/
def release (client : Option (Option ℕ)) : List ClientEvent × Bool :=
  match client with
  | none => ([], true)
  | some none => ([], true)
  | some (some client) =>
    ([.released client], match meets.releaseClient with
      | .ok _ => false
      | .error _ => true)

def acquired (client : Option (Option ℕ)) : List ClientEvent :=
  match client with
  | some (some client) => [.acquired client]
  | _ => []

def call : CallEnd :=
  let (client, outcome) := body meets field
  let (released, releaseRaises) := release meets client
  let events := acquired client ++ released
  match outcome with
  | .ok result => ⟨result, none, !releaseRaises, events, releaseRaises⟩
  | .error e =>
    -- `set_exception` completes the task, and raises
    if interp.exceptException e then ⟨true, some e, true, events, true⟩
    else ⟨true, none, !releaseRaises, events, true⟩

/-- A client that is acquired is released exactly once. -/
def ReleasesOnce : Prop :=
  ∀ client, ClientEvent.acquired client ∈ (call interp meets field).events →
    (call interp meets field).events.count (.released client) = 1

/-- A step that is made raises. -/
inductive StepRaises (e : Raised) : Prop
  | query (raised : query meets = .error e)
  | getClient {resultList} (queried : query meets = .ok resultList) (raised : meets.getClientForBucket = .error e)
  | compare {resultList client} (queried : query meets = .ok resultList)
    (acquired : meets.getClientForBucket = .ok client) (raised : compareWith meets field client resultList = .error e)

/-- The release that ends the task raises. -/
def ReleaseRaises : Prop :=
  ∃ resultList client e, query meets = .ok resultList ∧ meets.getClientForBucket = .ok (some client) ∧
    meets.releaseClient = .error e

/-- What a step raises comes out of the task, and is set as its exception if `except Exception` matches it. -/
structure Reports : Prop where
  steps : ∀ e, StepRaises meets field e → (call interp meets field).raised = true ∧
    (interp.exceptException e = true → (call interp meets field).exception = some e)
  release : ReleaseRaises meets → (call interp meets field).raised = true

end

/-! ## The comparison is exact -/

section

variable {kvList : KvList} {indexList : List IndexRow} {field : String}

theorem compareRows_iff : compareRows kvList field indexList = .ok true ↔
    ∀ row ∈ indexList, SameField kvList field row := by
  induction indexList with
  | nil => simp [compareRows]
  | cons row rows ih =>
    rw [List.forall_mem_cons, ← ih, compareRows]
    unfold SameField
    cases found : kvList.lookup row.id with
    | none => simp
    | some doc =>
      simp only [bind_eq_ok]
      constructor
      · intro compared
        obtain ⟨indexValue, ofRow, kvValue, ofDoc, rest⟩ := compared
        split_ifs at rest with same
        · exact ⟨⟨doc, indexValue, kvValue, rfl, ofRow, ofDoc, same⟩, rest⟩
        · cases rest
      · intro agrees
        obtain ⟨⟨_, indexValue, kvValue, isDoc, ofRow, ofDoc, same⟩, rest⟩ := agrees
        cases isDoc
        exact ⟨indexValue, ofRow, kvValue, ofDoc, by rw [if_pos same]; exact rest⟩

/-- As many rows as documents, each of which has a row: no row stands twice. -/
theorem ids_perm_keys (known : ∀ key ∈ kvList, key ∈ indexList.map IndexRow.id)
    (length : kvList.entries.length = indexList.length) : kvList.keys.Perm (indexList.map IndexRow.id) := by
  have among : kvList.keys ⊆ indexList.map IndexRow.id := fun key member => known key (AList.mem_keys.mp member)
  refine (List.subperm_of_subset kvList.keys_nodup among).perm_of_length_le ?_
  rw [List.length_map, ← length, AList.keys, List.keys, List.length_map]

theorem compareResult_iff (known : ∀ key ∈ kvList, key ∈ indexList.map IndexRow.id) :
    compareResult kvList indexList field = .ok true ↔ SameData kvList indexList field := by
  unfold compareResult
  by_cases length : kvList.entries.length = indexList.length
  · have perm := ids_perm_keys known length
    rw [if_neg (not_not.mpr length), compareRows_iff]
    constructor
    · intro fields
      refine ⟨perm.nodup_iff.mp kvList.keys_nodup, fun key => perm.mem_iff.symm.trans AList.mem_keys.symm, ?_⟩
      intro row member
      exact fields row (List.mem_reverse.mpr member)
    · intro same row member
      exact same.fields row (List.mem_reverse.mp member)
  · rw [if_pos length]
    refine iff_of_false (by simp) fun same => length ?_
    have perm : kvList.keys.Perm (indexList.map IndexRow.id) := by
      refine (List.perm_ext_iff_of_nodup kvList.keys_nodup same.distinct).mpr fun key => ?_
      rw [same.keys]
      rfl
    simpa [AList.keys, List.keys] using perm.length_eq

end

/-! ## The client and the exceptions -/

section

variable (interp : Interpreter) (meets : Surroundings) (field : String)

theorem call_events : (call interp meets field).events =
    acquired (body meets field).1 ++ (release meets (body meets field).1).1 := by
  unfold call
  dsimp only
  split
  · rfl
  · split_ifs <;> rfl

theorem releasesOnce : ReleasesOnce interp meets field := by
  intro client taken
  rw [call_events] at taken ⊢
  cases holds : (body meets field).1 with
  | none => simp [holds, acquired, release] at taken
  | some client' =>
    cases client' with
    | none => simp [holds, acquired, release] at taken
    | some other =>
      simp only [holds, acquired, release, List.cons_append, List.nil_append, List.mem_cons, ClientEvent.acquired.injEq,
        reduceCtorEq, List.not_mem_nil, or_false] at taken
      subst taken
      simp [acquired, release]

theorem body_of_stepRaises {e : Raised} (raises : StepRaises meets field e) : (body meets field).2 = .error e := by
  unfold body
  cases raises with
  | query raised => rw [raised]
  | getClient queried raised => rw [queried, raised]
  | compare queried taken raised => rw [queried, taken, ← raised]

theorem reports : Reports interp meets field where
  steps := by
    intro e raises
    have outcome := body_of_stepRaises meets field raises
    unfold call
    simp only [outcome]
    split_ifs with caught
    · exact ⟨rfl, fun _ => rfl⟩
    · exact ⟨rfl, fun matched => absurd matched caught⟩
  release := by
    intro raises
    obtain ⟨resultList, client, e, queried, taken, raised⟩ := raises
    have releaseRaises : (release meets (body meets field).1).2 = true := by
      simp [body, queried, taken, release, raised]
    unfold call
    dsimp only
    split
    · exact releaseRaises
    · split_ifs <;> rfl

end

/-- The comparison says yes exactly if index and documents have the same data.  The task releases its client once, and
    reports what any step raises. -/
theorem comparison_exact (interp : Interpreter) (meets : Surroundings) {kvList : KvList} {indexList : List IndexRow}
    (field : String) (known : ∀ key ∈ kvList, key ∈ indexList.map IndexRow.id) :
    (compareResult kvList indexList field = .ok true ↔ SameData kvList indexList field) ∧
      ReleasesOnce interp meets field ∧ Reports interp meets field :=
  ⟨compareResult_iff known, releasesOnce interp meets field, reports interp meets field⟩

/-- The row of a document -/
def bodyRow (id : String) (body : PyJson) : IndexRow :=
  ⟨((∅ : PyDict).insert "body" body).insert "id" (.str id), id, by simp⟩

/-- Two documents, whose rows come in the other order -/
def twoDocs : KvList :=
  ((∅ : KvList).insert "k" (some (.obj [("body", .num 1)]))).insert "l" (some (.obj [("body", .str "text")]))

def twoRows : List IndexRow := [bodyRow "l" (.str "text"), bodyRow "k" (.num 1)]

/-- The rows are those of the documents, and the client from the pool is released although reading raises. -/
theorem comparison_exact_of_two_rows :
    SameData twoDocs twoRows "body" ∧
      ReleasesOnce ⟨true⟩ ⟨.ok (), .ok (), .ok (twoRows.map IndexRow.row), .ok (some 0), fun _ => .error .java, .ok ()⟩
        "body" ∧
      Reports ⟨true⟩ ⟨.ok (), .ok (), .ok (twoRows.map IndexRow.row), .ok (some 0), fun _ => .error .java, .ok ()⟩
        "body" := by
  have known : ∀ key ∈ twoDocs, key ∈ twoRows.map IndexRow.id := by
    intro key member
    rcases (AList.mem_insert _).mp member with rfl | other
    · simp [twoRows, bodyRow]
    · rcases (AList.mem_insert _).mp other with rfl | impossible
      · simp [twoRows, bodyRow]
      · exact absurd impossible (AList.notMem_empty key)
  obtain ⟨same, released, reported⟩ := comparison_exact ⟨true⟩
    ⟨.ok (), .ok (), .ok (twoRows.map IndexRow.row), .ok (some 0), fun _ => .error .java, .ok ()⟩ "body" known
  exact ⟨same.mp rfl, released, reported⟩

end Taf.Tasks.IndexComparison
