import Mathlib
import Taf.Lib.Dict
import Taf.Lib.Run

/-! # The log of sequence numbers

`LogData` of `couchbase_utils/dcp_utils/dcp_ready_functions.py`: a dictionary in memory and one
JSON file per vBucket.  A push writes a missing field to the file as `null`, and a restart reads
it back as a field that is present. -/

namespace Taf.Dcp

open Taf.Lib

inductive LogError where
  | attributeError
  | ioError
  | keyError
  | runtimeError
  deriving DecidableEq

/-- What is logged for a vBucket; `some none` is a field whose value is `null`. -/
@[ext]
structure LogEntry (N F : Type) where
  failoverLog : Option F
  seqNo : Option (Option N)
  oldSeqNo : Option (Option (List (Option N)))
  deriving DecidableEq

variable {V N F : Type} [DecidableEq V]

/-- `{}` -/
def LogEntry.empty : LogEntry N F := ⟨none, none, none⟩

abbrev Logs (V N F : Type) := AList fun _ : V => LogEntry N F

structure LogData (V N F : Type) where
  external : Bool
  dictstore : Logs V N F
  files : Logs V N F

namespace LogData

/-- `get_path`, with the file as the vBucket it belongs to -/
def getPath (log : LogData V N F) (vb : V) : Except LogError V :=
  if log.external then .ok vb else .error .runtimeError

/-- `with open(path_string, 'r') as vb_log: data = json.load(vb_log)` -/
def load (log : LogData V N F) (path : V) : Except LogError (LogEntry N F) :=
  match log.files.lookup path with
  | none => .error .ioError
  | some data => .ok data

/-- `with open(path_string, 'w') as f: json.dump(data, f)` -/
def dump (log : LogData V N F) (path : V) (data : LogEntry N F) : LogData V N F :=
  { log with files := log.files.insert path data }

def getAllExternal (log : LogData V N F) (vbList : List V) : Logs V N F :=
  vbList.foldl (fun readDict vb =>
    match log.files.lookup vb with
    | none => readDict
    | some data => readDict.insert vb data) ∅

def setupLogPreset (log : LogData V N F) (vbList : List V) : LogData V N F :=
  { log with
    dictstore := assignAll ((log.getAllExternal vbList).entries.map fun entry => (entry.1, entry.2))
      log.dictstore }

def reset (log : LogData V N F) (vbList : List V) : LogData V N F :=
  vbList.foldl (fun log vb =>
    let log := { log with dictstore := log.dictstore.insert vb .empty }
    if log.external then log.dump vb .empty else log) log

/-- `LogData(dirpath, vbucket_list, keep_logs)`, the directory given as the files in it -/
def create (dirpath : Option (Logs V N F)) (vbucketList : List V) (keepLogs : Bool) :
    LogData V N F :=
  match dirpath with
  | none => ⟨false, ∅, ∅⟩
  | some files =>
    let log : LogData V N F := ⟨true, ∅, files⟩
    if keepLogs then
      let presetList := vbucketList.filter fun vb => (files.lookup vb).isSome
      let resetList := vbucketList.filter fun vb => !(files.lookup vb).isSome
      (log.setupLogPreset presetList).reset resetList
    else
      log.reset vbucketList

def upsertFailover (log : LogData V N F) (vb : V) (failoverLog : F) :
    Except LogError (LogData V N F) := do
  let entry := (log.dictstore.lookup vb).getD .empty
  let log := { log with
    dictstore := log.dictstore.insert vb { entry with failoverLog := some failoverLog } }
  if log.external then
    let path ← log.getPath vb
    let data ← log.load path
    .ok (log.dump path { data with failoverLog := some failoverLog })
  else
    .ok log

/-- The `old_seq_no` to which the number that is replaced is appended -/
def oldNumbers (entry : LogEntry N F) : Except LogError (List (Option N)) :=
  match entry.oldSeqNo with
  | none => .ok []
  | some none => .error .attributeError
  | some (some numbers) => .ok numbers

def upsertSequenceNo (log : LogData V N F) (vb : V) (seqNo : N) :
    Except LogError (LogData V N F) := do
  match log.dictstore.lookup vb with
  | none =>
    .ok { log with
      dictstore := log.dictstore.insert vb { (.empty : LogEntry N F) with seqNo := some (some seqNo) } }
  | some entry =>
    match entry.seqNo with
    | none =>
      .ok { log with
        dictstore := log.dictstore.insert vb { entry with seqNo := some (some seqNo) } }
    | some replaced =>
      let numbers ← oldNumbers entry
      .ok { log with
        dictstore := log.dictstore.insert vb
          { entry with seqNo := some (some seqNo), oldSeqNo := some (some (numbers ++ [replaced])) } }

def pushSequenceNo (log : LogData V N F) (vb : V) : Except LogError (LogData V N F) := do
  if log.external then
    let path ← log.getPath vb
    let data ← log.load path
    match log.dictstore.lookup vb with
    | none => .error .keyError
    | some entry =>
      .ok (log.dump path
        { data with oldSeqNo := some entry.oldSeqNo.join, seqNo := some entry.seqNo.join })
  else
    .ok log

end LogData

/-! ## What the log stands for -/

inductive LogOp (V N F : Type) where
  | upsertFailover (vb : V) (failoverLog : F)
  | upsertSequenceNo (vb : V) (seqNo : N)
  | pushSequenceNo (vb : V)
  | restart

/-- One operation; a restart is a new `LogData` over the files of the old one. -/
def LogData.step (vbucketList : List V) (log : LogData V N F) :
    LogOp V N F → Except LogError (LogData V N F)
  | .upsertFailover vb failoverLog => log.upsertFailover vb failoverLog
  | .upsertSequenceNo vb seqNo => log.upsertSequenceNo vb seqNo
  | .pushSequenceNo vb => log.pushSequenceNo vb
  | .restart => .ok (.create (some log.files) vbucketList true)

/-- What has happened to each vBucket: the numbers that are in memory, those that the last push
    wrote, those that the last restart read from a push, and the last failover log. -/
structure LogHistory (V N F : Type) where
  numbers : V → List N
  pushed : V → Option (List N)
  restored : V → Option (List N)
  failover : V → Option F

namespace LogHistory

def start : LogHistory V N F := ⟨fun _ => [], fun _ => none, fun _ => none, fun _ => none⟩

def step (history : LogHistory V N F) : LogOp V N F → LogHistory V N F
  | .upsertFailover vb failoverLog =>
    { history with failover := Function.update history.failover vb (some failoverLog) }
  | .upsertSequenceNo vb seqNo =>
    { history with numbers := Function.update history.numbers vb (history.numbers vb ++ [seqNo]) }
  | .pushSequenceNo vb =>
    { history with pushed := Function.update history.pushed vb (some (history.numbers vb)) }
  | .restart =>
    { history with
      numbers := fun vb => (history.pushed vb).getD []
      restored := history.pushed }

/-- The last restart read at most one number from a push for the vBucket. -/
def Nulled (history : LogHistory V N F) (vb : V) : Prop :=
  ∃ numbers ∈ history.restored vb, numbers.length < 2

/-- A sequence number is upserted only where the last restart did not read back a push of fewer
    than two numbers, and files are written only for the vBuckets of the list. -/
def Allows (vbucketList : List V) (history : LogHistory V N F) : LogOp V N F → Prop
  | .upsertFailover vb _ => vb ∈ vbucketList
  | .upsertSequenceNo vb _ => ¬ history.Nulled vb
  | .pushSequenceNo vb => vb ∈ vbucketList
  | .restart => True

end LogHistory

/-- `old_seq_no` followed by `seq_no` -/
def LogEntry.sequence (entry : LogEntry N F) : List (Option N) :=
  entry.oldSeqNo.join.getD [] ++ (entry.seqNo.join.map some).toList

def LogData.entryOf (log : LogData V N F) (vb : V) : LogEntry N F :=
  (log.dictstore.lookup vb).getD .empty

/-- What the log holds for every vBucket is what has happened to it. -/
def LogData.Records (log : LogData V N F) (history : LogHistory V N F) : Prop :=
  ∀ vb, (log.entryOf vb).sequence = (history.numbers vb).map some ∧
    (log.entryOf vb).failoverLog = history.failover vb

/-! ## Reading the files back -/

theorem getAllExternal_lookup (log : LogData V N F) (vbList : List V) (vb : V) :
    (log.getAllExternal vbList).lookup vb = if vb ∈ vbList then log.files.lookup vb else none := by
  have general : ∀ readDict : Logs V N F,
      (vbList.foldl (fun readDict vb =>
        match log.files.lookup vb with
        | none => readDict
        | some data => readDict.insert vb data) readDict).lookup vb =
      ((if vb ∈ vbList then log.files.lookup vb else none).or (readDict.lookup vb)) := by
    induction vbList with
    | nil => simp
    | cons first vbList ih =>
      intro readDict
      rw [List.foldl_cons, ih]
      by_cases same : vb = first
      · subst same
        cases found : log.files.lookup vb with
        | none => simp
        | some data => by_cases again : vb ∈ vbList <;> simp [again]
      · cases found : log.files.lookup first with
        | none => simp [same]
        | some data => simp [same, AList.lookup_insert_ne same]
  rw [LogData.getAllExternal, general ∅, AList.lookup_empty, Option.or_none]

theorem reset_cons (log : LogData V N F) (external : log.external = true) (vb : V) (vbList : List V) :
    log.reset (vb :: vbList) =
      (LogData.dump { log with dictstore := log.dictstore.insert vb .empty } vb .empty).reset vbList := by
  rw [LogData.reset, List.foldl_cons, if_pos external, ← LogData.reset]

theorem reset_external (log : LogData V N F) (external : log.external = true) (vbList : List V) :
    (log.reset vbList).external = true := by
  induction vbList generalizing log with
  | nil => exact external
  | cons first vbList ih =>
    rw [reset_cons log external]
    exact ih _ external

theorem reset_lookup (log : LogData V N F) (external : log.external = true) (vbList : List V) (vb : V) :
    (log.reset vbList).dictstore.lookup vb =
      (if vb ∈ vbList then some .empty else log.dictstore.lookup vb) ∧
    (log.reset vbList).files.lookup vb =
      (if vb ∈ vbList then some .empty else log.files.lookup vb) := by
  induction vbList generalizing log with
  | nil => exact ⟨by simp [LogData.reset], by simp [LogData.reset]⟩
  | cons first vbList ih =>
    obtain ⟨memory, files⟩ := ih
      (LogData.dump { log with dictstore := log.dictstore.insert first .empty } first .empty) external
    rw [reset_cons log external, memory, files, LogData.dump]
    by_cases same : vb = first
    · by_cases again : vb ∈ vbList <;> simp [← same, again]
    · simp [same, AList.lookup_insert_ne same]

/-- With `keep_logs` a vBucket of the list has what its file has, and a file if it had none. -/
theorem create_keepLogs_lookup (files : Logs V N F) (vbucketList : List V) (vb : V) :
    (LogData.create (some files) vbucketList true).dictstore.lookup vb =
      (if vb ∈ vbucketList then some ((files.lookup vb).getD .empty) else none) ∧
    (LogData.create (some files) vbucketList true).files.lookup vb =
      (if vb ∈ vbucketList then some ((files.lookup vb).getD .empty) else files.lookup vb) := by
  have preset : ((⟨true, ∅, files⟩ : LogData V N F).setupLogPreset
      (vbucketList.filter fun vb => (files.lookup vb).isSome)).dictstore.lookup vb =
        if vb ∈ vbucketList then files.lookup vb else none := by
    rw [LogData.setupLogPreset, lookup_assignAll_entries _ fun data => data, getAllExternal_lookup]
    cases found : files.lookup vb with
    | none => simp [found]
    | some data => simp [found]
  obtain ⟨memory, written⟩ := reset_lookup
    ((⟨true, ∅, files⟩ : LogData V N F).setupLogPreset
      (vbucketList.filter fun vb => (files.lookup vb).isSome)) rfl
    (vbucketList.filter fun vb => !(files.lookup vb).isSome) vb
  refine ⟨memory.trans ?_, written.trans ?_⟩
  · rw [preset]
    cases found : files.lookup vb with
    | none => simp [found]
    | some data => simp [found]
  · show (if _ then _ else files.lookup vb) = _
    cases found : files.lookup vb with
    | none => simp [found]
    | some data => simp [found]

theorem create_external (files : Logs V N F) (vbucketList : List V) (keepLogs : Bool) :
    (LogData.create (some files) vbucketList keepLogs).external = true := by
  cases keepLogs with
  | true => exact reset_external _ rfl _
  | false => exact reset_external _ rfl _

/-! ## The entries that a history leads to -/

instance (history : LogHistory V N F) (vb : V) : Decidable (history.Nulled vb) :=
  inferInstanceAs (Decidable (∃ numbers ∈ history.restored vb, numbers.length < 2))

def oldField (numbers : List N) : Option (List (Option N)) :=
  if 2 ≤ numbers.length then some (numbers.dropLast.map some) else none

/-- The entry in memory: a missing field is absent, or `null` where a restart read it so. -/
def LogHistory.memoryEntry (history : LogHistory V N F) (vb : V) : LogEntry N F where
  failoverLog := history.failover vb
  seqNo :=
    if history.Nulled vb then some (history.numbers vb).getLast?
    else (history.numbers vb).getLast?.map some
  oldSeqNo :=
    if history.Nulled vb then some (oldField (history.numbers vb))
    else (oldField (history.numbers vb)).map some

/-- The content of the file: a push writes both fields. -/
def LogHistory.fileEntry (history : LogHistory V N F) (vb : V) : LogEntry N F where
  failoverLog := history.failover vb
  seqNo := (history.pushed vb).map List.getLast?
  oldSeqNo := (history.pushed vb).map oldField

structure Tracks (vbucketList : List V) (log : LogData V N F) (history : LogHistory V N F) : Prop where
  external : log.external = true
  memory : ∀ vb, log.entryOf vb = history.memoryEntry vb
  present : ∀ vb ∈ vbucketList, (log.dictstore.lookup vb).isSome
  files : ∀ vb, log.files.lookup vb =
    if vb ∈ vbucketList then some (history.fileEntry vb) else none
  unlisted : ∀ vb, vb ∉ vbucketList → history.fileEntry vb = .empty
  short : ∀ vb, history.Nulled vb → (history.numbers vb).length < 2

omit [DecidableEq V] in
theorem seqNo_join_memoryEntry (history : LogHistory V N F) (vb : V) :
    (history.memoryEntry vb).seqNo.join = (history.numbers vb).getLast? := by
  by_cases nulled : history.Nulled vb
  · simp [LogHistory.memoryEntry, nulled]
  · cases last : (history.numbers vb).getLast? <;> simp [LogHistory.memoryEntry, nulled, last]

omit [DecidableEq V] in
theorem oldSeqNo_join_memoryEntry (history : LogHistory V N F) (vb : V) :
    (history.memoryEntry vb).oldSeqNo.join = oldField (history.numbers vb) := by
  by_cases nulled : history.Nulled vb
  · simp [LogHistory.memoryEntry, nulled]
  · cases old : oldField (history.numbers vb) <;> simp [LogHistory.memoryEntry, nulled, old]

theorem oldField_concat {numbers : List N} (nonempty : numbers ≠ []) (last : N) :
    oldField (numbers ++ [last]) = some (numbers.map some) := by
  have long : 2 ≤ (numbers ++ [last]).length := by
    have positive := List.length_pos_iff.mpr nonempty
    rw [List.length_append, List.length_singleton]
    omega
  rw [oldField, if_pos long, List.dropLast_concat]

omit [DecidableEq V] in
theorem sequence_memoryEntry (history : LogHistory V N F) (vb : V) :
    (history.memoryEntry vb).sequence = (history.numbers vb).map some := by
  rw [LogEntry.sequence, seqNo_join_memoryEntry, oldSeqNo_join_memoryEntry]
  generalize history.numbers vb = numbers
  cases numbers using List.reverseRecOn with
  | nil => rfl
  | append_singleton numbers last =>
    by_cases empty : numbers = []
    · subst empty
      rfl
    · rw [oldField_concat empty, List.getLast?_concat, List.map_append]
      rfl

theorem Tracks.records {vbucketList : List V} {log : LogData V N F} {history : LogHistory V N F}
    (tracks : Tracks vbucketList log history) : log.Records history := by
  intro vb
  rw [tracks.memory vb]
  exact ⟨sequence_memoryEntry history vb, rfl⟩

/-! ## One operation -/

section Step

variable {vbucketList : List V} {log : LogData V N F} {history : LogHistory V N F}

theorem Tracks.load (tracks : Tracks vbucketList log history) (vb : V) :
    log.load vb = if vb ∈ vbucketList then .ok (history.fileEntry vb) else .error .ioError := by
  rw [LogData.load, tracks.files vb]
  by_cases listed : vb ∈ vbucketList <;> simp [listed]

theorem entryOf_insert (log : LogData V N F) (written vb : V) (entry : LogEntry N F) (files : Logs V N F) :
    (⟨log.external, log.dictstore.insert written entry, files⟩ : LogData V N F).entryOf vb =
      if vb = written then entry else log.entryOf vb := by
  by_cases same : vb = written
  · subst same
    simp [LogData.entryOf]
  · simp [LogData.entryOf, same, AList.lookup_insert_ne same]

theorem lookup_insert_ite (dict : Logs V N F) (written vb : V) (entry : LogEntry N F) :
    (dict.insert written entry).lookup vb = if vb = written then some entry else dict.lookup vb := by
  by_cases same : vb = written
  · subst same
    simp
  · simp [same, AList.lookup_insert_ne same]

/-! An operation writes the entry of one vBucket, in memory, in its file, or in both. -/

theorem Tracks.memory_insert (tracks : Tracks vbucketList log history) {next : LogHistory V N F} {vb : V}
    {files : Logs V N F} (others : ∀ other, other ≠ vb → next.memoryEntry other = history.memoryEntry other)
    (other : V) : (⟨log.external, log.dictstore.insert vb (next.memoryEntry vb), files⟩ : LogData V N F).entryOf other =
      next.memoryEntry other := by
  rw [entryOf_insert]
  by_cases same : other = vb
  · rw [if_pos same, same]
  · rw [if_neg same, tracks.memory other, others other same]

theorem Tracks.present_insert (tracks : Tracks vbucketList log history) {written : V} {entry : LogEntry N F}
    {vb : V} (listed : vb ∈ vbucketList) : ((log.dictstore.insert written entry).lookup vb).isSome := by
  rw [lookup_insert_ite]
  by_cases same : vb = written
  · rw [if_pos same]
    rfl
  · rw [if_neg same]
    exact tracks.present vb listed

theorem Tracks.files_insert (tracks : Tracks vbucketList log history) {next : LogHistory V N F} {vb : V}
    (listed : vb ∈ vbucketList) (others : ∀ other, other ≠ vb → next.fileEntry other = history.fileEntry other)
    (other : V) : (log.files.insert vb (next.fileEntry vb)).lookup other =
      if other ∈ vbucketList then some (next.fileEntry other) else none := by
  rw [lookup_insert_ite]
  by_cases same : other = vb
  · rw [if_pos same, if_pos (same ▸ listed), same]
  · rw [if_neg same, tracks.files other, others other same]

theorem Tracks.unlisted_insert (tracks : Tracks vbucketList log history) {next : LogHistory V N F} {vb : V}
    (listed : vb ∈ vbucketList) (others : ∀ other, other ≠ vb → next.fileEntry other = history.fileEntry other)
    {other : V} (missing : other ∉ vbucketList) : next.fileEntry other = .empty := by
  have different : other ≠ vb := fun same => missing (same ▸ listed)
  rw [others other different]
  exact tracks.unlisted other missing

/-- An upsert in terms of the entry that is there, `{}` if there is none. -/
theorem upsertSequenceNo_eq (log : LogData V N F) (vb : V) (seqNo : N) :
    log.upsertSequenceNo vb seqNo =
      (match (log.entryOf vb).seqNo with
      | none =>
        .ok { log with
          dictstore := log.dictstore.insert vb { log.entryOf vb with seqNo := some (some seqNo) } }
      | some replaced =>
        LogData.oldNumbers (log.entryOf vb) >>= fun numbers =>
          .ok { log with
            dictstore := log.dictstore.insert vb
              { log.entryOf vb with
                seqNo := some (some seqNo), oldSeqNo := some (some (numbers ++ [replaced])) } }) := by
  rw [LogData.upsertSequenceNo, LogData.entryOf]
  cases log.dictstore.lookup vb <;> rfl

/-- Where the history has no `null`, the number that is replaced goes to the end of the old ones. -/
theorem upsertSequenceNo_memoryEntry (history : LogHistory V N F) (vb : V) (seqNo : N)
    (plain : ¬ history.Nulled vb) (memory : log.entryOf vb = history.memoryEntry vb) :
    log.upsertSequenceNo vb seqNo =
      .ok { log with
        dictstore := log.dictstore.insert vb
          ((history.step (.upsertSequenceNo vb seqNo)).memoryEntry vb) } := by
  have still : ¬ (history.step (.upsertSequenceNo vb seqNo)).Nulled vb := plain
  have grown : (history.step (.upsertSequenceNo vb seqNo)).numbers vb =
      history.numbers vb ++ [seqNo] := Function.update_self ..
  rw [upsertSequenceNo_eq, memory]
  simp only [LogHistory.memoryEntry, if_neg plain, if_neg still, grown, List.getLast?_concat]
  generalize history.numbers vb = numbers
  cases numbers using List.reverseRecOn with
  | nil => rfl
  | append_singleton numbers last =>
    rw [List.getLast?_concat, oldField_concat (List.append_ne_nil_of_right_ne_nil numbers (by simp)) seqNo]
    by_cases empty : numbers = []
    · subst empty
      rfl
    · rw [oldField_concat empty, List.map_append]
      rfl

theorem upsertSequenceNo_nulled (tracks : Tracks vbucketList log history) {vb : V}
    (nulled : history.Nulled vb) (seqNo : N) :
    log.upsertSequenceNo vb seqNo = .error .attributeError := by
  have none : oldField (history.numbers vb) = none :=
    if_neg (Nat.not_le.mpr (tracks.short vb nulled))
  rw [upsertSequenceNo_eq, tracks.memory vb]
  simp only [LogHistory.memoryEntry, if_pos nulled, none]
  rfl

theorem Tracks.upsertSequenceNo (tracks : Tracks vbucketList log history) {vb : V}
    (plain : ¬ history.Nulled vb) (seqNo : N) :
    ∃ next, log.upsertSequenceNo vb seqNo = .ok next ∧
      Tracks vbucketList next (history.step (.upsertSequenceNo vb seqNo)) := by
  refine ⟨_, upsertSequenceNo_memoryEntry history vb seqNo plain (tracks.memory vb), ?_⟩
  have others : ∀ other, other ≠ vb →
      (history.step (.upsertSequenceNo vb seqNo)).numbers other = history.numbers other :=
    fun other different => Function.update_of_ne different ..
  constructor
  case external => exact tracks.external
  case memory =>
    apply tracks.memory_insert
    intro other different
    rw [LogHistory.memoryEntry, LogHistory.memoryEntry, others other different]
    rfl
  case present => exact fun other listed => tracks.present_insert listed
  case files => exact tracks.files
  case unlisted => exact tracks.unlisted
  case short =>
    intro other nulled
    have different : other ≠ vb := fun same => plain (same ▸ nulled)
    rw [others other different]
    exact tracks.short other nulled

theorem Tracks.upsertFailover (tracks : Tracks vbucketList log history) {vb : V}
    (listed : vb ∈ vbucketList) (failoverLog : F) :
    ∃ next, log.upsertFailover vb failoverLog = .ok next ∧
      Tracks vbucketList next (history.step (.upsertFailover vb failoverLog)) := by
  have returned : log.upsertFailover vb failoverLog =
      .ok ⟨log.external,
        log.dictstore.insert vb ((history.step (.upsertFailover vb failoverLog)).memoryEntry vb),
        log.files.insert vb ((history.step (.upsertFailover vb failoverLog)).fileEntry vb)⟩ := by
    have loaded := tracks.load vb
    rw [if_pos listed] at loaded
    have memory : (log.dictstore.lookup vb).getD .empty = history.memoryEntry vb := tracks.memory vb
    have updated : (history.step (.upsertFailover vb failoverLog)).failover vb = some failoverLog :=
      Function.update_self ..
    have entry : { history.memoryEntry vb with failoverLog := some failoverLog } =
        (history.step (.upsertFailover vb failoverLog)).memoryEntry vb := by
      rw [← updated]
      rfl
    have data : { history.fileEntry vb with failoverLog := some failoverLog } =
        (history.step (.upsertFailover vb failoverLog)).fileEntry vb := by
      rw [← updated]
      rfl
    rw [LogData.upsertFailover, memory, entry]
    show (if log.external = true then
      (if log.external = true then Except.ok vb else .error .runtimeError) >>= fun path =>
        log.load path >>= fun data => .ok (LogData.dump _ path { data with failoverLog := some failoverLog })
      else _) = _
    rw [if_pos tracks.external, if_pos tracks.external]
    show log.load vb >>= _ = _
    rw [loaded, ← data]
    rfl
  refine ⟨_, returned, ?_⟩
  have others : ∀ other, other ≠ vb →
      (history.step (.upsertFailover vb failoverLog)).failover other = history.failover other :=
    fun other different => Function.update_of_ne different ..
  have sameFiles : ∀ other, other ≠ vb →
      (history.step (.upsertFailover vb failoverLog)).fileEntry other = history.fileEntry other := by
    intro other different
    rw [LogHistory.fileEntry, LogHistory.fileEntry, others other different]
    rfl
  constructor
  case external => exact tracks.external
  case memory =>
    apply tracks.memory_insert
    intro other different
    rw [LogHistory.memoryEntry, LogHistory.memoryEntry, others other different]
    rfl
  case present => exact fun other member => tracks.present_insert member
  case files => exact tracks.files_insert listed sameFiles
  case unlisted => exact fun other missing => tracks.unlisted_insert listed sameFiles missing
  case short => exact tracks.short

theorem Tracks.pushSequenceNo (tracks : Tracks vbucketList log history) {vb : V}
    (listed : vb ∈ vbucketList) :
    ∃ next, log.pushSequenceNo vb = .ok next ∧
      Tracks vbucketList next (history.step (.pushSequenceNo vb)) := by
  have returned : log.pushSequenceNo vb =
      .ok (log.dump vb ((history.step (.pushSequenceNo vb)).fileEntry vb)) := by
    have loaded := tracks.load vb
    rw [if_pos listed] at loaded
    obtain ⟨entry, found⟩ := Option.isSome_iff_exists.mp (tracks.present vb listed)
    have memory : entry = history.memoryEntry vb := by
      rw [← tracks.memory vb, LogData.entryOf, found]
      rfl
    have pushed : (history.step (.pushSequenceNo vb)).pushed vb = some (history.numbers vb) :=
      Function.update_self ..
    rw [LogData.pushSequenceNo, if_pos tracks.external, LogData.getPath, if_pos tracks.external]
    show log.load vb >>= _ = _
    rw [loaded]
    show (match log.dictstore.lookup vb with
      | none => Except.error LogError.keyError
      | some entry => _) = _
    rw [found]
    show Except.ok (log.dump vb { history.fileEntry vb with
      oldSeqNo := some entry.oldSeqNo.join, seqNo := some entry.seqNo.join }) = _
    rw [memory, seqNo_join_memoryEntry, oldSeqNo_join_memoryEntry, LogHistory.fileEntry,
      LogHistory.fileEntry, pushed]
    rfl
  refine ⟨_, returned, ?_⟩
  have others : ∀ other, other ≠ vb →
      (history.step (.pushSequenceNo vb)).fileEntry other = history.fileEntry other := by
    intro other different
    have pushed : (history.step (.pushSequenceNo vb)).pushed other = history.pushed other :=
      Function.update_of_ne different ..
    rw [LogHistory.fileEntry, LogHistory.fileEntry, pushed]
    rfl
  constructor
  case external => exact tracks.external
  case memory => exact tracks.memory
  case present => exact tracks.present
  case files => exact tracks.files_insert listed others
  case unlisted => exact fun other missing => tracks.unlisted_insert listed others missing
  case short => exact tracks.short

/-- What a restart reads from the files is what the history has in memory after it. -/
theorem memoryEntry_restart (history : LogHistory V N F) (vb : V) :
    (history.step .restart).memoryEntry vb = history.fileEntry vb := by
  have restored : (history.step .restart).restored vb = history.pushed vb := rfl
  have numbers : (history.step .restart).numbers vb = (history.pushed vb).getD [] := rfl
  rw [LogHistory.memoryEntry, LogHistory.fileEntry, numbers]
  cases pushed : history.pushed vb with
  | none =>
    have plain : ¬ (history.step .restart).Nulled vb := by
      rw [LogHistory.Nulled, restored, pushed]
      simp
    rw [if_neg plain, if_neg plain]
    rfl
  | some numbers =>
    by_cases few : numbers.length < 2
    · have nulled : (history.step .restart).Nulled vb := ⟨numbers, by rw [restored, pushed]; rfl, few⟩
      rw [if_pos nulled, if_pos nulled]
      rfl
    · have plain : ¬ (history.step .restart).Nulled vb := by
        rw [LogHistory.Nulled, restored, pushed]
        simpa using few
      rw [if_neg plain, if_neg plain]
      have old : oldField numbers = some (numbers.dropLast.map some) := if_pos (Nat.not_lt.mp few)
      cases last : numbers.getLast? with
      | none =>
        rw [List.getLast?_eq_none_iff.mp last] at few
        exact absurd (by simp) few
      | some last =>
        simp only [Option.getD_some, last, old, Option.map_some]
        rfl

theorem Tracks.restart (tracks : Tracks vbucketList log history) :
    Tracks vbucketList (.create (some log.files) vbucketList true) (history.step .restart) := by
  have lookups := create_keepLogs_lookup log.files vbucketList
  have loaded : ∀ vb, (log.files.lookup vb).getD .empty = history.fileEntry vb := by
    intro vb
    rw [tracks.files vb]
    by_cases listed : vb ∈ vbucketList
    · rw [if_pos listed]
      rfl
    · rw [if_neg listed, tracks.unlisted vb listed]
      rfl
  constructor
  case external => exact create_external log.files vbucketList true
  case memory =>
    intro vb
    rw [LogData.entryOf, (lookups vb).1, memoryEntry_restart, loaded]
    by_cases listed : vb ∈ vbucketList
    · rw [if_pos listed]
      rfl
    · rw [if_neg listed, tracks.unlisted vb listed]
      rfl
  case present =>
    intro vb listed
    rw [(lookups vb).1, if_pos listed]
    rfl
  case files =>
    intro vb
    rw [(lookups vb).2, loaded, tracks.files vb]
    by_cases listed : vb ∈ vbucketList
    · rw [if_pos listed, if_pos listed]
      rfl
    · rw [if_neg listed, if_neg listed, if_neg listed]
  case unlisted => exact tracks.unlisted
  case short =>
    intro vb nulled
    obtain ⟨numbers, restored, few⟩ := nulled
    have same : (history.step .restart).numbers vb = numbers := by
      show (history.pushed vb).getD [] = numbers
      rw [show history.pushed vb = some numbers from restored]
      rfl
    rw [same]
    exact few

/-- Each operation that the history allows goes through and is recorded. -/
theorem Tracks.takes (tracks : Tracks vbucketList log history) (op : LogOp V N F)
    (allowed : history.Allows vbucketList op) :
    ∃ next, log.step vbucketList op = .ok next ∧ Tracks vbucketList next (history.step op) := by
  cases op with
  | upsertFailover vb failoverLog => exact tracks.upsertFailover allowed failoverLog
  | upsertSequenceNo vb seqNo => exact tracks.upsertSequenceNo allowed seqNo
  | pushSequenceNo vb => exact tracks.pushSequenceNo allowed
  | restart => exact ⟨_, rfl, tracks.restart⟩

/-- Every other operation raises. -/
theorem Tracks.raises (tracks : Tracks vbucketList log history) {op : LogOp V N F}
    (refused : ¬ history.Allows vbucketList op) : ∃ e, log.step vbucketList op = .error e := by
  cases op with
  | upsertFailover vb failoverLog =>
    have unlisted : vb ∉ vbucketList := refused
    have missing := tracks.load vb
    rw [if_neg unlisted] at missing
    refine ⟨.ioError, ?_⟩
    show (if log.external = true then
      (if log.external = true then Except.ok vb else .error .runtimeError) >>= fun path =>
        log.load path >>= _
      else _) = _
    rw [if_pos tracks.external, if_pos tracks.external]
    show log.load vb >>= _ = _
    rw [missing]
    rfl
  | upsertSequenceNo vb seqNo =>
    exact ⟨.attributeError, upsertSequenceNo_nulled tracks (not_not.mp refused) seqNo⟩
  | pushSequenceNo vb =>
    have unlisted : vb ∉ vbucketList := refused
    have missing := tracks.load vb
    rw [if_neg unlisted] at missing
    refine ⟨.ioError, ?_⟩
    show log.pushSequenceNo vb = _
    rw [LogData.pushSequenceNo, if_pos tracks.external, LogData.getPath, if_pos tracks.external]
    show log.load vb >>= _ = _
    rw [missing]
    rfl
  | restart => exact absurd trivial refused

end Step

/-- A directory in which the log begins: logs that are there are of the vBuckets of the list, and
    they are reset. -/
def Begins (files : Logs V N F) (vbucketList : List V) (keepLogs : Bool) : Prop :=
  ∀ vb, (files.lookup vb).isSome → vb ∈ vbucketList ∧ keepLogs = false

theorem tracks_create {files : Logs V N F} {vbucketList : List V} {keepLogs : Bool}
    (begins : Begins files vbucketList keepLogs) :
    Tracks vbucketList (.create (some files) vbucketList keepLogs) .start := by
  have plain : ∀ vb, ¬ (LogHistory.start : LogHistory V N F).Nulled vb := by
    intro vb nulled
    obtain ⟨numbers, found, _⟩ := nulled
    cases found
  have memoryEmpty : ∀ vb, (LogHistory.start : LogHistory V N F).memoryEntry vb = .empty := by
    intro vb
    rw [LogHistory.memoryEntry, if_neg (plain vb), if_neg (plain vb)]
    rfl
  have unlisted : ∀ vb, vb ∉ vbucketList → files.lookup vb = none := by
    intro vb missing
    cases found : files.lookup vb with
    | none => rfl
    | some data => exact absurd (begins vb (by rw [found]; rfl)).1 missing
  have lookups : ∀ vb, (LogData.create (some files) vbucketList keepLogs).dictstore.lookup vb =
        (if vb ∈ vbucketList then some .empty else none) ∧
      (LogData.create (some files) vbucketList keepLogs).files.lookup vb =
        (if vb ∈ vbucketList then some .empty else none) := by
    intro vb
    cases keepLogs with
    | true =>
      have absent : files.lookup vb = none := by
        cases found : files.lookup vb with
        | none => rfl
        | some data => exact absurd (begins vb (by rw [found]; rfl)).2 (by simp)
      obtain ⟨memory, written⟩ := create_keepLogs_lookup files vbucketList vb
      rw [memory, written, absent]
      exact ⟨rfl, rfl⟩
    | false =>
      obtain ⟨memory, written⟩ := reset_lookup ⟨true, ∅, files⟩ rfl vbucketList vb
      refine ⟨memory, written.trans ?_⟩
      by_cases listed : vb ∈ vbucketList
      · rw [if_pos listed, if_pos listed]
      · rw [if_neg listed, if_neg listed]
        exact unlisted vb listed
  constructor
  case external => exact create_external files vbucketList keepLogs
  case memory =>
    intro vb
    rw [LogData.entryOf, (lookups vb).1, memoryEmpty]
    by_cases listed : vb ∈ vbucketList
    · rw [if_pos listed]
      rfl
    · rw [if_neg listed]
      rfl
  case present =>
    intro vb listed
    rw [(lookups vb).1, if_pos listed]
    rfl
  case files => exact fun vb => (lookups vb).2
  case unlisted => exact fun _ _ => rfl
  case short => exact fun vb nulled => absurd nulled (plain vb)

/-- After every operation of a run none has raised and the log records the history, exactly if
    each operation is one that the history before it allows. -/
theorem logData_records_iff {files : Logs V N F} {vbucketList : List V} {keepLogs : Bool}
    (begins : Begins files vbucketList keepLogs) (ops : List (LogOp V N F)) :
    (∀ before after, ops = before ++ after →
        ∃ log, before.foldlM (LogData.step vbucketList) (.create (some files) vbucketList keepLogs) =
            .ok log ∧
          log.Records (run LogHistory.step .start before)) ↔
      Guarded LogHistory.step (LogHistory.Allows vbucketList) .start ops := by
  have refuses : ∀ (log : LogData V N F) history op, Tracks vbucketList log history →
      ¬ history.Allows vbucketList op → ∀ next, log.step vbucketList op = .ok next →
        ¬ next.Records (history.step op) := by
    intro log history op tracks refused next stepped
    obtain ⟨e, raised⟩ := tracks.raises refused
    rw [raised] at stepped
    cases stepped
  exact foldlM_agrees_iff (fun log history (tracks : Tracks vbucketList log history) => tracks.records)
    (fun log history op tracks _ allowed => tracks.takes op allowed)
    (fun log history op tracks _ => refuses log history op tracks) (tracks_create begins)
    (guarded_true _ ops)

theorem logData_records_two_pushed :
    Guarded LogHistory.step (LogHistory.Allows [7]) (.start : LogHistory Nat Nat String)
        [.upsertSequenceNo 7 3, .upsertSequenceNo 7 5, .pushSequenceNo 7, .restart,
          .upsertSequenceNo 7 9] ∧
      ∃ log, ([.upsertSequenceNo 7 3, .upsertSequenceNo 7 5, .pushSequenceNo 7, .restart,
          .upsertSequenceNo 7 9] : List (LogOp Nat Nat String)).foldlM (LogData.step [7])
            (.create (some ∅) [7] false) = .ok log := by
  have guarded : Guarded LogHistory.step (LogHistory.Allows [7]) (.start : LogHistory Nat Nat String)
      [.upsertSequenceNo 7 3, .upsertSequenceNo 7 5, .pushSequenceNo 7, .restart,
        .upsertSequenceNo 7 9] := by
    refine ⟨?_, ?_, ?_, trivial, ?_, trivial⟩
    · show ¬ LogHistory.Nulled _ 7
      decide
    · show ¬ LogHistory.Nulled _ 7
      decide
    · exact List.mem_singleton_self 7
    · show ¬ LogHistory.Nulled _ 7
      decide
  have begins : Begins (∅ : Logs Nat Nat String) [7] false := by
    intro vb found
    simp at found
  obtain ⟨log, ran, _⟩ := (logData_records_iff begins _).mpr guarded _ [] (List.append_nil _).symm
  exact ⟨guarded, log, ran⟩

/-- One number is pushed, the log is restarted, and the next number cannot be upserted. -/
theorem upsert_raises_after_restart :
    ([.upsertSequenceNo 7 3, .pushSequenceNo 7, .restart, .upsertSequenceNo 7 5] :
        List (LogOp Nat Nat String)).foldlM (LogData.step [7]) (.create (some ∅) [7] false) =
      .error .attributeError := by
  rfl

end Taf.Dcp
