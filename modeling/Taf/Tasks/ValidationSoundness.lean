import Taf.Tasks.ValidateDocuments

/-! # When a silent validation means that all documents are there

A batch ends in one of three ways: it raises, it keeps an exception for later and
returns, or it returns with nothing to report.  The last is also the end of a batch
with unreadable keys.  Which of them happens is read off the verdicts on the single
keys, and the whole run is an induction over the batches. -/

namespace Taf.Tasks

open Taf.Lib Taf.Bucket Taf.DocLoad

/-! ## The dictionaries of one batch -/

section Maps

variable (read : String → Except Raised ReadEntry)

def raisedBy (key : String) : Option Raised :=
  match read key with
  | .ok _ => none
  | .error raised => some raised

def entryOf (key : String) : ReadEntry :=
  match read key with
  | .ok entry => entry
  | .error _ => .absent

def ReadEntry.found? : ReadEntry → Option FoundDoc
  | .found doc => some doc
  | _ => none

def ReadEntry.failed? : ReadEntry → Option String
  | .failed error => some error
  | _ => none

theorem foldlM_readKey_error {raised : Raised} (keys : List String) (maps : ReadMaps)
    (first : keys.findSome? (raisedBy read) = some raised) :
    keys.foldlM (readKey read) maps = .error raised := by
  induction keys generalizing maps with
  | nil => cases first
  | cons key keys ih =>
    rw [List.foldlM_cons]
    cases outcome : read key with
    | error other =>
      simp only [List.findSome?_cons, raisedBy, outcome, Option.some.injEq] at first
      simp only [readKey, outcome, first]
      rfl
    | ok entry =>
      simp only [List.findSome?_cons, raisedBy, outcome] at first
      simp only [readKey, outcome]
      exact ih (maps.record key entry) first

theorem record_lookup_ne {key other : String} (different : other ≠ key) (maps : ReadMaps)
    (entry : ReadEntry) :
    (maps.record key entry).resultMap.lookup other = maps.resultMap.lookup other ∧
      (maps.record key entry).failedReads.lookup other = maps.failedReads.lookup other := by
  cases entry <;> simp [ReadMaps.record, AList.lookup_insert_ne different]

def recorded (maps : ReadMaps) (keys : List String) : ReadMaps :=
  run (fun maps key => maps.record key (entryOf read key)) maps keys

theorem recorded_lookup_of_notMem {keys : List String} {key : String} (absent : key ∉ keys)
    (maps : ReadMaps) :
    (recorded read maps keys).resultMap.lookup key = maps.resultMap.lookup key ∧
      (recorded read maps keys).failedReads.lookup key = maps.failedReads.lookup key := by
  induction keys generalizing maps with
  | nil => exact ⟨rfl, rfl⟩
  | cons first keys ih =>
    have different : key ≠ first := List.ne_of_not_mem_cons absent
    have absent : key ∉ keys := List.not_mem_of_not_mem_cons absent
    obtain ⟨foundKept, failedKept⟩ := record_lookup_ne different maps (entryOf read first)
    obtain ⟨found, failed⟩ := ih absent (maps.record first (entryOf read first))
    exact ⟨found.trans foundKept, failed.trans failedKept⟩

theorem recorded_lookup {keys : List String} (nodup : keys.Nodup) {key : String}
    (member : key ∈ keys) (maps : ReadMaps)
    (noneFound : ∀ key ∈ keys, maps.resultMap.lookup key = none)
    (noneFailed : ∀ key ∈ keys, maps.failedReads.lookup key = none) :
    (recorded read maps keys).resultMap.lookup key = (entryOf read key).found? ∧
      (recorded read maps keys).failedReads.lookup key = (entryOf read key).failed? := by
  induction keys generalizing maps with
  | nil => cases member
  | cons first keys ih =>
    obtain ⟨fresh, nodup⟩ := List.nodup_cons.mp nodup
    cases member with
    | head =>
      obtain ⟨found, failed⟩ :=
        recorded_lookup_of_notMem read fresh (maps.record key (entryOf read key))
      have startFound := noneFound key List.mem_cons_self
      have startFailed := noneFailed key List.mem_cons_self
      refine ⟨found.trans ?_, failed.trans ?_⟩
      · cases entryOf read key <;> simp [ReadMaps.record, ReadEntry.found?, startFound]
      · cases entryOf read key <;> simp [ReadMaps.record, ReadEntry.failed?, startFailed]
    | tail _ member =>
      refine ih nodup member (maps.record first (entryOf read first)) ?_ ?_
      · intro key member
        have different : key ≠ first := fun same => fresh (same ▸ member)
        rw [(record_lookup_ne different maps _).1]
        exact noneFound key (List.mem_cons_of_mem first member)
      · intro key member
        have different : key ≠ first := fun same => fresh (same ▸ member)
        rw [(record_lookup_ne different maps _).2]
        exact noneFailed key (List.mem_cons_of_mem first member)

def entryVerdict (expected : Option PyDict) : ReadEntry → KeyVerdict
  | .found doc => foundVerdict expected doc
  | .failed error => failedVerdict error
  | .absent => .malformed

/-- The loop of `validate_key_val` judges a key by its own read. -/
theorem lookupVerdict_recorded {keys : List String} (nodup : keys.Nodup) {key : String}
    (member : key ∈ keys) (expected : Option PyDict) :
    lookupVerdict (recorded read {} keys) key expected =
      entryVerdict expected (entryOf read key) := by
  obtain ⟨found, failed⟩ := recorded_lookup read nodup member {} (by simp) (by simp)
  unfold lookupVerdict
  rw [found, failed]
  cases entryOf read key <;> rfl

theorem foldlM_readKey_ok {keys : List String} (quiet : keys.findSome? (raisedBy read) = none) :
    keys.foldlM (readKey read) ({} : ReadMaps) = .ok (recorded read {} keys) := by
  refine foldlM_eq_ok ?_ ({} : ReadMaps)
  intro maps key member
  have calm : raisedBy read key = none := List.findSome?_eq_none_iff.mp quiet key member
  unfold raisedBy at calm
  unfold readKey entryOf
  cases outcome : read key with
  | ok entry => rfl
  | error raised => simp [outcome] at calm

end Maps

/-! ## The verdict on a batch -/

def KeyVerdict.Loud (verdict : KeyVerdict) : Prop :=
  verdict ≠ .equal ∧ verdict ≠ .skipped

section Report

variable {keyValue : KeyValue} {verdict : (Sigma fun _ : String => Option PyDict) → KeyVerdict}

def addVerdict (verdict : (Sigma fun _ : String => Option PyDict) → KeyVerdict)
    (report : KeyReport) (entry : Sigma fun _ : String => Option PyDict) :
    Except ValidationError KeyReport :=
  report.add entry.1 (verdict entry)

theorem foldlM_add_quiet {entries : List (Sigma fun _ : String => Option PyDict)}
    (quiet : ∀ entry ∈ entries, ¬(verdict entry).Loud) (report : KeyReport) :
    entries.foldlM (addVerdict verdict) report = .ok report := by
  induction entries with
  | nil => rfl
  | cons entry entries ih =>
    have calm := quiet entry List.mem_cons_self
    have rest := ih fun next member => quiet next (List.mem_cons_of_mem entry member)
    rw [List.foldlM_cons, addVerdict]
    cases outcome : verdict entry <;> simp only [KeyReport.add]
    case equal => exact rest
    case skipped => exact rest
    all_goals simp [KeyVerdict.Loud, outcome] at calm

theorem add_keeps_reported {report next : KeyReport} {key : String} {verdict : KeyVerdict}
    (added : report.add key verdict = .ok next)
    (reported : report.missing ≠ [] ∨ report.wrong ≠ []) : next.missing ≠ [] ∨ next.wrong ≠ [] := by
  cases verdict with
  | equal | skipped =>
    cases added
    exact reported
  | wrong =>
    cases added
    exact .inr (by simp)
  | missing =>
    cases added
    exact .inl (by simp)
  | malformed => cases added

theorem add_loud_reported {report next : KeyReport} {key : String} {verdict : KeyVerdict}
    (added : report.add key verdict = .ok next) (loud : verdict.Loud) :
    next.missing ≠ [] ∨ next.wrong ≠ [] := by
  cases verdict with
  | equal => exact absurd rfl loud.1
  | skipped => exact absurd rfl loud.2
  | wrong =>
    cases added
    exact .inr (by simp)
  | missing =>
    cases added
    exact .inl (by simp)
  | malformed => cases added

theorem foldlM_add_reported {entries : List (Sigma fun _ : String => Option PyDict)}
    {report last : KeyReport} (added : entries.foldlM (addVerdict verdict) report = .ok last)
    (reported : report.missing ≠ [] ∨ report.wrong ≠ []) : last.missing ≠ [] ∨ last.wrong ≠ [] := by
  induction entries generalizing report with
  | nil =>
    cases added
    exact reported
  | cons entry entries ih =>
    rw [List.foldlM_cons, bind_eq_ok] at added
    obtain ⟨next, stepped, rest⟩ := added
    exact ih rest (add_keeps_reported stepped reported)

theorem foldlM_add_loud {entries : List (Sigma fun _ : String => Option PyDict)}
    {entry : Sigma fun _ : String => Option PyDict} (member : entry ∈ entries)
    (loud : (verdict entry).Loud) {report last : KeyReport}
    (added : entries.foldlM (addVerdict verdict) report = .ok last) :
    last.missing ≠ [] ∨ last.wrong ≠ [] := by
  induction entries generalizing report with
  | nil => cases member
  | cons first entries ih =>
    rw [List.foldlM_cons, bind_eq_ok] at added
    obtain ⟨next, stepped, rest⟩ := added
    cases member with
    | head => exact foldlM_add_reported rest (add_loud_reported stepped loud)
    | tail _ member => exact ih member rest

end Report

namespace ValidateDocumentsTask

variable (task : ValidateDocumentsTask)

/-- The verdict on a key in the batch of the given number, from the read of that key alone. -/
def verdict (number : Nat) (entry : Sigma fun _ : String => Option PyDict) : KeyVerdict :=
  entryVerdict entry.2 (entryOf (task.read number) entry.1)

def firstRaise (batch : List Int × Nat) : Option Raised :=
  (task.keyValue batch.1).keys.findSome? (raisedBy (task.read batch.2))

/-- The batch ends early and leaves its exception in `self.exception`. -/
def Stored (batch : List Int × Nat) : Prop :=
  task.checkReplica = true ∧
    ∃ raised, task.firstRaise batch = some raised ∧ task.interp.exceptException raised = true

/-- Some key of the batch is missing, wrong, or cannot be judged. -/
def Loud (batch : List Int × Nat) : Prop :=
  ∃ entry ∈ (task.keyValue batch.1).entries, (task.verdict batch.2 entry).Loud

/-- Some key of the batch is neither read nor reported as not found. -/
def Skips (batch : List Int × Nat) : Prop :=
  ∃ entry ∈ (task.keyValue batch.1).entries, task.verdict batch.2 entry = .skipped

variable {task}

theorem raises_of_firstRaise {batch : List Int × Nat} {raised : Raised}
    (first : task.firstRaise batch = some raised) : task.Loud batch := by
  obtain ⟨key, member, raises⟩ := List.exists_of_findSome?_eq_some first
  obtain ⟨entry, entryMember, sameKey⟩ := List.mem_map.mp member
  refine ⟨entry, entryMember, ?_⟩
  have absent : entryOf (task.read batch.2) entry.1 = .absent := by
    rw [sameKey]
    unfold raisedBy at raises
    unfold entryOf
    cases outcome : task.read batch.2 key with
    | ok _ => simp [outcome] at raises
    | error _ => rfl
  simp [verdict, absent, entryVerdict, KeyVerdict.Loud]

theorem validateKeyVal_eq {batch : List Int × Nat} :
    validateKeyVal (recorded (task.read batch.2) {} (task.keyValue batch.1).keys)
        (task.keyValue batch.1) =
      (task.keyValue batch.1).entries.foldlM (addVerdict (task.verdict batch.2)) {} := by
  refine foldlM_congr_of_mem ?_ _
  intro report entry member
  have keyMember : entry.1 ∈ (task.keyValue batch.1).keys := List.mem_map_of_mem member
  rw [lookupVerdict_recorded _ (AList.keys_nodup _) keyMember]
  rfl

/-! ## One batch -/

theorem validateDocs_stored {batch : List Int × Nat} (stored : task.Stored batch)
    (state : ValidateState) :
    ∃ e, task.validateDocs state batch = .ok { state with exception := some e } := by
  obtain ⟨replica, raised, first, caught⟩ := stored
  refine ⟨.readRaised raised, ?_⟩
  simp [validateDocs, foldlM_readKey_error _ _ _ first, replica, caught]

theorem validateDocs_raises {batch : List Int × Nat} {raised : Raised}
    (first : task.firstRaise batch = some raised) (notStored : ¬task.Stored batch)
    (state : ValidateState) : ∃ e, task.validateDocs state batch = .error e := by
  have uncaught : ¬(task.checkReplica = true ∧ task.interp.exceptException raised = true) :=
    fun both => notStored ⟨both.1, raised, first, both.2⟩
  refine ⟨.readRaised raised, ?_⟩
  simp only [validateDocs, foldlM_readKey_error _ _ _ first, Bool.and_eq_true, if_neg uncaught]

theorem conclude_reported {report : KeyReport} (notDelete : task.opType ≠ .doc .delete)
    (reported : report.missing ≠ [] ∨ report.wrong ≠ []) (state : ValidateState)
    (keyValue : KeyValue) : ∃ e,
      (task.conclude state keyValue report).exception = some e := by
  unfold conclude
  rw [if_neg notDelete]
  by_cases wrong : report.wrong = []
  · have missing : report.missing ≠ [] := reported.resolve_right (not_not.mpr wrong)
    exact ⟨.keysMissing report.missing, by simp [wrong, missing]⟩
  · exact ⟨.wrongValues report.wrong, by simp [wrong]⟩

theorem conclude_nothing {state : ValidateState} {keyValue : KeyValue}
    (notDelete : task.opType ≠ .doc .delete) : task.conclude state keyValue {} = state := by
  simp [conclude, notDelete]

theorem validateDocs_loud {batch : List Int × Nat} (notDelete : task.opType ≠ .doc .delete)
    (loud : task.Loud batch) (notStored : ¬task.Stored batch) (state : ValidateState) :
    ∃ e, task.validateDocs state batch = .error e := by
  cases first : task.firstRaise batch with
  | some raised => exact validateDocs_raises first notStored state
  | none =>
    simp only [validateDocs, foldlM_readKey_ok _ first, validateKeyVal_eq]
    cases added : (task.keyValue batch.1).entries.foldlM (addVerdict (task.verdict batch.2)) {} with
    | error e => exact ⟨e, rfl⟩
    | ok report =>
      obtain ⟨entry, member, loudKey⟩ := loud
      obtain ⟨e, raised⟩ := conclude_reported notDelete (foldlM_add_loud member loudKey added)
        state (task.keyValue batch.1)
      exact ⟨e, by simp [raised]⟩

theorem validateDocs_quiet {batch : List Int × Nat} (notDelete : task.opType ≠ .doc .delete)
    (quiet : ¬task.Loud batch) (state : ValidateState) :
    task.validateDocs state batch =
      match state.exception with
      | some e => .error e
      | none => .ok state := by
  have first : task.firstRaise batch = none := by
    cases first : task.firstRaise batch with
    | none => rfl
    | some raised => exact absurd (raises_of_firstRaise first) quiet
  have calm : ∀ entry ∈ (task.keyValue batch.1).entries, ¬(task.verdict batch.2 entry).Loud :=
    fun entry member loud => quiet ⟨entry, member, loud⟩
  cases kept : state.exception with
  | none =>
    simp only [validateDocs, foldlM_readKey_ok _ first, validateKeyVal_eq, foldlM_add_quiet calm,
      conclude_nothing notDelete, kept]
  | some e =>
    simp only [validateDocs, foldlM_readKey_ok _ first, validateKeyVal_eq, foldlM_add_quiet calm,
      conclude_nothing notDelete, kept]

/-! ## The whole run -/

/-- Something is raised by the batch: a key of its own, or the exception of an earlier batch. -/
def Reported (task : ValidateDocumentsTask) (batches : List (List Int × Nat)) : Prop :=
  ∃ before batch after, batches = before ++ batch :: after ∧ ¬task.Stored batch ∧
    (task.Loud batch ∨ ∃ earlier ∈ before, task.Stored earlier)

theorem reported_cons {first : List Int × Nat} {batches : List (List Int × Nat)} :
    task.Reported (first :: batches) ↔
      (¬task.Stored first ∧ task.Loud first) ∨ task.Reported batches ∨
        (task.Stored first ∧ ∃ batch ∈ batches, ¬task.Stored batch) := by
  constructor
  · intro ⟨before, batch, after, split, notStored, reason⟩
    cases before with
    | nil =>
      obtain ⟨rfl, rfl⟩ := List.cons_eq_cons.mp split
      exact .inl ⟨notStored, reason.resolve_right (by simp)⟩
    | cons head before =>
      obtain ⟨rfl, rfl⟩ := List.cons_eq_cons.mp split
      obtain loud | ⟨earlier, member, stored⟩ := reason
      · exact .inr (.inl ⟨before, batch, after, rfl, notStored, .inl loud⟩)
      · cases member with
        | head => exact .inr (.inr ⟨stored, batch, by simp, notStored⟩)
        | tail _ member =>
          exact .inr (.inl ⟨before, batch, after, rfl, notStored, .inr ⟨earlier, member, stored⟩⟩)
  · intro reason
    obtain ⟨notStored, loud⟩ | ⟨before, batch, after, rfl, notStored, reason⟩ |
      ⟨stored, batch, member, notStored⟩ := reason
    · exact ⟨[], first, batches, rfl, notStored, .inl loud⟩
    · refine ⟨first :: before, batch, after, rfl, notStored, reason.imp_right ?_⟩
      intro ⟨earlier, member, stored⟩
      exact ⟨earlier, List.mem_cons_of_mem first member, stored⟩
    · obtain ⟨before, after, rfl⟩ := List.append_of_mem member
      exact ⟨first :: before, batch, after, rfl, notStored, .inr ⟨first, by simp, stored⟩⟩

/-- All batches after a kept exception keep theirs, unless one of them raises. -/
theorem not_reported_of_stored {batches : List (List Int × Nat)}
    (stored : ∀ batch ∈ batches, task.Stored batch) : ¬task.Reported batches := by
  intro ⟨before, batch, after, split, notStored, _⟩
  exact notStored (stored batch (by simp [split]))

/-- The run from a state that already keeps an exception: it goes through exactly when every
    batch keeps one, too. -/
theorem foldlM_kept_ok_iff (notDelete : task.opType ≠ .doc .delete) (batches : List (List Int × Nat))
    {state : ValidateState} {e : ValidationError} (kept : state.exception = some e) :
    (∃ last, batches.foldlM task.validateDocs state = .ok last) ↔
      ∀ batch ∈ batches, task.Stored batch := by
  induction batches generalizing state e with
  | nil => exact iff_of_true ⟨state, rfl⟩ (by simp)
  | cons batch batches ih =>
    rw [List.foldlM_cons, List.forall_mem_cons]
    by_cases stored : task.Stored batch
    · obtain ⟨e', next⟩ := validateDocs_stored stored state
      rw [next]
      exact (ih rfl).trans (and_iff_right stored).symm
    · obtain ⟨e', raised⟩ : ∃ e', task.validateDocs state batch = .error e' := by
        by_cases loud : task.Loud batch
        · exact validateDocs_loud notDelete loud stored state
        · exact ⟨e, by rw [validateDocs_quiet notDelete loud, kept]⟩
      rw [raised]
      refine iff_of_false ?_ fun all => stored all.1
      intro ⟨last, impossible⟩
      cases impossible

theorem foldlM_ok_iff (notDelete : task.opType ≠ .doc .delete) (batches : List (List Int × Nat))
    {state : ValidateState} (clean : state.exception = none) :
    (∃ last, batches.foldlM task.validateDocs state = .ok last) ↔ ¬task.Reported batches := by
  induction batches generalizing state with
  | nil =>
    refine iff_of_true ⟨state, rfl⟩ ?_
    intro ⟨before, batch, after, split, _⟩
    simp at split
  | cons batch batches ih =>
    rw [List.foldlM_cons, reported_cons]
    by_cases stored : task.Stored batch
    -- From here on an exception is kept, and the next batch that gets to its end raises it.
    · obtain ⟨e, next⟩ := validateDocs_stored stored state
      rw [next]
      refine (foldlM_kept_ok_iff notDelete batches rfl).trans ?_
      constructor
      · intro allStored reason
        obtain ⟨notStored, _⟩ | reported | ⟨_, other, member, notStored⟩ := reason
        · exact notStored stored
        · exact not_reported_of_stored allStored reported
        · exact notStored (allStored other member)
      · intro notReported other member
        by_contra notStored
        exact notReported (.inr (.inr ⟨stored, other, member, notStored⟩))
    · by_cases loud : task.Loud batch
      · obtain ⟨e, raised⟩ := validateDocs_loud notDelete loud stored state
        rw [raised]
        refine iff_of_false ?_ (not_not.mpr (.inl ⟨stored, loud⟩))
        intro ⟨last, impossible⟩
        cases impossible
      · rw [validateDocs_quiet notDelete loud, clean]
        refine (ih clean).trans (not_congr ?_)
        simp [stored, loud]

/-- The value read is the expected one, with `mutated` compared as an integer. -/
def SameValue (expected : Option PyDict) (actual : PyDict) : Prop :=
  ∃ value, expected = some value ∧ compareValues value actual = some true

/-- The key was read back in the batch of the given number with the expected value, and with
    `check_replica` in the expected number of copies; with `is_sub_doc` no copies are read. -/
def ReadBack (task : ValidateDocumentsTask) (number : Nat) (key : String)
    (expected : Option PyDict) : Prop :=
  if task.checkReplica then
    task.isSubDoc = false ∧
      ∃ first rest, task.getFromAllReplicas number key = .copies (first :: rest) ∧
        (first :: rest).length = task.copies ∧ SameValue expected first.value
  else ∃ cas content, task.get number key = .found cas content ∧ SameValue expected content

/-- Every generated key was read back with the value that its batch expects for it. -/
def AllReadBack (task : ValidateDocumentsTask) : Prop :=
  ∀ batch ∈ task.generator.batches.zipIdx, ∀ index ∈ batch.1,
    ∃ expected, (task.keyValue batch.1).lookup (task.generator.docGen.key index) = some expected ∧
      task.ReadBack batch.2 (task.generator.docGen.key index) expected

theorem foundVerdict_equal {expected : Option PyDict} {doc : FoundDoc}
    (equal : foundVerdict expected doc = .equal) : SameValue expected doc.value := by
  cases expected with
  | none => simp [foundVerdict] at equal
  | some value =>
    refine ⟨value, rfl, ?_⟩
    by_cases zero : doc.cas = 0
    · simp [foundVerdict, zero] at equal
    · cases outcome : compareValues value doc.value with
      | none => simp [foundVerdict, zero, outcome] at equal
      | some same =>
        cases same with
        | false => simp [foundVerdict, zero, outcome] at equal
        | true => rfl

theorem failedVerdict_ne_equal (error : String) : failedVerdict error ≠ .equal := by
  unfold failedVerdict
  split_ifs <;> simp

theorem readBack_of_equal (docs : task.isSubDoc = false) {number : Nat}
    {entry : Sigma fun _ : String => Option PyDict} (equal : task.verdict number entry = .equal) : task.ReadBack number entry.1 entry.2 := by
  unfold verdict entryOf read at equal
  unfold ReadBack
  by_cases replica : task.checkReplica = true
  · rw [if_pos replica] at equal ⊢
    cases outcome : task.getFromAllReplicas number entry.1 with
    | raises raised => simp [outcome, replicaEntry, entryVerdict] at equal
    | copies list =>
      cases list with
      | nil =>
        by_cases zero : task.copies = 0
        · simp [outcome, replicaEntry, zero, entryVerdict] at equal
        · simp only [outcome, replicaEntry, zero, entryVerdict] at equal
          exact absurd equal (failedVerdict_ne_equal _)
      | cons first rest =>
        by_cases complete : (first :: rest).length = task.copies
        · by_cases status : first.status = true
          · simp only [outcome, replicaEntry, complete, status, entryVerdict] at equal
            exact ⟨docs, first, rest, rfl, complete, foundVerdict_equal equal⟩
          · simp [outcome, replicaEntry, complete, status, entryVerdict] at equal
        · simp only [outcome, replicaEntry, complete, entryVerdict] at equal
          exact absurd equal (failedVerdict_ne_equal _)
  · rw [if_neg replica] at equal ⊢
    cases outcome : task.get number entry.1 with
    | found cas content =>
      simp only [outcome, getEntry, entryVerdict] at equal
      exact ⟨cas, content, rfl, foundVerdict_equal equal⟩
    | error className message context =>
      cases message with
      | none => simp [outcome, getEntry, entryVerdict] at equal
      | some message =>
        simp only [outcome, getEntry, entryVerdict] at equal
        exact absurd equal (failedVerdict_ne_equal _)

theorem foundVerdict_ne_skipped (expected : Option PyDict) (doc : FoundDoc) :
    foundVerdict expected doc ≠ .skipped := by
  cases expected with
  | none => simp [foundVerdict]
  | some value =>
    by_cases zero : doc.cas = 0
    · simp [foundVerdict, zero]
    · cases outcome : compareValues value doc.value with
      | none => simp [foundVerdict, zero, outcome]
      | some same => cases same <;> simp [foundVerdict, zero, outcome]

/-- A key that was read back neither raised nor was it filed as a failed read. -/
theorem readBack_entry {number : Nat} {key : String} {expected : Option PyDict}
    (back : task.ReadBack number key expected) :
    ∃ entry, task.read number key = .ok entry ∧ entry.failed? = none := by
  unfold ReadBack at back
  unfold read
  by_cases replica : task.checkReplica = true
  · rw [if_pos replica] at back ⊢
    obtain ⟨_, first, rest, outcome, complete, _⟩ := back
    rw [outcome, replicaEntry, if_pos complete]
    refine ⟨_, rfl, ?_⟩
    split_ifs <;> rfl
  · rw [if_neg replica] at back ⊢
    obtain ⟨cas, content, outcome, _⟩ := back
    exact ⟨_, by rw [outcome, getEntry], rfl⟩

theorem verdict_ne_skipped {number : Nat} {entry : Sigma fun _ : String => Option PyDict}
    (back : task.ReadBack number entry.1 entry.2) : task.verdict number entry ≠ .skipped := by
  obtain ⟨outcome, read, notFailed⟩ := readBack_entry back
  simp only [verdict, entryOf, read]
  cases outcome with
  | found doc => exact foundVerdict_ne_skipped entry.2 doc
  | failed error => simp [ReadEntry.failed?] at notFailed
  | absent => simp [entryVerdict]

theorem mem_foldl_insert (entries : List (String × Option PyDict)) (dict : KeyValue)
    (key : String) :
    key ∈ entries.foldl (fun dict entry => dict.insert entry.1 entry.2) dict ↔
      key ∈ dict ∨ key ∈ entries.map Prod.fst := by
  induction entries generalizing dict with
  | nil => simp
  | cons entry entries ih =>
    rw [List.foldl_cons, ih, AList.mem_insert, List.map_cons, List.mem_cons]
    tauto

theorem mem_keyValue {batch : List Int} {key : String} :
    key ∈ task.keyValue batch ↔ ∃ index ∈ batch, task.generator.docGen.key index = key := by
  rw [keyValue, mem_foldl_insert, task.generator.nextBatch_keys]
  simp

theorem call_ok_iff (docs : task.isSubDoc = false) (notDelete : task.opType ≠ .doc .delete) :
    (∃ last, task.call = .ok last) ↔ ¬task.Reported task.generator.batches.zipIdx := by
  have validates : task.next = task.validateDocs := by
    funext state batch
    simp [next, docs]
  rw [call, GenericLoadingTask.call_eq_foldlM, List.flatten_singleton, validates]
  exact foldlM_ok_iff notDelete _ rfl

theorem not_stored_of_allReadBack (all : task.AllReadBack) {batch : List Int × Nat}
    (member : batch ∈ task.generator.batches.zipIdx) : ¬task.Stored batch := by
  intro ⟨_, raised, first, _⟩
  obtain ⟨key, keyMember, raises⟩ := List.exists_of_findSome?_eq_some first
  obtain ⟨index, indexMember, sameKey⟩ := mem_keyValue.mp (AList.mem_keys.mpr keyMember)
  obtain ⟨expected, _, back⟩ := all batch member index indexMember
  obtain ⟨entry, read, _⟩ := readBack_entry back
  rw [sameKey] at read
  simp [raisedBy, read] at raises

theorem not_skips_of_allReadBack (all : task.AllReadBack) {batch : List Int × Nat}
    (member : batch ∈ task.generator.batches.zipIdx) : ¬task.Skips batch := by
  intro ⟨entry, entryMember, skipped⟩
  have keyMember : entry.1 ∈ task.keyValue batch.1 :=
    AList.mem_keys.mpr (List.mem_map_of_mem entryMember)
  obtain ⟨index, indexMember, sameKey⟩ := mem_keyValue.mp keyMember
  obtain ⟨expected, found, back⟩ := all batch member index indexMember
  have sameExpected : expected = entry.2 := by
    rw [sameKey, AList.mem_lookup_iff.mpr entryMember] at found
    exact (Option.some.inj found).symm
  rw [sameKey, sameExpected] at back
  exact verdict_ne_skipped back skipped

theorem allReadBack_of_quiet (docs : task.isSubDoc = false)
    (quiet : ∀ batch ∈ task.generator.batches.zipIdx, ¬task.Loud batch ∧ ¬task.Skips batch) :
    task.AllReadBack := by
  intro batch member index indexMember
  have keyMember : task.generator.docGen.key index ∈ task.keyValue batch.1 :=
    mem_keyValue.mpr ⟨index, indexMember, rfl⟩
  obtain ⟨expected, found⟩ := Option.isSome_iff_exists.mp (AList.lookup_isSome.mpr keyMember)
  have entryMember : ⟨task.generator.docGen.key index, expected⟩ ∈ (task.keyValue batch.1).entries :=
    AList.mem_lookup_iff.mp found
  obtain ⟨notLoud, notSkips⟩ := quiet batch member
  have equal : task.verdict batch.2 ⟨task.generator.docGen.key index, expected⟩ = .equal := by
    by_contra notEqual
    exact notLoud ⟨_, entryMember, notEqual, fun skipped => notSkips ⟨_, entryMember, skipped⟩⟩
  exact ⟨expected, found, readBack_of_equal docs equal⟩

/-! ## Sub-documents -/

/-- Something is raised while the batches are read. -/
def ReadRaises (task : ValidateDocumentsTask) : Prop :=
  ∃ batch ∈ task.generator.batches.zipIdx, ∃ key ∈ task.keyValue batch.1, ∃ className context,
    task.get batch.2 key = .error className none context

/-- No copies are asked for, and the server answers each read with the expected value. -/
def AnswersRight (task : ValidateDocumentsTask) : Prop :=
  ∀ batch ∈ task.generator.batches.zipIdx, ∀ entry ∈ (task.keyValue batch.1).entries,
    task.checkReplica = false ∧
      ∃ cas content, task.get batch.2 entry.1 = .found cas content ∧ SameValue entry.2 content

theorem getEntry_error_iff {outcome : GetOutcome} : (∃ raised, getEntry outcome = .error raised) ↔
    ∃ className context, outcome = .error className none context := by
  cases outcome with
  | found cas content => simp [getEntry]
  | error className message context =>
    cases message with
    | none => simp [getEntry]
    | some message => simp [getEntry]

/-- A batch of sub-documents raises only if a read does. -/
theorem validateSubDocs_ok_iff {state : ValidateState} {batch : List Int × Nat} :
    (∃ last, task.validateSubDocs state batch = .ok last) ↔
      ¬∃ key ∈ task.keyValue batch.1, ∃ className context, task.get batch.2 key = .error className none context := by
  cases first : (task.keyValue batch.1).keys.findSome? (raisedBy fun key => getEntry (task.get batch.2 key)) with
  | none =>
    simp only [validateSubDocs, foldlM_readKey_ok _ first]
    refine iff_of_true ⟨state, rfl⟩ ?_
    rintro ⟨key, member, raises⟩
    obtain ⟨raised, same⟩ := getEntry_error_iff.mpr raises
    have calm := List.findSome?_eq_none_iff.mp first key (AList.mem_keys.mp member)
    simp [raisedBy, same] at calm
  | some raised =>
    simp only [validateSubDocs, foldlM_readKey_error _ _ _ first]
    refine iff_of_false (by simp) (not_not.mpr ?_)
    obtain ⟨key, member, raises⟩ := List.exists_of_findSome?_eq_some first
    refine ⟨key, AList.mem_keys.mpr member, getEntry_error_iff.mp ⟨raised, ?_⟩⟩
    unfold raisedBy at raises
    cases outcome : getEntry (task.get batch.2 key) with
    | ok entry => simp [outcome] at raises
    | error other => simpa [outcome] using raises

theorem call_subDocs_ok_iff (subDocs : task.isSubDoc = true) :
    (∃ last, task.call = .ok last) ↔ ¬task.ReadRaises := by
  have validates : task.next = task.validateSubDocs := by
    funext state batch
    simp [next, subDocs]
  have each : ∀ state batch, True → ((∃ last, task.validateSubDocs state batch = .ok last) ↔
      ¬∃ key ∈ task.keyValue batch.1, ∃ className context,
        task.get batch.2 key = .error className none context) :=
    fun _ _ _ => validateSubDocs_ok_iff
  rw [call, GenericLoadingTask.call_eq_foldlM, List.flatten_singleton, validates,
    foldlM_returns_iff each (fun _ _ _ _ _ => trivial) trivial]
  simp only [ReadRaises, not_exists, not_and]

/-- With `is_sub_doc` everything has been read back only if the answers are right by themselves. -/
theorem allReadBack_subDocs_iff (subDocs : task.isSubDoc = true) : task.AllReadBack ↔ task.AnswersRight := by
  have back {number : Nat} {key : String} {expected : Option PyDict} : task.ReadBack number key expected ↔
      task.checkReplica = false ∧
        ∃ cas content, task.get number key = .found cas content ∧ SameValue expected content := by
    unfold ReadBack
    cases task.checkReplica with
    | true => simp [subDocs]
    | false => simp
  constructor
  · intro all batch member entry entryMember
    have keyMember : entry.1 ∈ task.keyValue batch.1 := AList.mem_keys.mpr (List.mem_map_of_mem entryMember)
    obtain ⟨index, indexMember, sameKey⟩ := mem_keyValue.mp keyMember
    obtain ⟨expected, found, right⟩ := all batch member index indexMember
    rw [sameKey, AList.mem_lookup_iff.mpr entryMember] at found
    cases found
    rw [sameKey] at right
    exact back.mp right
  · intro right batch member index indexMember
    have keyMember : task.generator.docGen.key index ∈ task.keyValue batch.1 :=
      mem_keyValue.mpr ⟨index, indexMember, rfl⟩
    obtain ⟨expected, found⟩ := Option.isSome_iff_exists.mp (AList.lookup_isSome.mpr keyMember)
    exact ⟨expected, found, back.mpr (right batch member ⟨_, expected⟩ (AList.mem_lookup_iff.mp found))⟩

end ValidateDocumentsTask

/-- A validation that ends without an exception has read everything back exactly when something
    was reported, or no batch kept its exception and no key was passed over; with `is_sub_doc`,
    when a read raises or the answers are right by themselves. -/
theorem validation_sound_iff (task : ValidateDocumentsTask) (notDelete : task.opType ≠ .doc .delete) :
    ((∃ last, task.call = .ok last) → task.AllReadBack) ↔
      if task.isSubDoc then task.ReadRaises ∨ task.AnswersRight
      else task.Reported task.generator.batches.zipIdx ∨
        ∀ batch ∈ task.generator.batches.zipIdx, ¬task.Stored batch ∧ ¬task.Skips batch := by
  cases docs : task.isSubDoc with
  | true =>
    rw [ValidateDocumentsTask.call_subDocs_ok_iff docs, ValidateDocumentsTask.allReadBack_subDocs_iff docs,
      if_pos rfl, ← or_iff_not_imp_left]
  | false =>
    rw [ValidateDocumentsTask.call_ok_iff docs notDelete, if_neg (by simp)]
    by_cases reported : task.Reported task.generator.batches.zipIdx
    · simp [reported]
    · simp only [reported, not_false_eq_true, true_implies, false_or]
      constructor
      · intro all batch member
        exact ⟨ValidateDocumentsTask.not_stored_of_allReadBack all member,
          ValidateDocumentsTask.not_skips_of_allReadBack all member⟩
      · intro silent
        refine ValidateDocumentsTask.allReadBack_of_quiet docs fun batch member =>
          ⟨?_, (silent batch member).2⟩
        intro loud
        obtain ⟨before, after, split⟩ := List.append_of_mem member
        exact reported ⟨before, batch, after, split, (silent batch member).1, .inl loud⟩

def oneDocument (answer : GetOutcome) : ValidateDocumentsTask where
  interp := ⟨false⟩
  opType := .doc .update
  generator :=
    { docGen :=
        { start := 0
          stop := 1
          key := fun _ => "doc-0"
          value := fun _ => some (AList.singleton "mutated" (.num 1))
          deepCopy := false }
      batchSize := 10
      positive := by decide }
  checkReplica := false
  replicas := 1
  nodes := 2
  get := fun _ _ => answer
  getFromAllReplicas := fun _ _ => .copies []
  render := fun _ => ""

theorem validation_sound_iff_found :
    (oneDocument (.found 7 (AList.singleton "mutated" (.str "1")))).opType ≠ .doc .delete ∧
      ((∃ last, (oneDocument (.found 7 (AList.singleton "mutated" (.str "1")))).call = .ok last) →
        (oneDocument (.found 7 (AList.singleton "mutated" (.str "1")))).AllReadBack) := by
  refine ⟨by decide, (validation_sound_iff _ (by decide)).mpr (.inr fun batch member => ⟨?_, ?_⟩)⟩
  · intro stored
    exact absurd stored.1 (by decide)
  · intro ⟨entry, entryMember, skipped⟩
    exact ValidateDocumentsTask.foundVerdict_ne_skipped _ _ skipped

/-- A read that times out is neither missing nor wrong, and nothing is raised. -/
theorem timed_out_read_passes :
    ¬∀ task : ValidateDocumentsTask, task.opType ≠ .doc .delete → (∃ last, task.call = .ok last) →
      task.AllReadBack := by
  intro sound
  let task := oneDocument (.error SDKException.timeout (some "timed out") "")
  have isOk : task.call.isOk = true := by decide +kernel
  have finished : ∃ last, task.call = .ok last := by
    cases outcome : task.call with
    | error e =>
      rw [outcome] at isOk
      cases isOk
    | ok last => exact ⟨last, rfl⟩
  have all := sound task (by decide) finished
  obtain ⟨expected, _, cas, content, found, _⟩ := all ([0], 0) (by decide +kernel) 0 (by decide)
  cases found

end Taf.Tasks
