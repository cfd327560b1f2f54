import Taf.Lib.Records
import Taf.Memcached.RequestFrames

/-! # The SYNC command

`_build_sync_payload` and `_parse_sync_response` of `lib/mc_bin_client.py`.  A response is a count and
then records of fixed fields with a key behind them; a payload is laid out in the same way, without an
event. -/

namespace Taf.Memcached

open Taf.Lib

/-! ## Responses -/

inductive SyncEvent where
  | name (text : String)
  | number (id : Nat)
  deriving DecidableEq

/-- An entry of the list that is returned -/
structure SyncSpec where
  cas : Nat
  vbucket : Nat
  key : Bytes
  event : SyncEvent
  deriving DecidableEq

/-- `>QHHB` -/
def syncFmt : List Nat := [8, 2, 2, 1]

/-- The chain of branches over the event id.  The last condition reads the entry of the dictionary that it
    is about to set. -/
def syncEvent (eventid : Nat) : Except PyError SyncEvent :=
  if eventid = 1 then .ok (.name "persisted")
  else if eventid = 2 then .ok (.name "modified")
  else if eventid = 3 then .ok (.name "deleted")
  else if eventid = 4 then .ok (.name "replicated")
  else if eventid = 5 then .ok (.name "invalid key")
  else .error .keyError

/-- One round of the loop: the entry and the next offset.  The fields have no padding between them in the
    native alignment that `struct.calcsize` counts with. -/
def syncRound (data : Bytes) (offset : Nat) : Except PyError (SyncSpec × Nat) :=
  let head := (data.drop offset).take syncFmt.sum
  if head.length ≠ syncFmt.sum then .error .structError
  else
    match unpack syncFmt head with
    | [cas, vbucket, keylen, eventid] => do
      let offset := offset + syncFmt.sum
      let key := (data.drop offset).take keylen
      let event ← syncEvent eventid
      pure (⟨cas, vbucket, key, event⟩, offset + keylen)
    | _ => .error .structError

def syncLoop (data : Bytes) : Nat → Nat → Except PyError (List SyncSpec)
  | 0, _ => .ok []
  | n + 1, offset => do
    let (spec, offset) ← syncRound data offset
    let keyspecs ← syncLoop data n offset
    pure (spec :: keyspecs)

def parseSyncResponse (data : Bytes) : Except PyError (List SyncSpec) :=
  if (data.take 2).length ≠ 2 then .error .structError else syncLoop data (beNat (data.take 2)) 2

/-- A record of a response -/
structure SyncRecord where
  cas : UInt64
  vbucket : UInt16
  key : Bytes
  event : UInt8
  short : key.length < 2 ^ 16

def SyncRecord.fields (record : SyncRecord) : List Nat :=
  [record.cas.toNat, record.vbucket.toNat, record.key.length, record.event.toNat]

def SyncRecord.encode (item : SyncRecord) : Bytes := record syncFmt item.fields ++ item.key

def encodeSyncResponse (records : List SyncRecord) : Bytes :=
  beBytes 2 records.length ++ records.flatMap SyncRecord.encode

/-- The name of an event id, or the id where it has none -/
def meantEvent (eventid : Nat) : SyncEvent :=
  match eventid with
  | 1 => .name "persisted"
  | 2 => .name "modified"
  | 3 => .name "deleted"
  | 4 => .name "replicated"
  | 5 => .name "invalid key"
  | 6 => .name "invalid cas"
  | _ => .number eventid

def SyncRecord.meant (record : SyncRecord) : SyncSpec :=
  ⟨record.cas.toNat, record.vbucket.toNat, record.key, meantEvent record.event.toNat⟩

theorem SyncRecord.fits (record : SyncRecord) : Fits syncFmt record.fields := by
  have cas : record.cas.toNat < 256 ^ 8 := record.cas.toNat_lt
  have vbucket : record.vbucket.toNat < 256 ^ 2 := record.vbucket.toNat_lt
  have event : record.event.toNat < 256 ^ 1 := record.event.toNat_lt
  exact .cons cas (.cons vbucket (.cons record.short (.cons event .nil)))

theorem syncEvent_iff {eventid : Nat} :
    syncEvent eventid = .ok (meantEvent eventid) ↔ 1 ≤ eventid ∧ eventid ≤ 5 := by
  unfold syncEvent
  split_ifs with persisted modified deleted replicated invalid
  · simp [persisted, meantEvent]
  · simp [modified, meantEvent]
  · simp [deleted, meantEvent]
  · simp [replicated, meantEvent]
  · simp [invalid, meantEvent]
  · refine iff_of_false (by simp) ?_
    omega

theorem syncRound_encode {data rest : Bytes} {offset : Nat} (item : SyncRecord)
    (here : data.drop offset = item.encode ++ rest) :
    syncRound data offset = (syncEvent item.event.toNat).map fun event =>
      (⟨item.cas.toNat, item.vbucket.toNat, item.key, event⟩, offset + item.encode.length) := by
  have length := length_record item.fits
  have front : (item.encode ++ rest).take syncFmt.sum = record syncFmt item.fields := by
    rw [SyncRecord.encode, List.append_assoc, ← length, List.take_left]
  have behind : (item.encode ++ rest).drop syncFmt.sum = item.key ++ rest := by
    rw [SyncRecord.encode, List.append_assoc, ← length, List.drop_left]
  have fields := unpack_record item.fits []
  rw [List.append_nil] at fields
  have advance : item.encode.length = syncFmt.sum + item.key.length := by
    rw [SyncRecord.encode, List.length_append, length]
  -- The key is cut from the whole response, at the offset behind the fields.
  have key : (data.drop (offset + syncFmt.sum)).take item.key.length = item.key := by
    rw [← List.drop_drop, here, behind, List.take_left]
  rw [syncRound, here, front, if_neg (by simp [length]), fields, advance, ← Nat.add_assoc]
  simp only [SyncRecord.fields, key]
  cases syncEvent item.event.toNat <;> rfl

theorem syncLoop_encode_iff {records : List SyncRecord} {data : Bytes} {offset : Nat}
    (here : data.drop offset = records.flatMap SyncRecord.encode) :
    syncLoop data records.length offset = .ok (records.map SyncRecord.meant) ↔
      ∀ record ∈ records, 1 ≤ record.event.toNat ∧ record.event.toNat ≤ 5 := by
  induction records generalizing offset with
  | nil => simp [syncLoop]
  | cons record records ih =>
    rw [List.flatMap_cons] at here
    -- Where one record ends the others begin, and the loop knows the place by its offset only.
    have next : data.drop (offset + record.encode.length) = records.flatMap SyncRecord.encode := by
      rw [← List.drop_drop, here, List.drop_left]
    rw [List.length_cons, syncLoop, syncRound_encode record here, List.forall_mem_cons, ← ih next,
      ← syncEvent_iff]
    cases event : syncEvent record.event.toNat with
    | error error => simp [Except.map, bind, Except.bind]
    | ok event =>
      cases rest : syncLoop data records.length (offset + record.encode.length) with
      | error error => simp [Except.map, bind, Except.bind, rest]
      | ok specs => simp [Except.map, bind, Except.bind, rest, pure, Except.pure, SyncRecord.meant]

theorem parseSyncResponse_encode_iff {records : List SyncRecord} (count : records.length < 2 ^ 16) :
    parseSyncResponse (encodeSyncResponse records) = .ok (records.map SyncRecord.meant) ↔
      ∀ record ∈ records, 1 ≤ record.event.toNat ∧ record.event.toNat ≤ 5 := by
  have front : (encodeSyncResponse records).take 2 = beBytes 2 records.length := by
    simp [encodeSyncResponse]
  have behind : (encodeSyncResponse records).drop 2 = records.flatMap SyncRecord.encode := by
    simp [encodeSyncResponse]
  have number : beNat (beBytes 2 records.length) = records.length := by
    rw [beNat_beBytes]
    exact Nat.mod_eq_of_lt count
  rw [parseSyncResponse, front, if_neg (by simp), number]
  exact syncLoop_encode_iff behind

/-! ## Payloads -/

inductive SyncRaised where
  | typeError (text : String)
  | python (error : PyError)
  deriving DecidableEq

/-- An element of the list `keyspecs` -/
inductive KeySpecArg where
  | notDict
  | dict (cas : Option UInt64) (vbucket : Option UInt16) (key : Option PyText)

/-- One round of the loop of `_build_sync_payload` -/
def payloadRound (python : Python) (payload : PyText) : KeySpecArg → Except SyncRaised PyText
  | .notDict => .error (.typeError "each keyspec must be a dict")
  | .dict _ none _ => .error (.typeError "missing vbucket property in keyspec")
  | .dict _ (some _) none => .error (.typeError "missing key property in keyspec")
  | .dict cas (some vbucket) (some key) => (do
    let field ← packExtras [8] [(cas.getD 0).toNat]
    let payload ← PyText.add python payload field
    let field ← packExtras [2] [vbucket.toNat]
    let payload ← PyText.add python payload field
    let field ← packExtras [2] [key.len]
    let payload ← PyText.add python payload field
    PyText.add python payload key).mapError .python

def buildSyncPayload (python : Python) (flags : UInt32) (keyspecs : List KeySpecArg) :
    Except SyncRaised PyText := do
  let payload ← (do
    let flags ← packExtras [4] [flags.toNat]
    let count ← packExtras [2] [keyspecs.length]
    PyText.add python flags count).mapError SyncRaised.python
  keyspecs.foldlM (payloadRound python) payload

/-- A dictionary with the properties that are asked for -/
structure KeySpec where
  cas : Option UInt64
  vbucket : UInt16
  key : PyText

def KeySpec.arg (spec : KeySpec) : KeySpecArg := .dict spec.cas (some spec.vbucket) (some spec.key)

/-- The fields in front of a key -/
def keySpecFmt : List Nat := [8, 2, 2]

def KeySpec.fields (spec : KeySpec) (keylen : Nat) : List Nat :=
  [(spec.cas.getD 0).toNat, spec.vbucket.toNat, keylen]

/-- A spec as it is laid out, with the length of its key in bytes -/
def KeySpec.encode (spec : KeySpec) : Bytes :=
  record keySpecFmt (spec.fields spec.key.wire.length) ++ spec.key.wire

def encodeSyncPayload (flags : UInt32) (specs : List KeySpec) : Bytes :=
  record [4, 2] [flags.toNat, specs.length] ++ specs.flatMap KeySpec.encode

/-- The spec at the front of a payload: cas, vbucket and key, and what comes behind it -/
def readKeySpec (stream : Bytes) : Option ((Nat × Nat × Bytes) × Bytes) :=
  match unpack keySpecFmt stream with
  | [cas, vbucket, keylen] =>
    let rest := stream.drop keySpecFmt.sum
    if stream.length < keySpecFmt.sum + keylen then none
    else some ((cas, vbucket, rest.take keylen), rest.drop keylen)
  | _ => none

def KeySpec.ReadAs (spec : KeySpec) (read : Nat × Nat × Bytes) : Prop :=
  read = ((spec.cas.getD 0).toNat, spec.vbucket.toNat, spec.key.wire)

/-- A payload is built, and flags, count and specs can be read back from it. -/
def SyncReadsBack (python : Python) (flags : UInt32) (specs : List KeySpec) : Prop :=
  ∃ payload, buildSyncPayload python flags (specs.map KeySpec.arg) = .ok payload ∧
    unpack [4, 2] payload.wire = [flags.toNat, specs.length] ∧
    Decodes readKeySpec KeySpec.ReadAs (payload.wire.drop 6) specs

/-! ## What is joined -/

/-- The texts that a round adds to the payload -/
def KeySpec.parts (spec : KeySpec) : List PyText :=
  [.bytes (beBytes 8 (spec.cas.getD 0).toNat), .bytes (beBytes 2 spec.vbucket.toNat),
    .bytes (beBytes 2 spec.key.len), spec.key]

theorem packExtras_single_eq_ok {width value : Nat} {field : PyText} :
    packExtras [width] [value] = .ok field ↔ value < 256 ^ width ∧ field = .bytes (beBytes width value) := by
  by_cases fits : value < 256 ^ width
  · rw [packExtras_of_fits (.cons fits .nil)]
    simp [fits, record, eq_comm]
  · have unfit : ¬ Fits [width] [value] := fun (.cons fits' _) => fits fits'
    rw [packExtras, pack, if_neg unfit]
    simp [fits]

theorem payloadRound_eq_ok {python : Python} {payload next : PyText} {spec : KeySpec} :
    payloadRound python payload spec.arg = .ok next ↔
      spec.key.len < 2 ^ 16 ∧ spec.parts.foldlM (PyText.add python) payload = .ok next := by
  have cas : (spec.cas.getD 0).toNat < 256 ^ 8 := (spec.cas.getD 0).toNat_lt
  have vbucket : spec.vbucket.toNat < 256 ^ 2 := spec.vbucket.toNat_lt
  simp only [payloadRound, KeySpec.arg, mapError_eq_ok, KeySpec.parts, List.foldlM_cons, List.foldlM_nil,
    bind_eq_ok, packExtras_single_eq_ok, cas, vbucket]
  constructor
  · rintro ⟨_, ⟨-, rfl⟩, first, added, _, ⟨-, rfl⟩, second, added', _, ⟨short, rfl⟩, third, added'', last⟩
    exact ⟨short, first, added, second, added', third, added'', next, last, rfl⟩
  · rintro ⟨short, first, added, second, added', third, added'', _, last, returned⟩
    cases returned
    exact ⟨_, ⟨trivial, rfl⟩, first, added, _, ⟨trivial, rfl⟩, second, added', _, ⟨short, rfl⟩, third, added'', last⟩

theorem payloadLoop_eq_ok {python : Python} {specs : List KeySpec} {payload last : PyText} :
    (specs.map KeySpec.arg).foldlM (payloadRound python) payload = .ok last ↔
      (∀ spec ∈ specs, spec.key.len < 2 ^ 16) ∧
        (specs.flatMap KeySpec.parts).foldlM (PyText.add python) payload = .ok last := by
  induction specs generalizing payload with
  | nil => simp [pure, Except.pure]
  | cons spec specs ih =>
    rw [List.map_cons, List.foldlM_cons, bind_eq_ok, List.flatMap_cons, List.foldlM_append, List.forall_mem_cons]
    simp only [payloadRound_eq_ok, ih, bind_eq_ok]
    grind

/-- The payload is built exactly if the counts fit and the parts can be joined. -/
theorem buildSyncPayload_eq_ok {python : Python} {flags : UInt32} {specs : List KeySpec} {payload : PyText} :
    buildSyncPayload python flags (specs.map KeySpec.arg) = .ok payload ↔
      specs.length < 2 ^ 16 ∧ (∀ spec ∈ specs, spec.key.len < 2 ^ 16) ∧
        (specs.flatMap KeySpec.parts).foldlM (PyText.add python)
          (.bytes (record [4, 2] [flags.toNat, specs.length])) = .ok payload := by
  have small : flags.toNat < 256 ^ 4 := flags.toNat_lt
  rw [buildSyncPayload, bind_eq_ok]
  simp only [mapError_eq_ok, bind_eq_ok, packExtras_single_eq_ok, payloadLoop_eq_ok, List.length_map]
  have header : record [4, 2] [flags.toNat, specs.length] = beBytes 4 flags.toNat ++ beBytes 2 specs.length := by
    simp [record]
  rw [header]
  constructor
  · rintro ⟨_, ⟨_, ⟨-, rfl⟩, _, ⟨count, rfl⟩, joined⟩, short, folded⟩
    rw [PyText.add_bytes] at joined
    cases joined
    exact ⟨count, short, folded⟩
  · intro ⟨count, short, folded⟩
    exact ⟨_, ⟨_, ⟨small, rfl⟩, _, ⟨count, rfl⟩, PyText.add_bytes ..⟩, short, folded⟩

/-! ## What is read back -/

theorem KeySpec.fits {spec : KeySpec} {keylen : Nat} (short : keylen < 2 ^ 16) : Fits keySpecFmt (spec.fields keylen) := by
  have cas : (spec.cas.getD 0).toNat < 256 ^ 8 := (spec.cas.getD 0).toNat_lt
  have vbucket : spec.vbucket.toNat < 256 ^ 2 := spec.vbucket.toNat_lt
  exact .cons cas (.cons vbucket (.cons short .nil))

theorem wire_parts (spec : KeySpec) :
    spec.parts.flatMap PyText.wire = record keySpecFmt (spec.fields spec.key.len) ++ spec.key.wire := by
  simp [KeySpec.parts, PyText.wire, record, keySpecFmt, KeySpec.fields]

/-- A reader takes as much of the key as its length says. -/
theorem readKeySpec_record {spec : KeySpec} {keylen : Nat} (short : keylen < 2 ^ 16)
    (enough : keylen ≤ spec.key.wire.length) (rest : Bytes) :
    readKeySpec (record keySpecFmt (spec.fields keylen) ++ (spec.key.wire ++ rest)) =
      some (((spec.cas.getD 0).toNat, spec.vbucket.toNat, spec.key.wire.take keylen),
        spec.key.wire.drop keylen ++ rest) := by
  have fits := @KeySpec.fits spec keylen short
  have length := length_record fits
  have whole : ¬ (record keySpecFmt (spec.fields keylen) ++ (spec.key.wire ++ rest)).length <
      keySpecFmt.sum + keylen := by
    rw [List.length_append, List.length_append, length]
    omega
  rw [readKeySpec, unpack_record fits]
  refine (if_neg whole).trans ?_
  rw [← length, List.drop_left, List.take_append_of_le_length enough, List.drop_append_of_le_length enough]

/-- The specs are read back exactly if the length of every key counts its bytes. -/
theorem decodes_parts_iff {specs : List KeySpec} (short : ∀ spec ∈ specs, spec.key.len < 2 ^ 16) :
    Decodes readKeySpec KeySpec.ReadAs ((specs.flatMap KeySpec.parts).flatMap PyText.wire) specs ↔
      ∀ spec ∈ specs, spec.key.wire.length = spec.key.len := by
  induction specs with
  | nil => simp [Decodes]
  | cons spec specs ih =>
    rw [List.forall_mem_cons] at short
    have enough := spec.key.len_le_length_wire
    rw [List.flatMap_cons, List.flatMap_append, wire_parts, List.append_assoc, List.forall_mem_cons, ← ih short.2]
    rw [decodes_cons_iff (readKeySpec_record short.1 enough _)]
    have taken : KeySpec.ReadAs spec ((spec.cas.getD 0).toNat, spec.vbucket.toNat, spec.key.wire.take spec.key.len) ↔
        spec.key.wire.length = spec.key.len := by
      simp only [KeySpec.ReadAs, Prod.mk.injEq, true_and, List.take_eq_self_iff]
      omega
    rw [taken]
    refine and_congr_right fun same => ?_
    rw [← same, List.drop_length, List.nil_append]

/-! ## Which lists of specs make the round trip -/

theorem isBytes_parts_iff {specs : List KeySpec} :
    (∀ part ∈ specs.flatMap KeySpec.parts, part.IsBytes) ↔ ∀ spec ∈ specs, spec.key.IsBytes := by
  have each : ∀ spec : KeySpec, (∀ part ∈ spec.parts, part.IsBytes) ↔ spec.key.IsBytes := by
    intro spec
    simp [KeySpec.parts, PyText.IsBytes]
  simp only [List.mem_flatMap, forall_exists_index, and_imp, ← each]
  exact ⟨fun all spec member part inside => all part spec member inside,
    fun all part spec member inside => all spec member part inside⟩

theorem asciiBytes_iff_wire {text : PyText} (same : text.wire.length = text.len) :
    AsciiBytes text.wire ↔ ∀ content, text = .bytes content → AsciiBytes content := by
  cases text with
  | bytes content => simp [PyText.wire]
  | unicode content => simp [PyText.wire, asciiBytes_utf8_iff, (length_utf8_eq_iff content).mp same]

/-- Where lengths count bytes, the byte strings of the specs are ASCII exactly if all of their layout is. -/
theorem asciiParts_iff {specs : List KeySpec} (counted : ∀ spec ∈ specs, spec.key.wire.length = spec.key.len) :
    PyText.AsciiParts (specs.flatMap KeySpec.parts) ↔ AsciiBytes (specs.flatMap KeySpec.encode) := by
  induction specs with
  | nil => simp [PyText.AsciiParts, AsciiBytes]
  | cons spec specs ih =>
    rw [List.forall_mem_cons] at counted
    have key := asciiBytes_iff_wire counted.1
    have split : ∀ first second : Bytes, AsciiBytes (first ++ second) ↔ AsciiBytes first ∧ AsciiBytes second :=
      fun _ _ => List.forall_mem_append
    have header : record keySpecFmt (spec.fields spec.key.len) = beBytes 8 (spec.cas.getD 0).toNat ++
        (beBytes 2 spec.vbucket.toNat ++ beBytes 2 spec.key.len) := by simp [record, keySpecFmt, KeySpec.fields]
    rw [List.flatMap_cons, List.flatMap_cons, split, ← ih counted.2, KeySpec.encode, counted.1, header, split, split,
      split, key]
    -- The three packed fields are byte strings already, and the key is one or is ASCII.
    simp only [PyText.AsciiParts, KeySpec.parts, List.mem_append, List.mem_cons, List.not_mem_nil, or_false,
      PyText.bytes.injEq]
    grind

theorem counted_of_isBytes {key : PyText} (isBytes : key.IsBytes) : key.wire.length = key.len := by
  obtain ⟨content, rfl⟩ := isBytes
  rfl

theorem counted_of_ascii {key : PyText} (ascii : AsciiBytes key.wire) : key.wire.length = key.len := by
  cases key with
  | bytes content => rfl
  | unicode content => exact (length_utf8_eq_iff content).mpr (asciiBytes_utf8_iff.mp ascii)

/-- A payload can be read back exactly if it is built and the length of every key counts its bytes. -/
theorem syncReadsBack_iff_built {python : Python} {flags : UInt32} {specs : List KeySpec} :
    SyncReadsBack python flags specs ↔
      (∃ payload, buildSyncPayload python flags (specs.map KeySpec.arg) = .ok payload) ∧
        ∀ spec ∈ specs, spec.key.wire.length = spec.key.len := by
  have small : flags.toNat < 256 ^ 4 := flags.toNat_lt
  have parts : ∀ {payload}, buildSyncPayload python flags (specs.map KeySpec.arg) = .ok payload →
      unpack [4, 2] payload.wire = [flags.toNat, specs.length] ∧
        (Decodes readKeySpec KeySpec.ReadAs (payload.wire.drop 6) specs ↔
          ∀ spec ∈ specs, spec.key.wire.length = spec.key.len) := by
    intro payload built
    obtain ⟨count, short, folded⟩ := buildSyncPayload_eq_ok.mp built
    have fits : Fits [4, 2] [flags.toNat, specs.length] := .cons small (.cons count .nil)
    have length : (record [4, 2] [flags.toNat, specs.length]).length = 6 := length_record fits
    rw [PyText.foldlM_add_wire folded, PyText.wire, unpack_record fits, ← length, List.drop_left]
    exact ⟨rfl, decodes_parts_iff short⟩
  constructor
  · intro reads
    obtain ⟨payload, built, _, decodes⟩ := reads
    exact ⟨⟨payload, built⟩, (parts built).2.mp decodes⟩
  · intro built
    obtain ⟨⟨payload, built⟩, counted⟩ := built
    exact ⟨payload, built, (parts built).1, (parts built).2.mpr counted⟩

/-- So it is if the counts fit and the keys are byte strings; in Python 2 a unicode key does as well where
    every byte of the payload is ASCII. -/
theorem syncReadsBack_iff {python : Python} {flags : UInt32} {specs : List KeySpec} :
    SyncReadsBack python flags specs ↔ specs.length < 2 ^ 16 ∧ (∀ spec ∈ specs, spec.key.len < 2 ^ 16) ∧
      ((∀ spec ∈ specs, spec.key.IsBytes) ∨ python = .two ∧ AsciiBytes (encodeSyncPayload flags specs)) := by
  have built : (∃ payload, buildSyncPayload python flags (specs.map KeySpec.arg) = .ok payload) ↔
      specs.length < 2 ^ 16 ∧ (∀ spec ∈ specs, spec.key.len < 2 ^ 16) ∧
        ∃ payload, (specs.flatMap KeySpec.parts).foldlM (PyText.add python)
          (.bytes (record [4, 2] [flags.toNat, specs.length])) = .ok payload := by
    simp only [buildSyncPayload_eq_ok, exists_and_left]
  have whole : AsciiBytes (encodeSyncPayload flags specs) ↔
      AsciiBytes (record [4, 2] [flags.toNat, specs.length]) ∧ AsciiBytes (specs.flatMap KeySpec.encode) :=
    List.forall_mem_append
  have counted : (∀ spec ∈ specs, spec.key.IsBytes) ∨ AsciiBytes (encodeSyncPayload flags specs) →
      ∀ spec ∈ specs, spec.key.wire.length = spec.key.len := by
    intro either spec member
    cases either with
    | inl isBytes => exact counted_of_isBytes (isBytes spec member)
    | inr ascii =>
      refine counted_of_ascii fun byte inside => (whole.mp ascii).2 byte ?_
      exact List.mem_flatMap.mpr ⟨spec, member, List.mem_append_right _ inside⟩
  rw [syncReadsBack_iff_built, built]
  cases python with
  | two =>
    rw [PyText.foldlM_add_two, isBytes_parts_iff]
    constructor
    · intro ⟨⟨count, short, joins⟩, counted⟩
      rw [asciiParts_iff counted, ← whole] at joins
      exact ⟨count, short, joins.imp_right fun ascii => ⟨rfl, ascii⟩⟩
    · intro ⟨count, short, joins⟩
      have counts := counted (joins.imp_right And.right)
      rw [asciiParts_iff counts, ← whole]
      exact ⟨⟨count, short, joins.imp_right And.right⟩, counts⟩
  | three =>
    rw [PyText.foldlM_add_three, isBytes_parts_iff]
    constructor
    · intro ⟨⟨count, short, isBytes⟩, _⟩
      exact ⟨count, short, .inl isBytes⟩
    · intro ⟨count, short, joins⟩
      have isBytes := joins.resolve_right fun ⟨impossible, _⟩ => nomatch impossible
      exact ⟨⟨count, short, isBytes⟩, counted (.inl isBytes)⟩

/-- Both directions: every response whose event ids have names of their own, up to 5, and every payload that
    can be put together. -/
theorem sync_codec_iff (python : Python) (records : List SyncRecord) (count : records.length < 2 ^ 16)
    (flags : UInt32) (specs : List KeySpec) :
    (parseSyncResponse (encodeSyncResponse records) = .ok (records.map SyncRecord.meant) ↔
      ∀ record ∈ records, 1 ≤ record.event.toNat ∧ record.event.toNat ≤ 5) ∧
    (SyncReadsBack python flags specs ↔ specs.length < 2 ^ 16 ∧ (∀ spec ∈ specs, spec.key.len < 2 ^ 16) ∧
      ((∀ spec ∈ specs, spec.key.IsBytes) ∨ python = .two ∧ AsciiBytes (encodeSyncPayload flags specs))) :=
  ⟨parseSyncResponse_encode_iff count, syncReadsBack_iff⟩

theorem sync_codec_two_events :
    parseSyncResponse (encodeSyncResponse [⟨7, 0, [], 1, Nat.two_pow_pos 16⟩, ⟨8, 1, [107], 2, by decide⟩]) =
      .ok [⟨7, 0, [], .name "persisted"⟩, ⟨8, 1, [107], .name "modified"⟩] := by
  have two : ([⟨7, 0, [], 1, Nat.two_pow_pos 16⟩, ⟨8, 1, [107], 2, by decide⟩] : List SyncRecord).length < 2 ^ 16 := by
    decide
  refine (sync_codec_iff .two _ two 0 []).1.mpr ?_
  simp

/-- An event id of 6 is a `KeyError`, and so is one that has no name. -/
theorem invalid_cas_raises :
    parseSyncResponse (encodeSyncResponse [⟨7, 0, [], 6, Nat.two_pow_pos 16⟩]) ≠
      .ok [⟨7, 0, [], .name "invalid cas"⟩] := by
  decide +kernel

end Taf.Memcached
