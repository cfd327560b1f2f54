import Mathlib
import Taf.Memcached.Requests

/-! # Which requests address what the caller asked for

Over the key operations of `Taf.Memcached.Requests`: the request that the arguments of an operation
stand for, and the exact condition under which the bytes that are sent are the frame of that
request for a collection given by its id. -/

namespace Taf.Memcached

open Taf.Lib

/-- The key operations that take a `vbucket`, with their other arguments. -/
inductive KeyOp where
  | append (value : PyText) (cas : UInt64)
  | prepend (value : PyText) (cas : UInt64)
  | incr (amt init : UInt64) (exp : UInt32)
  | decr (amt init : UInt64) (exp : UInt32)
  | set (exp flags : UInt32) (val : PyText)
  | add (exp flags : UInt32) (val : PyText)
  | replace (exp flags : UInt32) (val : PyText)
  | get
  | sendGet
  | getl (exp : UInt32)
  | getr
  | touch (exp : UInt32)
  | gat (exp : UInt32)
  | cas (exp flags : UInt32) (oldVal : UInt64) (val : PyText)
  | delete (cas : UInt64)
  | evictKey
  | getSd (path : PyText) (cas : UInt64)
  | existsSd (path : PyText) (opaqueNumber : UInt32) (cas : UInt64)
  | deleteSd (path : PyText) (opaqueNumber : UInt32) (cas : UInt64)
  | dictAddSd (args : SdArgs)
  | dictUpsertSd (args : SdArgs)
  | replaceSd (args : SdArgs)
  | arrayPushLastSd (args : SdArgs)
  | arrayPushFirstSd (args : SdArgs)
  | arrayAddInsertSd (args : SdArgs)
  | arrayAddUniqueSd (args : SdArgs)
  | counterSd (args : SdArgs)
  | multiMutationSd (cmdDict : List (String × MultiSpec)) (expiry opaqueNumber : UInt32)
    (cas : UInt64) (create : Bool)
  | multiLookupSd (path : PyText) (expiry opaqueNumber : UInt32) (cas : UInt64) (create : Bool)

def KeyOp.call (python : Python) (client : Client) (draw : Nat) (key : PyText) (target : Target) :
    KeyOp → Except PyError PyText
  | append value casNumber => Memcached.append python client draw key value casNumber target
  | prepend value casNumber => Memcached.prepend python client draw key value casNumber target
  | incr amt init exp => Memcached.incr python client draw key amt init exp target
  | decr amt init exp => Memcached.decr python client draw key amt init exp target
  | set exp flags val => Memcached.set python client draw key exp flags val target
  | add exp flags val => Memcached.add python client draw key exp flags val target
  | replace exp flags val => Memcached.replace python client draw key exp flags val target
  | get => Memcached.get python client draw key target
  | sendGet => Memcached.sendGet python client draw key target
  | getl exp => Memcached.getl python client draw key exp target
  | getr => Memcached.getr python client draw key target
  | touch exp => Memcached.touch python client draw key exp target
  | gat exp => Memcached.gat python client draw key exp target
  | cas exp flags oldVal val => Memcached.cas python client draw key exp flags oldVal val target
  | delete casNumber => Memcached.delete python client draw key casNumber target
  | evictKey => Memcached.evictKey python client draw key target
  | getSd path casNumber => Memcached.getSd python client draw key path casNumber target
  | existsSd path opaqueNumber casNumber =>
    Memcached.existsSd python client draw key path opaqueNumber casNumber target
  | deleteSd path opaqueNumber casNumber =>
    Memcached.deleteSd python client draw key path opaqueNumber casNumber target
  | dictAddSd args => Memcached.dictAddSd python client draw key args target
  | dictUpsertSd args => Memcached.dictUpsertSd python client draw key args target
  | replaceSd args => Memcached.replaceSd python client draw key args target
  | arrayPushLastSd args => Memcached.arrayPushLastSd python client draw key args target
  | arrayPushFirstSd args => Memcached.arrayPushFirstSd python client draw key args target
  | arrayAddInsertSd args => Memcached.arrayAddInsertSd python client draw key args target
  | arrayAddUniqueSd args => Memcached.arrayAddUniqueSd python client draw key args target
  | counterSd args => Memcached.counterSd python client draw key args target
  | multiMutationSd cmdDict expiry opaqueNumber casNumber create =>
    Memcached.multiMutationSd python client draw key cmdDict expiry opaqueNumber casNumber create target
  | multiLookupSd path expiry opaqueNumber casNumber create =>
    Memcached.multiLookupSd python client draw key path expiry opaqueNumber casNumber create target

/-! ## The request that is meant -/

structure Request where
  cmd : Nat
  extras : Bytes
  value : Bytes
  cas : Nat

def SdValue.wire : SdValue → Bytes
  | int number => utf8 (toString number).toList
  | text content => content.wire

/-- Path length and flags, and the expiry if there is one; the value is the path and then the
    operand. -/
def sdRequest (cmd : Nat) (path : PyText) (value : Option SdValue) (expiry : UInt32) (cas : UInt64)
    (create : Bool) : Request where
  cmd := cmd
  extras :=
    record (sdExtras path.wire.length create expiry.toNat).1
      (sdExtras path.wire.length create expiry.toNat).2
  value := path.wire ++ (value.map SdValue.wire).getD []
  cas := cas.toNat

def MultiValue.wire : MultiValue → Bytes
  | text content => 0x22 :: content.wire ++ [0x22]
  | int number => utf8 (toString number).toList
  | bool truth => utf8 (if truth then "true" else "false").toList
  | other _ => []

def MultiSpec.wire (name : String) (spec : MultiSpec) : Bytes :=
  record [1, 1, 2, 4] [(multiCommand name).getD 0, if spec.createParents then 1 else 0,
    spec.path.wire.length, spec.value.wire.length] ++ spec.path.wire ++ spec.value.wire

def KeyOp.request : KeyOp → Request
  | append value casNumber => ⟨0x0e, [], value.wire, casNumber.toNat⟩
  | prepend value casNumber => ⟨0x0f, [], value.wire, casNumber.toNat⟩
  | incr amt init exp => ⟨5, record [8, 8, 4] [amt.toNat, init.toNat, exp.toNat], [], 0⟩
  | decr amt init exp => ⟨6, record [8, 8, 4] [amt.toNat, init.toNat, exp.toNat], [], 0⟩
  | set exp flags val => ⟨1, record [4, 4] [flags.toNat, exp.toNat], val.wire, 0⟩
  | add exp flags val => ⟨2, record [4, 4] [flags.toNat, exp.toNat], val.wire, 0⟩
  | replace exp flags val => ⟨3, record [4, 4] [flags.toNat, exp.toNat], val.wire, 0⟩
  | get => ⟨0, [], [], 0⟩
  | sendGet => ⟨0, [], [], 0⟩
  | getl exp => ⟨0x94, record [4] [exp.toNat], [], 0⟩
  | getr => ⟨0x83, [], [], 0⟩
  | touch exp => ⟨0x1c, record [4] [exp.toNat], [], 0⟩
  | gat exp => ⟨0x1d, record [4] [exp.toNat], [], 0⟩
  | cas exp flags oldVal val =>
    ⟨1, record [4, 4] [flags.toNat, exp.toNat], val.wire, oldVal.toNat⟩
  | delete casNumber => ⟨4, [], [], casNumber.toNat⟩
  | evictKey => ⟨0x93, [], [], 0⟩
  | getSd path casNumber => sdRequest 0xc5 path none 0 casNumber false
  | existsSd path _ casNumber => sdRequest 0xc6 path none 0 casNumber false
  | deleteSd path _ casNumber => sdRequest 0xc9 path none 0 casNumber false
  | dictAddSd args => sdRequest 0xc7 args.path args.value args.expiry args.cas args.create
  | dictUpsertSd args => sdRequest 0xc8 args.path args.value args.expiry args.cas args.create
  | replaceSd args => sdRequest 0xca args.path args.value args.expiry args.cas args.create
  | arrayPushLastSd args => sdRequest 0xcb args.path args.value args.expiry args.cas args.create
  | arrayPushFirstSd args => sdRequest 0xcc args.path args.value args.expiry args.cas args.create
  | arrayAddInsertSd args => sdRequest 0xcd args.path args.value args.expiry args.cas args.create
  | arrayAddUniqueSd args => sdRequest 0xce args.path args.value args.expiry args.cas args.create
  | counterSd args => sdRequest 0xcf args.path args.value args.expiry args.cas args.create
  -- A multi mutation has its paths in the value and an expiry, if any, in the extras.
  | multiMutationSd cmdDict expiry _ casNumber _ =>
    ⟨0xd1, if expiry = 0 then [] else record [4] [expiry.toNat],
      cmdDict.flatMap fun entry => entry.2.wire entry.1, casNumber.toNat⟩
  | multiLookupSd path expiry _ casNumber create => sdRequest 0xd0 path none expiry casNumber create

/-- The vbucket that is asked for: the argument, or the hash of the key where it is negative. -/
def Client.meantVbucket (client : Client) (key : PyText) (vbucket : Int) : Nat :=
  if vbucket < 0 then client.hashVbucket key.wire else vbucket.toNat

/-- The header fields of a request for a key of the collection `number`. -/
def frameFields (vbucket number : Nat) (key : PyText) (request : Request) (opaqueNumber : Nat) :
    List Nat :=
  [reqMagicByte, request.cmd, (leb128 number ++ key.wire).length, request.extras.length, 0, vbucket,
    (request.extras ++ (leb128 number ++ key.wire) ++ request.value).length, opaqueNumber,
    request.cas]

/-- Some opaque aside, the bytes are the frame of the request. -/
def Carries (sent : Except PyError PyText) (vbucket number : Nat) (key : PyText)
    (request : Request) : Prop :=
  ∃ opaqueNumber, Fits pktFmt (frameFields vbucket number key request opaqueNumber) ∧
    sent = .ok (.bytes (record pktFmt (frameFields vbucket number key request opaqueNumber) ++
      (request.extras ++ (leb128 number ++ key.wire) ++ request.value)))

/-- The operation, called with a collection id, sends the frame of its request. -/
def Addresses (python : Python) (client : Client) (draw : Nat) (op : KeyOp) (key : PyText)
    (vbucket : Int) (scope : Option String) (number : Nat) : Prop :=
  Carries (op.call python client draw key ⟨vbucket, scope, some (.id number)⟩)
    (client.meantVbucket key vbucket) number key op.request

/-! ## One frame

The parts of a packet are at most as long in Python as on the wire; the three length fields of the
header leave no room, so that a packet that is the frame of a request has the parts of it. -/

/-- A message as `_sendCmd` and `_doMultiSdCmd` build it. -/
structure Message.Bare (python : Python) (message : Message) : Prop where
  extended : message.extendedMetaData = .str python ""
  length : message.extraHeaderLength = none

theorem str_empty (python : Python) :
    (PyText.str python "").Plain python ∧ (PyText.str python "").wire = [] := by
  cases python <;> simp [PyText.str, PyText.Plain, PyText.wire, AsciiBytes, AsciiChars]

theorem carries_sendMsg_iff {python : Python} {client : Client} {message : Message}
    (bare : message.Bare python) {vbucket number : Nat} {key : PyText} {request : Request} :
    Carries (sendMsg python client message) vbucket number key request ↔
      (message.cmd = request.cmd ∧ message.vbucketId = vbucket ∧ message.cas = some request.cas) ∧
      (∃ extra, message.extraHeader = some extra ∧ extra.Plain python ∧
        extra.wire = request.extras) ∧
      (message.val.Plain python ∧ message.val.wire = request.value) ∧
      (∃ sentKey, prefixedKey python client message = .ok sentKey ∧ sentKey.Plain python ∧
        sentKey.wire = leb128 number ++ key.wire) ∧
      Fits pktFmt (frameFields vbucket number key request message.opaqueNumber) := by
  obtain ⟨emptyPlain, emptyWire⟩ := str_empty python
  obtain ⟨emptyEncodes, emptyLength⟩ := PyText.plain_iff.mp emptyPlain
  rw [emptyWire] at emptyLength
  constructor
  · rintro ⟨opaqueNumber, expected, sent⟩
    obtain ⟨sentKey, extra, cas, prefixed, hasExtra, hasCas, fits, keyEncodes, extraEncodes,
      valEncodes, -, packet⟩ := sendMsg_eq_ok.mp sent
    obtain ⟨fields, bodies⟩ := record_append_inj expected fits (PyText.bytes.inj packet)
    simp only [frameFields, headerFields, bare.length, bare.extended, Option.getD_none,
      List.cons.injEq, and_true, true_and] at fields
    obtain ⟨cmd, keylen, extralen, sameVbucket, bodylen, sameOpaque, sameCas⟩ := fields
    rw [sentBody, bare.extended, emptyWire, List.append_nil] at bodies
    have total := congrArg List.length bodies
    simp only [List.length_append, List.length_nil] at total keylen extralen bodylen emptyLength
    have extraShort := extra.len_le_length_wire
    have keyShort := sentKey.len_le_length_wire
    have valShort := message.val.len_le_length_wire
    obtain ⟨front, sameVal⟩ := List.append_inj bodies (by simp only [List.length_append]; omega)
    obtain ⟨sameExtra, sameKey⟩ := List.append_inj front (by omega)
    subst sameOpaque sameCas
    exact ⟨⟨cmd.symm, sameVbucket.symm, hasCas⟩,
      ⟨extra, hasExtra, PyText.plain_iff.mpr ⟨extraEncodes, by omega⟩, sameExtra.symm⟩,
      ⟨PyText.plain_iff.mpr ⟨valEncodes, by omega⟩, sameVal.symm⟩,
      ⟨sentKey, prefixed, PyText.plain_iff.mpr ⟨keyEncodes, by omega⟩, sameKey.symm⟩, expected⟩
  · rintro ⟨⟨cmd, sameVbucket, hasCas⟩, ⟨extra, hasExtra, extraPlain, sameExtra⟩,
      ⟨valPlain, sameVal⟩, ⟨sentKey, prefixed, keyPlain, sameKey⟩, fits⟩
    obtain ⟨extraEncodes, extraLength⟩ := PyText.plain_iff.mp extraPlain
    obtain ⟨valEncodes, valLength⟩ := PyText.plain_iff.mp valPlain
    obtain ⟨keyEncodes, keyLength⟩ := PyText.plain_iff.mp keyPlain
    have fields : headerFields message sentKey extra request.cas =
        frameFields vbucket number key request message.opaqueNumber := by
      simp only [frameFields, headerFields, bare.length, bare.extended, Option.getD_none]
      rw [← sameKey, ← sameExtra, ← sameVal, ← cmd, ← sameVbucket, keyLength, extraLength]
      simp only [List.length_append, keyLength, extraLength, valLength, ← emptyLength,
        List.length_nil, Nat.add_zero, Nat.add_comm sentKey.len]
    refine ⟨message.opaqueNumber, fits, sendMsg_eq_ok.mpr ⟨sentKey, extra, request.cas, prefixed,
      hasExtra, hasCas, by rw [fields]; exact fits, keyEncodes, extraEncodes, valEncodes, ?_, ?_⟩⟩
    · rw [bare.extended]
      exact emptyEncodes
    · rw [fields, sentBody, bare.extended, emptyWire, List.append_nil, sameExtra, sameKey, sameVal]

/-- A unicode string of ASCII characters. -/
def AsciiText (text : PyText) : Prop :=
  ∃ content, text = .unicode content ∧ AsciiChars content

/-- A key that reaches the wire with its id in front of it, which is one byte. -/
def Addressable (python : Python) (client : Client) (key : PyText) (number : Nat) : Prop :=
  python = .three ∧ featureCollections ∈ client.features ∧ (0 < number ∧ number < 128) ∧
    AsciiText key

theorem leb128_lt_of_ascii {number : Nat} (ascii : AsciiBytes (leb128 number)) : number < 128 := by
  by_contra large
  rw [leb128_of_ge (by omega)] at ascii
  have first := ascii _ List.mem_cons_self
  rw [UInt8.lt_iff_toNat_lt, toNat_ofNat_of_lt (by omega)] at first
  exact absurd first (Nat.not_lt.mpr (Nat.le_add_left _ _))

/-- The id in front of the key: id 0 counts as no collection, and an id of two bytes or more is
    either not UTF-8 or counted in characters. -/
theorem prefixedKey_id_iff {python : Python} {client : Client} {message : Message} {number : Nat}
    (collection : message.collection = some (.id number)) :
    (∃ sentKey, prefixedKey python client message = .ok sentKey ∧ sentKey.Plain python ∧
      sentKey.wire = leb128 number ++ message.key.wire) ↔
      Addressable python client message.key number := by
  rw [prefixedKey, collection]
  by_cases zero : number = 0
  · subst zero
    have long := length_leb128_pos 0
    constructor
    · rintro ⟨sentKey, same, -, wire⟩
      cases same
      have := congrArg List.length wire
      rw [List.length_append] at this
      omega
    · rintro ⟨-, -, ⟨positive, -⟩, -⟩
      omega
  · rw [truthy, if_neg zero]
    constructor
    · rintro ⟨sentKey, encoded, plain, wire⟩
      obtain ⟨enabled, three, _, head, text, same, headWire, keyText, rfl⟩ :=
        encodeCollectionId_eq_ok.mp encoded
      cases same
      subst three
      obtain ⟨headAscii, textAscii⟩ := asciiChars_append.mp plain
      have small := leb128_lt_of_ascii (headWire ▸ asciiBytes_utf8 headAscii)
      exact ⟨rfl, enabled, ⟨by omega, small⟩, text, keyText, textAscii⟩
    · rintro ⟨three, enabled, ⟨-, small⟩, text, keyText, textAscii⟩
      subst three
      have headWire : utf8 [Char.ofNat number] = leb128 number := by
        rw [utf8_charOfNat small, leb128_of_lt small]
      have headAscii : AsciiChars [Char.ofNat number] := by
        rw [asciiChars_cons, toNat_charOfNat small]
        exact ⟨small, by simp [AsciiChars]⟩
      refine ⟨_, encodeCollectionId_eq_ok.mpr ⟨enabled, rfl, number, _, text, rfl, headWire, keyText,
        rfl⟩, asciiChars_append.mpr ⟨headAscii, textAscii⟩, ?_⟩
      rw [keyText, PyText.wire, PyText.wire, utf8_append, headWire]

/-- What `_set_vbucket` stores: a vbucket 0 is hashed like one that is not given. -/
def Client.sentVbucket (client : Client) (key : PyText) (vbucket : Int) : Nat :=
  if vbucket = 0 ∨ vbucket < 0 then client.hashVbucket key.wire else vbucket.toNat

theorem setVbucket_eq_ok {python : Python} {client client' : Client} {key : PyText} {vbucket : Int}
    (returned : setVbucket python client key vbucket = .ok client') :
    client' = { client with vbucketId := client.sentVbucket key vbucket } := by
  unfold setVbucket at returned
  unfold Client.sentVbucket
  split at returned
  · rename_i hashed
    obtain ⟨encoded, same, stored⟩ := bind_eq_ok.mp returned
    cases stored
    rw [PyText.encode_eq_ok same, if_pos hashed]
  · rename_i given
    cases returned
    rw [if_neg given]

theorem setVbucket_unicode (client : Client) (text : List Char) (vbucket : Int) :
    setVbucket .three client (.unicode text) vbucket =
      .ok { client with vbucketId := client.sentVbucket (.unicode text) vbucket } := by
  unfold setVbucket Client.sentVbucket
  split <;> rfl

/-- Only a vbucket 0 is sent otherwise than it is meant, and not even that if the key hashes to 0. -/
theorem sentVbucket_eq_meant_iff {client : Client} {key : PyText} {vbucket : Int} :
    client.sentVbucket key vbucket = client.meantVbucket key vbucket ↔
      (vbucket = 0 → client.hashVbucket key.wire = 0) := by
  unfold Client.sentVbucket Client.meantVbucket
  by_cases zero : vbucket = 0
  · simp [zero]
  · simp [zero]

theorem carries_bind {α : Type} {first : Except PyError α} {second : α → Except PyError PyText}
    {vbucket number : Nat} {key : PyText} {request : Request} :
    Carries (first >>= second) vbucket number key request ↔
      ∃ value, first = .ok value ∧ Carries (second value) vbucket number key request := by
  constructor
  · rintro ⟨opaqueNumber, fits, sent⟩
    obtain ⟨value, returned, sent⟩ := bind_eq_ok.mp sent
    exact ⟨value, returned, opaqueNumber, fits, sent⟩
  · rintro ⟨value, returned, opaqueNumber, fits, sent⟩
    exact ⟨opaqueNumber, fits, bind_eq_ok.mpr ⟨value, returned, sent⟩⟩

section Operations

variable {python : Python} {client : Client} {draw : Nat} {key : PyText} {vbucket : Int}
  {scope : Option String} {number : Nat} {meant : Nat} {request : Request}

/-- The vbucket is set, and then one `_sendCmd` with the id is made. -/
theorem carries_sendCmd_iff {cmd opaqueNumber casNumber : Nat} {val extra : PyText}
    {scopeOf : Client → Option String} :
    Carries (setVbucket python client key vbucket >>= fun client =>
      sendCmd python client cmd key val opaqueNumber (some extra) (some casNumber) (scopeOf client)
        (some (.id number))) meant number key request ↔
      Addressable python client key number ∧ client.sentVbucket key vbucket = meant ∧
        (cmd = request.cmd ∧ casNumber = request.cas) ∧
        (extra.Plain python ∧ extra.wire = request.extras) ∧
        (val.Plain python ∧ val.wire = request.value) ∧
        Fits pktFmt (frameFields meant number key request opaqueNumber) := by
  rw [carries_bind]
  constructor
  · rintro ⟨client', returned, carried⟩
    cases setVbucket_eq_ok returned
    obtain ⟨⟨cmd, sameVbucket, sameCas⟩, ⟨_, hasExtra, extraPlain, sameExtra⟩, sameVal, prefixed,
      fits⟩ := (carries_sendMsg_iff ⟨rfl, rfl⟩).mp carried
    cases hasExtra
    have addressable := (prefixedKey_id_iff rfl).mp prefixed
    exact ⟨addressable, sameVbucket, ⟨cmd, Option.some.inj sameCas⟩, ⟨extraPlain, sameExtra⟩, sameVal,
      fits⟩
  · rintro ⟨addressable, sameVbucket, ⟨cmd, sameCas⟩, ⟨extraPlain, sameExtra⟩, sameVal, fits⟩
    obtain ⟨rfl, enabled, small, text, rfl, ascii⟩ := addressable
    refine ⟨_, setVbucket_unicode client text vbucket, (carries_sendMsg_iff ⟨rfl, rfl⟩).mpr
      ⟨⟨cmd, sameVbucket, congrArg some sameCas⟩, ⟨extra, rfl, extraPlain, sameExtra⟩, sameVal,
      (prefixedKey_id_iff rfl).mpr ⟨rfl, enabled, small, text, rfl, ascii⟩, fits⟩⟩

theorem packExtras_of_fits {widths values : List Nat} (fits : Fits widths values) :
    packExtras widths values = .ok (.bytes (record widths values)) := by
  rw [packExtras, pack, if_pos fits]

theorem packExtras_eq_ok {widths values : List Nat} {packed : PyText}
    (returned : packExtras widths values = .ok packed) : ∃ content, packed = .bytes content := by
  unfold packExtras at returned
  split at returned
  · cases returned
    exact ⟨_, rfl⟩
  · cases returned

/-- The scope that `collection_name` makes of a scope that comes with an id. -/
def Client.idScope (client : Client) (scope : Option String) : Option String :=
  if client.collectionsSupported then some (scope.getD "_default") else scope

theorem collectionName_id (client : Client) (scope : Option String) (number : Nat) :
    client.collectionName scope (some (.id number)) = (client.idScope scope, some (.id number)) := by
  unfold Client.collectionName Client.idScope
  split <;> rfl

/-- What an operation needs besides its value: a key that can be addressed, a vbucket that is not
    hashed away, and numbers that fit the header. -/
def Deliverable (python : Python) (client : Client) (key : PyText) (vbucket : Int) (number : Nat)
    (request : Request) (opaqueNumber : Nat) : Prop :=
  Addressable python client key number ∧ (vbucket = 0 → client.hashVbucket key.wire = 0) ∧
    Fits pktFmt (frameFields (client.meantVbucket key vbucket) number key request opaqueNumber)

theorem carries_request_iff (request : Request) {opaqueNumber : Nat} {val extra : PyText}
    {scopeOf : Client → Option String} (extraPlain : python = .three → extra.Plain python)
    (sameExtra : extra.wire = request.extras) (sameVal : val.wire = request.value) :
    Carries (setVbucket python client key vbucket >>= fun client =>
      sendCmd python client request.cmd key val opaqueNumber (some extra) (some request.cas)
        (scopeOf client) (some (.id number))) (client.meantVbucket key vbucket) number key request ↔
      Deliverable python client key vbucket number request opaqueNumber ∧ val.Plain python := by
  rw [carries_sendCmd_iff, sentVbucket_eq_meant_iff]
  constructor
  · rintro ⟨addressable, kept, -, -, ⟨valPlain, -⟩, fits⟩
    exact ⟨⟨addressable, kept, fits⟩, valPlain⟩
  · rintro ⟨⟨addressable, kept, fits⟩, valPlain⟩
    exact ⟨addressable, kept, ⟨rfl, rfl⟩, ⟨extraPlain addressable.1, sameExtra⟩,
      ⟨valPlain, sameVal⟩, fits⟩

theorem plain_bytes {content : Bytes} (three : python = .three) :
    (PyText.bytes content).Plain python := by
  subst three
  trivial

theorem mutate_iff {cmd : Nat} {exp flags : UInt32} {casNumber : UInt64} {val : PyText}
    (request : Request) (same : request =
      ⟨cmd, record [4, 4] [flags.toNat, exp.toNat], val.wire, casNumber.toNat⟩) :
    Carries (addressed python client key ⟨vbucket, scope, some (.id number)⟩
      fun client scope collection =>
        mutate python client draw cmd key exp flags casNumber val scope collection)
      (client.meantVbucket key vbucket) number key request ↔
      Deliverable python client key vbucket number request draw ∧ val.Plain python := by
  subst same
  have fits : Fits [4, 4] [flags.toNat, exp.toNat] := by
    simp only [Fits, List.forall₂_cons, List.Forall₂.nil, and_true]
    exact ⟨flags.toNat_lt, exp.toNat_lt⟩
  simp only [addressed, mutate, collectionName_id, packExtras_of_fits fits, doCmd]
  exact carries_request_iff _ plain_bytes rfl rfl

theorem cat_iff {cmd : Nat} {casNumber : UInt64} {val : PyText} :
    Carries (addressed python client key ⟨vbucket, scope, some (.id number)⟩
      fun client scope collection => cat python client draw cmd key casNumber val scope collection)
      (client.meantVbucket key vbucket) number key ⟨cmd, [], val.wire, casNumber.toNat⟩ ↔
      Deliverable python client key vbucket number ⟨cmd, [], val.wire, casNumber.toNat⟩ draw ∧
        val.Plain python := by
  simp only [addressed, cat, collectionName_id, doCmd]
  exact carries_request_iff _ (fun _ => (str_empty python).1) (str_empty python).2 rfl

theorem incrdecr_iff {cmd : Nat} {amt init : UInt64} {exp : UInt32} :
    Carries (addressed python client key ⟨vbucket, scope, some (.id number)⟩
      fun client scope collection =>
        incrdecr python client draw cmd key amt init exp scope collection)
      (client.meantVbucket key vbucket) number key
      ⟨cmd, record [8, 8, 4] [amt.toNat, init.toNat, exp.toNat], [], 0⟩ ↔
      Deliverable python client key vbucket number
        ⟨cmd, record [8, 8, 4] [amt.toNat, init.toNat, exp.toNat], [], 0⟩ draw := by
  have fits : Fits [8, 8, 4] [amt.toNat, init.toNat, exp.toNat] := by
    simp only [Fits, List.forall₂_cons, List.Forall₂.nil, and_true]
    exact ⟨amt.toNat_lt, init.toNat_lt, exp.toNat_lt⟩
  simp only [addressed, incrdecr, collectionName_id, packExtras_of_fits fits, doCmd]
  exact (carries_request_iff _ plain_bytes rfl (str_empty python).2).trans
    (and_iff_left (str_empty python).1)

theorem fits_exp (exp : UInt32) : Fits [4] [exp.toNat] := by
  simp only [Fits, List.forall₂_cons, List.Forall₂.nil, and_true]
  exact exp.toNat_lt

theorem valueless_iff {cmd : Nat} {extras : Except PyError PyText} {extra : PyText}
    {casNumber : UInt64} {request : Request} (packed : extras = .ok extra)
    (extraPlain : python = .three → extra.Plain python)
    (same : request = ⟨cmd, extra.wire, [], casNumber.toNat⟩) :
    Carries (valueless python client draw cmd key extras casNumber
      ⟨vbucket, scope, some (.id number)⟩) (client.meantVbucket key vbucket) number key request ↔
      Deliverable python client key vbucket number request draw := by
  subst same packed
  simp only [valueless, addressed, collectionName_id, doCmd]
  exact (carries_request_iff _ extraPlain rfl (str_empty python).2).trans
    (and_iff_left (str_empty python).1)

theorem valueless_bare_iff {cmd : Nat} {casNumber : UInt64} :
    Carries (valueless python client draw cmd key (.ok (.str python "")) casNumber
      ⟨vbucket, scope, some (.id number)⟩) (client.meantVbucket key vbucket) number key
      ⟨cmd, [], [], casNumber.toNat⟩ ↔
      Deliverable python client key vbucket number ⟨cmd, [], [], casNumber.toNat⟩ draw := by
  obtain ⟨emptyPlain, emptyWire⟩ := str_empty python
  exact valueless_iff rfl (fun _ => emptyPlain) (by rw [emptyWire])

theorem valueless_exp_iff {cmd : Nat} {exp : UInt32} :
    Carries (valueless python client draw cmd key (packExtras [4] [exp.toNat]) 0
      ⟨vbucket, scope, some (.id number)⟩) (client.meantVbucket key vbucket) number key
      ⟨cmd, record [4] [exp.toNat], [], 0⟩ ↔
      Deliverable python client key vbucket number ⟨cmd, record [4] [exp.toNat], [], 0⟩ draw :=
  valueless_iff (packExtras_of_fits (fits_exp exp)) plain_bytes rfl

theorem getl_iff {exp : UInt32} :
    Carries (getl python client draw key exp ⟨vbucket, scope, some (.id number)⟩)
      (client.meantVbucket key vbucket) number key ⟨0x94, record [4] [exp.toNat], [], 0⟩ ↔
      Deliverable python client key vbucket number ⟨0x94, record [4] [exp.toNat], [], 0⟩ draw := by
  simp only [getl, packExtras_of_fits (fits_exp exp), doCmd]
  exact (carries_request_iff _ plain_bytes rfl (str_empty python).2).trans
    (and_iff_left (str_empty python).1)

/-- The collection of `send_get` is lost, and with it the first byte of the key. -/
theorem not_carries_sendGet :
    ¬ Carries (sendGet python client draw key ⟨vbucket, scope, some (.id number)⟩) meant number key
      request := by
  rw [sendGet, addressed, collectionName_id]
  intro carried
  obtain ⟨client', -, carried⟩ := carries_bind.mp carried
  obtain ⟨-, -, -, ⟨sentKey, same, -, wire⟩, -⟩ := (carries_sendMsg_iff ⟨rfl, rfl⟩).mp carried
  cases same
  have lengths : key.wire.length = (leb128 number ++ key.wire).length := congrArg List.length wire
  have := length_leb128_pos number
  rw [List.length_append] at lengths
  omega

/-! ## Sub-document operations -/

theorem carries_doSdCmd_iff {cmd expiry opaqueNumber casNumber : Nat} {path : PyText}
    {val : Option SdValue} {create : Bool} :
    Carries (setVbucket python client key vbucket >>= fun client =>
      doSdCmd python client draw cmd key path val expiry opaqueNumber casNumber create scope
        (some (.id number))) meant number key request ↔
      ∃ extra body, packExtras (sdExtras path.len create expiry).1
          (sdExtras path.len create expiry).2 = .ok extra ∧ sdBody python path val = .ok body ∧
        Addressable python client key number ∧ client.sentVbucket key vbucket = meant ∧
        (cmd = request.cmd ∧ casNumber = request.cas) ∧
        (extra.Plain python ∧ extra.wire = request.extras) ∧
        (body.Plain python ∧ body.wire = request.value) ∧
        Fits pktFmt (frameFields meant number key request
          (if opaqueNumber = 0 then draw else opaqueNumber)) := by
  rw [carries_bind]
  simp only [doSdCmd, carries_bind]
  constructor
  · rintro ⟨client', stored, extra, packed, body, joined, carried⟩
    exact ⟨extra, body, packed, joined, (@carries_sendCmd_iff _ _ _ _ _ _ _ _ _ _ _ _
      fun _ => scope).mp (carries_bind.mpr ⟨client', stored, carried⟩)⟩
  · rintro ⟨extra, body, packed, joined, parts⟩
    obtain ⟨client', stored, carried⟩ := carries_bind.mp
      ((@carries_sendCmd_iff _ _ _ _ _ _ _ _ _ _ _ _ fun _ => scope).mpr parts)
    exact ⟨client', stored, extra, packed, body, joined, carried⟩

/-- The paths and values that Python 3 can join and send. -/
def SdPlain (path : PyText) : Option SdValue → Prop
  | none => path.Plain .three
  | some (.int _) => AsciiText path
  | some (.text content) => AsciiText path ∧ AsciiText content

theorem SdPlain.path {path : PyText} {val : Option SdValue} (plain : SdPlain path val) :
    path.Plain .three := by
  cases val with
  | none => exact plain
  | some val =>
    have ascii : AsciiText path := by
      cases val with
      | int number => exact plain
      | text content => exact plain.1
    obtain ⟨text, rfl, ascii⟩ := ascii
    exact ascii

theorem join_iff {path : PyText} {text : List Char} {wire : Bytes} :
    (∃ body, PyText.add .three path (.unicode text) = .ok body ∧ body.Plain .three ∧
      body.wire = path.wire ++ wire) ↔ AsciiText path ∧ AsciiChars text ∧ utf8 text = wire := by
  constructor
  · rintro ⟨body, joined, plain, same⟩
    cases path with
    | bytes content => cases joined
    | unicode content =>
      cases joined
      obtain ⟨pathAscii, textAscii⟩ := asciiChars_append.mp plain
      rw [PyText.wire, utf8_append] at same
      exact ⟨⟨content, rfl, pathAscii⟩, textAscii, List.append_cancel_left same⟩
  · rintro ⟨⟨content, rfl, pathAscii⟩, textAscii, rfl⟩
    exact ⟨_, rfl, asciiChars_append.mpr ⟨pathAscii, textAscii⟩, utf8_append content text⟩

theorem sdBody_iff {path : PyText} {val : Option SdValue} :
    (∃ body, sdBody .three path val = .ok body ∧ body.Plain .three ∧
      body.wire = path.wire ++ (val.map SdValue.wire).getD []) ↔ SdPlain path val := by
  cases val with
  | none => simp [sdBody, SdPlain]
  | some val =>
    cases val with
    | int number =>
      have digits := PyText.asciiChars_toString number
      exact join_iff.trans (and_iff_left ⟨digits, rfl⟩)
    | text content =>
      cases content with
      | unicode content =>
        refine join_iff.trans (and_congr_right fun _ => ?_)
        constructor
        · rintro ⟨ascii, -⟩
          exact ⟨content, rfl, ascii⟩
        · rintro ⟨_, ⟨⟩, ascii⟩
          exact ⟨ascii, rfl⟩
      | bytes content =>
        -- `str` of a byte string is its `repr`, which is longer.
        refine join_iff.trans (and_congr_right fun _ => iff_of_false ?_ ?_)
        · rintro ⟨-, same⟩
          have lengths : (utf8 (PyText.reprBytes content)).length = content.length :=
            congrArg List.length same
          have := length_le_length_utf8 (PyText.reprBytes content)
          have := PyText.length_lt_length_reprBytes content
          omega
        · rintro ⟨_, wrong, -⟩
          cases wrong

theorem fits_sdExtras_iff {pathlen : Nat} {create : Bool} {expiry : UInt32} :
    Fits (sdExtras pathlen create expiry.toNat).1 (sdExtras pathlen create expiry.toNat).2 ↔
      pathlen < 2 ^ 16 := by
  have small := expiry.toNat_lt
  unfold sdExtras
  cases create <;> by_cases zero : expiry.toNat = 0 <;>
    simp [zero, Fits] <;> omega

theorem sd_iff {cmd : Nat} {path : PyText} {val : Option SdValue} {expiry opaqueNumber : UInt32}
    {casNumber : UInt64} {create : Bool} :
    Carries (setVbucket python client key vbucket >>= fun client =>
      doSdCmd python client draw cmd key path val expiry.toNat opaqueNumber.toNat casNumber.toNat
        create scope (some (.id number))) (client.meantVbucket key vbucket) number key
      (sdRequest cmd path val expiry casNumber create) ↔
      Deliverable python client key vbucket number (sdRequest cmd path val expiry casNumber create)
        (if opaqueNumber.toNat = 0 then draw else opaqueNumber.toNat) ∧
        path.len < 2 ^ 16 ∧ SdPlain path val := by
  rw [carries_doSdCmd_iff, sentVbucket_eq_meant_iff]
  constructor
  · rintro ⟨extra, body, packed, joined, addressable, kept, -, -, ⟨bodyPlain, bodyWire⟩, fits⟩
    have three := addressable.1
    subst three
    refine ⟨⟨addressable, kept, fits⟩, ?_, sdBody_iff.mp ⟨body, joined, bodyPlain, bodyWire⟩⟩
    by_contra long
    rw [packExtras, pack, if_neg (fun packs => long (fits_sdExtras_iff.mp packs))] at packed
    cases packed
  · rintro ⟨⟨addressable, kept, fits⟩, short, plain⟩
    have three := addressable.1
    subst three
    obtain ⟨body, joined, bodyPlain, bodyWire⟩ := sdBody_iff.mpr plain
    have length := (PyText.plain_iff.mp plain.path).2
    refine ⟨_, body, packExtras_of_fits (fits_sdExtras_iff.mpr short), joined, addressable, kept,
      ⟨rfl, rfl⟩, ⟨trivial, ?_⟩, ⟨bodyPlain, bodyWire⟩, fits⟩
    rw [PyText.wire, sdRequest, length]

/-- The expiry of `multi_lookup_sd` is written behind the path. -/
theorem not_carries_multiLookupSd {path : PyText} {expiry opaqueNumber : UInt32}
    {casNumber : UInt64} {create : Bool} :
    ¬ Carries (multiLookupSd python client draw key path expiry opaqueNumber casNumber create
      ⟨vbucket, scope, some (.id number)⟩) meant number key
      (sdRequest 0xd0 path none expiry casNumber create) := by
  intro carried
  obtain ⟨extra, body, -, joined, addressable, -, -, -, ⟨bodyPlain, bodyWire⟩, -⟩ :=
    carries_doSdCmd_iff.mp carried
  have three := addressable.1
  subst three
  obtain ⟨-, -, digits⟩ := join_iff.mp ⟨body, joined, bodyPlain, bodyWire⟩
  have shorter := length_le_length_utf8 (toString (expiry.toNat : Int)).toList
  have some : 0 < (toString (expiry.toNat : Int)).toList.length := by
    rw [Int.toString_eq_repr]
    exact Nat.length_repr_pos
  rw [digits] at shorter
  exact absurd (lt_of_lt_of_le some shorter) (by simp)

/-- Python 3 joins the packed bytes of an entry neither with its path nor with the body. -/
theorem multiStep_three {state state' : MultiState} {text : List Char} {entry : String × MultiSpec}
    (body : state.body = .unicode text) : multiStep .three state entry ≠ .ok state' := by
  intro returned
  obtain ⟨⟨value, valuelen⟩, -, returned⟩ := bind_eq_ok.mp returned
  cases opcode : (multiCommand entry.1).or state.mcmd with
  | none =>
    simp only [opcode] at returned
    cases returned
  | some opcode' =>
    simp only [opcode] at returned
    obtain ⟨opSpec, packed, returned⟩ := bind_eq_ok.mp returned
    cases value with
    | none => cases returned
    | some value =>
      obtain ⟨tail, -, returned⟩ := bind_eq_ok.mp returned
      obtain ⟨joined, spec, returned⟩ := bind_eq_ok.mp returned
      obtain ⟨whole, extended, -⟩ := bind_eq_ok.mp returned
      obtain ⟨content, rfl⟩ := packExtras_eq_ok packed
      obtain ⟨more, -, rfl⟩ := PyText.add_three_bytes.mp spec
      rw [body] at extended
      obtain ⟨_, wrong, -⟩ := PyText.add_three_unicode.mp extended
      cases wrong

theorem multiMutation_iff {cmdDict : List (String × MultiSpec)} {expiry opaqueNumber : UInt32}
    {casNumber : UInt64} {create : Bool} (request : Request)
    (same : request = (KeyOp.multiMutationSd cmdDict expiry opaqueNumber casNumber create).request) :
    Carries (multiMutationSd python client draw key cmdDict expiry opaqueNumber casNumber create
      ⟨vbucket, scope, some (.id number)⟩) meant number key request ↔
      Addressable python client key number ∧ meant = 0 ∧
        (cmdDict = [] ∧ expiry = 0 ∧ casNumber = 0) ∧
        Fits pktFmt (frameFields meant number key request
          (if opaqueNumber.toNat = 0 then draw else opaqueNumber.toNat)) := by
  subst same
  obtain ⟨emptyPlain, emptyWire⟩ := str_empty python
  rw [multiMutationSd, carries_bind]
  constructor
  · rintro ⟨client', stored, carried⟩
    cases setVbucket_eq_ok stored
    obtain ⟨state, folded, carried⟩ := carries_bind.mp carried
    obtain ⟨⟨-, sameVbucket, sameCas⟩, ⟨_, hasExtra, -, sameExtra⟩, -, prefixed, fits⟩ :=
      (carries_sendMsg_iff ⟨rfl, rfl⟩).mp carried
    have addressable := (prefixedKey_id_iff rfl).mp prefixed
    cases hasExtra
    refine ⟨addressable, sameVbucket.symm, ⟨?_, ?_, ?_⟩, fits⟩
    · have three := addressable.1
      subst three
      cases cmdDict with
      | nil => rfl
      | cons entry rest =>
        obtain ⟨state', stepped, -⟩ := bind_eq_ok.mp folded
        exact absurd stepped (multiStep_three rfl)
    · by_contra some
      rw [emptyWire, KeyOp.request, if_neg some] at sameExtra
      cases sameExtra
    · exact UInt64.toNat_inj.mp (Option.some.inj sameCas).symm
  · rintro ⟨addressable, zero, ⟨rfl, rfl, rfl⟩, fits⟩
    obtain ⟨rfl, enabled, small, text, rfl, ascii⟩ := addressable
    refine ⟨_, setVbucket_unicode client text vbucket, carries_bind.mpr ⟨_, rfl,
      (carries_sendMsg_iff ⟨rfl, rfl⟩).mpr ⟨⟨rfl, zero.symm, rfl⟩, ⟨_, rfl, emptyPlain, emptyWire⟩,
      ⟨emptyPlain, emptyWire⟩, ?_, fits⟩⟩⟩
    exact (prefixedKey_id_iff rfl).mpr ⟨rfl, enabled, small, text, rfl, ascii⟩

end Operations

/-! ## All operations -/

/-- The opaque that is sent: the argument, if there is one and it is not 0, or what is drawn. -/
def KeyOp.opaqueSent (draw : Nat) : KeyOp → Nat
  | existsSd _ given _ | deleteSd _ given _ | multiMutationSd _ _ given _ _ =>
    if given.toNat = 0 then draw else given.toNat
  | dictAddSd args | dictUpsertSd args | replaceSd args | arrayPushLastSd args
  | arrayPushFirstSd args | arrayAddInsertSd args | arrayAddUniqueSd args | counterSd args =>
    if args.opaqueNumber.toNat = 0 then draw else args.opaqueNumber.toNat
  | multiLookupSd _ _ _ given _ => if given.toNat = 0 then draw else given.toNat
  | _ => draw

/-- The vbucket that is asked for is the one that is sent. -/
def KeyOp.VbucketKept (client : Client) (key : PyText) (vbucket : Int) : KeyOp → Prop
  -- A multi mutation always goes to vbucket 0.
  | multiMutationSd .. => client.meantVbucket key vbucket = 0
  | _ => vbucket = 0 → client.hashVbucket key.wire = 0

def SdArgs.Kept (args : SdArgs) : Prop :=
  args.path.len < 2 ^ 16 ∧ SdPlain args.path args.value

/-- The other arguments reach the places that they are meant for. -/
def KeyOp.ArgumentsKept (python : Python) : KeyOp → Prop
  | append value _ | prepend value _ => value.Plain python
  | set _ _ val | add _ _ val | replace _ _ val | cas _ _ _ val => val.Plain python
  | sendGet => False
  | getSd path _ | existsSd path _ _ | deleteSd path _ _ =>
    path.len < 2 ^ 16 ∧ path.Plain .three
  | dictAddSd args | dictUpsertSd args | replaceSd args | arrayPushLastSd args
  | arrayPushFirstSd args | arrayAddInsertSd args | arrayAddUniqueSd args | counterSd args =>
    args.Kept
  | multiMutationSd cmdDict expiry _ casNumber _ => cmdDict = [] ∧ expiry = 0 ∧ casNumber = 0
  | multiLookupSd .. => False
  | _ => True

section

variable {python : Python} {client : Client} {key : PyText} {vbucket : Int} {number : Nat}
  {request : Request} {opaqueNumber : Nat}

theorem deliverable_and_iff {Kept : Prop} :
    Deliverable python client key vbucket number request opaqueNumber ∧ Kept ↔
      Addressable python client key number ∧ (vbucket = 0 → client.hashVbucket key.wire = 0) ∧
        Kept ∧ Fits pktFmt (frameFields (client.meantVbucket key vbucket) number key request
          opaqueNumber) := by
  unfold Deliverable
  tauto

theorem deliverable_iff :
    Deliverable python client key vbucket number request opaqueNumber ↔
      Addressable python client key number ∧ (vbucket = 0 → client.hashVbucket key.wire = 0) ∧
        True ∧ Fits pktFmt (frameFields (client.meantVbucket key vbucket) number key request
          opaqueNumber) :=
  (and_iff_left trivial).symm.trans deliverable_and_iff

end

/-- A request addresses what the caller asked for exactly when: Python 3 runs a client with
    collections; the id is one byte and not 0; the key is a unicode string of ASCII characters; the
    vbucket and the other arguments are kept; and all numbers fit the header. -/
theorem addresses_iff (python : Python) (client : Client) (draw : Nat) (op : KeyOp) (key : PyText)
    (vbucket : Int) (scope : Option String) (number : Nat) :
    Addresses python client draw op key vbucket scope number ↔
      Addressable python client key number ∧ op.VbucketKept client key vbucket ∧
        op.ArgumentsKept python ∧
        Fits pktFmt (frameFields (client.meantVbucket key vbucket) number key op.request
          (op.opaqueSent draw)) := by
  cases op with
  | append value casNumber => exact cat_iff.trans deliverable_and_iff
  | prepend value casNumber => exact cat_iff.trans deliverable_and_iff
  | incr amt init exp => exact incrdecr_iff.trans deliverable_iff
  | decr amt init exp => exact incrdecr_iff.trans deliverable_iff
  | set exp flags val => exact (mutate_iff _ rfl).trans deliverable_and_iff
  | add exp flags val => exact (mutate_iff _ rfl).trans deliverable_and_iff
  | replace exp flags val => exact (mutate_iff _ rfl).trans deliverable_and_iff
  | cas exp flags oldVal val => exact (mutate_iff _ rfl).trans deliverable_and_iff
  | get => exact valueless_bare_iff.trans deliverable_iff
  | sendGet =>
    refine iff_of_false not_carries_sendGet ?_
    rintro ⟨-, -, ⟨⟩, -⟩
  | getl exp => exact getl_iff.trans deliverable_iff
  | getr => exact valueless_bare_iff.trans deliverable_iff
  | touch exp => exact valueless_exp_iff.trans deliverable_iff
  | gat exp => exact valueless_exp_iff.trans deliverable_iff
  | delete casNumber => exact valueless_bare_iff.trans deliverable_iff
  | evictKey => exact valueless_bare_iff.trans deliverable_iff
  | getSd path casNumber => exact sd_iff.trans deliverable_and_iff
  | existsSd path given casNumber => exact sd_iff.trans deliverable_and_iff
  | deleteSd path given casNumber => exact sd_iff.trans deliverable_and_iff
  | dictAddSd args => exact sd_iff.trans deliverable_and_iff
  | dictUpsertSd args => exact sd_iff.trans deliverable_and_iff
  | replaceSd args => exact sd_iff.trans deliverable_and_iff
  | arrayPushLastSd args => exact sd_iff.trans deliverable_and_iff
  | arrayPushFirstSd args => exact sd_iff.trans deliverable_and_iff
  | arrayAddInsertSd args => exact sd_iff.trans deliverable_and_iff
  | arrayAddUniqueSd args => exact sd_iff.trans deliverable_and_iff
  | counterSd args => exact sd_iff.trans deliverable_and_iff
  | multiMutationSd cmdDict expiry given casNumber create => exact multiMutation_iff _ rfl
  | multiLookupSd path expiry given casNumber create =>
    refine iff_of_false not_carries_multiLookupSd ?_
    rintro ⟨-, -, ⟨⟩, -⟩

/-- Under Python 2, the one that can import the module, no request for a collection given by its id
    addresses what the caller asked for. -/
theorem addresses_never (client : Client) (draw : Nat) (op : KeyOp) (key : PyText) (vbucket : Int)
    (scope : Option String) (number : Nat) : ¬ Addresses .two client draw op key vbucket scope number := by
  intro addressed
  obtain ⟨⟨three, -⟩, -⟩ := (addresses_iff .two client draw op key vbucket scope number).mp addressed
  cases three

/-- A `get` of `k` from vbucket 5 of collection 8 raises: an array of Python 2 has no `tobytes`. -/
theorem get_of_collection_raises :
    ¬ Addresses .two collectionsClient 0 .get (.bytes [0x6b]) 5 none 8 := by
  rintro ⟨opaqueNumber, -, sent⟩
  cases sent

end Taf.Memcached
