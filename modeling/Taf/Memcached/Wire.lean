import Mathlib
import Taf.Memcached.CollectionId

/-! # Frames of the memcached binary protocol

`_sendMsg` and `_recvMsg` of `lib/mc_bin_client.py`.  A socket is the list of the chunks that
`recv` will hand out: a call takes at most what it asks for from the first of them, and an empty
answer means that the peer has gone. -/

namespace Taf.Memcached

open Taf.Lib

/-- `REQ_PKT_FMT` and `RES_PKT_FMT`, `>BBHBBHIIQ`. -/
def pktFmt : List Nat := [1, 1, 2, 1, 1, 2, 4, 4, 8]

/-- `ALT_RES_PKT_FMT` and `ALT_REQ_PKT_FMT`, `>BBBBBBHIIQ`. -/
def altPktFmt : List Nat := [1, 1, 1, 1, 1, 1, 2, 4, 4, 8]

/-- `MIN_RECV_PACKET` -/
def minRecvPacket : Nat := pktFmt.sum

def reqMagicByte : Nat := 0x80
def resMagicByte : Nat := 0x81
def altReqMagicByte : Nat := 0x08
def altResMagicByte : Nat := 0x18

/-! ## `_sendMsg` -/

/-- The arguments of `_sendMsg`; no caller passes `dtype`, `fmt` or `magic`.  An `extraHeader` or a
    `cas` of `none` is a value that is no text and no number. -/
structure Message where
  cmd : Nat
  key : PyText
  val : PyText
  opaqueNumber : Nat
  extraHeader : Option PyText
  cas : Option Nat
  vbucketId : Nat
  scope : Option String
  collection : Option CollectionRef
  extendedMetaData : PyText
  extraHeaderLength : Option Nat

/-- `if collection`: neither `None` nor an empty name nor the number 0. -/
def truthy : Option CollectionRef → Option CollectionRef
  | some (.name text) => if text = "" then none else some (.name text)
  | some (.id number) => if number = 0 then none else some (.id number)
  | none => none

def prefixedKey (python : Python) (client : Client) (message : Message) : Except PyError PyText :=
  match truthy message.collection with
  | some collection => encodeCollectionId python client message.key message.scope collection
  | none => .ok message.key

/-- The fields of the header, the lengths as Python counts them. -/
def headerFields (message : Message) (key extraHeader : PyText) (cas : Nat) : List Nat :=
  [reqMagicByte, message.cmd, key.len, message.extraHeaderLength.getD extraHeader.len, 0,
    message.vbucketId, key.len + extraHeader.len + message.val.len + message.extendedMetaData.len,
    message.opaqueNumber, cas]

/-- The bytes that are handed to `sendall`. -/
def sendMsg (python : Python) (client : Client) (message : Message) : Except PyError PyText := do
  let key ← prefixedKey python client message
  -- `len(None)`
  let some extraHeader := message.extraHeader | throw .typeError
  let some cas := message.cas | throw .structError
  let some msg := pack pktFmt (headerFields message key extraHeader cas) | throw .structError
  let key ← key.encodeOrKeep python
  let extraHeader ← extraHeader.encodeOrKeep python
  let val ← message.val.encodeOrKeep python
  let extendedMetaData ← message.extendedMetaData.encodeOrKeep python
  let packet ← PyText.add python (.bytes msg) extraHeader
  let packet ← PyText.add python packet key
  let packet ← PyText.add python packet val
  PyText.add python packet extendedMetaData

/-! ## `_recvMsg` -/

abbrev Socket := List Bytes

/-- The two loops of `_recvMsg`: `recv` until `need` bytes are in `response`. -/
def recvExactly (client : Client) (need : Nat) (response : Bytes) :
    Socket → Except PyError (Bytes × Socket)
  | [] =>
    if response.length < need then
      .error (.eofError ("Got empty data (remote died?). from " ++ client.host))
    else .ok (response, [])
  | chunk :: chunks =>
    let wanted := need - response.length
    if response.length < need then
      if chunk = [] then
        .error (.eofError ("Got empty data (remote died?). from " ++ client.host))
      else if chunk.length ≤ wanted then recvExactly client need (response ++ chunk) chunks
      -- What was not asked for stays in the socket, and the loop is over.
      else .ok (response ++ chunk.take wanted, chunk.drop wanted :: chunks)
    else .ok (response, chunk :: chunks)

/-- What `_recvMsg` returns. -/
structure Received where
  cmd : Nat
  errcode : Nat
  opaqueNumber : Nat
  cas : Nat
  keylen : Nat
  extralen : Nat
  dtype : Nat
  body : Bytes
  deriving DecidableEq

/-- `"Got magic: 0x%x" % magic` -/
def gotMagic (magic : Nat) : String :=
  "Got magic: 0x" ++ String.ofList (Nat.toDigits 16 magic)

/-- `magic, cmd, keylen, extralen, dtype, errcode, remaining, opaqueNumber, cas = struct.unpack(fmt, response)`:
    the fields without the body, and the length of the body. -/
def assignHeader : List Nat → Except PyError (Received × Nat)
  | [_, cmd, keylen, extralen, dtype, errcode, remaining, opaqueNumber, cas] =>
    .ok ({ cmd := cmd, errcode := errcode, opaqueNumber := opaqueNumber, cas := cas, keylen := keylen,
           extralen := extralen, dtype := dtype, body := [] }, remaining)
  -- The alternative formats have ten fields.
  | _ => .error (.valueError "too many values to unpack")

def recvMsg (client : Client) (socket : Socket) : Except PyError (Received × Socket) := do
  let (response, socket) ← recvExactly client minRecvPacket [] socket
  let magic := beNat (response.take 1)
  if magic ∉ [resMagicByte, reqMagicByte, altResMagicByte, altReqMagicByte] then
    throw (.assertionError (gotMagic magic))
  let fmt := if magic = altResMagicByte ∨ magic = altReqMagicByte then altPktFmt else pktFmt
  let (received, remaining) ← assignHeader (unpack fmt response)
  let (body, socket) ← recvExactly client remaining [] socket
  pure ({ received with body := body }, socket)

/-- `count` calls of `_recvMsg` in a row. -/
def recvMsgs (client : Client) : Nat → Socket → Except PyError (List Received × Socket)
  | 0, socket => .ok ([], socket)
  | count + 1, socket => do
    let (received, socket) ← recvMsg client socket
    let (more, socket) ← recvMsgs client count socket
    pure (received :: more, socket)

/-! ## What is sent -/

/-- The parts of a packet, as they are meant to stand behind the header. -/
def sentBody (message : Message) (key extraHeader : PyText) : Bytes :=
  extraHeader.wire ++ key.wire ++ message.val.wire ++ message.extendedMetaData.wire

theorem sendMsg_eq_ok {python : Python} {client : Client} {message : Message} {packet : PyText} :
    sendMsg python client message = .ok packet ↔ ∃ key extraHeader cas,
      prefixedKey python client message = .ok key ∧ message.extraHeader = some extraHeader ∧
      message.cas = some cas ∧ Fits pktFmt (headerFields message key extraHeader cas) ∧
      key.Encodes python ∧ extraHeader.Encodes python ∧ message.val.Encodes python ∧
      message.extendedMetaData.Encodes python ∧
      packet = .bytes (record pktFmt (headerFields message key extraHeader cas) ++
        sentBody message key extraHeader) := by
  rw [sendMsg, bind_eq_ok]
  cases extra : message.extraHeader with
  | none => simp [throw, throwThe, MonadExceptOf.throw]
  | some extraHeader =>
    cases number : message.cas with
    | none => simp [throw, throwThe, MonadExceptOf.throw]
    | some cas =>
      simp only [Option.some.injEq]
      constructor
      · rintro ⟨key, prefixed, sent⟩
        by_cases fits : Fits pktFmt (headerFields message key extraHeader cas)
        · rw [pack, if_pos fits] at sent
          simp only [bind_eq_ok, PyText.encodeOrKeep_eq_ok] at sent
          obtain ⟨_, ⟨keyEncodes, rfl⟩, _, ⟨extraEncodes, rfl⟩, _, ⟨valEncodes, rfl⟩, _,
            ⟨metaEncodes, rfl⟩, sent⟩ := sent
          simp only [PyText.add_bytes, Except.ok.injEq, exists_eq_left'] at sent
          refine ⟨key, extraHeader, cas, prefixed, rfl, rfl, fits, keyEncodes, extraEncodes,
            valEncodes, metaEncodes, ?_⟩
          rw [← sent, sentBody]
          simp only [List.append_assoc]
        · rw [pack, if_neg fits] at sent
          cases sent
      · rintro ⟨key, _, _, prefixed, rfl, rfl, fits, keyEncodes, extraEncodes, valEncodes,
          metaEncodes, rfl⟩
        refine ⟨key, prefixed, ?_⟩
        rw [pack, if_pos fits]
        simp only [bind_eq_ok, PyText.encodeOrKeep_eq_ok]
        refine ⟨_, ⟨keyEncodes, rfl⟩, _, ⟨extraEncodes, rfl⟩, _, ⟨valEncodes, rfl⟩, _,
          ⟨metaEncodes, rfl⟩, ?_⟩
        simp only [PyText.add_bytes, Except.ok.injEq, exists_eq_left', sentBody, List.append_assoc]

/-- Arguments of `_sendMsg` that the protocol can carry, and an opaque that
    `randint(0, 2 ** 32)` can draw. -/
structure SendArgs where
  cmd : UInt8
  key : PyText
  val : PyText
  extraHeader : PyText
  extendedMetaData : PyText
  cas : UInt64
  vbucketId : UInt16
  opaqueNumber : Nat
  key_short : key.wire.length < 2 ^ 16
  extraHeader_short : extraHeader.wire.length < 2 ^ 8
  body_short : extraHeader.wire.length + key.wire.length + val.wire.length +
    extendedMetaData.wire.length < 2 ^ 32
  drawn : opaqueNumber ≤ 2 ^ 32

def SendArgs.message (args : SendArgs) : Message where
  cmd := args.cmd.toNat
  key := args.key
  val := args.val
  opaqueNumber := args.opaqueNumber
  extraHeader := some args.extraHeader
  cas := some args.cas.toNat
  vbucketId := args.vbucketId.toNat
  scope := none
  collection := none
  extendedMetaData := args.extendedMetaData
  extraHeaderLength := none

def SendArgs.body (args : SendArgs) : Bytes :=
  args.extraHeader.wire ++ args.key.wire ++ args.val.wire ++ args.extendedMetaData.wire

/-- A header of 24 bytes whose keylen, extlen and bodylen are those of the bytes behind it. -/
def SendsItsLengths (python : Python) (client : Client) (args : SendArgs) : Prop :=
  ∃ header, sendMsg python client args.message = .ok (.bytes (header ++ args.body)) ∧
    header.length = 24 ∧ (unpack pktFmt header)[2]? = some args.key.wire.length ∧
    (unpack pktFmt header)[3]? = some args.extraHeader.wire.length ∧
    (unpack pktFmt header)[6]? = some args.body.length

/-- The opaque fits its field and every part reaches the wire under its own length. -/
def SendArgs.Plain (python : Python) (args : SendArgs) : Prop :=
  args.opaqueNumber < 2 ^ 32 ∧ args.key.Plain python ∧ args.extraHeader.Plain python ∧
    args.val.Plain python ∧ args.extendedMetaData.Plain python

theorem SendArgs.length_body (args : SendArgs) : args.body.length = args.extraHeader.wire.length +
    args.key.wire.length + args.val.wire.length + args.extendedMetaData.wire.length := by
  simp only [SendArgs.body, List.length_append]

/-- Only the opaque can be too large for the header. -/
theorem SendArgs.fits_iff (args : SendArgs) :
    Fits pktFmt (headerFields args.message args.key args.extraHeader args.cas.toNat) ↔
      args.opaqueNumber < 2 ^ 32 := by
  have cmd := args.cmd.toNat_lt
  have vbucket := args.vbucketId.toNat_lt
  have cas := args.cas.toNat_lt
  have key := args.key.len_le_length_wire
  have extra := args.extraHeader.len_le_length_wire
  have val := args.val.len_le_length_wire
  have extended := args.extendedMetaData.len_le_length_wire
  have keyShort := args.key_short
  have extraShort := args.extraHeader_short
  have bodyShort := args.body_short
  simp only [Fits, pktFmt, headerFields, SendArgs.message, reqMagicByte, Option.getD_none,
    List.forall₂_cons, List.Forall₂.nil, and_true]
  omega

/-- The header of the packet, the lengths as Python counts them. -/
def SendArgs.header (args : SendArgs) : List Nat :=
  headerFields args.message args.key args.extraHeader args.cas.toNat

theorem SendArgs.sendMsg_eq_ok {python : Python} {client : Client} {args : SendArgs}
    {packet : PyText} :
    sendMsg python client args.message = .ok packet ↔ args.opaqueNumber < 2 ^ 32 ∧
      args.key.Encodes python ∧ args.extraHeader.Encodes python ∧ args.val.Encodes python ∧
      args.extendedMetaData.Encodes python ∧
      packet = .bytes (record pktFmt args.header ++ args.body) := by
  rw [Memcached.sendMsg_eq_ok, ← args.fits_iff]
  constructor
  · rintro ⟨key, extraHeader, cas, prefixed, extra, number, parts⟩
    cases prefixed
    cases extra
    cases number
    exact parts
  · intro parts
    exact ⟨args.key, args.extraHeader, args.cas.toNat, rfl, rfl, rfl, parts⟩

theorem sendsItsLengths_iff (python : Python) (client : Client) (args : SendArgs) :
    SendsItsLengths python client args ↔ args.Plain python := by
  have total := args.length_body
  have lengths : ∀ text : PyText, text.Plain python ↔
      text.Encodes python ∧ text.wire.length = text.len := fun _ => PyText.plain_iff
  rw [SendArgs.Plain, lengths, lengths, lengths, lengths]
  constructor
  · rintro ⟨header, sent, -, keylen, extlen, bodylen⟩
    obtain ⟨small, keyEncodes, extraEncodes, valEncodes, metaEncodes, packet⟩ :=
      SendArgs.sendMsg_eq_ok.mp sent
    have written : header = record pktFmt args.header :=
      List.append_cancel_right (PyText.bytes.inj packet)
    have fields := unpack_record (args.fits_iff.mpr small) []
    rw [List.append_nil, ← SendArgs.header, ← written] at fields
    rw [fields] at keylen extlen bodylen
    have sameKey : args.key.len = args.key.wire.length := Option.some.inj keylen
    have sameExtra : args.extraHeader.len = args.extraHeader.wire.length := Option.some.inj extlen
    have sameBody : args.key.len + args.extraHeader.len + args.val.len +
        args.extendedMetaData.len = args.body.length := Option.some.inj bodylen
    -- No part is longer in Python than on the wire, so that the sum leaves no room either.
    have val := args.val.len_le_length_wire
    have extended := args.extendedMetaData.len_le_length_wire
    exact ⟨small, ⟨keyEncodes, by omega⟩, ⟨extraEncodes, by omega⟩, ⟨valEncodes, by omega⟩,
      metaEncodes, by omega⟩
  · rintro ⟨small, ⟨keyEncodes, keylen⟩, ⟨extraEncodes, extlen⟩, ⟨valEncodes, vallen⟩,
      metaEncodes, metalen⟩
    have fits := args.fits_iff.mpr small
    refine ⟨record pktFmt args.header, SendArgs.sendMsg_eq_ok.mpr ⟨small, keyEncodes, extraEncodes,
      valEncodes, metaEncodes, rfl⟩, length_record fits, ?_⟩
    have fields := unpack_record fits []
    rw [List.append_nil, ← SendArgs.header] at fields
    rw [fields, total, keylen, extlen, vallen, metalen]
    refine ⟨rfl, rfl, congrArg some ?_⟩
    show args.key.len + args.extraHeader.len + args.val.len + args.extendedMetaData.len = _
    omega

/-! ## What is received -/

inductive Magic where
  | request
  | response
  | altRequest
  | altResponse
  deriving DecidableEq

def Magic.byte : Magic → Nat
  | request => reqMagicByte
  | response => resMagicByte
  | altRequest => altReqMagicByte
  | altResponse => altResMagicByte

def Magic.alternative : Magic → Bool
  | request | response => false
  | altRequest | altResponse => true

/-- A well-formed frame.  The key is shorter than 256 bytes in the alternative framing, which has
    framing extras in front of the extras. -/
structure Frame where
  magic : Magic
  cmd : UInt8
  framingExtras : UInt8
  keylen : UInt16
  extralen : UInt8
  dtype : UInt8
  errcode : UInt16
  opaqueNumber : UInt32
  cas : UInt64
  body : Bytes
  keylen_lt : magic.alternative → keylen.toNat < 2 ^ 8
  body_lt : body.length < 2 ^ 32
  parts_le : (if magic.alternative then framingExtras.toNat else 0) + keylen.toNat +
    extralen.toNat ≤ body.length

def Frame.fmt (frame : Frame) : List Nat :=
  if frame.magic.alternative then altPktFmt else pktFmt

def Frame.fields (frame : Frame) : List Nat :=
  if frame.magic.alternative then
    [frame.magic.byte, frame.cmd.toNat, frame.framingExtras.toNat, frame.keylen.toNat,
      frame.extralen.toNat, frame.dtype.toNat, frame.errcode.toNat, frame.body.length,
      frame.opaqueNumber.toNat, frame.cas.toNat]
  else
    [frame.magic.byte, frame.cmd.toNat, frame.keylen.toNat, frame.extralen.toNat,
      frame.dtype.toNat, frame.errcode.toNat, frame.body.length, frame.opaqueNumber.toNat,
      frame.cas.toNat]

def Frame.bytes (frame : Frame) : Bytes :=
  record frame.fmt frame.fields ++ frame.body

def Frame.received (frame : Frame) : Received where
  cmd := frame.cmd.toNat
  errcode := frame.errcode.toNat
  opaqueNumber := frame.opaqueNumber.toNat
  cas := frame.cas.toNat
  keylen := frame.keylen.toNat
  extralen := frame.extralen.toNat
  dtype := frame.dtype.toNat
  body := frame.body

theorem Frame.fits (frame : Frame) : Fits frame.fmt frame.fields := by
  have cmd := frame.cmd.toNat_lt
  have framing := frame.framingExtras.toNat_lt
  have keylen := frame.keylen.toNat_lt
  have keylenAlt := frame.keylen_lt
  have extralen := frame.extralen.toNat_lt
  have dtype := frame.dtype.toNat_lt
  have errcode := frame.errcode.toNat_lt
  have opaqueNumber := frame.opaqueNumber.toNat_lt
  have cas := frame.cas.toNat_lt
  have body := frame.body_lt
  have magic : frame.magic.byte < 256 := by
    cases frame.magic <;> decide
  unfold Frame.fmt Frame.fields
  split
  · rename_i alternative
    have keylenAlt := keylenAlt alternative
    simp only [Fits, altPktFmt, List.forall₂_cons, List.Forall₂.nil, and_true]
    omega
  · simp only [Fits, pktFmt, List.forall₂_cons, List.Forall₂.nil, and_true]
    omega

theorem Frame.length_header (frame : Frame) :
    (record frame.fmt frame.fields).length = minRecvPacket := by
  rw [length_record frame.fits, Frame.fmt]
  split <;> rfl

theorem recvExactly_reads (client : Client) {need : Nat} {response wanted rest : Bytes}
    {chunks : Socket} (nonempty : ∀ chunk ∈ chunks, chunk ≠ [])
    (whole : chunks.flatten = wanted ++ rest) (enough : response.length + wanted.length = need) :
    ∃ left, recvExactly client need response chunks = .ok (response ++ wanted, left) ∧
      (∀ chunk ∈ left, chunk ≠ []) ∧ left.flatten = rest := by
  induction chunks generalizing response wanted with
  | nil =>
    obtain ⟨rfl, rfl⟩ := List.append_eq_nil_iff.mp whole.symm
    have full : ¬ response.length < need := by
      rw [← enough, List.length_nil]
      omega
    exact ⟨[], by rw [recvExactly, if_neg full, List.append_nil], by simp, rfl⟩
  | cons chunk chunks ih =>
    have tail : ∀ other ∈ chunks, other ≠ [] := fun other member =>
      nonempty other (List.mem_cons_of_mem _ member)
    have filled := nonempty chunk List.mem_cons_self
    have missing : need - response.length = wanted.length := by omega
    rw [recvExactly, missing]
    by_cases full : wanted = []
    · subst full
      have done : ¬ response.length < need := by
        rw [← enough, List.length_nil]
        omega
      rw [if_neg done, List.append_nil]
      exact ⟨chunk :: chunks, rfl, nonempty, whole⟩
    · have less : response.length < need := by
        have := List.length_pos_iff.mpr full
        omega
      rw [if_pos less, if_neg filled]
      rw [List.flatten_cons] at whole
      by_cases short : chunk.length ≤ wanted.length
      · -- The chunk is a part of what is wanted.
        obtain ⟨more, rfl⟩ : chunk <+: wanted :=
          List.prefix_of_prefix_length_le ⟨_, whole⟩ ⟨_, rfl⟩ short
        rw [List.append_assoc] at whole
        rw [if_pos short, ← List.append_assoc]
        apply ih tail (List.append_cancel_left whole)
        rw [← enough]
        simp only [List.length_append]
        omega
      · obtain ⟨more, rfl⟩ : wanted <+: chunk :=
          List.prefix_of_prefix_length_le ⟨_, rfl⟩ ⟨_, whole⟩ (by omega)
        have left : more ≠ [] := by
          rintro rfl
          simp at short
        rw [if_neg short, List.take_left, List.drop_left]
        rw [List.append_assoc] at whole
        refine ⟨more :: chunks, rfl, ?_, List.append_cancel_left whole⟩
        intro other member
        rcases List.mem_cons.mp member with rfl | member
        · exact left
        · exact tail other member

theorem Frame.take_magic (frame : Frame) :
    beNat ((record frame.fmt frame.fields).take 1) = frame.magic.byte := by
  have magic : frame.magic.byte < 256 := by
    cases frame.magic <;> decide
  have first : (record frame.fmt frame.fields).take 1 = beBytes 1 frame.magic.byte := by
    unfold Frame.fmt Frame.fields
    split <;> rfl
  rw [first, beNat_beBytes]
  exact Nat.mod_eq_of_lt magic

theorem Magic.known (magic : Magic) :
    magic.byte ∈ [resMagicByte, reqMagicByte, altResMagicByte, altReqMagicByte] := by
  cases magic <;> decide

theorem Magic.alternative_iff (magic : Magic) :
    (magic.byte = altResMagicByte ∨ magic.byte = altReqMagicByte) ↔ magic.alternative := by
  cases magic <;> decide

/-- `_recvMsg` once the header of a frame is in. -/
theorem recvMsg_header (client : Client) (frame : Frame) {chunks : Socket} {rest : Bytes}
    (nonempty : ∀ chunk ∈ chunks, chunk ≠ []) (whole : chunks.flatten = frame.bytes ++ rest) :
    ∃ left, (∀ chunk ∈ left, chunk ≠ []) ∧ left.flatten = frame.body ++ rest ∧
      recvMsg client chunks = (do
        let (received, remaining) ← assignHeader frame.fields
        let (body, socket) ← recvExactly client remaining [] left
        pure ({ received with body := body }, socket)) := by
  rw [Frame.bytes, List.append_assoc] at whole
  obtain ⟨left, read, filled, remaining⟩ := recvExactly_reads client nonempty whole
    (by rw [List.length_nil, Nat.zero_add, frame.length_header])
  refine ⟨left, filled, remaining, ?_⟩
  have fields := unpack_record frame.fits []
  rw [List.append_nil] at fields
  have fmt : (if frame.magic.byte = altResMagicByte ∨ frame.magic.byte = altReqMagicByte
      then altPktFmt else pktFmt) = frame.fmt := by
    rw [Frame.fmt]
    simp only [frame.magic.alternative_iff]
  have known := frame.magic.known
  rw [recvMsg, read]
  simp only [List.nil_append, frame.take_magic, fmt, fields, bind, Except.bind]
  rw [if_neg (not_not.mpr known)]

theorem recvMsg_plain (client : Client) {frame : Frame} (plain : frame.magic.alternative = false)
    {chunks : Socket} {rest : Bytes} (nonempty : ∀ chunk ∈ chunks, chunk ≠ [])
    (whole : chunks.flatten = frame.bytes ++ rest) :
    ∃ left, recvMsg client chunks = .ok (frame.received, left) ∧
      (∀ chunk ∈ left, chunk ≠ []) ∧ left.flatten = rest := by
  obtain ⟨middle, filled, remaining, received⟩ := recvMsg_header client frame nonempty whole
  obtain ⟨left, read, filled, remaining⟩ := recvExactly_reads client filled remaining
    (by rw [List.length_nil, Nat.zero_add])
  refine ⟨left, ?_, filled, remaining⟩
  rw [received, Frame.fields, plain]
  simp only [Bool.false_eq_true, if_false, assignHeader, bind, Except.bind, read, List.nil_append]
  rfl

/-- Ten fields do not go into nine names. -/
theorem recvMsg_alternative (client : Client) {frame : Frame}
    (alternative : frame.magic.alternative = true) {chunks : Socket} {rest : Bytes}
    (nonempty : ∀ chunk ∈ chunks, chunk ≠ []) (whole : chunks.flatten = frame.bytes ++ rest) :
    recvMsg client chunks = .error (.valueError "too many values to unpack") := by
  obtain ⟨middle, filled, remaining, received⟩ := recvMsg_header client frame nonempty whole
  rw [received, Frame.fields, alternative]
  rfl

/-- A byte stream in the chunks in which `recv` hands it out. -/
structure Cut (stream : Bytes) where
  chunks : Socket
  nonempty : ∀ chunk ∈ chunks, chunk ≠ []
  whole : chunks.flatten = stream

def streamOf (frames : List Frame) : Bytes :=
  (frames.map Frame.bytes).flatten

/-- As many calls as there are frames return the frames and leave what follows them. -/
def ReadsBack (client : Client) (frames : List Frame) (rest : Bytes) (socket : Socket) : Prop :=
  ∃ left, recvMsgs client frames.length socket = .ok (frames.map Frame.received, left) ∧
    left.flatten = rest

theorem framesReadBack_iff (client : Client) (frames : List Frame) (rest : Bytes)
    (cut : Cut (streamOf frames ++ rest)) :
    ReadsBack client frames rest cut.chunks ↔
      ∀ frame ∈ frames, frame.magic.alternative = false := by
  induction frames with
  | nil => simpa [ReadsBack, recvMsgs, streamOf] using cut.whole
  | cons frame frames ih =>
    have whole : cut.chunks.flatten = frame.bytes ++ (streamOf frames ++ rest) := by
      rw [cut.whole, ← List.append_assoc]
      rfl
    rw [ReadsBack, List.length_cons, recvMsgs, List.forall_mem_cons]
    cases alternative : frame.magic.alternative with
    | true =>
      rw [recvMsg_alternative client alternative cut.nonempty whole]
      simp [bind, Except.bind]
    | false =>
      obtain ⟨left, read, filled, remaining⟩ :=
        recvMsg_plain client alternative cut.nonempty whole
      rw [← ih ⟨left, filled, remaining⟩, read]
      simp only [ReadsBack, true_and]
      constructor
      · rintro ⟨after, returned, ended⟩
        obtain ⟨first, same, returned⟩ := bind_eq_ok.mp returned
        cases same
        obtain ⟨⟨more, socket⟩, again, made⟩ := bind_eq_ok.mp returned
        cases made
        exact ⟨_, again, ended⟩
      · rintro ⟨after, again, ended⟩
        exact ⟨after, bind_eq_ok.mpr ⟨_, rfl, bind_eq_ok.mpr ⟨_, again, rfl⟩⟩, ended⟩

/-- Framing: what is sent carries its own lengths exactly when the opaque fits its field and every
    part is plain for the interpreter, and a stream is read back exactly when no frame of it has
    the alternative framing. -/
theorem framing_iff (python : Python) (client : Client) :
    (∀ args, SendsItsLengths python client args ↔ args.Plain python) ∧
    ∀ frames rest, ∀ cut : Cut (streamOf frames ++ rest),
      ReadsBack client frames rest cut.chunks ↔
        ∀ frame ∈ frames, frame.magic.alternative = false :=
  ⟨sendsItsLengths_iff python client, framesReadBack_iff client⟩

/-- A `get` of one key, with the last opaque that can be drawn. -/
def lastOpaque : SendArgs where
  cmd := 0
  key := .unicode ['k']
  val := .unicode []
  extraHeader := .unicode []
  extendedMetaData := .unicode []
  cas := 0
  vbucketId := 0
  opaqueNumber := 2 ^ 32
  key_short := by decide
  extraHeader_short := by decide
  body_short := by decide
  drawn := le_refl _

/-- A response without a body in the alternative framing. -/
def altResponse : Frame where
  magic := .altResponse
  cmd := 0
  framingExtras := 0
  keylen := 0
  extralen := 0
  dtype := 0
  errcode := 0
  opaqueNumber := 0
  cas := 0
  body := []
  keylen_lt := by decide
  body_lt := by decide
  parts_le := by decide

theorem last_opaque_and_altResponse_fail :
    ¬ SendsItsLengths .two collectionsClient lastOpaque ∧
    ¬ ReadsBack collectionsClient [altResponse] [] [altResponse.bytes] := by
  constructor
  · rintro ⟨header, sent, -⟩
    obtain ⟨small, -⟩ := SendArgs.sendMsg_eq_ok.mp sent
    exact absurd small (by decide)
  · rintro ⟨left, returned, -⟩
    cases returned

end Taf.Memcached
