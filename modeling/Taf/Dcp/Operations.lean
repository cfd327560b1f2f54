import Mathlib
import Taf.Lib.Dict
import Taf.Memcached.Requests

/-! # DCP operations and their responses

The `Operation` classes of `lib/dcp_bin_client.py`: what their constructors put on the wire, and
`formated_response` of each of them.  The file runs under Python 2 only, and an exception is the
text that `str(ex)` gives. -/

namespace Taf.Dcp.Connection

open Taf.Lib Taf.Memcached

def cmdQuit : Nat := 0x07
def cmdOpen : Nat := 0x50
def cmdAddStream : Nat := 0x51
def cmdCloseStream : Nat := 0x52
def cmdStreamReq : Nat := 0x53
def cmdGetFailoverLog : Nat := 0x54
def cmdStreamEnd : Nat := 0x55
def cmdSnapshotMarker : Nat := 0x56
def cmdMutation : Nat := 0x57
def cmdDeletion : Nat := 0x58
def cmdExpiration : Nat := 0x59
/-- `CMD_UPR_NOOP`; the opcode table calls it `CMD_DCP_NOOP`. -/
def cmdUprNoop : Nat := 0x5c
def cmdFlowControl : Nat := 0x5e
def cmdSystemEvent : Nat := 0x5f

def datatypeXattr : Nat := 0x4

abbrev Raises := Except String

/-- A name that no module of the repository defines -/
def undefinedName (name : String) : Raises Nat :=
  .error ("global name '" ++ name ++ "' is not defined")

def cmdDcpNoop : Raises Nat := undefinedName "CMD_DCP_NOOP"
def cmdControl : Raises Nat := undefinedName "CMD_CONTROL"
def cmdDcpAck : Raises Nat := undefinedName "CMD_DCP_ACK"

/-- `str` of the exceptions that the functions of the memcached client raise, without the values
    that some of them show -/
def errorText : PyError → String
  | .indexError => "array index out of range"
  | .structError => "integer out of range for format code"
  | .unicodeDecodeError => "'ascii' codec can't decode byte"
  | .unicodeEncodeError => "'ascii' codec can't encode character"
  | .valueError text | .runtimeError text | .eofError text | .assertionError text => text
  | .attributeError | .typeError | .keyError | .nameError | .zeroDivisionError => ""

/-! ## Slices and fixed formats -/

/-- `body[first:last]` -/
def slice (body : Bytes) (first last : Nat) : Bytes :=
  (body.drop first).take (last - first)

/-- `struct.unpack` -/
def structUnpack (widths : List Nat) (content : Bytes) : Raises (List Nat) :=
  if content.length = widths.sum then .ok (unpack widths content)
  else .error ("unpack requires a string argument of length " ++ toString widths.sum)

/-- `assert condition, text` -/
def assert (condition : Bool) (text : String) : Raises Unit :=
  if condition then .ok () else .error text

/-! ## Responses -/

inductive Value where
  | int (number : Nat)
  | bytes (content : Bytes)
  | text (content : String)
  | none
  | failoverLog (entries : List (Nat × Nat))
  | xattrs (pairs : List (Bytes × Bytes))
  deriving DecidableEq

/-- The dictionary that `formated_response` returns -/
abbrev Response := AList fun _ : String => Value

/-- The arguments of `formated_response` -/
structure Incoming where
  opcode : Nat
  status : Nat
  opaqueNumber : Nat
  cas : Nat
  keylen : Nat
  extlen : Nat
  dtype : Nat
  body : Bytes
  frameextralen : Nat
  deriving DecidableEq

/-- The three fields most classes return: the body goes under a name of their own. -/
def bodyResponse (name : String) (incoming : Incoming) : Response :=
  assignAll [("opcode", .int incoming.opcode), ("status", .int incoming.status),
    (name, .bytes incoming.body)] ∅

/-- `while bodylen > pos: vb_uuid, seqno = struct.unpack(">QQ", body[pos:pos + 16])` -/
def failoverEntries (body : Bytes) : Raises (List (Nat × Nat)) :=
  if body = [] then .ok []
  else do
    let entry ← structUnpack [8, 8] (body.take 16)
    let more ← failoverEntries (body.drop 16)
    pure ((entry.headD 0, entry.getD 1 0) :: more)
termination_by body.length
decreasing_by
  have := List.length_pos_iff.mpr ‹_›
  rw [List.length_drop]
  omega

def readFailoverLog (body : Bytes) : Raises (List (Nat × Nat)) := do
  assert (body.length % 16 = 0) ""
  failoverEntries body

/-- The log in a response to `GetFailoverLog` -/
def failoverLogOf (incoming : Incoming) : Raises (List (Nat × Nat)) :=
  if incoming.status = 0 then readFailoverLog incoming.body else .ok []

/-! ## `StreamRequest` -/

/-- What a stream request keeps for its responses -/
structure StreamOptions where
  collectionFiltering : Bool
  deleteTimes : Bool
  deriving DecidableEq

/-- `parse_extended_attributes`, where `value` is what stands from `pos` on -/
def parseExtendedAttributes (totLen pos : Nat) (value : Bytes) : Raises (List (Bytes × Bytes)) :=
  if pos < totLen then
    if value.length < 4 then .error "unpack requires a string argument of length 4"
    else
      let tail := value.drop 4
      match tail.findIdx? (· == 0) with
      | .none => .error "string index out of range"
      | .some keyEnd =>
        let second := tail.drop (keyEnd + 1)
        match second.findIdx? (· == 0) with
        | .none => .error "string index out of range"
        | .some valueEnd => do
          let more ← parseExtendedAttributes totLen (pos + 4 + keyEnd + 1 + valueEnd + 1)
            (second.drop (valueEnd + 1))
          pure ((tail.take keyEnd, second.take valueEnd) :: more)
  else .ok []
termination_by value.length
decreasing_by
  simp only [List.length_drop]
  omega

def formatStreamReq (response : Response) (status : Nat) (body : Bytes) : Raises Response := do
  let response := assignAll [("status", .int status), ("failover_log", .failoverLog []),
    ("err_msg", .none)] response
  if status = 0 then
    let entries ← readFailoverLog body
    pure (response.insert "failover_log" (.failoverLog entries))
  else if status = 35 then
    let seqno ← structUnpack [4, 4] body
    pure (assignAll [("by_seqno", .int (seqno.headD 0)), ("rollback", .int (seqno.getD 1 0))]
      response)
  else pure (response.insert "err_msg" (.bytes body))

/-- The extras of a message: their length is checked, and the fields go under the given names
    (`""` for a field that is dropped). -/
def formatExtras (name : String) (names : List String) (widths : List Nat) (response : Response)
    (incoming : Incoming) : Raises Response := do
  assert (incoming.extlen = widths.sum)
    (name ++ " with incorrect extlen:" ++ toString incoming.extlen)
  let fields ← structUnpack widths
    (slice incoming.body incoming.frameextralen (incoming.frameextralen + widths.sum))
  pure (assignAll (((names.zip fields).filter fun field => field.1 ≠ "").map fun field =>
    (field.1, .int field.2)) response)

def formatStreamEnd : Response → Incoming → Raises Response :=
  formatExtras "Stream End" ["flags"] [4]

def formatMutation : Response → Incoming → Raises Response :=
  formatExtras "Mutation"
    ["by_seqno", "rev_seqno", "flags", "expiration", "lock_time", "", "nru"] [8, 8, 4, 4, 4, 2, 1]

def formatDeletion (options : StreamOptions) : Response → Incoming → Raises Response :=
  if options.deleteTimes then
    formatExtras "Deletion" ["by_seqno", "rev_seqno", "delete_time", ""] [8, 8, 4, 1]
  else formatExtras "Deletion" ["by_seqno", "rev_seqno", ""] [8, 8, 2]

def formatExpiry (options : StreamOptions) (response : Response) (incoming : Incoming) :
    Raises Response := do
  assert options.deleteTimes "Delete times must be enabled to support expiration"
  formatExtras "Expiry" ["by_seqno", "rev_seqno", "delete_time"] [8, 8, 4] response incoming

def snapshotFlag : Nat → Raises String
  | 1 => .ok "memory"
  | 2 => .ok "disk"
  | 5 => .ok "memory-checkpoint"
  | 6 => .ok "disk-checkpoint"
  -- a `KeyError`
  | flag => .error (toString flag)

def formatSnapshotMarker (response : Response) (incoming : Incoming) : Raises Response := do
  let marked ← formatExtras "Snapshot" ["snap_start_seqno", "snap_end_seqno", ""] [8, 8, 4]
    response incoming
  let flag ← snapshotFlag (beNat (slice incoming.body (incoming.frameextralen + 16)
    (incoming.frameextralen + 20)))
  pure (marked.insert "flag" (.text flag))

def formatSystemEvent : Response → Incoming → Raises Response :=
  formatExtras "System event" ["by_seqno", "event", "version"] [8, 4, 1]

/-- The branches on the opcode; an unknown opcode passes, since the assertion there is on a text. -/
def formatByOpcode (options : StreamOptions) (response : Response) (incoming : Incoming) :
    Raises Response :=
  if incoming.opcode = cmdStreamReq then formatStreamReq response incoming.status incoming.body
  else if incoming.opcode = cmdStreamEnd then formatStreamEnd response incoming
  else if incoming.opcode = cmdMutation then formatMutation response incoming
  else if incoming.opcode = cmdDeletion then formatDeletion options response incoming
  else if incoming.opcode = cmdExpiration then formatExpiry options response incoming
  else if incoming.opcode = cmdSnapshotMarker then formatSnapshotMarker response incoming
  else if incoming.opcode = cmdSystemEvent then formatSystemEvent response incoming
  else .ok response

def readStreamId (incoming : Incoming) : Raises Value :=
  if incoming.frameextralen ≠ 0 then do
    let fields ← structUnpack [1, 2] (incoming.body.take incoming.frameextralen)
    assert (fields.headD 0 = 0x22) ""
    pure (.int (fields.getD 1 0))
  else .ok .none

/-- The attributes in front of a value, and the value without them -/
def splitXattrs (dtype : Nat) (value : Bytes) : Raises (Value × Bytes) :=
  if dtype &&& datatypeXattr ≠ 0 then do
    let total ← structUnpack [4] (value.take 4)
    let pairs ← parseExtendedAttributes (total.headD 0) 0 (value.drop 4)
    pure (.xattrs pairs, value.drop (total.headD 0 + 4))
  else .ok (.none, value)

/-- The collection of a key, and the key without its prefix -/
def splitCollection (options : StreamOptions) (incoming : Incoming) (key : Bytes) :
    Raises (Nat × Bytes) :=
  if options.collectionFiltering ∧ incoming.keylen ≠ 0 then
    match decodeCollectionID (.bytes key) with
    | .error e => .error (errorText e)
    | .ok (cid, .bytes rest) => .ok (cid, rest)
    | .ok (cid, .unicode _) => .ok (cid, [])
  else .ok (0, key)

/-- The response with the collection of a document, and the key -/
def keyedResponse (options : StreamOptions) (incoming : Incoming) (response : Response)
    (key : Bytes) : Raises (Response × Bytes) :=
  if incoming.opcode ∈ [cmdExpiration, cmdDeletion, cmdMutation] then do
    let found ← splitCollection options incoming key
    pure (response.insert "collection_id" (.int found.1), found.2)
  else .ok (response, key)

def streamResponse (options : StreamOptions) (incoming : Incoming) : Raises Response := do
  let response : Response := assignAll [("vbucket", .int incoming.status),
    ("opcode", .int incoming.opcode), ("cas", .int incoming.cas),
    ("opaque", .int incoming.opaqueNumber)] ∅
  let response ← formatByOpcode options response incoming
  let streamId ← readStreamId incoming
  let keyStart := incoming.extlen + incoming.frameextralen
  let key := slice incoming.body keyStart (keyStart + incoming.keylen)
  let split ← splitXattrs incoming.dtype (incoming.body.drop (keyStart + incoming.keylen))
  let keyed ← keyedResponse options incoming (response.insert "xattrs" split.1) key
  pure (assignAll [("key", .bytes keyed.2), ("value", .bytes split.2), ("streamId", streamId)]
    keyed.1)

/-! ## The classes -/

/-- The subclasses of `Operation`, with the arguments of their constructors -/
inductive OperationClass where
  | openConsumer (name : PyText)
  | openProducer (name : PyText) (xattr deleteTimes : Bool)
  | openNotifier (name : PyText)
  | closeStream (vbucket : Nat)
  | addStream (vbucket takeover : Nat)
  | streamRequest (vbucket takeover startSeqno endSeqno vbUuid : Nat) (snapStart snapEnd : Option Nat)
      (collections deleteTimes : Bool) (json : PyText)
  | getFailoverLog (vbucket : Nat)
  | flowControl (bufferSize : Nat)
  | generalControl (key value : PyText)
  | ack (nbytes : Nat)
  | quit
  deriving DecidableEq

structure Operation where
  kind : OperationClass
  opcode : Nat
  key : PyText
  value : PyText
  extras : PyText
  vbucket : Nat
  opaqueNumber : Nat
  queue : List Response

/-- `Operation.__init__`; `drawn` is what `randint(0, 2 ** 32)` returns. -/
def Operation.init (kind : OperationClass) (drawn opcode : Nat) (key value extras : PyText)
    (vbucket : Nat) : Operation where
  kind := kind
  opcode := opcode
  key := key
  value := value
  extras := extras
  vbucket := vbucket
  opaqueNumber := drawn
  queue := []

def emptyText : PyText := .str .two ""

def packedExtras (widths values : List Nat) : Raises PyText :=
  (packExtras widths values).mapError errorText

/-- `Open.__init__` -/
def openOperation (kind : OperationClass) (drawn : Nat) (name : PyText) (flags : Nat) :
    Raises Operation := do
  let extras ← packedExtras [4, 4] [0, flags]
  pure (Operation.init kind drawn cmdOpen name emptyText extras 0)

def flagOpenProducer (xattr deleteTimes : Bool) : Nat :=
  0x01 ||| (if xattr then 0x4 else 0) ||| (if deleteTimes then 0x20 else 0)

/-- The constructors.  Three of them use names that are not defined. -/
def Operation.new (drawn : Nat) : OperationClass → Raises Operation
  | kind@(.openConsumer name) => openOperation kind drawn name 0x00
  | kind@(.openProducer name xattr deleteTimes) =>
    openOperation kind drawn name (flagOpenProducer xattr deleteTimes)
  | kind@(.openNotifier name) => openOperation kind drawn name 0x02
  | kind@(.closeStream vbucket) =>
    .ok (Operation.init kind drawn cmdCloseStream emptyText emptyText emptyText vbucket)
  | kind@(.addStream vbucket takeover) => do
    let extras ← packedExtras [4] [takeover]
    pure (Operation.init kind drawn cmdAddStream emptyText emptyText extras vbucket)
  | kind@(.streamRequest vbucket takeover startSeqno endSeqno vbUuid snapStart snapEnd _ _ json) => do
    let extras ← packedExtras [4, 4, 8, 8, 8, 8, 8]
      [takeover, 0, startSeqno, endSeqno, vbUuid, snapStart.getD startSeqno,
        snapEnd.getD startSeqno]
    pure (Operation.init kind drawn cmdStreamReq emptyText json extras vbucket)
  | kind@(.getFailoverLog vbucket) =>
    .ok (Operation.init kind drawn cmdGetFailoverLog emptyText emptyText emptyText vbucket)
  | kind@(.flowControl bufferSize) => do
    let opcode ← cmdControl
    pure (Operation.init kind drawn opcode (.str .two "connection_buffer_size")
      (.str .two (toString bufferSize)) emptyText 0)
  | kind@(.generalControl key value) => do
    let opcode ← cmdControl
    pure (Operation.init kind drawn opcode key value emptyText 0)
  | kind@(.ack nbytes) => do
    let opcode ← cmdDcpAck
    let extras ← packedExtras [4] [nbytes]
    pure (Operation.init kind drawn opcode emptyText emptyText extras 0)
  | kind@.quit => .ok (Operation.init kind drawn cmdQuit emptyText emptyText emptyText 0)

/-- `formated_response` -/
def formatedResponse (kind : OperationClass) (incoming : Incoming) : Raises Response :=
  match kind with
  | .openConsumer _ | .openProducer _ _ _ | .openNotifier _ => .ok (bodyResponse "body" incoming)
  | .closeStream _ => .ok (bodyResponse "value" incoming)
  -- It has no parameter `dtype`, and the caller passes one argument too many.
  | .addStream _ _ => .error "formated_response() takes exactly 9 arguments (10 given)"
  | .streamRequest _ _ _ _ _ _ _ collections deleteTimes _ =>
    streamResponse { collectionFiltering := collections, deleteTimes := deleteTimes } incoming
  | .getFailoverLog _ => do
    let entries ← failoverLogOf incoming
    pure (assignAll [("opcode", .int incoming.opcode), ("status", .int incoming.status),
      ("value", .failoverLog entries)] ∅)
  | .flowControl _ | .generalControl _ _ => .ok (bodyResponse "body" incoming)
  | .ack _ => .ok (bodyResponse "error" incoming)
  | .quit =>
    .ok (assignAll [("opcode", .int incoming.opcode), ("status", .int incoming.status)] ∅)

end Taf.Dcp.Connection
