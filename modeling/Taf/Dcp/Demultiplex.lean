import Mathlib
import Taf.Dcp.Operations

/-! # Demultiplexing of a DCP connection

`_handle_op` and `recv_op` of `lib/dcp_bin_client.py`: one loop reads the messages of a connection
and hands each of them to the operation with its opaque.  The connection is the bytes that have not
been read and what happens when they are used up. -/

namespace Taf.Dcp.Connection

open Taf.Lib Taf.Memcached

/-! ## One message -/

/-- What `_recvMsg` does: the bytes run out, it raises behind what it has read, or it returns. -/
inductive Receipt where
  | ended
  | failed (text : String) (rest : Bytes)
  | message (received : Received) (rest : Bytes)

/-- `_recvMsg` on the bytes of a connection, in whatever chunks they arrive -/
def receive (unread : Bytes) : Receipt :=
  let header := unread.take minRecvPacket
  let behind := unread.drop minRecvPacket
  let magic := beNat (header.take 1)
  if unread.length < minRecvPacket then .ended
  else if magic ∉ [resMagicByte, reqMagicByte, altResMagicByte, altReqMagicByte] then
    .failed (gotMagic magic) behind
  else
    match assignHeader (unpack
      (if magic = altResMagicByte ∨ magic = altReqMagicByte then altPktFmt else pktFmt) header) with
    | .error e => .failed (errorText e) behind
    | .ok fields =>
      if behind.length < fields.2 then .ended
      else .message { fields.1 with body := behind.take fields.2 } (behind.drop fields.2)

theorem recvExactly_short (client : Client) {need : Nat} {response : Bytes} {chunks : Socket}
    (nonempty : ∀ chunk ∈ chunks, chunk ≠ [])
    (few : response.length + chunks.flatten.length < need) :
    recvExactly client need response chunks =
      .error (.eofError ("Got empty data (remote died?). from " ++ client.host)) := by
  induction chunks generalizing response with
  | nil =>
    rw [recvExactly, if_pos (by simpa using few)]
  | cons chunk chunks ih =>
    rw [List.flatten_cons, List.length_append] at few
    have wanted : response.length < need := by omega
    have fits : chunk.length ≤ need - response.length := by omega
    rw [recvExactly, if_pos wanted, if_neg (nonempty chunk List.mem_cons_self), if_pos fits]
    apply ih fun other member => nonempty other (List.mem_cons_of_mem _ member)
    rw [List.length_append]
    omega

/-- A call of `_recvMsg` on chunks goes as `receive` says of their bytes. -/
def Agrees (client : Client) (chunks : Socket) : Receipt → Prop
  | .ended => recvMsg client chunks =
      .error (.eofError ("Got empty data (remote died?). from " ++ client.host))
  | .failed text _ => ∃ e, recvMsg client chunks = .error e ∧ errorText e = text
  | .message received rest => ∃ left, recvMsg client chunks = .ok (received, left) ∧
      (∀ chunk ∈ left, chunk ≠ []) ∧ left.flatten = rest

theorem recvMsg_agrees (client : Client) {chunks : Socket}
    (nonempty : ∀ chunk ∈ chunks, chunk ≠ []) :
    Agrees client chunks (receive chunks.flatten) := by
  unfold receive
  simp only
  by_cases few : chunks.flatten.length < minRecvPacket
  · rw [if_pos few, Agrees, recvMsg, recvExactly_short client nonempty (by simpa using few)]
    rfl
  · have enough : (chunks.flatten.take minRecvPacket).length = minRecvPacket := by
      rw [List.length_take]
      omega
    obtain ⟨left, read, filled, remaining⟩ := recvExactly_reads client nonempty
      (List.take_append_drop minRecvPacket chunks.flatten).symm
      (show ([] : Bytes).length + _ = minRecvPacket by simpa using enough)
    rw [if_neg few, ← remaining]
    split
    · rename_i unknown
      refine ⟨.assertionError _, ?_, rfl⟩
      rw [recvMsg, read]
      simp only [List.nil_append, bind, Except.bind, if_pos unknown]
      rfl
    · rename_i known
      have rest : recvMsg client chunks = (do
          let header ← assignHeader (unpack (if beNat ((chunks.flatten.take minRecvPacket).take 1) =
            altResMagicByte ∨ beNat ((chunks.flatten.take minRecvPacket).take 1) = altReqMagicByte
            then altPktFmt else pktFmt) (chunks.flatten.take minRecvPacket))
          let received ← recvExactly client header.2 [] left
          pure ({ header.1 with body := received.1 }, received.2)) := by
        rw [recvMsg, read]
        simp only [List.nil_append, bind, Except.bind, if_neg known]
      split
      · rename_i e raised
        refine ⟨e, ?_, rfl⟩
        rw [rest, raised]
        rfl
      · rename_i fields assigned
        rw [assigned] at rest
        split
        · rename_i short
          have ended := recvExactly_short client filled
            (show ([] : Bytes).length + _ < fields.2 by simpa using short)
          rw [Agrees, rest]
          simp only [bind, Except.bind, ended]
        · rename_i whole
          have exact : (left.flatten.take fields.2).length = fields.2 := by
            rw [List.length_take]
            omega
          obtain ⟨after, body, filled, remaining⟩ := recvExactly_reads client filled
            (List.take_append_drop fields.2 left.flatten).symm
            (show ([] : Bytes).length + _ = fields.2 by simpa using exact)
          refine ⟨after, ?_, filled, remaining⟩
          rw [rest]
          simp only [bind, Except.bind, body, List.nil_append]
          rfl

/-- The values of the tuple that `_recvMsg` returns -/
inductive Item where
  | int (number : Nat)
  | bytes (content : Bytes)

def returnedTuple (received : Received) : List Item :=
  [.int received.cmd, .int received.errcode, .int received.opaqueNumber, .int received.cas,
    .int received.keylen, .int received.extralen, .int received.dtype, .bytes received.body]

/-- `opcode, status, opaque, cas, keylen, extlen, dtype, body, frameextralen = ...` -/
def assignNine : List Item → Raises Incoming
  | [.int opcode, .int status, .int opaqueNumber, .int cas, .int keylen, .int extlen, .int dtype,
      .bytes body, .int frameextralen] =>
    .ok { opcode := opcode, status := status, opaqueNumber := opaqueNumber, cas := cas,
          keylen := keylen, extlen := extlen, dtype := dtype, body := body,
          frameextralen := frameextralen }
  | items =>
    if items.length < 9 then
      .error ("need more than " ++ toString items.length ++ " values to unpack")
    else .error "too many values to unpack"

/-! ## The client -/

structure DcpClient where
  base : Client
  ops : AList fun _ : Nat => Operation
  streamTimeout : Bool
  /-- what the server has sent and nobody has read -/
  unread : Bytes
  /-- the exception of `recv` when nothing is left; `none` if the peer has closed the connection -/
  ending : Option String
  /-- what was handed to `sendall` -/
  sent : List PyText

def DcpClient.send (client : DcpClient) (packet : PyText) : DcpClient :=
  { client with sent := client.sent ++ [packet] }

def DcpClient.eofText (client : DcpClient) : String :=
  client.ending.getD ("Got empty data (remote died?). from " ++ client.base.host)

/-- `queue.put` on an operation that is registered under a number -/
def DcpClient.put (client : DcpClient) (number : Nat) (cached : Operation) (response : Response) :
    DcpClient :=
  let longer := { cached with queue := cached.queue ++ [response] }
  { client with ops := client.ops.insert number longer }

def streamAck (number : Nat) : Bytes :=
  record pktFmt [resMagicByte, cmdStreamReq, 0, 0, 0, 0, 16, number, 0] ++
    -- `struct.pack("<QQ", 123456, 0)`
    ((beBytes 8 123456).reverse ++ (beBytes 8 0).reverse)

def ackStreamReq (client : DcpClient) (number : Nat) : DcpClient :=
  client.send (.bytes (streamAck number))

def ackDcpNoopReq (client : DcpClient) (number : Nat) : Raises DcpClient := do
  let noop ← cmdDcpNoop
  let header ← packedExtras pktFmt [resMagicByte, noop, 0, 0, 0, 0, 0, number, 0]
  pure (client.send header)

def DcpClient.sendOp (client : DcpClient) (op : Operation) : Except PyError DcpClient := do
  let client := { client with base := { client.base with vbucketId := op.vbucket } }
  let packet ← sendCmd .two client.base op.opcode op.key op.value op.opaqueNumber (some op.extras)
    (some 0) none none
  pure (client.send packet)

inductive Dispatched where
  | returned (response : Response)
  | again (client : DcpClient)

/-- The body of the loop of `recv_op` once the message is there -/
def dispatch (client : DcpClient) (op : Operation) (incoming : Incoming) : Raises Dispatched :=
  if incoming.opaqueNumber = op.opaqueNumber then
    (formatedResponse op.kind incoming).map .returned
  else
    match client.ops.lookup incoming.opaqueNumber with
    | some cached => (formatedResponse cached.kind incoming).map fun response =>
        .again (client.put incoming.opaqueNumber cached response)
    | none =>
      if incoming.opcode = cmdFlowControl then .ok (.again client)
      else if incoming.opcode = cmdStreamReq then
        .ok (.again (ackStreamReq client incoming.opaqueNumber))
      else do
        let noop ← cmdDcpNoop
        if incoming.opcode = noop then
          let client ← ackDcpNoopReq client incoming.opaqueNumber
          pure (.again client)
        else pure (.again client)

def Contains (part text : String) : Prop :=
  part.toList <:+: text.toList

instance (part text : String) : Decidable (Contains part text) :=
  inferInstanceAs (Decidable (part.toList <:+: text.toList))

/-- `{'opcode': op.opcode, 'status': 0xff}` -/
def diedResponse (op : Operation) : Response :=
  assignAll [("opcode", .int op.opcode), ("status", .int 0xff)] ∅

/-- `except Exception as ex` -/
def handleException (client : DcpClient) (op : Operation) (text : String) :
    Option Response × DcpClient :=
  if Contains "died" text then (some (diedResponse op), client)
  else if Contains "Timeout" text then (none, { client with streamTimeout := true })
  else (none, client)

theorem dispatch_unread {client next : DcpClient} {op : Operation} {incoming : Incoming}
    (done : dispatch client op incoming = .ok (.again next)) : next.unread = client.unread := by
  unfold dispatch at done
  split at done
  · cases formatted : formatedResponse op.kind incoming <;> rw [formatted] at done <;> cases done
  · split at done
    · rename_i cached _
      cases formatted : formatedResponse cached.kind incoming <;> rw [formatted] at done <;>
        cases done
      rfl
    · split at done
      · cases done
        rfl
      · split at done
        · cases done
          rfl
        · cases done

theorem receive_message_length {unread rest : Bytes} {received : Received}
    (read : receive unread = .message received rest) : rest.length < unread.length := by
  unfold receive at read
  simp only at read
  split at read
  · cases read
  · rename_i long
    split at read
    · cases read
    · split at read
      · cases read
      · split at read
        · cases read
        · cases read
          have positive : 0 < minRecvPacket := by decide
          simp only [List.length_drop]
          omega

def recvOp (client : DcpClient) (op : Operation) : Option Response × DcpClient :=
  if client.streamTimeout then (none, client)
  else
    match _read : receive client.unread with
    | .ended => handleException { client with unread := [] } op client.eofText
    | .failed text rest => handleException { client with unread := rest } op text
    | .message received rest =>
      match assignNine (returnedTuple received) with
      | .error text => handleException { client with unread := rest } op text
      | .ok incoming =>
        match _done : dispatch { client with unread := rest } op incoming with
        | .error text => handleException { client with unread := rest } op text
        | .ok (.returned response) => (some response, { client with unread := rest })
        | .ok (.again next) => recvOp next op
termination_by client.unread.length
decreasing_by
  rw [dispatch_unread _done]
  exact receive_message_length _read

/-- The loop of `_handle_op`; a response is never an empty dictionary. -/
def handleLoop (op : Operation) : Nat → DcpClient → Option Response × DcpClient
  | 0, client => (none, client)
  | retries + 1, client =>
    match recvOp client op with
    | (some response, client) => (some response, client)
    | (none, client) => handleLoop op retries client

def handleOp (client : DcpClient) (op : Operation) (retries : Nat) :
    Except PyError (Option Response × DcpClient) := do
  let client ← { client with ops := client.ops.insert op.opaqueNumber op }.sendOp op
  pure (handleLoop op retries client)

/-! ## What `recv_op` comes down to -/

theorem assignNine_returnedTuple (received : Received) :
    assignNine (returnedTuple received) = .error "need more than 8 values to unpack" := by
  show Except.error ("need more than " ++ toString 8 ++ " values to unpack") = _
  exact congrArg _ (by decide +kernel)

/-- A letter that is missing in the text -/
theorem not_contains {part text : String} {c : Char} (inPart : c ∈ part.toList) (missing : c ∉ text.toList) :
    ¬ Contains part text := by
  intro inside
  exact missing (inside.subset inPart)

theorem gotMagic_toList (magic : Nat) :
    (gotMagic magic).toList = "Got magic: 0x".toList ++ Nat.toDigits 16 magic := by
  simp only [gotMagic, String.toList_append, String.toList_ofList]

theorem gotMagic_plain : ∀ magic < 256,
    ¬ Contains "died" (gotMagic magic) ∧ ¬ Contains "Timeout" (gotMagic magic) := by
  intro magic small
  have noCapital : ∀ magic < 256, 'T' ∉ (gotMagic magic).toList := by
    simp only [gotMagic_toList]
    decide +kernel
  have noWord : ∀ magic < 256, ¬ Contains "died" (gotMagic magic) := by
    simp only [Contains, gotMagic_toList]
    decide +kernel
  exact ⟨noWord magic small, not_contains (by simp) (noCapital magic small)⟩

theorem assignHeader_error {fields : List Nat} {e : PyError}
    (raised : assignHeader fields = .error e) : e = .valueError "too many values to unpack" := by
  unfold assignHeader at raised
  split at raised <;> cases raised
  rfl

theorem beNat_lt (content : Bytes) : beNat content < 256 ^ content.length := by
  induction content with
  | nil => exact Nat.one_pos
  | cons byte content ih =>
    have small := byte.toNat_lt
    rw [beNat, List.length_cons, Nat.pow_succ]
    nlinarith

/-- An exception of `_recvMsg` that is not about the end of the connection -/
theorem receive_failed {unread rest : Bytes} {text : String}
    (read : receive unread = .failed text rest) :
    rest.length < unread.length ∧ ¬ Contains "died" text ∧ ¬ Contains "Timeout" text := by
  have positive : 0 < minRecvPacket := by decide
  unfold receive at read
  simp only at read
  split at read
  · cases read
  · rename_i long
    have shorter : (unread.drop minRecvPacket).length < unread.length := by
      rw [List.length_drop]
      omega
    split at read
    · cases read
      have byte : beNat ((unread.take minRecvPacket).take 1) < 256 := by
        have bound := beNat_lt ((unread.take minRecvPacket).take 1)
        have one : ((unread.take minRecvPacket).take 1).length ≤ 1 := List.length_take_le _ _
        exact bound.trans_le (Nat.pow_le_pow_right (by omega) one)
      exact ⟨shorter, gotMagic_plain _ byte⟩
    · split at read
      · rename_i raised
        cases read
        rw [assignHeader_error raised]
        exact ⟨shorter, not_contains (c := 'i') (by simp) (by simp [errorText]),
          not_contains (c := 'T') (by simp) (by simp [errorText])⟩
      · split at read <;> cases read

def Receipt.rest : Receipt → Option Bytes
  | .ended => none
  | .failed _ rest => some rest
  | .message _ rest => some rest

theorem receive_rest_length {unread rest : Bytes} (left : (receive unread).rest = some rest) :
    rest.length < unread.length := by
  cases read : receive unread with
  | ended =>
    rw [read] at left
    cases left
  | failed text behind =>
    rw [read] at left
    cases left
    exact (receive_failed read).1
  | message received behind =>
    rw [read] at left
    cases left
    exact receive_message_length read

/-- How many calls of `_recvMsg` it takes to find the end of a connection -/
def receivesToEnd (unread : Bytes) : Nat :=
  match _left : (receive unread).rest with
  | none => 1
  | some rest => receivesToEnd rest + 1
termination_by unread.length
decreasing_by exact receive_rest_length _left

theorem receivesToEnd_eq (unread : Bytes) : receivesToEnd unread =
    match (receive unread).rest with
    | none => 1
    | some rest => receivesToEnd rest + 1 := by
  rw [receivesToEnd]
  split <;> simp [*]

/-- A frame of the plain framing is returned; of the alternative one only the header is read. -/
theorem receive_frame (frame : Frame) (rest : Bytes) : receive (frame.bytes ++ rest) =
    if frame.magic.alternative then .failed "too many values to unpack" (frame.body ++ rest)
    else .message frame.received rest := by
  have long := frame.length_header
  have header : (frame.bytes ++ rest).take minRecvPacket = record frame.fmt frame.fields := by
    rw [Frame.bytes, List.append_assoc, ← long, List.take_left]
  have behind : (frame.bytes ++ rest).drop minRecvPacket = frame.body ++ rest := by
    rw [Frame.bytes, List.append_assoc, ← long, List.drop_left]
  have enough : ¬ (frame.bytes ++ rest).length < minRecvPacket := by
    rw [Frame.bytes, List.length_append, List.length_append, long]
    omega
  have fmt : (if frame.magic.byte = altResMagicByte ∨ frame.magic.byte = altReqMagicByte
      then altPktFmt else pktFmt) = frame.fmt := by
    rw [Frame.fmt]
    simp only [frame.magic.alternative_iff]
  have fields := unpack_record frame.fits []
  rw [List.append_nil] at fields
  unfold receive
  simp only [header, behind, frame.take_magic, fmt, fields]
  rw [if_neg enough, if_neg (not_not.mpr frame.magic.known), Frame.fields]
  cases frame.magic.alternative with
  | true => rfl
  | false =>
    have whole : ¬ (frame.body ++ rest).length < frame.body.length := by
      rw [List.length_append]
      omega
    simp only [Bool.false_eq_true, if_false, assignHeader, if_neg whole, List.take_left,
      List.drop_left]
    rfl

theorem receivesToEnd_frame {frame : Frame} (plain : frame.magic.alternative = false) :
    receivesToEnd frame.bytes = 2 := by
  have read := receive_frame frame []
  have none : receivesToEnd [] = 1 := by
    rw [receivesToEnd_eq]
    rfl
  rw [List.append_nil, plain] at read
  rw [receivesToEnd_eq, read]
  exact congrArg (· + 1) none

/-- A message is never dispatched: it is read, the assignment raises, and there is no response. -/
theorem recvOp_eq {client : DcpClient} (op : Operation) (running : client.streamTimeout = false) :
    recvOp client op =
      match (receive client.unread).rest with
      | none => handleException { client with unread := [] } op client.eofText
      | some rest => (none, { client with unread := rest }) := by
  rw [recvOp, if_neg (by simp [running])]
  split
  · rename_i read
    rw [read]
    rfl
  · rename_i text rest read
    obtain ⟨-, living, inTime⟩ := receive_failed read
    rw [read, handleException, if_neg living, if_neg inTime]
    rfl
  · rename_i received rest read
    rw [read]
    split
    · rename_i text raised
      rw [assignNine_returnedTuple] at raised
      cases raised
      rw [handleException, if_neg (not_contains (c := 'i') (by simp) (by simp)),
        if_neg (not_contains (c := 'T') (by simp) (by simp))]
      rfl
    · rename_i incoming assigned
      rw [assignNine_returnedTuple] at assigned
      cases assigned

theorem recvOp_timedOut {client : DcpClient} (op : Operation) (late : client.streamTimeout = true) :
    recvOp client op = (none, client) := by
  rw [recvOp, if_pos late]

theorem handleLoop_timedOut (op : Operation) (retries : Nat) {client : DcpClient}
    (late : client.streamTimeout = true) : handleLoop op retries client = (none, client) := by
  induction retries with
  | zero => rfl
  | succ retries ih =>
    rw [handleLoop, recvOp_timedOut op late]
    exact ih

/-- The connection is found closed within the retries. -/
def FindsEnd (client : DcpClient) (retries : Nat) : Prop :=
  client.streamTimeout = false ∧ Contains "died" client.eofText ∧
    receivesToEnd client.unread ≤ retries

/-- What a run of the loop does: whatever the messages are, it sends nothing, queues nothing and
    answers only when it finds the connection closed. -/
structure LoopSpec (op : Operation) (retries : Nat) (client : DcpClient)
    (result : Option Response × DcpClient) : Prop where
  response : ∀ response, result.1 = some response ↔
    FindsEnd client retries ∧ response = diedResponse op
  ops : result.2.ops = client.ops
  sent : result.2.sent = client.sent
  unread : FindsEnd client retries → result.2.unread = []

theorem LoopSpec.silent {op : Operation} {retries : Nat} {client after : DcpClient}
    (never : ¬ FindsEnd client retries) (ops : after.ops = client.ops)
    (sent : after.sent = client.sent) : LoopSpec op retries client (none, after) where
  response _ := by simp [never]
  ops := ops
  sent := sent
  unread found := absurd found never

theorem receivesToEnd_pos (unread : Bytes) : 0 < receivesToEnd unread := by
  rw [receivesToEnd_eq]
  cases (receive unread).rest with
  | none => exact Nat.one_pos
  | some rest => exact Nat.succ_pos _

theorem handleException_lost {client : DcpClient} (op : Operation) {text : String}
    (living : ¬ Contains "died" text) :
    ∃ timeout, handleException client op text =
      (none, { client with streamTimeout := timeout }) := by
  rw [handleException, if_neg living]
  split
  · exact ⟨_, rfl⟩
  · exact ⟨client.streamTimeout, rfl⟩

theorem handleLoop_spec (op : Operation) (retries : Nat) (client : DcpClient) :
    LoopSpec op retries client (handleLoop op retries client) := by
  induction retries generalizing client with
  | zero =>
    apply LoopSpec.silent _ rfl rfl
    rintro ⟨-, -, few⟩
    exact absurd few (Nat.not_le.mpr (receivesToEnd_pos _))
  | succ retries ih =>
    cases late : client.streamTimeout with
    | true =>
      rw [handleLoop_timedOut op _ late]
      apply LoopSpec.silent _ rfl rfl
      rintro ⟨running, -⟩
      rw [late] at running
      cases running
    | false =>
      rw [handleLoop, recvOp_eq op late]
      have count := receivesToEnd_eq client.unread
      cases left : (receive client.unread).rest with
      | some rest =>
        rw [left] at count
        -- One message is lost, and one retry with it.
        have same : FindsEnd client (retries + 1) ↔
            FindsEnd { client with unread := rest } retries := by
          simp only [FindsEnd, count, Nat.add_le_add_iff_right]
          exact Iff.rfl
        obtain ⟨response, ops, sent, unread⟩ := ih { client with unread := rest }
        exact ⟨fun _ => by rw [same]; exact response _, ops, sent, fun found => unread (same.mp found)⟩
      | none =>
        have once : receivesToEnd client.unread = 1 := by rw [count, left]
        by_cases died : Contains "died" client.eofText
        · have found : FindsEnd client (retries + 1) := ⟨late, died, by rw [once]; omega⟩
          rw [handleException, if_pos died]
          refine ⟨fun _ => ?_, rfl, rfl, fun _ => rfl⟩
          simp [found, eq_comm]
        · obtain ⟨timeout, raised⟩ := handleException_lost op died
          rw [raised]
          have never : ¬ FindsEnd client (retries + 1) := fun found => died found.2.1
          -- Every later call finds the same end, or does not even look for it.
          obtain ⟨response, ops, sent, -⟩ :=
            ih { client with unread := [], streamTimeout := timeout }
          have silent : (handleLoop op retries
              { client with unread := [], streamTimeout := timeout }).1 = none := by
            apply Option.eq_none_iff_forall_ne_some.mpr
            intro answer answered
            exact died ((response answer).mp answered).1.2.1
          exact ⟨fun answer => by simp [never, silent], ops, sent, fun found => absurd found never⟩

/-! ## Which operations answer like a closed connection -/

theorem diedResponse_names {op : Operation} {name : String}
    (found : ((diedResponse op).lookup name).isSome) : name = "opcode" ∨ name = "status" := by
  rw [diedResponse, lookup_assignAll_isSome] at found
  simpa using found

theorem bodyResponse_ne_died {op : Operation} {name : String} {incoming : Incoming}
    (other : name ≠ "opcode" ∧ name ≠ "status") : bodyResponse name incoming ≠ diedResponse op := by
  intro same
  have found : ((bodyResponse name incoming).lookup name).isSome := by
    rw [bodyResponse, lookup_assignAll_isSome]
    simp
  rw [same] at found
  exact (diedResponse_names found).elim other.1 other.2

theorem streamResponse_streamId {options : StreamOptions} {incoming : Incoming} {response : Response}
    (formatted : streamResponse options incoming = .ok response) :
    (response.lookup "streamId").isSome := by
  unfold streamResponse at formatted
  obtain ⟨marked, _, formatted⟩ := bind_eq_ok.mp formatted
  obtain ⟨streamId, _, formatted⟩ := bind_eq_ok.mp formatted
  obtain ⟨split, _, formatted⟩ := bind_eq_ok.mp formatted
  obtain ⟨keyed, _, formatted⟩ := bind_eq_ok.mp formatted
  cases formatted
  rw [lookup_assignAll_isSome]
  simp

/-- Only a `Quit` can answer with no more than an opcode and a status. -/
theorem formatedResponse_eq_died {drawn : Nat} {kind : OperationClass} {op : Operation}
    (made : Operation.new drawn kind = .ok op) {incoming : Incoming} :
    formatedResponse kind incoming = .ok (diedResponse op) ↔
      kind = .quit ∧ incoming.opcode = cmdQuit ∧ incoming.status = 0xff := by
  constructor
  · intro formatted
    cases kind with
    | openConsumer name => exact absurd (Except.ok.inj formatted) (bodyResponse_ne_died (by decide))
    | openProducer name xattr deleteTimes =>
      exact absurd (Except.ok.inj formatted) (bodyResponse_ne_died (by decide))
    | openNotifier name => exact absurd (Except.ok.inj formatted) (bodyResponse_ne_died (by decide))
    | closeStream vbucket =>
      exact absurd (Except.ok.inj formatted) (bodyResponse_ne_died (by decide))
    | addStream vbucket takeover => cases formatted
    | streamRequest vbucket takeover startSeqno endSeqno vbUuid snapStart snapEnd collections
        deleteTimes json =>
      exact absurd (diedResponse_names (streamResponse_streamId formatted)) (by decide)
    | getFailoverLog vbucket =>
      rw [formatedResponse] at formatted
      obtain ⟨entries, _, made⟩ := bind_eq_ok.mp formatted
      have found : ((diedResponse op).lookup "value").isSome := by
        rw [← Except.ok.inj made, lookup_assignAll_isSome]
        simp
      exact absurd (diedResponse_names found) (by decide)
    | flowControl bufferSize => cases made
    | generalControl key value => cases made
    | ack nbytes => cases made
    | quit =>
      cases made
      have same := Except.ok.inj formatted
      have opcode := congrArg (AList.lookup "opcode") same
      have status := congrArg (AList.lookup "status") same
      have apart : "opcode" ≠ "status" := by decide
      simp only [diedResponse, assignAll, List.foldl_cons, List.foldl_nil,
        AList.lookup_insert_ne apart, AList.lookup_insert, Option.some.injEq, Value.int.injEq]
        at opcode status
      exact ⟨rfl, opcode, status⟩
  · rintro ⟨rfl, opcode, status⟩
    cases made
    rw [formatedResponse, opcode, status]
    rfl

/-! ## Demultiplexing -/

/-- A message as the arguments that `formated_response` is meant to get -/
def incomingOf (frame : Frame) : Incoming where
  opcode := frame.cmd.toNat
  status := frame.errcode.toNat
  opaqueNumber := frame.opaqueNumber.toNat
  cas := frame.cas.toNat
  keylen := frame.keylen.toNat
  extlen := frame.extralen.toNat
  dtype := frame.dtype.toNat
  body := frame.body
  frameextralen := if frame.magic.alternative then frame.framingExtras.toNat else 0

def noopAck (number : Nat) : Bytes :=
  record pktFmt [resMagicByte, cmdUprNoop, 0, 0, 0, 0, 0, number, 0]

/-- What is sent for a message that no operation waits for -/
def acknowledgements (client : DcpClient) (frame : Frame) : List PyText :=
  if (client.ops.lookup frame.opaqueNumber.toNat).isSome then []
  else if frame.cmd.toNat = cmdStreamReq then [.bytes (streamAck frame.opaqueNumber.toNat)]
  else if frame.cmd.toNat = cmdUprNoop then [.bytes (noopAck frame.opaqueNumber.toNat)]
  else []

/-- The messages on a connection up to the response to an operation: they are for other operations
    in flight, or stream requests or NOOPs of the server. -/
structure Interleaved (client : DcpClient) (op : Operation) (before : List Frame) (response : Frame)
    (later : List Frame) : Prop where
  waiting : client.unread = streamOf (before ++ response :: later)
  mine : response.opaqueNumber.toNat = op.opaqueNumber
  others : ∀ frame ∈ before, frame.opaqueNumber.toNat ≠ op.opaqueNumber
  known : ∀ frame ∈ before, (client.ops.lookup frame.opaqueNumber.toNat).isSome ∨
    frame.cmd.toNat = cmdStreamReq ∨ frame.cmd.toNat = cmdUprNoop

/-- The formatted messages for one operation, in arrival order -/
def formattedFor (kind : OperationClass) (number : Nat) (frames : List Frame) :
    Raises (List Response) :=
  (frames.filter fun frame => frame.opaqueNumber.toNat = number).mapM fun frame =>
    formatedResponse kind (incomingOf frame)

/-- The call returns the formatted response, every message in front of it is on the queue of its
    operation or acknowledged, and nothing behind it is read. -/
def Demultiplexed (client : DcpClient) (op : Operation) (retries : Nat) (before : List Frame)
    (response : Frame) (later : List Frame) : Prop :=
  ∃ formatted request after, handleOp client op retries = .ok (some formatted, after) ∧
    formatedResponse op.kind (incomingOf response) = .ok formatted ∧
    (∀ number cached, number ≠ op.opaqueNumber → client.ops.lookup number = some cached →
      ∃ responses, formattedFor cached.kind number before = .ok responses ∧
        after.ops.lookup number = some { cached with queue := cached.queue ++ responses }) ∧
    after.sent = client.sent ++ request :: before.flatMap (acknowledgements client) ∧
    after.unread = streamOf later

/-- A `Quit` whose response, alone on the connection, says what a closed connection is answered
    with, and the connection is found closed within the retries. -/
def ClosedBehindQuit (client : DcpClient) (kind : OperationClass) (retries : Nat)
    (before : List Frame) (response : Frame) (later : List Frame) : Prop :=
  kind = .quit ∧ before = [] ∧ later = [] ∧ response.cmd.toNat = cmdQuit ∧
    response.errcode.toNat = 0xff ∧ client.streamTimeout = false ∧
    Contains "died" client.eofText ∧ receivesToEnd client.unread ≤ retries

theorem handleOp_eq_ok {client after : DcpClient} {op : Operation} {retries : Nat}
    {formatted : Response} (handled : handleOp client op retries = .ok (some formatted, after)) :
    ∃ packet, FindsEnd client retries ∧ formatted = diedResponse op ∧
      after.ops = client.ops.insert op.opaqueNumber op ∧
      after.sent = client.sent ++ [packet] ∧ after.unread = [] := by
  obtain ⟨sending, sent, looped⟩ := bind_eq_ok.mp handled
  obtain ⟨packet, _, made⟩ := bind_eq_ok.mp sent
  cases made
  have result := Except.ok.inj looped
  obtain ⟨response, ops, same, unread⟩ := handleLoop_spec op retries _
  rw [result] at response ops same unread
  obtain ⟨found, died⟩ := (response formatted).mp rfl
  exact ⟨packet, found, died, ops, same, unread found⟩

theorem formattedFor_eq_nil {kind : OperationClass} {number : Nat} {frames : List Frame}
    (none : formattedFor kind number frames = .ok []) :
    ∀ frame ∈ frames, frame.opaqueNumber.toNat ≠ number := by
  unfold formattedFor at none
  cases mine : frames.filter fun frame => frame.opaqueNumber.toNat = number with
  | nil => simpa using List.filter_eq_nil_iff.mp mine
  | cons frame rest =>
    rw [mine, List.mapM_cons] at none
    obtain ⟨response, _, none⟩ := bind_eq_ok.mp none
    obtain ⟨responses, _, none⟩ := bind_eq_ok.mp none
    cases none

/-- A message in front of the response is neither queued nor acknowledged. -/
theorem before_eq_nil {client after : DcpClient} {op : Operation} {before : List Frame}
    {request packet : PyText}
    (others : ∀ frame ∈ before, frame.opaqueNumber.toNat ≠ op.opaqueNumber)
    (known : ∀ frame ∈ before, (client.ops.lookup frame.opaqueNumber.toNat).isSome ∨
      frame.cmd.toNat = cmdStreamReq ∨ frame.cmd.toNat = cmdUprNoop)
    (queued : ∀ number cached, number ≠ op.opaqueNumber → client.ops.lookup number = some cached →
      ∃ responses, formattedFor cached.kind number before = .ok responses ∧
        after.ops.lookup number = some { cached with queue := cached.queue ++ responses })
    (ops : after.ops = client.ops.insert op.opaqueNumber op)
    (acknowledged : client.sent ++ [packet] =
      client.sent ++ request :: before.flatMap (acknowledgements client)) : before = [] := by
  obtain ⟨-, quiet⟩ := List.cons.inj (List.append_cancel_left acknowledged)
  apply List.eq_nil_iff_forall_not_mem.mpr
  intro frame member
  have silent := List.flatMap_eq_nil_iff.mp quiet.symm frame member
  cases registered : client.ops.lookup frame.opaqueNumber.toNat with
  | none =>
    rw [acknowledgements, registered] at silent
    have known := known frame member
    rw [registered] at known
    rcases known with known | stream | noop
    · cases known
    · simp [stream] at silent
    · rw [noop] at silent
      simp [show cmdUprNoop ≠ cmdStreamReq by decide] at silent
  | some cached =>
    obtain ⟨responses, formatted, found⟩ := queued _ cached (others frame member) registered
    rw [ops, AList.lookup_insert_ne (others frame member), registered] at found
    have same := congrArg Operation.queue (Option.some.inj found)
    have none : responses = [] := by simpa using same
    subst none
    have absent := formattedFor_eq_nil formatted frame member
    exact absent rfl

theorem streamOf_eq_nil {frames : List Frame} (none : streamOf frames = []) : frames = [] := by
  cases frames with
  | nil => rfl
  | cons frame frames =>
    have long := frame.length_header
    have short := congrArg List.length none
    simp only [streamOf, List.map_cons, List.flatten_cons, Frame.bytes, List.length_append,
      List.length_nil] at short
    have positive : 0 < minRecvPacket := by decide
    omega

/-- A `Quit` can be sent under every opaque of a message. -/
theorem sendOp_quit (client : DcpClient) {drawn : Nat} (small : drawn < 2 ^ 32) :
    ∃ packet base,
      client.sendOp (Operation.init .quit drawn cmdQuit emptyText emptyText emptyText 0) =
        .ok { client with base := base, sent := client.sent ++ [packet] } ∧
      base.host = client.base.host := by
  have encodes : emptyText.Encodes .two := by
    right
    simp [emptyText, PyText.str, PyText.Plain, AsciiBytes]
  have fits : Fits pktFmt [reqMagicByte, cmdQuit, 0, 0, 0, 0, 0, drawn, 0] := by
    simp only [Fits, pktFmt, reqMagicByte, cmdQuit, List.forall₂_cons, List.Forall₂.nil, and_true]
    omega
  obtain ⟨packet, sent⟩ : ∃ packet, sendCmd .two { client.base with vbucketId := 0 } cmdQuit
      emptyText emptyText drawn (some emptyText) (some 0) none none = .ok packet :=
    ⟨_, sendMsg_eq_ok.mpr ⟨emptyText, emptyText, 0, rfl, rfl, rfl, fits, encodes, encodes, encodes,
      encodes, rfl⟩⟩
  exact ⟨packet, _, bind_eq_ok.mpr ⟨packet, sent, rfl⟩, rfl⟩

theorem openOperation_kind {kind : OperationClass} {drawn flags : Nat} {name : PyText}
    {op : Operation} (made : openOperation kind drawn name flags = .ok op) : op.kind = kind := by
  obtain ⟨extras, _, made⟩ := bind_eq_ok.mp made
  cases made
  rfl

theorem Operation.new_kind {drawn : Nat} {kind : OperationClass} {op : Operation}
    (made : Operation.new drawn kind = .ok op) : op.kind = kind := by
  cases kind with
  | openConsumer name => exact openOperation_kind made
  | openProducer name xattr deleteTimes => exact openOperation_kind made
  | openNotifier name => exact openOperation_kind made
  | closeStream vbucket =>
    cases made
    rfl
  | addStream vbucket takeover =>
    obtain ⟨extras, _, made⟩ := bind_eq_ok.mp made
    cases made
    rfl
  | streamRequest vbucket takeover startSeqno endSeqno vbUuid snapStart snapEnd collections
      deleteTimes json =>
    obtain ⟨extras, _, made⟩ := bind_eq_ok.mp made
    cases made
    rfl
  | getFailoverLog vbucket =>
    cases made
    rfl
  | flowControl bufferSize => cases made
  | generalControl key value => cases made
  | ack nbytes => cases made
  | quit =>
    cases made
    rfl

theorem handleOp_quit {client : DcpClient} {drawn retries : Nat} (small : drawn < 2 ^ 32)
    (found : FindsEnd client retries) :
    let op := Operation.init .quit drawn cmdQuit emptyText emptyText emptyText 0
    ∃ packet after, handleOp client op retries = .ok (some (diedResponse op), after) ∧
      after.ops = client.ops.insert drawn op ∧ after.sent = client.sent ++ [packet] ∧
      after.unread = [] := by
  intro op
  obtain ⟨packet, base, sent, host⟩ := sendOp_quit
    ({ client with ops := client.ops.insert drawn op } : DcpClient) small
  let sending : DcpClient :=
    { client with ops := client.ops.insert drawn op, base := base, sent := client.sent ++ [packet] }
  obtain ⟨response, ops, packets, unread⟩ := handleLoop_spec op retries sending
  have again : FindsEnd sending retries := by
    obtain ⟨running, died, few⟩ := found
    refine ⟨running, ?_, few⟩
    rw [DcpClient.eofText, host]
    exact died
  have answered := (response _).mpr ⟨again, rfl⟩
  refine ⟨packet, _, bind_eq_ok.mpr ⟨_, sent, ?_⟩, ops, packets, unread again⟩
  exact congrArg Except.ok (Prod.ext answered rfl)

theorem handleOp_demultiplexes_iff {drawn : Nat} {kind : OperationClass} {op : Operation}
    (made : Operation.new drawn kind = .ok op) (client : DcpClient) (retries : Nat)
    {before : List Frame} {response : Frame} {later : List Frame}
    (stream : Interleaved client op before response later) :
    Demultiplexed client op retries before response later ↔
      ClosedBehindQuit client kind retries before response later := by
  have same := Operation.new_kind made
  constructor
  · rintro ⟨formatted, request, after, handled, formatting, queued, sent, unread⟩
    obtain ⟨packet, ⟨running, died, few⟩, rfl, ops, packets, empty⟩ := handleOp_eq_ok handled
    rw [same] at formatting
    obtain ⟨quit, opcode, status⟩ := (formatedResponse_eq_died made).mp formatting
    rw [packets] at sent
    rw [empty] at unread
    exact ⟨quit, before_eq_nil stream.others stream.known queued ops sent,
      streamOf_eq_nil unread.symm, opcode, status, running, died, few⟩
  · rintro ⟨rfl, rfl, rfl, opcode, status, running, died, few⟩
    have formatted : formatedResponse .quit (incomingOf response) = .ok (diedResponse op) :=
      (formatedResponse_eq_died made).mpr ⟨rfl, opcode, status⟩
    have small : op.opaqueNumber < 2 ^ 32 := by
      rw [← stream.mine]
      exact response.opaqueNumber.toNat_lt
    cases made
    obtain ⟨packet, after, handled, ops, sent, unread⟩ :=
      handleOp_quit small ⟨running, died, few⟩
    refine ⟨_, packet, after, handled, formatted, ?_, sent, unread⟩
    intro number cached other registered
    refine ⟨[], rfl, ?_⟩
    rw [ops, AList.lookup_insert_ne other, registered, List.append_nil]


/-- A response without a body -/
def emptyResponse (cmd : UInt8) (errcode : UInt16) : Frame where
  magic := .response
  cmd := cmd
  framingExtras := 0
  keylen := 0
  extralen := 0
  dtype := 0
  errcode := errcode
  opaqueNumber := 1
  cas := 0
  body := []
  keylen_lt := fun _ => Nat.two_pow_pos 8
  body_lt := Nat.two_pow_pos 32
  parts_le := le_refl 0

/-- A client without operations in flight whose connection holds one message -/
def singleMessage (ending : Option String) (frame : Frame) : DcpClient where
  base := Client.new "127.0.0.1"
  ops := ∅
  streamTimeout := false
  unread := streamOf [frame]
  ending := ending
  sent := []

theorem interleaved_single {op : Operation} (ending : Option String) {frame : Frame}
    (mine : frame.opaqueNumber.toNat = op.opaqueNumber) :
    Interleaved (singleMessage ending frame) op [] frame [] where
  waiting := rfl
  mine := mine
  others := by simp
  known := by simp

theorem handleOp_demultiplexes_quit :
    Demultiplexed (singleMessage none (emptyResponse 7 0xff))
      (Operation.init .quit 1 cmdQuit emptyText emptyText emptyText 0) 5 []
      (emptyResponse 7 0xff) [] := by
  have made : Operation.new 1 .quit =
      .ok (Operation.init .quit 1 cmdQuit emptyText emptyText emptyText 0) := rfl
  have few : receivesToEnd (streamOf [emptyResponse 7 0xff]) ≤ 5 := by
    rw [streamOf, List.map_cons, List.map_nil, List.flatten_cons, List.flatten_nil,
      List.append_nil, receivesToEnd_frame rfl]
    omega
  exact (handleOp_demultiplexes_iff made _ _ (interleaved_single none rfl)).mpr
    ⟨rfl, rfl, rfl, rfl, rfl, rfl, by decide +kernel, few⟩

def producer : OperationClass := .openProducer (.str .two "p") false false

theorem handleOp_loses_response : ∃ op, Operation.new 1 producer = .ok op ∧
    Interleaved (singleMessage (some "timed out") (emptyResponse 0x50 0)) op []
      (emptyResponse 0x50 0) [] ∧
    ¬ Demultiplexed (singleMessage (some "timed out") (emptyResponse 0x50 0)) op 5 []
      (emptyResponse 0x50 0) [] := by
  refine ⟨_, rfl, interleaved_single _ rfl, ?_⟩
  rintro ⟨formatted, request, after, handled, -⟩
  obtain ⟨packet, ⟨-, died, -⟩, -⟩ := handleOp_eq_ok handled
  exact absurd died (by decide +kernel)

end Taf.Dcp.Connection
