import Taf.Dcp.Operations

/-! # Documents in a stream

What the protocol puts into a mutation, a deletion and an expiration, and what `StreamRequest` makes of
it.  The body of a message has five regions, each of which starts where the one before it ends: the frame
extras with the stream id, the extras, the key behind the id of its collection, the extended attributes,
and the value. -/

namespace Taf.Dcp.Connection

open Taf.Lib Taf.Memcached

/-! ## The protocol -/

/-- The extras of a message about a document.  A deletion has another layout where delete times are on. -/
inductive Change where
  | mutation (bySeqno revSeqno : UInt64) (flags expiry lockTime : UInt32) (nmeta : UInt16) (nru : UInt8)
  | deletion (bySeqno revSeqno : UInt64) (nmeta : UInt16)
  | timedDeletion (bySeqno revSeqno : UInt64) (deleteTime : UInt32) (unused : UInt8)
  | expiration (bySeqno revSeqno : UInt64) (deleteTime : UInt32)

namespace Change

/-- The messages that a server sends under the options of the stream -/
def Allowed (options : StreamOptions) : Change → Prop
  | mutation .. => True
  | deletion .. => options.deleteTimes = false
  | timedDeletion .. => options.deleteTimes = true
  | expiration .. => options.deleteTimes = true

def opcode : Change → Nat
  | mutation .. => cmdMutation
  | deletion .. => cmdDeletion
  | timedDeletion .. => cmdDeletion
  | expiration .. => cmdExpiration

def widths : Change → List Nat
  | mutation .. => [8, 8, 4, 4, 4, 2, 1]
  | deletion .. => [8, 8, 2]
  | timedDeletion .. => [8, 8, 4, 1]
  | expiration .. => [8, 8, 4]

def values : Change → List Nat
  | mutation bySeqno revSeqno flags expiry lockTime nmeta nru =>
    [bySeqno.toNat, revSeqno.toNat, flags.toNat, expiry.toNat, lockTime.toNat, nmeta.toNat, nru.toNat]
  | deletion bySeqno revSeqno nmeta => [bySeqno.toNat, revSeqno.toNat, nmeta.toNat]
  | timedDeletion bySeqno revSeqno deleteTime unused =>
    [bySeqno.toNat, revSeqno.toNat, deleteTime.toNat, unused.toNat]
  | expiration bySeqno revSeqno deleteTime => [bySeqno.toNat, revSeqno.toNat, deleteTime.toNat]

def extras (change : Change) : Bytes := record change.widths change.values

/-- What a reader of the message gets to see -/
def fields : Change → List (String × Value)
  | mutation bySeqno revSeqno flags expiry lockTime _ nru =>
    [("by_seqno", .int bySeqno.toNat), ("rev_seqno", .int revSeqno.toNat), ("flags", .int flags.toNat),
      ("expiration", .int expiry.toNat), ("lock_time", .int lockTime.toNat), ("nru", .int nru.toNat)]
  | deletion bySeqno revSeqno _ => [("by_seqno", .int bySeqno.toNat), ("rev_seqno", .int revSeqno.toNat)]
  | timedDeletion bySeqno revSeqno deleteTime _ | expiration bySeqno revSeqno deleteTime =>
    [("by_seqno", .int bySeqno.toNat), ("rev_seqno", .int revSeqno.toNat),
      ("delete_time", .int deleteTime.toNat)]

theorem fits (change : Change) : Fits change.widths change.values := by
  have long : ∀ n : UInt64, n.toNat < 256 ^ 8 := UInt64.toNat_lt
  have word : ∀ n : UInt32, n.toNat < 256 ^ 4 := UInt32.toNat_lt
  have half : ∀ n : UInt16, n.toNat < 256 ^ 2 := UInt16.toNat_lt
  have byte : ∀ n : UInt8, n.toNat < 256 ^ 1 := UInt8.toNat_lt
  cases change <;>
    simp only [Fits, widths, values, List.forall₂_cons, long, word, half, byte, List.Forall₂.nil, and_self]

end Change

/-- A name and a value, each up to a NUL, and their length in front -/
def xattrRecord (pair : Bytes × Bytes) : Bytes :=
  beBytes 4 (pair.1.length + pair.2.length + 2) ++ (pair.1 ++ 0 :: (pair.2 ++ [0]))

def xattrBlock (pairs : List (Bytes × Bytes)) : Bytes := pairs.flatMap xattrRecord

structure StreamMessage where
  change : Change
  collection : UInt32
  key : Bytes
  keyNonempty : key ≠ []
  dtype : UInt8
  xattrs : List (Bytes × Bytes)
  noNul : ∀ pair ∈ xattrs, 0 ∉ pair.1 ∧ 0 ∉ pair.2
  blockFits : (xattrBlock xattrs).length < 2 ^ 32
  value : Bytes
  streamId : Option UInt16
  vbucket : Nat
  cas : Nat
  opaqueNumber : Nat

namespace StreamMessage

variable (message : StreamMessage) (options : StreamOptions)

/-- The frame extras -/
def frame : Bytes :=
  match message.streamId with
  | some id => 0x22 :: beBytes 2 id.toNat
  | none => []

/-- The key, behind the id of its collection if the stream has collections -/
def wireKey : Bytes :=
  if options.collectionFiltering then leb128 message.collection.toNat ++ message.key else message.key

def hasXattrs : Bool := message.dtype.toNat &&& datatypeXattr ≠ 0

/-- The attributes in front of the value, of a datatype that has them -/
def attributes : Bytes :=
  if message.hasXattrs then beBytes 4 (xattrBlock message.xattrs).length ++ xattrBlock message.xattrs else []

def body : Bytes :=
  message.frame ++ (message.change.extras ++ (message.wireKey options ++ (message.attributes ++ message.value)))

/-- The message as it is handed to `formated_response` -/
def incoming : Incoming where
  opcode := message.change.opcode
  status := message.vbucket
  opaqueNumber := message.opaqueNumber
  cas := message.cas
  keylen := (message.wireKey options).length
  extlen := message.change.extras.length
  dtype := message.dtype.toNat
  body := message.body options
  frameextralen := message.frame.length

/-- All that a response to the message should show -/
def fields : List (String × Value) :=
  [("vbucket", .int message.vbucket), ("opcode", .int message.change.opcode), ("cas", .int message.cas),
    ("opaque", .int message.opaqueNumber)] ++ message.change.fields ++
  [("xattrs", if message.hasXattrs then .xattrs message.xattrs else .none),
    ("collection_id", .int (if options.collectionFiltering then message.collection.toNat else 0)),
    ("key", .bytes message.key), ("value", .bytes message.value),
    ("streamId", match message.streamId with
      | some id => .int id.toNat
      | none => .none)]

end StreamMessage

/-! ## The extended attributes -/

theorem findIdx?_nul {text : Bytes} (noNul : 0 ∉ text) (rest : Bytes) :
    (text ++ 0 :: rest).findIdx? (· == 0) = some text.length := by
  have none : text.findIdx? (· == 0) = none := by
    rw [List.findIdx?_eq_none_iff]
    intro byte member
    simp only [beq_eq_false_iff_ne]
    rintro rfl
    exact noNul member
  rw [List.findIdx?_append, none]
  simp [List.findIdx?_cons]

theorem length_xattrRecord (pair : Bytes × Bytes) :
    (xattrRecord pair).length = 4 + pair.1.length + 1 + pair.2.length + 1 := by
  simp [xattrRecord]
  omega

/-- The records of a block are read up to its length, whatever comes behind it. -/
theorem parseExtendedAttributes_block {pairs : List (Bytes × Bytes)} {pos : Nat} (rest : Bytes)
    (noNul : ∀ pair ∈ pairs, 0 ∉ pair.1 ∧ 0 ∉ pair.2) :
    parseExtendedAttributes (pos + (xattrBlock pairs).length) pos (xattrBlock pairs ++ rest) = .ok pairs := by
  induction pairs generalizing pos with
  | nil =>
    rw [parseExtendedAttributes, if_neg (by simp [xattrBlock])]
  | cons pair pairs ih =>
    obtain ⟨name, content⟩ := noNul pair List.mem_cons_self
    have block : xattrBlock (pair :: pairs) = xattrRecord pair ++ xattrBlock pairs := List.flatMap_cons
    have behind : xattrBlock (pair :: pairs) ++ rest = beBytes 4 (pair.1.length + pair.2.length + 2) ++
        (pair.1 ++ 0 :: (pair.2 ++ 0 :: (xattrBlock pairs ++ rest))) := by
      simp [block, xattrRecord]
    have length := length_xattrRecord pair
    have four : (beBytes 4 (pair.1.length + pair.2.length + 2)).length = 4 := length_beBytes ..
    have more : pos < pos + (xattrBlock (pair :: pairs)).length := by
      rw [block, List.length_append, length]
      omega
    have after : pos + (xattrBlock (pair :: pairs)).length =
        pos + 4 + pair.1.length + 1 + pair.2.length + 1 + (xattrBlock pairs).length := by
      rw [block, List.length_append, length]
      omega
    -- The name and the value are what stands in front of the next two NULs.
    have drop : ∀ front tail : Bytes, (front ++ 0 :: tail).drop (front.length + 1) = tail := by
      intro front tail
      simp
    rw [parseExtendedAttributes, if_pos more, behind, if_neg (by simp), List.drop_left' four]
    simp only [findIdx?_nul name, drop, findIdx?_nul content, List.take_left]
    rw [after, ih fun other member => noNul other (List.mem_cons_of_mem pair member)]
    rfl

/-! ## The regions of a body -/

theorem structUnpack_record {widths values : List Nat} (fits : Fits widths values) :
    structUnpack widths (record widths values) = .ok values := by
  have fields := unpack_record fits []
  rw [List.append_nil] at fields
  rw [structUnpack, if_pos (length_record fits), fields]

theorem slice_append (front content rest : Bytes) :
    slice (front ++ (content ++ rest)) front.length (front.length + content.length) = content := by
  rw [slice, List.drop_left, Nat.add_sub_cancel_left, List.take_left]

/-- The extras behind the frame -/
theorem formatExtras_record {name : String} {names : List String} {widths values : List Nat} {response : Response}
    {incoming : Incoming} {frame rest : Bytes} (fits : Fits widths values) (extlen : incoming.extlen = widths.sum)
    (frameLength : incoming.frameextralen = frame.length)
    (isBody : incoming.body = frame ++ (record widths values ++ rest)) :
    formatExtras name names widths response incoming =
      .ok (assignAll (((names.zip values).filter fun field => field.1 ≠ "").map fun field =>
        (field.1, .int field.2)) response) := by
  have content : slice incoming.body incoming.frameextralen (incoming.frameextralen + widths.sum) =
      record widths values := by
    rw [isBody, frameLength, ← length_record fits, slice_append]
  rw [formatExtras, content, structUnpack_record fits, extlen, assert, if_pos (decide_eq_true rfl)]
  rfl

namespace StreamMessage

variable {message : StreamMessage} {options : StreamOptions}

theorem formatByOpcode_incoming (allowed : message.change.Allowed options) (response : Response) :
    formatByOpcode options response (message.incoming options) = .ok (assignAll message.change.fields response) := by
  have format : ∀ name names, formatExtras name names message.change.widths response (message.incoming options) =
      .ok (assignAll (((names.zip message.change.values).filter fun field => field.1 ≠ "").map fun field =>
        (field.1, .int field.2)) response) :=
    fun _ _ => formatExtras_record message.change.fits (length_record message.change.fits) rfl rfl
  have opcode : (message.incoming options).opcode = message.change.opcode := rfl
  rw [formatByOpcode, opcode]
  -- Which layout is read depends on the options, and the message is one that they allow.
  cases isChange : message.change with
  | mutation bySeqno revSeqno flags expiry lockTime nmeta nru =>
    rw [isChange] at format
    exact format "Mutation" _
  | deletion bySeqno revSeqno nmeta =>
    rw [isChange] at format allowed
    have untimed : formatDeletion options = formatExtras "Deletion" ["by_seqno", "rev_seqno", ""] [8, 8, 2] := by
      rw [formatDeletion, if_neg (by simp [show options.deleteTimes = false from allowed])]
    refine Eq.trans ?_ (format "Deletion" ["by_seqno", "rev_seqno", ""])
    exact congrFun (congrFun untimed response) (message.incoming options)
  | timedDeletion bySeqno revSeqno deleteTime unused =>
    rw [isChange] at format allowed
    have timed : formatDeletion options =
        formatExtras "Deletion" ["by_seqno", "rev_seqno", "delete_time", ""] [8, 8, 4, 1] := by
      rw [formatDeletion, if_pos (show options.deleteTimes = true from allowed)]
    refine Eq.trans ?_ (format "Deletion" ["by_seqno", "rev_seqno", "delete_time", ""])
    exact congrFun (congrFun timed response) (message.incoming options)
  | expiration bySeqno revSeqno deleteTime =>
    rw [isChange] at format allowed
    have timed : formatExpiry options response (message.incoming options) =
        formatExtras "Expiry" ["by_seqno", "rev_seqno", "delete_time"] [8, 8, 4] response
          (message.incoming options) := by
      rw [formatExpiry, show options.deleteTimes = true from allowed]
      rfl
    refine Eq.trans ?_ (format "Expiry" ["by_seqno", "rev_seqno", "delete_time"])
    exact timed

theorem readStreamId_incoming : readStreamId (message.incoming options) = .ok (match message.streamId with
    | some id => .int id.toNat
    | none => .none) := by
  have frame : (message.incoming options).body.take (message.incoming options).frameextralen = message.frame :=
    List.take_left ..
  rw [readStreamId, frame]
  have length : (message.incoming options).frameextralen = message.frame.length := rfl
  rw [length]
  cases isId : message.streamId with
  | none => simp [StreamMessage.frame, isId]
  | some id =>
    have fits : Fits [1, 2] [0x22, id.toNat] := .cons (by decide) (.cons id.toNat_lt .nil)
    have isFrame : message.frame = record [1, 2] [0x22, id.toNat] := by
      simp [StreamMessage.frame, isId, record, beBytes]
    rw [isFrame, structUnpack_record fits, length_record fits]
    rfl

theorem splitXattrs_attributes : splitXattrs message.dtype.toNat (message.attributes ++ message.value) =
    .ok (if message.hasXattrs then .xattrs message.xattrs else .none, message.value) := by
  cases has : message.hasXattrs with
  | false =>
    have bit : message.dtype.toNat &&& datatypeXattr = 0 := by simpa [hasXattrs] using has
    simp [splitXattrs, bit, attributes, has]
  | true =>
    -- The total length, the block and the value are cut off one after the other.
    have bit : message.dtype.toNat &&& datatypeXattr ≠ 0 := by simpa [hasXattrs] using has
    have four : (beBytes 4 (xattrBlock message.xattrs).length).length = 4 := length_beBytes ..
    have fits : Fits [4] [(xattrBlock message.xattrs).length] := .cons message.blockFits .nil
    have total : structUnpack [4] (beBytes 4 (xattrBlock message.xattrs).length) =
        .ok [(xattrBlock message.xattrs).length] := by
      have read := structUnpack_record fits
      rwa [record_cons, show record [] [] = [] from rfl, List.append_nil] at read
    have parsed := @parseExtendedAttributes_block message.xattrs 0 message.value message.noNul
    rw [Nat.zero_add] at parsed
    have behind : (beBytes 4 (xattrBlock message.xattrs).length ++
        (xattrBlock message.xattrs ++ message.value)).drop ((xattrBlock message.xattrs).length + 4) = message.value := by
      rw [Nat.add_comm, ← List.drop_drop, List.drop_left' four, List.drop_left]
    rw [attributes, has, if_pos rfl, List.append_assoc, splitXattrs, if_pos bit, List.take_left' four, total]
    simp only [bind, Except.bind, List.headD_cons, List.drop_left' four, parsed, behind]
    rfl

theorem splitCollection_wireKey : splitCollection options (message.incoming options) (message.wireKey options) =
    .ok (if options.collectionFiltering then message.collection.toNat else 0, message.key) := by
  have keylen : (message.incoming options).keylen = (message.wireKey options).length := rfl
  cases filtering : options.collectionFiltering with
  | false => simp [splitCollection, filtering, wireKey]
  | true =>
    -- The decoder stops at the first byte without a continuation bit, if a key follows.
    have decoded := (decodeCollectionID_leb128 message.collection.toNat message.key).mpr (.inr message.keyNonempty)
    have isKey : message.wireKey options = leb128 message.collection.toNat ++ message.key := by
      simp [wireKey, filtering]
    have nonzero : (message.wireKey options).length ≠ 0 := by
      have positive := length_leb128_pos message.collection.toNat
      rw [isKey, List.length_append]
      omega
    rw [splitCollection, if_pos ⟨filtering, keylen ▸ nonzero⟩, isKey, decoded]
    rfl

/-- Extras and frame end where the key starts, and the key ends where the attributes start. -/
theorem regions_body :
    slice (message.body options) ((message.incoming options).extlen + (message.incoming options).frameextralen)
        ((message.incoming options).extlen + (message.incoming options).frameextralen +
          (message.incoming options).keylen) = message.wireKey options ∧
      (message.body options).drop ((message.incoming options).extlen + (message.incoming options).frameextralen +
        (message.incoming options).keylen) = message.attributes ++ message.value := by
  have isBody : message.body options = (message.frame ++ message.change.extras) ++
      (message.wireKey options ++ (message.attributes ++ message.value)) := by
    rw [body, List.append_assoc]
  have start : (message.incoming options).extlen + (message.incoming options).frameextralen =
      (message.frame ++ message.change.extras).length := by
    rw [List.length_append, Nat.add_comm]
    rfl
  have keylen : (message.incoming options).keylen = (message.wireKey options).length := rfl
  rw [start, keylen, isBody, slice_append, ← List.drop_drop, List.drop_left, List.drop_left]
  exact ⟨rfl, rfl⟩

theorem keyedResponse_incoming (response : Response) :
    keyedResponse options (message.incoming options) response (message.wireKey options) =
      .ok (response.insert "collection_id"
        (.int (if options.collectionFiltering then message.collection.toNat else 0)), message.key) := by
  have document : (message.incoming options).opcode ∈ [cmdExpiration, cmdDeletion, cmdMutation] := by
    have opcode : (message.incoming options).opcode = message.change.opcode := rfl
    rw [opcode]
    cases message.change <;> simp [Change.opcode]
  rw [keyedResponse, if_pos document, splitCollection_wireKey]
  rfl

theorem nodup_fields : ((message.fields options).map Prod.fst).Nodup := by
  simp only [fields]
  cases message.change <;> simp [Change.fields]

end StreamMessage

/-- A message that the protocol allows under the options of the stream is decoded to what it was made of,
    under the names of its fields and no others. -/
theorem streamResponse_message (options : StreamOptions) (message : StreamMessage)
    (allowed : message.change.Allowed options) :
    ∃ response, streamResponse options (message.incoming options) = .ok response ∧
      (∀ field ∈ message.fields options, response.lookup field.1 = some field.2) ∧
      ∀ name, name ∈ response → name ∈ (message.fields options).map Prod.fst := by
  obtain ⟨key, value⟩ := @StreamMessage.regions_body message options
  have isBody : (message.incoming options).body = message.body options := rfl
  have dtype : (message.incoming options).dtype = message.dtype.toNat := rfl
  refine ⟨assignAll (message.fields options) ∅, ?_, ?_, ?_⟩
  · rw [streamResponse, message.formatByOpcode_incoming allowed]
    simp only [bind, Except.bind, StreamMessage.readStreamId_incoming, isBody, key, value, dtype,
      StreamMessage.splitXattrs_attributes, StreamMessage.keyedResponse_incoming, StreamMessage.fields,
      assignAll_append]
    rfl
  · intro field member
    exact lookup_assignAll_of_mem StreamMessage.nodup_fields member
  · intro name member
    have found : ((assignAll (message.fields options) (∅ : Response)).lookup name).isSome :=
      AList.lookup_isSome.mpr member
    rw [lookup_assignAll_isSome] at found
    exact found.resolve_right (by simp)

theorem tagged_noNul : ∀ pair ∈ [(utf8 ['a'], utf8 ['1'])], 0 ∉ pair.1 ∧ 0 ∉ pair.2 := by
  decide

theorem tagged_blockFits : (xattrBlock [(utf8 ['a'], utf8 ['1'])]).length < 2 ^ 32 := by
  decide

/-- A mutation with a stream id and one attribute -/
def taggedMutation : StreamMessage where
  change := .mutation 5 1 0 0 0 0 0
  collection := 300
  key := utf8 ['k']
  keyNonempty := List.cons_ne_nil _ _
  dtype := 4
  xattrs := [(utf8 ['a'], utf8 ['1'])]
  noNul := tagged_noNul
  blockFits := tagged_blockFits
  value := utf8 ['{', '}']
  streamId := some 7
  vbucket := 3
  cas := 9
  opaqueNumber := 11

theorem streamResponse_taggedMutation :
    ∃ response, streamResponse ⟨true, false⟩ (taggedMutation.incoming ⟨true, false⟩) = .ok response ∧
      response.lookup "xattrs" = some (.xattrs [(utf8 ['a'], utf8 ['1'])]) ∧
      response.lookup "collection_id" = some (.int 300) ∧ response.lookup "streamId" = some (.int 7) := by
  obtain ⟨response, decoded, fields, _⟩ := streamResponse_message ⟨true, false⟩ taggedMutation trivial
  refine ⟨response, decoded, fields ("xattrs", _) ?_, fields ("collection_id", _) ?_, fields ("streamId", _) ?_⟩
  · simp [StreamMessage.fields, StreamMessage.hasXattrs, taggedMutation, datatypeXattr]
  · simp [StreamMessage.fields, taggedMutation]
  · simp [StreamMessage.fields, taggedMutation]

end Taf.Dcp.Connection
