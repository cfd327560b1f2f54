import Mathlib
import Taf.Lib.Leb128
import Taf.Lib.PyText
import Taf.Lib.Run

/-! # Collection ids of the memcached client

Translated from `lib/mc_bin_client.py`: the client's state, `decodeCollectionID`,
`_encodeCollectionId` and `_update_collection_map`.  The repository runs its tests under Jython, a
Python 2, and this file is written with Python 3 idioms, so that the interpreter is a parameter
throughout. -/

namespace Taf.Memcached

open Taf.Lib

/-- `FEATURE_COLLECTIONS` -/
def featureCollections : Nat := 0x12

/-- `collection_map`: scope name to collection name to id. -/
abbrev CollectionMap := AList fun _ : String => AList fun _ : String => Nat

/-- The fields of `MemcachedClient` that decide what it sends. -/
structure Client where
  host : String
  vbucketId : Nat
  vbucketCount : Nat
  features : List Nat
  collectionMap : CollectionMap
  collectionsSupported : Bool

/-- `MemcachedClient.__init__` -/
def Client.new (host : String) : Client where
  host := host
  vbucketId := 0
  vbucketCount := 1024
  features := []
  collectionMap := ∅
  collectionsSupported := false

/-- A `collection` argument that is not `None`: a name, which is a `str`, or a number. -/
inductive CollectionRef where
  | name (text : String)
  | id (number : Nat)
  deriving DecidableEq

variable (python : Python) (client : Client)

/-! ## `decodeCollectionID` -/

/-- `for end in range(1, len(data))` over the bytes behind the first one.  `last` is what the loop
    variable `end` holds before `index`, and what it keeps when the bytes run out. -/
def decodeLoop (cid shift last index : Nat) : Bytes → Nat × Nat
  | [] => (cid, last)
  | byte :: rest =>
    let cid := cid ||| ((byte.toNat &&& 0x7f) <<< shift)
    if byte.toNat &&& 0x80 = 0 then (cid, index)
    else decodeLoop cid (shift + 7) index (index + 1) rest

def decodeCollectionID : PyText → Except PyError (Nat × PyText)
  -- `array.array('B', key)` does not take a unicode string.
  | .unicode _ => .error .typeError
  | .bytes [] => .error .indexError
  | .bytes (first :: rest) =>
    if first.toNat &&& 0x80 = 0x80 then
      let scanned := decodeLoop (first.toNat &&& 0x7f) 7 1 1 rest
      if scanned.2 + 1 = (first :: rest).length then
        .error (.valueError "encoded key did not contain a stop byte")
      else .ok (scanned.1, .bytes ((first :: rest).drop (scanned.2 + 1)))
    else .ok (first.toNat &&& 0x7f, .bytes ((first :: rest).drop 1))

/-! ## `_encodeCollectionId` -/

/-- The loop that fills `output`: the last byte of it is the one being written. -/
def encodeLoop (output : Bytes) (collection : Nat) : Bytes :=
  if 0 < collection then
    let byte := collection &&& 0xFF
    let rest := collection >>> 7
    if 0 < rest then encodeLoop (output.dropLast ++ [UInt8.ofNat (byte ||| 0x80), 0]) rest
    else encodeLoop (output.dropLast ++ [UInt8.ofNat byte]) rest
  else output
termination_by collection
decreasing_by all_goals simp only [Nat.shiftRight_eq_div_pow]; omega

/-- The id of a `collection` argument: a name is looked up under its scope. -/
def Client.resolve (scope : Option String) : CollectionRef → Except PyError Nat
  | .id number => .ok number
  | .name text =>
    match (scope.bind client.collectionMap.lookup).bind fun names => names.lookup text with
    | some number => .ok number
    | none => .error .keyError

/-- `output.tobytes().decode()`: an array has no `tobytes` in Python 2. -/
def tobytesDecode : Python → Bytes → Except PyError PyText
  | .two, _ => .error .attributeError
  | .three, output =>
    match utf8Decode output with
    | some text => .ok (.unicode text)
    | none => .error .unicodeDecodeError

def encodeCollectionId (key : PyText) (scope : Option String) (collection : CollectionRef) :
    Except PyError PyText := do
  if featureCollections ∉ client.features then
    throw (.runtimeError "Collections are not enabled")
  let number ← client.resolve scope collection
  let output ← tobytesDecode python (encodeLoop [0] number)
  PyText.add python output key

/-! ## The varint -/

theorem and_top_bit (byte : UInt8) : byte.toNat &&& 0x80 = if byte.toNat < 128 then 0 else 0x80 := by
  have table : ∀ n < 256, n &&& 0x80 = if n < 128 then 0 else 0x80 := by decide +kernel
  exact table byte.toNat byte.toNat_lt

theorem and_low_bits (n : Nat) : n &&& 0x7f = n % 128 :=
  Nat.and_two_pow_sub_one_eq_mod n 7

theorem encodeLoop_eq_leb128 (front : Bytes) (last : UInt8) (n : Nat) (positive : 0 < n) :
    encodeLoop (front ++ [last]) n = front ++ leb128 n := by
  induction n using Nat.strongRecOn generalizing front last with
  | ind n ih =>
    have shifted : n >>> 7 = n / 128 := Nat.shiftRight_eq_div_pow n 7
    have masked : n &&& 0xFF = n % 256 := Nat.and_two_pow_sub_one_eq_mod n 8
    rw [encodeLoop, if_pos positive]
    simp only [shifted, masked, List.dropLast_concat]
    by_cases small : n < 128
    · rw [if_neg (by omega), encodeLoop, if_neg (by omega), leb128_of_lt small,
        Nat.mod_eq_of_lt (by omega)]
    · have marked : n % 256 ||| 0x80 = n % 128 + 128 := by
        have table : ∀ m < 256, m ||| 0x80 = m % 128 + 128 := by decide +kernel
        rw [table _ (Nat.mod_lt n (by omega))]
        omega
      have again := ih (n / 128) (by omega) (front ++ [UInt8.ofNat (n % 128 + 128)]) 0 (by omega)
      rw [if_pos (by omega), marked, leb128_of_ge (by omega)]
      simpa using again

theorem encodeLoop_zero_eq (n : Nat) : encodeLoop [0] n = leb128 n := by
  by_cases positive : 0 < n
  · exact encodeLoop_eq_leb128 [] 0 n positive
  · rw [encodeLoop, if_neg positive, leb128_of_lt (by omega), Nat.eq_zero_of_not_pos positive]
    rfl

theorem shifted_groups {g more shift : Nat} (small : g < 128) :
    (g + 128 * more) <<< shift = g <<< shift ||| more <<< (shift + 7) := by
  have joined : g + 128 * more = g ||| more <<< 7 := by
    rw [Nat.or_comm, ← Nat.shiftLeft_add_eq_or_of_lt small, Nat.shiftLeft_eq]
    omega
  rw [joined, Nat.shiftLeft_or_distrib, ← Nat.shiftLeft_add, Nat.add_comm 7 shift]

/-- The loop stops at the first byte whose top bit is clear. -/
theorem decodeLoop_stop {front : Bytes} (above : ∀ byte ∈ front, 128 ≤ byte.toNat) {stop : UInt8}
    (below : stop.toNat < 128) (cid shift last index : Nat) (rest : Bytes) :
    decodeLoop cid shift last index (front ++ stop :: rest) =
      (cid ||| groups (front ++ [stop]) <<< shift, index + front.length) := by
  induction front generalizing cid shift last index with
  | nil =>
    have value : groups ([] ++ [stop]) = stop.toNat % 128 := rfl
    rw [List.nil_append, decodeLoop, and_top_bit, and_low_bits, if_pos below, if_pos rfl, value]
    rfl
  | cons byte front ih =>
    obtain ⟨large, above⟩ := List.forall_mem_cons.mp above
    have value : groups (byte :: front ++ [stop]) =
        byte.toNat % 128 + 128 * groups (front ++ [stop]) := rfl
    rw [List.cons_append, decodeLoop, and_top_bit, and_low_bits, if_neg (Nat.not_lt.mpr large),
      if_neg (by decide), ih above, value, shifted_groups (Nat.mod_lt _ (by decide)), Nat.or_assoc, List.length_cons]
    congr 1
    omega

/-- When the bytes run out the loop variable is the index of the last one. -/
theorem decodeLoop_exhausted {bytes : Bytes} (above : ∀ byte ∈ bytes, 128 ≤ byte.toNat)
    (cid shift last index : Nat) (more : bytes ≠ []) :
    (decodeLoop cid shift last index bytes).2 + 1 = index + bytes.length := by
  induction bytes generalizing cid shift last index with
  | nil => exact absurd rfl more
  | cons byte bytes ih =>
    obtain ⟨large, above⟩ := List.forall_mem_cons.mp above
    rw [decodeLoop, and_top_bit, if_neg (Nat.not_lt.mpr large), if_neg (by decide)]
    cases bytes with
    | nil => simp [decodeLoop]
    | cons second bytes =>
      rw [ih above _ _ _ _ (by simp)]
      simp only [List.length_cons]
      omega

theorem decodeCollectionID_stop {front : Bytes} (above : ∀ byte ∈ front, 128 ≤ byte.toNat)
    {stop : UInt8} (below : stop.toNat < 128) (rest : Bytes) :
    decodeCollectionID (.bytes (front ++ stop :: rest)) =
      if front ≠ [] ∧ rest = [] then .error (.valueError "encoded key did not contain a stop byte")
      else .ok (groups (front ++ [stop]), .bytes rest) := by
  cases front with
  | nil =>
    have value : groups ([] ++ [stop]) = stop.toNat % 128 := rfl
    rw [List.nil_append, decodeCollectionID, and_top_bit, if_pos below, if_neg (by decide),
      and_low_bits, if_neg (by simp), value]
    rfl
  | cons first front =>
    obtain ⟨large, above⟩ := List.forall_mem_cons.mp above
    have value : groups (first :: front ++ [stop]) =
        first.toNat % 128 ||| groups (front ++ [stop]) <<< 7 := by
      rw [List.cons_append, groups]
      simpa using @shifted_groups _ (groups (front ++ [stop])) 0 (Nat.mod_lt first.toNat (by decide))
    rw [List.cons_append, decodeCollectionID, and_top_bit, if_neg (Nat.not_lt.mpr large), if_pos rfl,
      and_low_bits, decodeLoop_stop above below, ← value]
    have length : (first :: (front ++ stop :: rest)).length = 1 + front.length + 1 + rest.length := by
      simp only [List.length_cons, List.length_append]
      omega
    dsimp only
    by_cases ended : rest = []
    · rw [if_pos (by rw [length, ended, List.length_nil, Nat.add_zero]),
        if_pos ⟨List.cons_ne_nil _ _, ended⟩]
    · have left : 0 < rest.length := List.length_pos_iff.mpr ended
      have dropped : (first :: (front ++ stop :: rest)).drop (1 + front.length + 1) = rest := by
        rw [show 1 + front.length + 1 = (front.length + 1) + 1 by omega]
        simp
      rw [if_neg (by omega), if_neg (fun both => ended both.2), dropped]

theorem decodeCollectionID_exhausted {first second : UInt8} {rest : Bytes}
    (above : ∀ byte ∈ first :: second :: rest, 128 ≤ byte.toNat) :
    decodeCollectionID (.bytes (first :: second :: rest)) =
      .error (.valueError "encoded key did not contain a stop byte") := by
  obtain ⟨large, above⟩ := List.forall_mem_cons.mp above
  have ended := decodeLoop_exhausted above (first.toNat &&& 0x7f) 7 1 1
    (List.cons_ne_nil second rest)
  rw [decodeCollectionID, and_top_bit, if_neg (Nat.not_lt.mpr large), if_pos rfl]
  dsimp only
  rw [if_pos (by rw [ended, Nat.add_comm]; rfl)]

/-- A lone continuation byte is taken for an id and an empty key. -/
theorem decodeCollectionID_lone {byte : UInt8} (above : 128 ≤ byte.toNat) :
    decodeCollectionID (.bytes [byte]) = .ok (byte.toNat % 128, .bytes []) := by
  have large : ¬ byte.toNat < 128 := by omega
  rw [decodeCollectionID, and_top_bit, if_neg large, if_pos rfl, and_low_bits]
  rfl

/-- The string is one varint of several bytes with nothing behind it. -/
def EndsWithVarint (bytes : Bytes) : Prop :=
  ∃ front stop, bytes = front ++ [stop] ∧ front ≠ [] ∧ (∀ byte ∈ front, 128 ≤ byte.toNat) ∧
    stop.toNat < 128

/-- The string is one byte, and that byte asks for another one. -/
def LoneContinuation (bytes : Bytes) : Prop :=
  ∃ byte, bytes = [byte] ∧ 128 ≤ byte.toNat

theorem above_or_stop (bytes : Bytes) : (∀ byte ∈ bytes, 128 ≤ byte.toNat) ∨
    ∃ front stop rest, bytes = front ++ stop :: rest ∧ (∀ byte ∈ front, 128 ≤ byte.toNat) ∧
      stop.toNat < 128 := by
  induction bytes with
  | nil => exact .inl (by simp)
  | cons byte bytes ih =>
    by_cases below : byte.toNat < 128
    · exact .inr ⟨[], byte, bytes, rfl, by simp, below⟩
    · have large : 128 ≤ byte.toNat := by omega
      rcases ih with above | ⟨front, stop, rest, split, above, stops⟩
      · exact .inl (by simpa using ⟨large, above⟩)
      · exact .inr ⟨byte :: front, stop, rest, by rw [split]; rfl, by simpa using ⟨large, above⟩,
          stops⟩

theorem takeWhile_stop {front : Bytes} (above : ∀ byte ∈ front, 128 ≤ byte.toNat) {stop : UInt8}
    (below : stop.toNat < 128) (rest : Bytes) :
    (front ++ stop :: rest).takeWhile (fun byte => 128 ≤ byte.toNat) = front := by
  rw [List.takeWhile_append_of_pos (by simpa using above), List.takeWhile_cons_of_neg (by simpa),
    List.append_nil]

/-- `ValueError` is raised exactly when there is no stop byte. -/
def ReportsMissingStop (bytes : Bytes) : Prop :=
  (∃ text, decodeCollectionID (.bytes bytes) = .error (.valueError text)) ↔
    ∀ byte ∈ bytes, 128 ≤ byte.toNat

/-- Without a stop byte, only the loop over at least one further byte sees that. -/
theorem reportsMissingStop_of_above {first : UInt8} {rest : Bytes}
    (above : ∀ byte ∈ first :: rest, 128 ≤ byte.toNat) :
    ReportsMissingStop (first :: rest) ↔
      ¬ EndsWithVarint (first :: rest) ∧ ¬ LoneContinuation (first :: rest) := by
  have noVarint : ¬ EndsWithVarint (first :: rest) := by
    rintro ⟨front, stop, split, -, -, below⟩
    have := above stop (by rw [split]; simp)
    omega
  cases rest with
  | nil =>
    have large := above first List.mem_cons_self
    have lone : LoneContinuation [first] := ⟨first, rfl, large⟩
    have silent : ¬ ReportsMissingStop [first] := by
      intro reports
      obtain ⟨text, raised⟩ := reports.mpr above
      rw [decodeCollectionID_lone large] at raised
      cases raised
    simp [lone, silent]
  | cons second rest =>
    have several : ¬ LoneContinuation (first :: second :: rest) := by
      rintro ⟨byte, single, -⟩
      cases single
    have reports : ReportsMissingStop (first :: second :: rest) :=
      ⟨fun _ => above, fun _ => ⟨_, decodeCollectionID_exhausted above⟩⟩
    simp [noVarint, several, reports]

theorem endsWithVarint_iff {front behind : Bytes} (above : ∀ byte ∈ front, 128 ≤ byte.toNat)
    {stop : UInt8} (below : stop.toNat < 128) :
    EndsWithVarint (front ++ stop :: behind) ↔ front ≠ [] ∧ behind = [] := by
  constructor
  · rintro ⟨front', stop', split, more, above', below'⟩
    have fronts : front = front' := by
      rw [← takeWhile_stop above below behind, split, takeWhile_stop above' below' []]
    subst fronts
    have behinds : stop :: behind = [stop'] := List.append_cancel_left split
    exact ⟨more, (List.cons.inj behinds).2⟩
  · rintro ⟨more, rfl⟩
    exact ⟨front, stop, rfl, more, above, below⟩

/-- With a stop byte, the string is refused if the varint is all of it. -/
theorem reportsMissingStop_of_stop {front behind : Bytes}
    (above : ∀ byte ∈ front, 128 ≤ byte.toNat) {stop : UInt8} (below : stop.toNat < 128) :
    ReportsMissingStop (front ++ stop :: behind) ↔ ¬ EndsWithVarint (front ++ stop :: behind) ∧
      ¬ LoneContinuation (front ++ stop :: behind) := by
  have stopped : ¬ ∀ byte ∈ front ++ stop :: behind, 128 ≤ byte.toNat := by
    intro all
    have := all stop (by simp)
    omega
  have notLone : ¬ LoneContinuation (front ++ stop :: behind) := by
    rintro ⟨byte, single, large⟩
    exact stopped (by rw [single]; simpa using large)
  rw [ReportsMissingStop, iff_false_right stopped, decodeCollectionID_stop above below,
    endsWithVarint_iff above below, and_iff_left notLone]
  by_cases refused : front ≠ [] ∧ behind = []
  · simp [refused]
  · simp [refused]

theorem reportsMissingStop_iff (first : UInt8) (rest : Bytes) :
    ReportsMissingStop (first :: rest) ↔
      ¬ EndsWithVarint (first :: rest) ∧ ¬ LoneContinuation (first :: rest) := by
  rcases above_or_stop (first :: rest) with above | ⟨front, stop, behind, split, above, below⟩
  · exact reportsMissingStop_of_above above
  · rw [split]
    exact reportsMissingStop_of_stop above below

theorem tobytesDecode_eq_ok {python : Python} {output : Bytes} {text : PyText} :
    tobytesDecode python output = .ok text ↔
      python = .three ∧ ∃ head, utf8 head = output ∧ text = .unicode head := by
  cases python with
  | two => simp [tobytesDecode]
  | three =>
    cases decoded : utf8Decode output with
    | none =>
      have undecodable : ∀ head, utf8 head ≠ output := by
        intro head same
        rw [utf8Decode_eq_some.mpr same] at decoded
        cases decoded
      simp [tobytesDecode, decoded, undecodable]
    | some head =>
      have only : ∀ head', utf8 head' = output ↔ head' = head := by
        intro head'
        rw [← utf8Decode_eq_some, decoded, Option.some.injEq, eq_comm]
      simp [tobytesDecode, decoded, only, eq_comm]

/-- What `_encodeCollectionId` returns: Python 3, a unicode key, and in front of it the characters
    whose UTF-8 form are the bytes of the varint. -/
theorem encodeCollectionId_eq_ok {python : Python} {client : Client} {key encoded : PyText}
    {scope : Option String} {collection : CollectionRef} :
    encodeCollectionId python client key scope collection = .ok encoded ↔
      featureCollections ∈ client.features ∧ python = .three ∧
        ∃ number head text, client.resolve scope collection = .ok number ∧
          utf8 head = leb128 number ∧ key = .unicode text ∧ encoded = .unicode (head ++ text) := by
  by_cases enabled : featureCollections ∈ client.features
  · have unfolded : encodeCollectionId python client key scope collection =
        (client.resolve scope collection >>= fun number =>
          tobytesDecode python (encodeLoop [0] number) >>= fun output =>
            PyText.add python output key) := by
      simp [encodeCollectionId, enabled]
    rw [unfolded, bind_eq_ok]
    simp only [bind_eq_ok, tobytesDecode_eq_ok, encodeLoop_zero_eq]
    constructor
    · rintro ⟨number, resolved, output, ⟨rfl, head, same, rfl⟩, added⟩
      obtain ⟨text, rfl, rfl⟩ := PyText.add_three_unicode.mp added
      exact ⟨enabled, rfl, number, head, text, resolved, same, rfl, rfl⟩
    · rintro ⟨-, rfl, number, head, text, resolved, same, rfl, rfl⟩
      exact ⟨number, resolved, _, ⟨rfl, head, same, rfl⟩, rfl⟩
  · simp [encodeCollectionId, enabled, throw, throwThe, MonadExceptOf.throw, bind, Except.bind]

/-- The id and the key come back. -/
def RoundTrips (key : PyText) (scope : Option String) (cid : Nat) : Prop :=
  ∃ encoded, encodeCollectionId python client key scope (.id cid) = .ok encoded ∧
    decodeCollectionID encoded = .ok (cid, key)

theorem not_roundTrips (key : PyText) (scope : Option String) (cid : Nat) :
    ¬ RoundTrips python client key scope cid := by
  rintro ⟨encoded, returned, decoded⟩
  obtain ⟨-, -, number, head, text, -, -, -, rfl⟩ := encodeCollectionId_eq_ok.mp returned
  cases decoded

/-- No id and no key come back: what is encoded is a unicode string, which cannot be decoded.  The
    missing stop byte is reported as it should be, except for a varint of several bytes that ends
    the string and for a lone continuation byte. -/
theorem collection_codec_iff : (∀ key scope cid, ¬ RoundTrips python client key scope cid) ∧
    ∀ first rest, ReportsMissingStop (first :: rest) ↔
      ¬ EndsWithVarint (first :: rest) ∧ ¬ LoneContinuation (first :: rest) :=
  ⟨not_roundTrips python client, reportsMissingStop_iff⟩

/-- A client that has said hello and asked for collections. -/
def collectionsClient : Client :=
  { Client.new "127.0.0.1" with features := [featureCollections], collectionsSupported := true }

/-- The id 8 does not come back; `80` has no stop byte and is not reported, `80 01` has one and is
    reported. -/
theorem codec_loses_id : ¬ RoundTrips .two collectionsClient (.unicode ['k']) none 8 ∧
    ¬ ReportsMissingStop [0x80] ∧ ¬ ReportsMissingStop [0x80, 0x01] := by
  refine ⟨not_roundTrips _ _ _ _ _, ?_, ?_⟩
  · intro reports
    obtain ⟨text, raised⟩ := reports.mpr (by simp)
    rw [decodeCollectionID_lone (by simp)] at raised
    cases raised
  · intro reports
    have all := reports.mp ⟨"encoded key did not contain a stop byte", by rfl⟩
    exact absurd (all 0x01 (by simp)) (by decide)

/-- The varint by itself comes back when it is one byte, or when a key follows it. -/
theorem decodeCollectionID_leb128 (cid : Nat) (key : Bytes) :
    decodeCollectionID (.bytes (leb128 cid ++ key)) = .ok (cid, .bytes key) ↔
      cid < 128 ∨ key ≠ [] := by
  obtain ⟨front, stop, shape, above, below⟩ := leb128_shape cid
  have value : groups (front ++ [stop]) = cid := by rw [← shape, groups_leb128]
  have short : front = [] ↔ cid < 128 := by
    constructor
    · rintro rfl
      rw [← value, List.nil_append, groups, groups]
      omega
    · intro small
      rw [leb128_of_lt small] at shape
      exact (List.append_eq_singleton_iff.mp shape.symm).elim And.left fun wrong => by simp at wrong
  rw [shape, List.append_assoc, List.singleton_append, decodeCollectionID_stop above below, value,
    ← short]
  by_cases lost : front ≠ [] ∧ key = []
  · simp [lost]
  · simp only [lost, if_false, true_iff]
    tauto

end Taf.Memcached
