import Mathlib
import Taf.Lib.JsonText
import Taf.Memcached.Wire

/-! # Key operations of the memcached client

The operations of `lib/mc_bin_client.py` that take a `vbucket`, from their arguments down to the
bytes that `_sendMsg` hands to the socket.  What an operation does with the response is not part of
it.  `draw` is what `self.r.randint(0, 2 ** 32)` returns. -/

namespace Taf.Memcached

open Taf.Lib

/-! ## The vbucket -/

/-- One byte of `zlib.crc32`, bit by bit with the reflected polynomial. -/
def crcByte (crc : BitVec 32) (byte : UInt8) : BitVec 32 :=
  (List.range 8).foldl
    (fun crc _ => if crc &&& 1 = 1 then (crc >>> 1) ^^^ 0xEDB88320 else crc >>> 1)
    (crc ^^^ BitVec.ofNat 32 byte.toNat)

/-- `zlib.crc32`.  Python 2 gives it a sign, of which the bits that are used know nothing. -/
def crc32 (content : Bytes) : Nat :=
  (~~~ (content.foldl crcByte 0xFFFFFFFF)).toNat

example : crc32 (utf8 "123456789".toList) = 0xCBF43926 := by decide +kernel

/-- `(((zlib.crc32(encoded)) >> 16) & 0x7fff) & (self.vbucket_count - 1)` -/
def Client.hashVbucket (client : Client) (encoded : Bytes) : Nat :=
  let hash := (crc32 encoded >>> 16) &&& 0x7fff
  match client.vbucketCount with
  -- `& -1` keeps every bit.
  | 0 => hash
  | count + 1 => hash &&& count

variable (python : Python) (client : Client) (draw : Nat)

def setVbucket (key : PyText) (vbucket : Int) : Except PyError Client :=
  if vbucket = 0 ∨ vbucket < 0 then do
    let encoded ← key.encode python
    pure { client with vbucketId := client.hashVbucket encoded }
  else pure { client with vbucketId := vbucket.toNat }

/-! ## Senders -/

/-- The `vbucket`, `scope` and `collection` of an operation. -/
structure Target where
  vbucket : Int
  scope : Option String
  collection : Option CollectionRef

/-- `collection_name` -/
def Client.collectionName (scope : Option String) (collection : Option CollectionRef) :
    Option String × Option CollectionRef :=
  if client.collectionsSupported then
    (some (scope.getD "_default"), some (collection.getD (.name "_default")))
  else (scope, collection)

def sendCmd (cmd : Nat) (key val : PyText) (opaqueNumber : Nat) (extraHeader : Option PyText)
    (cas : Option Nat) (scope : Option String) (collection : Option CollectionRef) :
    Except PyError PyText :=
  sendMsg python client
    { cmd := cmd, key := key, val := val, opaqueNumber := opaqueNumber, extraHeader := extraHeader,
      cas := cas, vbucketId := client.vbucketId, scope := scope, collection := collection,
      extendedMetaData := .str python "", extraHeaderLength := none }

/-- `_doCmd` up to the response. -/
def doCmd (cmd : Nat) (key val extraHeader : PyText) (cas : Nat) (scope : Option String)
    (collection : Option CollectionRef) : Except PyError PyText :=
  sendCmd python client cmd key val draw (some extraHeader) (some cas) scope collection

/-- `struct.pack` of an extras format. -/
def packExtras (widths values : List Nat) : Except PyError PyText :=
  match pack widths values with
  | some packed => .ok (.bytes packed)
  | none => .error .structError

def mutate (cmd : Nat) (key : PyText) (exp flags : UInt32) (cas : UInt64) (val : PyText)
    (scope : Option String) (collection : Option CollectionRef) : Except PyError PyText := do
  let extras ← packExtras [4, 4] [flags.toNat, exp.toNat]
  doCmd python client draw cmd key val extras cas.toNat scope collection

def cat (cmd : Nat) (key : PyText) (cas : UInt64) (val : PyText) (scope : Option String)
    (collection : Option CollectionRef) : Except PyError PyText :=
  let (scope, collection) := client.collectionName scope collection
  doCmd python client draw cmd key val (.str python "") cas.toNat scope collection

def incrdecr (cmd : Nat) (key : PyText) (amt init : UInt64) (exp : UInt32) (scope : Option String)
    (collection : Option CollectionRef) : Except PyError PyText := do
  let (scope, collection) := client.collectionName scope collection
  let extras ← packExtras [8, 8, 4] [amt.toNat, init.toNat, exp.toNat]
  doCmd python client draw cmd key (.str python "") extras 0 scope collection

/-! ## Operations on whole values -/

/-- The first two lines of most operations: names by default, then the vbucket. -/
def addressed (key : PyText) (target : Target)
    (send : Client → Option String → Option CollectionRef → Except PyError PyText) :
    Except PyError PyText := do
  let (scope, collection) := client.collectionName target.scope target.collection
  let client ← setVbucket python client key target.vbucket
  send client scope collection

def append (key value : PyText) (cas : UInt64) (target : Target) : Except PyError PyText :=
  addressed python client key target fun client scope collection =>
    cat python client draw 0x0e key cas value scope collection

def prepend (key value : PyText) (cas : UInt64) (target : Target) : Except PyError PyText :=
  addressed python client key target fun client scope collection =>
    cat python client draw 0x0f key cas value scope collection

def incr (key : PyText) (amt init : UInt64) (exp : UInt32) (target : Target) :
    Except PyError PyText :=
  addressed python client key target fun client scope collection =>
    incrdecr python client draw 5 key amt init exp scope collection

def decr (key : PyText) (amt init : UInt64) (exp : UInt32) (target : Target) :
    Except PyError PyText :=
  addressed python client key target fun client scope collection =>
    incrdecr python client draw 6 key amt init exp scope collection

def set (key : PyText) (exp flags : UInt32) (val : PyText) (target : Target) :
    Except PyError PyText :=
  addressed python client key target fun client scope collection =>
    mutate python client draw 1 key exp flags 0 val scope collection

def add (key : PyText) (exp flags : UInt32) (val : PyText) (target : Target) :
    Except PyError PyText :=
  addressed python client key target fun client scope collection =>
    mutate python client draw 2 key exp flags 0 val scope collection

def replace (key : PyText) (exp flags : UInt32) (val : PyText) (target : Target) :
    Except PyError PyText :=
  addressed python client key target fun client scope collection =>
    mutate python client draw 3 key exp flags 0 val scope collection

def cas (key : PyText) (exp flags : UInt32) (oldVal : UInt64) (val : PyText) (target : Target) :
    Except PyError PyText :=
  addressed python client key target fun client scope collection =>
    mutate python client draw 1 key exp flags oldVal val scope collection

/-- An operation without a value. -/
def valueless (cmd : Nat) (key : PyText) (extras : Except PyError PyText) (cas : UInt64)
    (target : Target) : Except PyError PyText :=
  addressed python client key target fun client scope collection => do
    let extraHeader ← extras
    doCmd python client draw cmd key (.str python "") extraHeader cas.toNat scope collection

def get (key : PyText) (target : Target) : Except PyError PyText :=
  valueless python client draw 0 key (.ok (.str python "")) 0 target

def getr (key : PyText) (target : Target) : Except PyError PyText :=
  valueless python client draw 0x83 key (.ok (.str python "")) 0 target

def touch (key : PyText) (exp : UInt32) (target : Target) : Except PyError PyText :=
  valueless python client draw 0x1c key (packExtras [4] [exp.toNat]) 0 target

def gat (key : PyText) (exp : UInt32) (target : Target) : Except PyError PyText :=
  valueless python client draw 0x1d key (packExtras [4] [exp.toNat]) 0 target

def delete (key : PyText) (cas : UInt64) (target : Target) : Except PyError PyText :=
  valueless python client draw 4 key (.ok (.str python "")) cas target

def evictKey (key : PyText) (target : Target) : Except PyError PyText :=
  valueless python client draw 0x93 key (.ok (.str python "")) 0 target

/-- `getl` takes scope and collection as they are. -/
def getl (key : PyText) (exp : UInt32) (target : Target) : Except PyError PyText := do
  let client ← setVbucket python client key target.vbucket
  let extraHeader ← packExtras [4] [exp.toNat]
  doCmd python client draw 0x94 key (.str python "") extraHeader 0 target.scope target.collection

/-- `struct.pack` takes a collection for a `cas` if it is a number. -/
def casOfCollection : Option CollectionRef → Option Nat
  | some (.id number) => some number
  | _ => none

/-- `send_get` passes scope and collection by position, where `_sendCmd` has `extraHeader` and
    `cas`. -/
def sendGet (key : PyText) (target : Target) : Except PyError PyText :=
  addressed python client key target fun client scope collection =>
    sendCmd python client 0 key (.str python "") draw (scope.map (.str python))
      (casOfCollection collection) none none

/-! ## Sub-document operations -/

/-- A value argument that is not `None`. -/
inductive SdValue where
  | int (number : Int)
  | text (content : PyText)

/-- `str(val)` -/
def SdValue.toStr : SdValue → Except PyError PyText
  | int number => .ok (.str python (toString number))
  | text content => content.toStr python

/-- The extras of `_doSdCmd`. -/
def sdExtras (pathlen : Nat) (create : Bool) (expiry : Nat) : List Nat × List Nat :=
  let createFlag := if create then 1 else 0
  if expiry = 0 then ([2, 1], [pathlen, createFlag]) else ([2, 1, 4], [pathlen, createFlag, expiry])

/-- The body of `_doSdCmd`: `if val != None: body += str(val)`. -/
def sdBody (path : PyText) : Option SdValue → Except PyError PyText
  | none => .ok path
  | some val => do
    let text ← val.toStr python
    PyText.add python path text

/-- `_doSdCmd` up to the response. -/
def doSdCmd (cmd : Nat) (key path : PyText) (val : Option SdValue) (expiry opaqueNumber cas : Nat)
    (create : Bool) (scope : Option String) (collection : Option CollectionRef) :
    Except PyError PyText := do
  let opaqueNumber := if opaqueNumber = 0 then draw else opaqueNumber
  let extras := sdExtras path.len create expiry
  let extraHeader ← packExtras extras.1 extras.2
  let body ← sdBody python path val
  sendCmd python client cmd key body opaqueNumber (some extraHeader) (some cas) scope collection

/-- The keyword arguments of the operations with a value. -/
structure SdArgs where
  path : PyText
  value : Option SdValue
  expiry : UInt32
  opaqueNumber : UInt32
  cas : UInt64
  create : Bool

def valueSd (cmd : Nat) (key : PyText) (args : SdArgs) (target : Target) : Except PyError PyText := do
  let client ← setVbucket python client key target.vbucket
  doSdCmd python client draw cmd key args.path args.value args.expiry.toNat args.opaqueNumber.toNat
    args.cas.toNat args.create target.scope target.collection

def dictAddSd := valueSd python client draw 0xc7
def dictUpsertSd := valueSd python client draw 0xc8
def replaceSd := valueSd python client draw 0xca
def arrayPushLastSd := valueSd python client draw 0xcb
def arrayPushFirstSd := valueSd python client draw 0xcc
def arrayAddInsertSd := valueSd python client draw 0xcd
def arrayAddUniqueSd := valueSd python client draw 0xce
def counterSd := valueSd python client draw 0xcf

/-- The operations that only have a path. -/
def pathSd (cmd : Nat) (key path : PyText) (opaqueNumber : UInt32) (cas : UInt64)
    (target : Target) : Except PyError PyText := do
  let client ← setVbucket python client key target.vbucket
  doSdCmd python client draw cmd key path none 0 opaqueNumber.toNat cas.toNat false target.scope
    target.collection

/-- `get_sd` has no `opaque` argument. -/
def getSd (key path : PyText) (cas : UInt64) (target : Target) : Except PyError PyText :=
  pathSd python client draw 0xc5 key path 0 cas target

def existsSd := pathSd python client draw 0xc6
def deleteSd := pathSd python client draw 0xc9

/-- `multi_lookup_sd` passes `expiry, opaque, cas, create` by position, one place too early: they
    arrive as `val, expiry, opaque, cas`. -/
def multiLookupSd (key path : PyText) (expiry opaqueNumber : UInt32) (cas : UInt64) (create : Bool)
    (target : Target) : Except PyError PyText := do
  let client ← setVbucket python client key target.vbucket
  doSdCmd python client draw 0xd0 key path (some (.int expiry.toNat)) opaqueNumber.toNat cas.toNat
    (if create then 1 else 0) false target.scope target.collection

/-- `v["value"]` of a multi mutation.  `other` is what is neither `str` nor `int`: a long integer of
    Python 2, a float, a list, a dictionary or `None`. -/
inductive MultiValue where
  | text (content : PyText)
  | int (number : Int)
  | bool (truth : Bool)
  | other (json : Json)

structure MultiSpec where
  createParents : Bool
  path : PyText
  value : MultiValue

/-- The opcode that a key of `cmdDict` stands for. -/
def multiCommand : String → Option Nat
  | "store" => some 0xc7
  | "counter" => some 0xcf
  | "add_unique" => some 0xce
  | "push_first" => some 0xcc
  | "push_last" => some 0xcb
  | "array_insert" => some 0xcd
  | "insert" => some 0xc7
  | _ => none

/-- The local variables of the loop in `_doMultiSdCmd` that live on from one entry to the next. -/
structure MultiState where
  body : PyText
  mcmd : Option Nat
  value : Option PyText

/-- `isinstance(text, str)` -/
def isStr : Python → PyText → Bool
  | .two, .bytes _ => true
  | .three, .unicode _ => true
  | _, _ => false

/-- The `value` and `valuelen` of an entry; what is neither `str` nor `int` leaves `value` alone. -/
def multiValue (before : Option PyText) : MultiValue → Except PyError (Option PyText × Nat)
  | .text content =>
    if isStr python content then do
      let opened ← PyText.add python (.str python "\"") content
      let value ← PyText.add python opened (.str python "\"")
      pure (some value, value.len)
    else pure (before, 0)
  | .int number =>
    let value := PyText.str python (toString number)
    pure (some value, value.len)
  | .bool truth =>
    -- `bool` is a class below `int`, and `str(True)` is its name.
    let value := PyText.str python (if truth then "True" else "False")
    pure (some value, value.len)
  | .other _ => pure (before, 0)

def multiStep (state : MultiState) (entry : String × MultiSpec) : Except PyError MultiState := do
  let mcmd := (multiCommand entry.1).or state.mcmd
  let flags := if entry.2.createParents then 1 else 0
  let (value, valuelen) ← multiValue python state.value entry.2.value
  let some opcode := mcmd | throw .structError
  let opSpec ← packExtras [1, 1, 2, 4] [opcode, flags, entry.2.path.len, valuelen]
  let some value := value | throw .nameError
  let tail ← PyText.add python entry.2.path value
  let opSpec ← PyText.add python opSpec tail
  let body ← PyText.add python state.body opSpec
  pure { body := body, mcmd := mcmd, value := some value }

/-- `_doMultiSdCmd` up to the response; it calls `_sendMsg` itself, with its default `vbucketId`. -/
def doMultiSdCmd (cmd : Nat) (key : PyText) (cmdDict : List (String × MultiSpec))
    (opaqueNumber : Nat) (scope : Option String) (collection : Option CollectionRef) :
    Except PyError PyText := do
  let opaqueNumber := if opaqueNumber = 0 then draw else opaqueNumber
  let state ← cmdDict.foldlM (multiStep python)
    { body := .str python "", mcmd := none, value := none }
  sendMsg python client
    { cmd := cmd, key := key, val := state.body, opaqueNumber := opaqueNumber,
      extraHeader := some (.str python ""), cas := some 0, vbucketId := 0, scope := scope,
      collection := collection, extendedMetaData := .str python "", extraHeaderLength := none }

/-- `multi_mutation_sd` passes on neither `expiry` nor `cas` nor `create`. -/
def multiMutationSd (key : PyText) (cmdDict : List (String × MultiSpec)) (_expiry : UInt32)
    (opaqueNumber : UInt32) (_cas : UInt64) (_create : Bool) (target : Target) :
    Except PyError PyText := do
  let client ← setVbucket python client key target.vbucket
  doMultiSdCmd python client draw 0xd1 key cmdDict opaqueNumber.toNat target.scope target.collection

end Taf.Memcached
