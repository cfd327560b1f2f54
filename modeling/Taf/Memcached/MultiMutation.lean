import Taf.Lib.Records
import Taf.Memcached.RequestFrames

/-! # The body of a multi mutation

`_doMultiSdCmd` of `lib/mc_bin_client.py` writes one record for each entry of `cmdDict`: the opcode, the
flags and the lengths of path and value, and then path and value.  `mcmd` and `value` are variables of
the function and not of one round of its loop: an operation without an opcode of its own is sent as the
one before it, and a value that is neither `str` nor `int` is announced with length 0 and written as the
one before it. -/

namespace Taf.Memcached

open Taf.Lib
open Taf.Lib.Json (Denotes PlainCode codes numeral)

/-- The loop of `_doMultiSdCmd` -/
def multiBody (python : Python) (cmdDict : List (String × MultiSpec)) : Except PyError PyText := do
  let state ← cmdDict.foldlM (multiStep python)
    { body := .str python "", mcmd := none, value := none }
  pure state.body

/-! ## Reading a body back -/

/-- `REQ_PKT_SD_MULTI_MUTATE`, `>BBHI`. -/
def multiMutateFmt : List Nat := [1, 1, 2, 4]

structure MultiRecord where
  opcode : Nat
  flags : Nat
  path : Bytes
  value : Bytes

/-- The record at the front of a body, by the two lengths in it, and what comes behind it -/
def readMultiRecord (stream : Bytes) : Option (MultiRecord × Bytes) :=
  match unpack multiMutateFmt stream with
  | [opcode, flags, pathlen, valuelen] =>
    let rest := stream.drop multiMutateFmt.sum
    if stream.length < multiMutateFmt.sum + pathlen + valuelen then none
    else some (⟨opcode, flags, rest.take pathlen, (rest.drop pathlen).take valuelen⟩,
      rest.drop (pathlen + valuelen))
  | _ => none

/-- What a value is in JSON; a byte string is read as UTF-8. -/
def MultiValue.json : MultiValue → Option Json
  | text (.bytes content) => (utf8Decode content).map fun text => .str (codes text)
  | text (.unicode content) => some (.str (codes content))
  | int number => some (.int number)
  | bool truth => some (.bool truth)
  | other json => some json

def createFlag (spec : MultiSpec) : Nat := if spec.createParents then 1 else 0

/-- The record is that of the entry, its value a JSON text of the value of the entry. -/
def EntryRecord (entry : String × MultiSpec) (read : MultiRecord) : Prop :=
  multiCommand entry.1 = some read.opcode ∧ read.flags = createFlag entry.2 ∧
    read.path = entry.2.path.wire ∧
    ∃ text json, read.value = utf8 text ∧ entry.2.value.json = some json ∧ Denotes text json

def Supported (entry : String × MultiSpec) : Prop := (multiCommand entry.1).isSome

instance (entry : String × MultiSpec) : Decidable (Supported entry) :=
  inferInstanceAs (Decidable (_ = true))

/-- With supported names the body decodes to the entries; with another name the loop raises. -/
def MutationRoundTrips (python : Python) (cmdDict : List (String × MultiSpec)) : Prop :=
  ((∀ entry ∈ cmdDict, Supported entry) →
      ∃ body, multiBody python cmdDict = .ok body ∧ Decodes readMultiRecord EntryRecord body.wire cmdDict) ∧
    ((∃ entry ∈ cmdDict, ¬ Supported entry) → ∃ error, multiBody python cmdDict = .error error)

theorem readMultiRecord_record {opcode flags : Nat} {path value rest : Bytes}
    (fits : Fits multiMutateFmt [opcode, flags, path.length, value.length]) :
    readMultiRecord (record multiMutateFmt [opcode, flags, path.length, value.length] ++
      (path ++ (value ++ rest))) = some (⟨opcode, flags, path, value⟩, rest) := by
  have length := length_record fits
  rw [readMultiRecord, unpack_record fits]
  simp [← length, Nat.add_assoc]

/-! ## What one round writes in Python 2 -/

/-- The text that an entry with this value assigns to `value` -/
def MultiValue.written : MultiValue → Option Bytes
  | text (.bytes content) => some (0x22 :: (content ++ [0x22]))
  | text (.unicode _) => none
  | int number => some (utf8 (numeral number))
  | bool truth => some (utf8 (if truth then "True" else "False").toList)
  | other _ => none

def MultiValue.writtenLength (value : MultiValue) : Nat := (value.written.map List.length).getD 0

theorem multiValue_two (before : Option Bytes) (value : MultiValue) :
    multiValue .two (before.map .bytes) value =
      .ok ((value.written.or before).map .bytes, value.writtenLength) := by
  cases value with
  | text content =>
    cases content with
    | bytes content =>
      have opened : PyText.add .two (.str .two "\"") (.bytes content) = .ok (.bytes (0x22 :: content)) := rfl
      have closed : PyText.add .two (.bytes (0x22 :: content)) (.str .two "\"") =
          .ok (.bytes (0x22 :: (content ++ [0x22]))) := rfl
      simp only [multiValue, isStr, opened, bind, Except.bind, closed]
      rfl
    | unicode content => rfl
  | int number => rfl
  | bool truth => cases truth <;> rfl
  | other json => rfl

def HighByte (opcode : Nat) : Prop := 128 ≤ opcode ∧ opcode < 256

theorem multiCommand_high {name : String} {opcode : Nat} (command : multiCommand name = some opcode) :
    HighByte opcode := by
  unfold multiCommand at command
  split at command <;> cases command <;> simp [HighByte]

theorem high_or {name : String} {mcmd : Option Nat} (high : ∀ opcode ∈ mcmd, HighByte opcode) :
    ∀ opcode ∈ (multiCommand name).or mcmd, HighByte opcode := by
  intro opcode member
  cases own : multiCommand name with
  | none => exact high opcode (by simpa [own] using member)
  | some other =>
    rw [own] at member
    cases member
    exact multiCommand_high own

/-- An opcode with its top bit set keeps the packed fields from being joined with a unicode path. -/
theorem add_record_unicode {opcode : Nat} {fields : List Nat} {path : List Char} (high : HighByte opcode) :
    PyText.add .two (.bytes (record multiMutateFmt (opcode :: fields))) (.unicode path) =
      .error .unicodeDecodeError := by
  have strange : ¬ AsciiBytes (record multiMutateFmt (opcode :: fields)) := by
    intro ascii
    have small : UInt8.ofNat (opcode / 256 ^ 0) < 128 := ascii _ (List.mem_append_left _ List.mem_cons_self)
    rw [UInt8.lt_iff_toNat_lt, UInt8.toNat_ofNat', Nat.pow_zero, Nat.div_one, Nat.mod_eq_of_lt high.2] at small
    exact absurd small (by simpa using high.1)
  rw [PyText.add, if_neg strange]

theorem packExtras_of_not_fits {widths values : List Nat} (unfit : ¬ Fits widths values) :
    packExtras widths values = .error .structError := by
  rw [packExtras, pack, if_neg unfit]

theorem add_unicode_bytes (path : List Char) (value : Bytes) :
    (∃ error, PyText.add .two (.unicode path) (.bytes value) = .error error) ∨
      ∃ tail, PyText.add .two (.unicode path) (.bytes value) = .ok (.unicode tail) := by
  by_cases ascii : AsciiBytes value
  · exact .inr ⟨_, if_pos ascii⟩
  · exact .inl ⟨_, if_neg ascii⟩

theorem multiStep_two {body : Bytes} {mcmd : Option Nat} {before : Option Bytes}
    {entry : String × MultiSpec} {state : MultiState} (high : ∀ opcode ∈ mcmd, HighByte opcode) :
    multiStep .two ⟨.bytes body, mcmd, before.map .bytes⟩ entry = .ok state ↔
      ∃ opcode path value, (multiCommand entry.1).or mcmd = some opcode ∧
        entry.2.value.written.or before = some value ∧ entry.2.path = .bytes path ∧
        Fits multiMutateFmt [opcode, createFlag entry.2, path.length, entry.2.value.writtenLength] ∧
        state = ⟨.bytes (body ++ (record multiMutateFmt [opcode, createFlag entry.2, path.length,
          entry.2.value.writtenLength] ++ (path ++ value))), some opcode, some (.bytes value)⟩ := by
  simp only [multiStep, multiValue_two, bind, Except.bind]
  -- An entry without an opcode or a value of its own falls back on those of the entries before it.
  cases command : (multiCommand entry.1).or mcmd with
  | none => simp [throw, throwThe, MonadExceptOf.throw]
  | some opcode =>
    have isHigh := high_or high opcode command
    simp only
    by_cases fits : Fits multiMutateFmt [opcode, createFlag entry.2, entry.2.path.len, entry.2.value.writtenLength]
    · have packed : packExtras [1, 1, 2, 4] [opcode, if entry.2.createParents then 1 else 0,
          entry.2.path.len, entry.2.value.writtenLength] = .ok (.bytes (record multiMutateFmt [opcode,
            createFlag entry.2, entry.2.path.len, entry.2.value.writtenLength])) := packExtras_of_fits fits
      rw [packed]
      cases assigned : entry.2.value.written.or before with
      | none => simp [throw, throwThe, MonadExceptOf.throw]
      | some value =>
        cases isPath : entry.2.path with
        | bytes path =>
          rw [isPath] at fits
          simp only [Option.map_some, PyText.add_bytes]
          constructor
          · intro returned
            cases returned
            exact ⟨opcode, path, value, rfl, rfl, rfl, fits, rfl⟩
          · intro ⟨opcode', path', value', sameOpcode, sameValue, samePath, _, same⟩
            cases sameOpcode
            cases sameValue
            cases samePath
            rw [same]
            rfl
        | unicode path =>
          -- Whether or not path and value can be joined, the packed fields cannot be.
          refine iff_of_false ?_ (by simp)
          cases add_unicode_bytes path value with
          | inl raised =>
            obtain ⟨error, raised⟩ := raised
            simp [raised]
          | inr joined =>
            obtain ⟨tail, joined⟩ := joined
            simp [joined, add_record_unicode isHigh]
    -- A path of another type is refused only behind the packing, which has its own limits.
    · have refused : packExtras [1, 1, 2, 4] [opcode, if entry.2.createParents then 1 else 0,
          entry.2.path.len, entry.2.value.writtenLength] = .error .structError := packExtras_of_not_fits fits
      rw [refused]
      refine iff_of_false (by simp) ?_
      intro ⟨opcode', path, _, sameOpcode, _, isPath, fits', _⟩
      cases sameOpcode
      rw [isPath] at fits
      exact fits fits'

/-! ## The whole loop in Python 2 -/

/-- The path is a byte string, and path and value are no longer than their length fields can say. -/
def MultiSpec.Sized (spec : MultiSpec) : Prop :=
  ∃ path, spec.path = .bytes path ∧ path.length < 2 ^ 16 ∧ spec.value.writtenLength < 2 ^ 32

theorem fits_multiMutate_iff {opcode pathlen valuelen : Nat} {spec : MultiSpec} (high : HighByte opcode) :
    Fits multiMutateFmt [opcode, createFlag spec, pathlen, valuelen] ↔ pathlen < 2 ^ 16 ∧ valuelen < 2 ^ 32 := by
  have flag : createFlag spec < 256 := by
    unfold createFlag
    split <;> decide
  have small := high.2
  simp [Fits, multiMutateFmt, flag, small]

/-- The first entry needs an opcode and a value of its own; the others can do with those before them. -/
theorem multiLoop_returns_iff {entries : List (String × MultiSpec)} {body : Bytes} {mcmd : Option Nat}
    {before : Option Bytes} (high : ∀ opcode ∈ mcmd, HighByte opcode) :
    (∃ state, entries.foldlM (multiStep .two) ⟨.bytes body, mcmd, before.map .bytes⟩ = .ok state) ↔
      (∀ entry ∈ entries, entry.2.Sized) ∧ ∀ first ∈ entries.head?,
        ((multiCommand first.1).or mcmd).isSome ∧ (first.2.value.written.or before).isSome := by
  induction entries generalizing body mcmd before with
  | nil => simp [pure, Except.pure]
  | cons entry entries ih =>
    -- Behind an entry there is an opcode and a value to fall back on.
    have later : ∀ {opcode : Nat} {value : Bytes} {body : Bytes}, HighByte opcode →
        ((∃ state, entries.foldlM (multiStep .two) ⟨.bytes body, some opcode, some (.bytes value)⟩ = .ok state) ↔
          ∀ entry ∈ entries, entry.2.Sized) := by
      intro opcode value body isHigh
      have tail := @ih body (some opcode) (some value) (by simpa using isHigh)
      simpa using tail
    have isHigh : ∀ {opcode}, (multiCommand entry.1).or mcmd = some opcode → HighByte opcode :=
      fun command => high_or high _ command
    simp only [List.foldlM_cons, List.head?_cons, Option.mem_some_iff, forall_eq', List.forall_mem_cons]
    constructor
    · intro ⟨state, folded⟩
      obtain ⟨next, stepped, folded⟩ := bind_eq_ok.mp folded
      obtain ⟨opcode, path, value, command, assigned, isPath, fits, rfl⟩ := (multiStep_two high).mp stepped
      obtain ⟨short, short'⟩ := (fits_multiMutate_iff (isHigh command)).mp fits
      refine ⟨⟨⟨path, isPath, short, short'⟩, (later (isHigh command)).mp ⟨state, folded⟩⟩, ?_, ?_⟩
      · simp [command]
      · simp [assigned]
    · intro ⟨⟨⟨path, isPath, short, short'⟩, sized⟩, hasCommand, hasValue⟩
      obtain ⟨opcode, command⟩ := Option.isSome_iff_exists.mp hasCommand
      obtain ⟨value, assigned⟩ := Option.isSome_iff_exists.mp hasValue
      have fits : Fits multiMutateFmt [opcode, createFlag entry.2, path.length, entry.2.value.writtenLength] :=
        (fits_multiMutate_iff (isHigh command)).mpr ⟨short, short'⟩
      obtain ⟨state, folded⟩ := (later (isHigh command)).mpr sized
      exact ⟨state, bind_eq_ok.mpr ⟨_, (multiStep_two high).mpr
        ⟨opcode, path, value, command, assigned, isPath, fits, rfl⟩, folded⟩⟩

/-! ## Values and their JSON texts -/

/-- The values whose text is JSON: numbers, and strings without a character that needs an escape -/
def MultiValue.Clean : MultiValue → Prop
  | text (.bytes content) => ∃ text, utf8 text = content ∧ ∀ c ∈ text, PlainCode c.toNat
  | int _ => True
  | _ => False

def JsonBytes (value : MultiValue) (content : Bytes) : Prop :=
  ∃ text json, content = utf8 text ∧ value.json = some json ∧ Denotes text json

theorem not_jsonBytes_nil {value : MultiValue} : ¬ JsonBytes value [] := by
  intro ⟨text, json, same, _, denotes⟩
  have empty : text = [] := utf8_injective same.symm
  rw [empty] at denotes
  exact Json.not_denotes_nil denotes

theorem utf8_quoted (inner : List Char) :
    utf8 ('"' :: (inner ++ ['"'])) = 0x22 :: (utf8 inner ++ [0x22]) := by
  rw [utf8_cons, utf8_append]
  rfl

theorem jsonBytes_written_iff {value : MultiValue} {content : Bytes} (written : value.written = some content) :
    JsonBytes value content ↔ value.Clean := by
  cases value with
  | text given =>
    cases given with
    | unicode _ => cases written
    | bytes given =>
      cases written
      constructor
      · intro ⟨text, json, same, isJson, denotes⟩
        obtain ⟨inner, decoded, rfl⟩ := Option.map_eq_some_iff.mp isJson
        have content := utf8Decode_eq_some.mp decoded
        rw [← content, ← utf8_quoted] at same
        rw [← utf8_injective same] at denotes
        exact ⟨inner, content, Json.denotes_quoted_iff.mp denotes⟩
      · intro ⟨inner, content, plain⟩
        refine ⟨'"' :: (inner ++ ['"']), .str (codes inner), ?_, ?_, Json.denotes_quoted_iff.mpr plain⟩
        · rw [utf8_quoted, content]
        · rw [MultiValue.json, utf8Decode_eq_some.mpr content]
          rfl
  | int number =>
    cases written
    exact iff_of_true ⟨_, _, rfl, rfl, Json.denotes_numeral number⟩ trivial
  | bool truth =>
    cases written
    refine iff_of_false ?_ (fun clean => clean)
    intro ⟨text, json, same, isJson, denotes⟩
    rw [← utf8_injective same] at denotes
    -- `True` and `False` begin with a letter that no JSON text begins with.
    cases truth <;> exact Json.not_denotes_of_start (by decide) (by decide) (by decide) denotes
  | other json => cases written

theorem MultiValue.Clean.isSome {value : MultiValue} (clean : value.Clean) : value.written.isSome := by
  cases value with
  | text given =>
    cases given with
    | bytes _ => rfl
    | unicode _ => cases clean
  | int _ => rfl
  | bool _ => rfl
  | other _ => cases clean

/-- What the loop appends decodes to the entries exactly if all values are clean: a value that is not
    written is announced as empty, and the empty text is no JSON text. -/
theorem multiLoop_decodes_iff {entries : List (String × MultiSpec)} {body : Bytes} {mcmd : Option Nat}
    {before : Option Bytes} {state : MultiState} (high : ∀ opcode ∈ mcmd, HighByte opcode)
    (supported : ∀ entry ∈ entries, Supported entry)
    (folded : entries.foldlM (multiStep .two) ⟨.bytes body, mcmd, before.map .bytes⟩ = .ok state) :
    ∃ more, state.body = .bytes (body ++ more) ∧
      (Decodes readMultiRecord EntryRecord more entries ↔ ∀ entry ∈ entries, entry.2.value.Clean) := by
  induction entries generalizing body mcmd before with
  | nil =>
    cases folded
    exact ⟨[], by simp, by simp [Decodes]⟩
  | cons entry entries ih =>
    obtain ⟨next, stepped, folded⟩ := bind_eq_ok.mp folded
    obtain ⟨opcode, path, value, command, assigned, isPath, fits, rfl⟩ := (multiStep_two high).mp stepped
    have isHigh := high_or high _ command
    obtain ⟨own, isOwn⟩ := Option.isSome_iff_exists.mp (supported entry List.mem_cons_self)
    have sameOpcode : own = opcode := by simpa [isOwn] using command
    obtain ⟨more, isBody, decodes⟩ := @ih _ (some opcode) (some value) (by simpa using isHigh)
      (fun other member => supported other (List.mem_cons_of_mem entry member)) folded
    refine ⟨_, by rw [isBody, List.append_assoc], ?_⟩
    have described : ∀ content, EntryRecord entry ⟨opcode, createFlag entry.2, path, content⟩ ↔
        JsonBytes entry.2.value content := by
      intro content
      simp [EntryRecord, JsonBytes, isOwn, sameOpcode, isPath, PyText.wire]
    rw [List.append_assoc, List.append_assoc, List.forall_mem_cons]
    cases written : entry.2.value.written with
    | some content =>
      have same : value = content := by simpa [written] using assigned.symm
      subst same
      have valuelen : entry.2.value.writtenLength = value.length := by simp [MultiValue.writtenLength, written]
      rw [valuelen] at fits ⊢
      rw [decodes_cons_iff (readMultiRecord_record fits), described, jsonBytes_written_iff written, decodes]
    | none =>
      -- The record says that its value is empty, but the value of an earlier entry stands behind it.
      have valuelen : entry.2.value.writtenLength = ([] : Bytes).length := by
        simp [MultiValue.writtenLength, written]
      rw [valuelen] at fits ⊢
      refine iff_of_false ?_ ?_
      · rw [← List.nil_append (value ++ more), decodes_cons_iff (readMultiRecord_record fits), described]
        exact fun described => not_jsonBytes_nil described.1
      · intro clean
        have some := clean.1.isSome
        rw [written] at some
        cases some

/-! ## Which dictionaries make the round trip -/

theorem multiBody_eq_ok {python : Python} {cmdDict : List (String × MultiSpec)} {body : PyText} :
    multiBody python cmdDict = .ok body ↔ ∃ state, cmdDict.foldlM (multiStep python)
      { body := .str python "", mcmd := none, value := none } = .ok state ∧ state.body = body := by
  rw [multiBody, bind_eq_ok]
  simp [pure, Except.pure]

/-- Python 3 builds a body for the empty dictionary only. -/
theorem multiBody_three {cmdDict : List (String × MultiSpec)} :
    (∃ body, multiBody .three cmdDict = .ok body) ↔ cmdDict = [] := by
  constructor
  · intro ⟨body, built⟩
    obtain ⟨state, folded, _⟩ := multiBody_eq_ok.mp built
    cases cmdDict with
    | nil => rfl
    | cons entry rest =>
      obtain ⟨next, stepped, _⟩ := bind_eq_ok.mp folded
      exact absurd stepped (multiStep_three rfl)
  · rintro rfl
    exact ⟨_, rfl⟩

/-- What the loop of Python 2 gets through: an unsupported name takes over the opcode of the entry before it. -/
def Builds (cmdDict : List (String × MultiSpec)) : Prop :=
  (∀ entry ∈ cmdDict, entry.2.Sized) ∧
    ∀ first ∈ cmdDict.head?, Supported first ∧ first.2.value.written.isSome

theorem multiBody_two {cmdDict : List (String × MultiSpec)} :
    (∃ body, multiBody .two cmdDict = .ok body) ↔ Builds cmdDict := by
  have loop := @multiLoop_returns_iff cmdDict [] none none (by simp)
  simp only [Option.or_none] at loop
  refine Iff.trans ?_ loop
  constructor
  · intro ⟨body, built⟩
    obtain ⟨state, folded, _⟩ := multiBody_eq_ok.mp built
    exact ⟨state, folded⟩
  · intro ⟨state, folded⟩
    exact ⟨state.body, multiBody_eq_ok.mpr ⟨state, folded, rfl⟩⟩

/-- With supported names only, the body of Python 2 decodes to the entries exactly if it is built and all
    values are clean. -/
theorem multiBody_decodes_iff {cmdDict : List (String × MultiSpec)}
    (supported : ∀ entry ∈ cmdDict, Supported entry) :
    (∃ body, multiBody .two cmdDict = .ok body ∧ Decodes readMultiRecord EntryRecord body.wire cmdDict) ↔
      ∀ entry ∈ cmdDict, entry.2.Sized ∧ entry.2.value.Clean := by
  constructor
  · intro ⟨body, built, decodes⟩
    have sized := (multiBody_two.mp ⟨body, built⟩).1
    obtain ⟨state, folded, rfl⟩ := multiBody_eq_ok.mp built
    obtain ⟨more, isBody, clean⟩ := @multiLoop_decodes_iff cmdDict [] none none state (by simp) supported folded
    rw [isBody] at decodes
    exact fun entry member => ⟨sized entry member, clean.mp decodes entry member⟩
  · intro good
    have builds : Builds cmdDict := by
      refine ⟨fun entry member => (good entry member).1, fun first isFirst => ?_⟩
      have member := List.mem_of_mem_head? isFirst
      exact ⟨supported first member, (good first member).2.isSome⟩
    obtain ⟨body, built⟩ := multiBody_two.mpr builds
    obtain ⟨state, folded, rfl⟩ := multiBody_eq_ok.mp built
    obtain ⟨more, isBody, clean⟩ := @multiLoop_decodes_iff cmdDict [] none none state (by simp) supported folded
    refine ⟨_, built, ?_⟩
    rw [isBody]
    exact clean.mpr fun entry member => (good entry member).2

/-- The body is right exactly for the empty dictionary, and in Python 2 if every path is a byte string that
    is short enough and every value a number or a string that needs no escape.  With an unsupported name
    the loop raises exactly if it is Python 3's, or something else than that name makes it raise. -/
theorem mutationRoundTrips_iff (python : Python) (cmdDict : List (String × MultiSpec)) :
    MutationRoundTrips python cmdDict ↔
      ((∀ entry ∈ cmdDict, Supported entry) → cmdDict = [] ∨
        python = .two ∧ ∀ entry ∈ cmdDict, entry.2.Sized ∧ entry.2.value.Clean) ∧
      ((∃ entry ∈ cmdDict, ¬ Supported entry) → python = .three ∨ ¬ Builds cmdDict) := by
  have raises : ∀ python, (∃ error, multiBody python cmdDict = .error error) ↔
      ¬ ∃ body, multiBody python cmdDict = .ok body := by
    intro python
    cases multiBody python cmdDict with
    | error error => simp
    | ok body => simp
  rw [MutationRoundTrips, raises]
  cases python with
  | two =>
    have empty : cmdDict = [] ∨ (∀ entry ∈ cmdDict, entry.2.Sized ∧ entry.2.value.Clean) ↔
        ∀ entry ∈ cmdDict, entry.2.Sized ∧ entry.2.value.Clean := by
      refine or_iff_right_of_imp ?_
      rintro rfl
      simp
    simp only [multiBody_two, true_and, reduceCtorEq, false_or, empty]
    exact and_congr (forall_congr' fun supported => multiBody_decodes_iff supported) Iff.rfl
  | three =>
    rw [multiBody_three]
    simp only [reduceCtorEq, false_and, or_false, true_or, implies_true, and_true]
    constructor
    · intro ⟨encodes, _⟩ supported
      obtain ⟨body, built, _⟩ := encodes supported
      exact multiBody_three.mp ⟨body, built⟩
    · intro empty
      refine ⟨fun supported => ?_, fun ⟨entry, member, strange⟩ nothing => ?_⟩
      · obtain rfl := empty supported
        exact ⟨_, rfl, rfl⟩
      · rw [nothing] at member
        cases member

/-- `True` is not how JSON writes it. -/
theorem truth_is_no_json :
    ¬ MutationRoundTrips .two [("insert", ⟨false, .bytes (utf8 ['a']), .bool true⟩)] := by
  intro ⟨encodes, _⟩
  have supported : ∀ entry ∈ [("insert", (⟨false, .bytes (utf8 ['a']), .bool true⟩ : MultiSpec))], Supported entry := by
    simp [Supported, multiCommand]
  exact ((multiBody_decodes_iff supported).mp (encodes supported) _ List.mem_cons_self).2

end Taf.Memcached
