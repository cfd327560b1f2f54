import Mathlib
import Taf.Lib.Bytes
import Taf.Lib.Run

/-! # Byte strings and unicode strings of Python 2 and Python 3

The two languages agree on the length of a text and disagree on `encode` and on `+` between the
two kinds of text: Python 2 decodes a byte string as ASCII behind the caller's back, Python 3
raises.  `wire` is what a text is meant to be on a byte stream: a byte string is itself, a unicode
string is its UTF-8 form.  `Plain` names the texts that `encode` puts on the wire unchanged and
whose `len` is the number of bytes there. -/

namespace Taf.Lib

inductive Python where
  | two
  | three
  deriving DecidableEq

/-- The exceptions of the interpreter, with the text where the program itself gives one. -/
inductive PyError where
  | attributeError
  | typeError
  | unicodeDecodeError
  | unicodeEncodeError
  | structError
  | indexError
  | keyError
  | nameError
  | zeroDivisionError
  | valueError (text : String)
  | runtimeError (text : String)
  | eofError (text : String)
  | assertionError (text : String)
  deriving DecidableEq

inductive PyText where
  | bytes (content : Bytes)
  | unicode (content : List Char)
  deriving DecidableEq

/-! ## UTF-8 -/

def utf8 (content : List Char) : Bytes :=
  content.flatMap String.utf8EncodeChar

/-- `decode()` of a byte string in Python 3; `none` stands for its `UnicodeDecodeError`. -/
def utf8Decode (content : Bytes) : Option (List Char) :=
  (content.toByteArray.utf8Decode?).map Array.toList

def AsciiChars (content : List Char) : Prop :=
  ∀ c ∈ content, c.toNat < 128

def AsciiBytes (content : Bytes) : Prop :=
  ∀ byte ∈ content, byte < 128

instance (content : List Char) : Decidable (AsciiChars content) :=
  inferInstanceAs (Decidable (∀ c ∈ content, c.toNat < 128))

instance (content : Bytes) : Decidable (AsciiBytes content) :=
  inferInstanceAs (Decidable (∀ byte ∈ content, byte < 128))

@[simp] theorem utf8_nil : utf8 [] = [] := rfl

theorem utf8_cons (c : Char) (content : List Char) :
    utf8 (c :: content) = String.utf8EncodeChar c ++ utf8 content := rfl

theorem utf8_append (first second : List Char) :
    utf8 (first ++ second) = utf8 first ++ utf8 second := List.flatMap_append

theorem utf8Encode_eq_utf8 (content : List Char) : content.utf8Encode = (utf8 content).toByteArray :=
  rfl

theorem length_le_length_utf8 (content : List Char) : content.length ≤ (utf8 content).length := by
  induction content with
  | nil => simp
  | cons c content ih =>
    rw [utf8_cons, List.length_append, String.length_utf8EncodeChar, List.length_cons]
    have := c.utf8Size_pos
    omega

theorem utf8Size_eq_one_iff_ascii (c : Char) : c.utf8Size = 1 ↔ c.toNat < 128 := by
  rw [Char.utf8Size_eq_one_iff, UInt32.le_iff_toNat_le]
  exact Nat.lt_succ_iff.symm

theorem asciiChars_cons {c : Char} {content : List Char} :
    AsciiChars (c :: content) ↔ c.toNat < 128 ∧ AsciiChars content := by
  simp [AsciiChars]

theorem asciiChars_append {first second : List Char} :
    AsciiChars (first ++ second) ↔ AsciiChars first ∧ AsciiChars second := by
  simp only [AsciiChars, List.mem_append, or_imp, forall_and]

/-- The number of characters is the number of bytes exactly for ASCII. -/
theorem length_utf8_eq_iff (content : List Char) :
    (utf8 content).length = content.length ↔ AsciiChars content := by
  induction content with
  | nil => simp [AsciiChars]
  | cons c content ih =>
    rw [asciiChars_cons, ← ih, ← utf8Size_eq_one_iff_ascii, utf8_cons, List.length_append,
      String.length_utf8EncodeChar, List.length_cons]
    have := c.utf8Size_pos
    have := length_le_length_utf8 content
    omega

theorem utf8EncodeChar_of_ascii {c : Char} (ascii : c.toNat < 128) :
    String.utf8EncodeChar c = [UInt8.ofNat c.toNat] := by
  rw [String.utf8EncodeChar_eq_singleton ((utf8Size_eq_one_iff_ascii c).mpr ascii)]
  congr 1

theorem asciiBytes_utf8 {content : List Char} (ascii : AsciiChars content) :
    AsciiBytes (utf8 content) := by
  intro byte member
  obtain ⟨c, inside, produced⟩ := List.mem_flatMap.mp member
  have small := ascii c inside
  rw [utf8EncodeChar_of_ascii small, List.mem_singleton] at produced
  rw [produced, UInt8.lt_iff_toNat_lt, UInt8.toNat_ofNat_of_lt' (by simp only [UInt8.size]; omega)]
  exact small

theorem toNat_charOfNat {n : Nat} (small : n < 128) : (Char.ofNat n).toNat = n := by
  have valid : n.isValidChar := .inl (by omega)
  simp [Char.ofNat, valid]

theorem utf8_charOfNat {n : Nat} (small : n < 128) : utf8 [Char.ofNat n] = [UInt8.ofNat n] := by
  have value := toNat_charOfNat small
  rw [utf8_cons, utf8_nil, List.append_nil, utf8EncodeChar_of_ascii (by omega), value]

theorem utf8Decode_eq_some {content : Bytes} {decoded : List Char} :
    utf8Decode content = some decoded ↔ utf8 decoded = content := by
  constructor
  · intro found
    obtain ⟨chars, read, rfl⟩ := Option.map_eq_some_iff.mp found
    have valid : content.toByteArray.utf8Decode?.isSome := by simp [read]
    have again := @ByteArray.utf8Encode_get_utf8Decode? content.toByteArray valid
    simp only [read, Option.get_some] at again
    exact List.toByteArray_inj.mp again
  · rintro rfl
    rw [utf8Decode, ← utf8Encode_eq_utf8, List.utf8Decode?_utf8Encode]
    rfl

theorem utf8_map_charOfNat {content : Bytes} (ascii : AsciiBytes content) :
    utf8 (content.map fun byte => Char.ofNat byte.toNat) = content := by
  induction content with
  | nil => rfl
  | cons byte content ih =>
    have small : byte.toNat < 128 := ascii byte List.mem_cons_self
    have one := utf8_charOfNat small
    rw [utf8_cons, utf8_nil, List.append_nil] at one
    rw [List.map_cons, utf8_cons, one, ih fun other member => ascii other (List.mem_cons_of_mem byte member)]
    simp

theorem utf8_injective {text other : List Char} (same : utf8 text = utf8 other) : text = other :=
  Option.some.inj ((utf8Decode_eq_some.mpr same).symm.trans (utf8Decode_eq_some.mpr rfl))

theorem asciiBytes_utf8_iff {content : List Char} : AsciiBytes (utf8 content) ↔ AsciiChars content := by
  refine ⟨fun ascii => ?_, asciiBytes_utf8⟩
  have chars : (utf8 content).map (fun byte => Char.ofNat byte.toNat) = content :=
    utf8_injective (utf8_map_charOfNat ascii)
  rw [← chars]
  intro c member
  obtain ⟨byte, inside, rfl⟩ := List.mem_map.mp member
  have small : byte.toNat < 128 := ascii byte inside
  rw [toNat_charOfNat small]
  exact small

namespace PyText

def len : PyText → Nat
  | bytes content => content.length
  | unicode content => content.length

/-- The bytes that a text stands for on a byte stream. -/
def wire : PyText → Bytes
  | bytes content => content
  | unicode content => utf8 content

/-- A literal of the program: a byte string in Python 2 and a unicode string in Python 3. -/
def str : Python → String → PyText
  | .two, text => bytes (utf8 text.toList)
  | .three, text => unicode text.toList

/-- `text.encode()`.  Python 2 first decodes a byte string as ASCII. -/
def encode : Python → PyText → Except PyError Bytes
  | .two, bytes content => if AsciiBytes content then .ok content else .error .unicodeDecodeError
  | .two, unicode content =>
    if AsciiChars content then .ok (utf8 content) else .error .unicodeEncodeError
  | .three, bytes _ => .error .attributeError
  | .three, unicode content => .ok (utf8 content)

/-- `try: text = text.encode()` with `except AttributeError: pass`. -/
def encodeOrKeep (python : Python) (text : PyText) : Except PyError PyText :=
  match text.encode python with
  | .ok encoded => .ok (bytes encoded)
  | .error .attributeError => .ok text
  | .error error => .error error

/-- `first + second`. -/
def add : Python → PyText → PyText → Except PyError PyText
  | _, bytes first, bytes second => .ok (bytes (first ++ second))
  | _, unicode first, unicode second => .ok (unicode (first ++ second))
  | .two, bytes first, unicode second =>
    if AsciiBytes first then .ok (unicode (first.map (fun byte => Char.ofNat byte.toNat) ++ second))
    else .error .unicodeDecodeError
  | .two, unicode first, bytes second =>
    if AsciiBytes second then .ok (unicode (first ++ second.map fun byte => Char.ofNat byte.toNat))
    else .error .unicodeDecodeError
  | .three, _, _ => .error .typeError

/-- How one byte stands in the `repr` of a Python 3 byte string that is quoted with `quote`. -/
def reprByte (quote byte : UInt8) : List Char :=
  if byte = quote ∨ byte = 0x5c then ['\\', Char.ofNat byte.toNat]
  else if byte = 0x09 then ['\\', 't']
  else if byte = 0x0a then ['\\', 'n']
  else if byte = 0x0d then ['\\', 'r']
  else if byte < 0x20 ∨ 0x7f ≤ byte then
    ['\\', 'x', Nat.digitChar (byte.toNat / 16), Nat.digitChar (byte.toNat % 16)]
  else [Char.ofNat byte.toNat]

/-- `repr` of a byte string in Python 3: double quotes only where they save an escape. -/
def reprBytes (content : Bytes) : List Char :=
  let quote := if 0x27 ∈ content ∧ 0x22 ∉ content then 0x22 else 0x27
  'b' :: Char.ofNat quote.toNat :: content.flatMap (reprByte quote) ++ [Char.ofNat quote.toNat]

/-- `str(text)` -/
def toStr : Python → PyText → Except PyError PyText
  | .two, bytes content => .ok (bytes content)
  | .two, unicode content =>
    if AsciiChars content then .ok (bytes (utf8 content)) else .error .unicodeEncodeError
  | .three, bytes content => .ok (unicode (reprBytes content))
  | .three, unicode content => .ok (unicode content)

/-- The texts that reach the wire as they are, under a `len` that counts their bytes. -/
def Plain : Python → PyText → Prop
  | .two, bytes content => AsciiBytes content
  | .three, bytes _ => True
  | _, unicode content => AsciiChars content

instance (python : Python) (text : PyText) : Decidable (text.Plain python) :=
  match python, text with
  | .two, bytes content => inferInstanceAs (Decidable (AsciiBytes content))
  | .three, bytes _ => inferInstanceAs (Decidable True)
  | .two, unicode content => inferInstanceAs (Decidable (AsciiChars content))
  | .three, unicode content => inferInstanceAs (Decidable (AsciiChars content))

theorem length_reprByte_pos (quote byte : UInt8) : 0 < (reprByte quote byte).length := by
  unfold reprByte
  repeat' split
  all_goals simp

/-- The prefix and the quotes make the `repr` longer than the byte string. -/
theorem length_lt_length_reprBytes (content : Bytes) : content.length < (reprBytes content).length := by
  have inside : ∀ quote, content.length ≤ (content.flatMap (reprByte quote)).length := by
    intro quote
    induction content with
    | nil => simp
    | cons byte content ih =>
      have := length_reprByte_pos quote byte
      rw [List.flatMap_cons, List.length_append, List.length_cons]
      omega
  have := inside (if 0x27 ∈ content ∧ 0x22 ∉ content then 0x22 else 0x27)
  simp only [reprBytes, List.length_append, List.length_cons]
  omega

theorem asciiChars_repr (number : Nat) : AsciiChars number.repr.toList := by
  intro c member
  rw [Nat.toList_repr] at member
  have digit := Nat.isDigit_of_mem_toDigits (by decide) (by decide) member
  have upper : c.val ≤ 57 := (of_decide_eq_true (Bool.and_eq_true_iff.mp digit).2)
  rw [UInt32.le_iff_toNat_le] at upper
  exact lt_of_le_of_lt upper (by decide)

theorem asciiChars_toString (number : Int) : AsciiChars (toString number).toList := by
  rw [Int.toString_eq_repr, Int.repr_eq_if]
  split
  · exact asciiChars_repr _
  · rw [String.toList_append, asciiChars_append]
    exact ⟨by simp [AsciiChars], asciiChars_repr _⟩

theorem len_le_length_wire (text : PyText) : text.len ≤ text.wire.length := by
  cases text with
  | bytes content => exact le_refl _
  | unicode content => exact length_le_length_utf8 content

/-- What the encoder needs: nothing in Python 3, ASCII in Python 2. -/
def Encodes (python : Python) (text : PyText) : Prop :=
  python = .three ∨ text.Plain .two

theorem plain_iff {python : Python} {text : PyText} :
    text.Plain python ↔ text.Encodes python ∧ text.wire.length = text.len := by
  cases text with
  | bytes content => cases python <;> simp [Plain, Encodes, wire, len]
  | unicode content =>
    cases python <;> simp [Plain, Encodes, wire, len, length_utf8_eq_iff]

theorem encodeOrKeep_of_encodes {python : Python} {text : PyText} (encodes : text.Encodes python) :
    encodeOrKeep python text = .ok (bytes text.wire) := by
  cases python with
  | two =>
    have ascii : text.Plain .two := encodes.resolve_left (by decide)
    cases text with
    | bytes content =>
      have ascii : AsciiBytes content := ascii
      have encoded : encode .two (bytes content) = .ok content := by rw [encode, if_pos ascii]
      rw [encodeOrKeep, encoded, wire]
    | unicode content =>
      have ascii : AsciiChars content := ascii
      have encoded : encode .two (unicode content) = .ok (utf8 content) := by
        rw [encode, if_pos ascii]
      rw [encodeOrKeep, encoded, wire]
  | three => cases text <;> rfl

theorem encodeOrKeep_of_not_encodes {python : Python} {text : PyText}
    (refused : ¬ text.Encodes python) : ∃ error, encodeOrKeep python text = .error error := by
  cases python with
  | two =>
    have strange : ¬ text.Plain .two := fun plain => refused (.inr plain)
    cases text with
    | bytes content =>
      have strange : ¬ AsciiBytes content := strange
      have raised : encode .two (bytes content) = .error .unicodeDecodeError := by
        rw [encode, if_neg strange]
      exact ⟨.unicodeDecodeError, by rw [encodeOrKeep, raised]⟩
    | unicode content =>
      have strange : ¬ AsciiChars content := strange
      have raised : encode .two (unicode content) = .error .unicodeEncodeError := by
        rw [encode, if_neg strange]
      exact ⟨.unicodeEncodeError, by rw [encodeOrKeep, raised]⟩
  | three => exact absurd (.inl rfl) refused

theorem encodeOrKeep_eq_ok {python : Python} {text out : PyText} :
    encodeOrKeep python text = .ok out ↔ text.Encodes python ∧ out = bytes text.wire := by
  by_cases encodes : text.Encodes python
  · rw [encodeOrKeep_of_encodes encodes, Except.ok.injEq]
    exact ⟨fun same => ⟨encodes, same.symm⟩, fun same => same.2.symm⟩
  · obtain ⟨error, raised⟩ := encodeOrKeep_of_not_encodes encodes
    rw [raised]
    simp [encodes]

@[simp] theorem add_bytes (python : Python) (first second : Bytes) :
    add python (bytes first) (bytes second) = .ok (bytes (first ++ second)) := by
  cases python <;> rfl

theorem encode_eq_ok {python : Python} {text : PyText} {encoded : Bytes}
    (returned : text.encode python = .ok encoded) : encoded = text.wire := by
  cases python <;> cases text <;> simp only [encode] at returned
  · split at returned <;> cases returned
    rfl
  · split at returned <;> cases returned
    rfl
  · cases returned
  · cases returned
    rfl

theorem add_three_bytes {head : Bytes} {text out : PyText} :
    add .three (bytes head) text = .ok out ↔
      ∃ content, text = bytes content ∧ out = bytes (head ++ content) := by
  cases text with
  | bytes content => simp [add, eq_comm]
  | unicode content => simp [add]

theorem add_three_unicode {head : List Char} {key out : PyText} :
    add .three (unicode head) key = .ok out ↔
      ∃ text, key = unicode text ∧ out = unicode (head ++ text) := by
  cases key with
  | bytes content => simp [add]
  | unicode content => simp [add, eq_comm]

/-! ## Texts joined from parts -/

/-- However two texts are joined, the bytes that they stand for are. -/
theorem add_wire {python : Python} {first second joined : PyText}
    (returned : add python first second = .ok joined) : joined.wire = first.wire ++ second.wire := by
  cases first with
  | bytes first =>
    cases second with
    | bytes second =>
      rw [add_bytes] at returned
      cases returned
      rfl
    | unicode second =>
      cases python with
      | two =>
        simp only [add] at returned
        split at returned
        case isTrue ascii =>
          cases returned
          simp only [wire, utf8_append, utf8_map_charOfNat ascii]
        case isFalse => cases returned
      | three => cases returned
  | unicode first =>
    cases second with
    | bytes second =>
      cases python with
      | two =>
        simp only [add] at returned
        split at returned
        case isTrue ascii =>
          cases returned
          simp only [wire, utf8_append, utf8_map_charOfNat ascii]
        case isFalse => cases returned
      | three => cases returned
    | unicode second =>
      have added : add python (unicode first) (unicode second) = .ok (unicode (first ++ second)) := by
        cases python <;> rfl
      rw [added] at returned
      cases returned
      exact utf8_append first second

def IsBytes (text : PyText) : Prop := ∃ content, text = bytes content

/-- The byte strings among the texts are ASCII. -/
def AsciiParts (parts : List PyText) : Prop := ∀ content, bytes content ∈ parts → AsciiBytes content

theorem foldlM_add_wire {python : Python} {parts : List PyText} {first joined : PyText}
    (returned : parts.foldlM (add python) first = .ok joined) :
    joined.wire = first.wire ++ parts.flatMap wire := by
  induction parts generalizing first with
  | nil =>
    cases returned
    simp
  | cons part parts ih =>
    obtain ⟨next, added, returned⟩ := bind_eq_ok.mp returned
    rw [ih returned, add_wire added, List.flatMap_cons, List.append_assoc]

theorem foldlM_add_unicode {parts : List PyText} {first : List Char} :
    (∃ joined, parts.foldlM (add .two) (unicode first) = .ok joined) ↔ AsciiParts parts := by
  induction parts generalizing first with
  | nil => simp [AsciiParts, pure, Except.pure]
  | cons part parts ih =>
    cases part with
    | bytes content =>
      by_cases ascii : AsciiBytes content
      · have added : add .two (unicode first) (bytes content) = _ := if_pos ascii
        rw [List.foldlM_cons, added]
        simp only [bind, Except.bind, ih, AsciiParts, List.mem_cons, bytes.injEq]
        grind
      · have added : add .two (unicode first) (bytes content) = _ := if_neg ascii
        rw [List.foldlM_cons, added]
        simp only [bind, Except.bind, AsciiParts, List.mem_cons, bytes.injEq, reduceCtorEq, exists_false, false_iff]
        exact fun all => ascii (all content (.inl rfl))
    | unicode content =>
      simp only [List.foldlM_cons, add, bind, Except.bind, ih, AsciiParts, List.mem_cons, reduceCtorEq, false_or]

/-- Python 2 joins byte strings, and anything at all as long as its byte strings are ASCII. -/
theorem foldlM_add_two {parts : List PyText} {first : Bytes} :
    (∃ joined, parts.foldlM (add .two) (bytes first) = .ok joined) ↔
      (∀ part ∈ parts, part.IsBytes) ∨ AsciiBytes first ∧ AsciiParts parts := by
  induction parts generalizing first with
  | nil => simp [pure, Except.pure]
  | cons part parts ih =>
    cases part with
    | bytes content =>
      rw [List.foldlM_cons, add_bytes]
      have whole : AsciiBytes (first ++ content) ↔ AsciiBytes first ∧ AsciiBytes content := List.forall_mem_append
      have isBytes : (bytes content).IsBytes := ⟨content, rfl⟩
      simp only [bind, Except.bind, ih, whole, List.forall_mem_cons, isBytes, true_and]
      refine or_congr_right ?_
      simp only [AsciiParts, List.mem_cons, bytes.injEq]
      grind
    | unicode content =>
      have notBytes : ¬ (unicode content).IsBytes := by simp [IsBytes]
      have parts' : AsciiParts (unicode content :: parts) ↔ AsciiParts parts := by simp [AsciiParts]
      rw [List.forall_mem_cons, parts']
      simp only [notBytes, false_and, false_or]
      by_cases ascii : AsciiBytes first
      · have added : add .two (bytes first) (unicode content) = _ := if_pos ascii
        rw [List.foldlM_cons, added]
        simp only [bind, Except.bind, foldlM_add_unicode, ascii, true_and]
      · have added : add .two (bytes first) (unicode content) = _ := if_neg ascii
        rw [List.foldlM_cons, added]
        simp [bind, Except.bind, ascii]

theorem foldlM_add_three {parts : List PyText} {first : Bytes} :
    (∃ joined, parts.foldlM (add .three) (bytes first) = .ok joined) ↔ ∀ part ∈ parts, part.IsBytes := by
  induction parts generalizing first with
  | nil => simp [pure, Except.pure]
  | cons part parts ih =>
    cases part with
    | bytes content =>
      rw [List.foldlM_cons, add_bytes, List.forall_mem_cons]
      have isBytes : (bytes content).IsBytes := ⟨content, rfl⟩
      simp only [bind, Except.bind, ih, isBytes, true_and]
    | unicode content => simp [add, bind, Except.bind, IsBytes]

end PyText

end Taf.Lib
