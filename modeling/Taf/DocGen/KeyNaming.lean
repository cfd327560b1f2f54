import Taf.DocGen.DocumentGenerator

/-! # The names of documents

The length of a key, and the two loaders that name the same documents: the Python
generators (`KVGenerator.next_key`) and the Java loader (`SimpleKey.next`).  The
Java key is cut from a literal of 255 zeros, so it throws where Python pads less or
more; the agreement needs the key to fit its size. -/

namespace Taf.DocGen

open Taf.Lib

theorem length_zfill (s : String) (width : Int) :
    (zfill s width).length = max width.toNat s.length := by
  rw [← String.length_toList, zfill, String.toList_ofList]
  simp only [List.length_append, List.length_replicate, String.length_toList]
  omega

theorem length_kvNextKey (name : String) (keySize docIndex : Int) :
    ((kvNextKey name keySize docIndex).length : Int) =
      max keySize (name.length + 1 + docIndex.natAbs.repr.length) := by
  have separator : "-".length = 1 := rfl
  simp only [kvNextKey, String.length_append, length_zfill, separator]
  have digits : 0 < docIndex.natAbs.repr.length := by
    rw [← String.length_toList, Nat.toList_repr]
    exact Nat.length_toDigits_pos
  omega

namespace DocumentGenerator

/-- A plain key: neither the random name nor mixed sizes were asked for. -/
def Plain (g : DocumentGenerator) : Prop :=
  g.name ≠ "random_keys" ∧ g.mixKeySize = false

instance (g : DocumentGenerator) : Decidable g.Plain :=
  inferInstanceAs (Decidable (_ ∧ _))

theorem keyAt_plain {g : DocumentGenerator} (plain : g.Plain) (index : Int) :
    g.keyAt index = kvNextKey g.name g.keySize index := by
  simp [keyAt, plain.1, plain.2]

/-- Whatever the mode and the draws, two documents never share a key; a plain key is
as long as `key_size` unless its name and digits need more. -/
theorem keys_distinct_and_plain_length (g : DocumentGenerator) :
    (Function.Injective fun index : Nat => g.keyAt index) ∧
      (g.Plain → ∀ index : Nat,
        ((g.keyAt index).length : Int) =
          max g.keySize (g.name.length + 1 + index.repr.length)) := by
  constructor
  · intro i j same
    exact Int.ofNat.inj (g.keyAt_injective (Int.natCast_nonneg i) (Int.natCast_nonneg j) same)
  · intro plain index
    rw [keyAt_plain plain, length_kvNextKey, Int.natAbs_natCast]

end DocumentGenerator

/-! ## The Java loader -/

/-- `String.length()` of Java: the number of UTF-16 code units. -/
def utf16Length (s : String) : Nat :=
  (s.toList.map fun c => if c.toNat < 0x10000 then 1 else 2).sum

/-- A `str` of Python 2: each of its characters is a byte. -/
structure PyStr where
  text : String
  bytes : ∀ c ∈ text.toList, c.toNat < 256

inductive JavaException where
  | stringIndexOutOfBounds
  deriving DecidableEq, Repr

/-- `SimpleKey.padding`: two literals of 124 and 131 zeros. -/
def padding : List Char := List.replicate 124 '0' ++ List.replicate 131 '0'

/-- `String.substring(low, high)` -/
def substring (s : List Char) (low high : Int) : Except JavaException (List Char) :=
  if low < 0 ∨ s.length < high ∨ high < low then .error .stringIndexOutOfBounds
  else .ok ((s.take high.toNat).drop low.toNat)

/-- The value of an `int` expression. -/
def int32 (value : Int) : Int := value.bmod (2 ^ 32)

/-- `Math.abs(long)`: the smallest value has no positive counterpart. -/
def mathAbs (value : Int) : Int := Int.bmod value.natAbs (2 ^ 64)

structure SimpleKey where
  -- `ws.keyPrefix`
  keyPrefix : String
  -- `ws.keySize`
  keySize : Int

namespace SimpleKey

variable (ws : SimpleKey)

/-- `SimpleKey.next(doc_index)` -/
def next (docIndex : Int) : Except JavaException String := do
  let counterSize : Int := utf16Length (toString (mathAbs docIndex))
  let padd := int32 (int32 (ws.keySize - utf16Length ws.keyPrefix) - counterSize)
  let zeros ← substring padding 0 padd
  pure (ws.keyPrefix ++ String.ofList zeros ++ toString (mathAbs docIndex))

end SimpleKey

/-! ## Both loaders name a document alike -/

theorem utf16Length_of_basic {s : String} (basic : ∀ c ∈ s.toList, c.toNat < 0x10000) :
    utf16Length s = s.length := by
  have units : (s.toList.map fun c => if c.toNat < 0x10000 then 1 else 2) =
      s.toList.map fun _ => 1 :=
    List.map_congr_left fun c member => if_pos (basic c member)
  rw [utf16Length, units, ← String.length_toList]
  simp

theorem basic_repr (n : Nat) : ∀ c ∈ n.repr.toList, c.toNat < 0x10000 := by
  intro c member
  rw [Nat.toList_repr] at member
  have digit := Nat.isDigit_of_mem_toDigits (by decide) (by decide) member
  simp only [Char.isDigit, Bool.and_eq_true, decide_eq_true_eq] at digit
  have upper : c.toNat ≤ 57 := digit.2
  omega

theorem utf16Length_repr (n : Nat) : utf16Length n.repr = n.repr.length :=
  utf16Length_of_basic (basic_repr n)

theorem utf16Length_append (s t : String) :
    utf16Length (s ++ t) = utf16Length s + utf16Length t := by
  simp [utf16Length]

theorem PyStr.utf16Length (p : PyStr) : utf16Length p.text = p.text.length :=
  utf16Length_of_basic fun c member => Nat.lt_trans (p.bytes c member) (by decide)

theorem int32_of_small {value : Int} (low : -2 ^ 31 ≤ value) (high : value < 2 ^ 31) :
    int32 value = value :=
  Int.bmod_eq_of_le (by omega) (by omega)

theorem mathAbs_of_long {i : Nat} (long : (i : Int) < 2 ^ 63) : mathAbs i = i :=
  Int.bmod_eq_of_le (by omega) (by omega)

/-- A cut of at most 255 zeros succeeds. -/
theorem substring_padding {width : Nat} (fits : width ≤ 255) :
    substring padding 0 width = .ok (List.replicate width '0') := by
  have zeros : padding = List.replicate 255 '0' := by
    rw [padding, List.replicate_append_replicate]
  rw [substring, zeros, if_neg (by rw [List.length_replicate]; omega)]
  rw [Int.toNat_natCast, Int.toNat_zero, List.drop_zero, List.take_replicate,
    Nat.min_eq_left fits]

/-- A zero-padded key that fits is the name, the missing zeros and the digits. -/
theorem kvNextKey_of_fits {name : String} {keySize i : Nat}
    (fits : name.length + 1 + i.repr.length ≤ keySize) :
    kvNextKey name keySize i = name ++ "-" ++
      String.ofList (List.replicate (keySize - (name.length + 1 + i.repr.length)) '0') ++
        i.repr := by
  have width : ((keySize : Int) - name.length - 1).toNat - i.repr.length =
      keySize - (name.length + 1 + i.repr.length) := by omega
  rw [kvNextKey, zfill, Int.natAbs_natCast, String.length_toList, width, String.ofList_append,
    String.ofList_toList]
  simp only [String.append_assoc]

theorem next_of_fits {p : PyStr} {keySize i : Nat} (small : keySize ≤ 250)
    (long : (i : Int) < 2 ^ 63) (fits : p.text.length + 1 + i.repr.length ≤ keySize) :
    SimpleKey.next ⟨p.text ++ "-", keySize⟩ i = .ok (kvNextKey p.text keySize i) := by
  have separator : utf16Length "-" = 1 := rfl
  have digits : toString (i : Int) = i.repr := rfl
  have padd : int32 (int32 ((keySize : Int) - utf16Length (p.text ++ "-")) -
      utf16Length i.repr) = (keySize - (p.text.length + 1 + i.repr.length) : Nat) := by
    have inner : int32 ((keySize : Int) - (p.text.length + 1 : Nat)) =
        keySize - (p.text.length + 1 : Nat) := int32_of_small (by omega) (by omega)
    rw [utf16Length_append, separator, p.utf16Length, utf16Length_repr, inner,
      int32_of_small (by omega) (by omega)]
    omega
  rw [SimpleKey.next, mathAbs_of_long long, digits]
  simp only [padd]
  rw [substring_padding (by omega), kvNextKey_of_fits fits]
  rfl

/-- The Java loader and the Python generator give a document that fits the key size the
same name, of exactly that size. -/
theorem simpleKey_eq_kvNextKey (p : PyStr) (keySize i : Int) (small : keySize ≤ 250)
    (nonneg : 0 ≤ i) (long : i < 2 ^ 63)
    (fits : p.text.length + 1 + (toString i).length ≤ keySize) :
    ∃ key, SimpleKey.next ⟨p.text ++ "-", keySize⟩ i = .ok key ∧
      kvNextKey p.text keySize i = key ∧
      (key.length : Int) = keySize ∧ (utf16Length key : Int) = keySize := by
  lift i to Nat using nonneg
  lift keySize to Nat using by omega
  have digits : toString (i : Int) = i.repr := rfl
  rw [digits] at fits
  have fitsNat : p.text.length + 1 + i.repr.length ≤ keySize := by omega
  have length := length_kvNextKey p.text keySize i
  rw [Int.natAbs_natCast, max_eq_left fits] at length
  refine ⟨_, next_of_fits (by omega) long fitsNat, rfl, length, ?_⟩
  rw [utf16Length_of_basic, length]
  intro c member
  rw [kvNextKey_of_fits fitsNat] at member
  simp only [String.toList_append, String.toList_ofList, List.mem_append,
    List.mem_replicate] at member
  obtain ((inName | inSeparator) | ⟨-, rfl⟩) | inDigits := member
  · exact Nat.lt_trans (p.bytes c inName) (by decide)
  · have : c = '-' := by simpa using inSeparator
    subst this
    decide
  · decide
  · exact basic_repr i c inDigits

theorem simpleKey_eq_kvNextKey_test_docs :
    (9 + 1 + (toString (7 : Int)).length : Int) ≤ 15 ∧
      ∃ key, SimpleKey.next ⟨"test_docs" ++ "-", 15⟩ 7 = .ok key ∧
        kvNextKey "test_docs" 15 7 = key ∧
        (key.length : Int) = 15 ∧ (utf16Length key : Int) = 15 :=
  ⟨by decide, simpleKey_eq_kvNextKey ⟨"test_docs", by simp⟩ 15 7 (by decide) (by decide)
    (by decide) (by decide)⟩

end Taf.DocGen
