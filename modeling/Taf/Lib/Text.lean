import Mathlib

/-! # Decimal names and substrings

Text operations of a scripting language over Lean's `String`: zero padding, slices
with negative bounds and the substring test.  The main facts are the two ways in
which a number can be read back from a name it was written into: zero padding does
not change the value of a digit string, and a suffix without the separator is
determined by the whole name. -/

namespace Taf.Lib

/-- `zfill` of a string without a sign: zeros on the left up to `width`. -/
def zfill (s : String) (width : Int) : String :=
  String.ofList (List.replicate (width.toNat - s.toList.length) '0' ++ s.toList)

/-- The slice `s[from:to]`: negative bounds count from the end, all are clipped. -/
def slice (s : String) (low high : Int) : String :=
  let clip (bound : Int) : Nat :=
    if bound < 0 then (bound + s.toList.length).toNat else min bound.toNat s.toList.length
  String.ofList ((s.toList.take (clip high)).drop (clip low))

/-- The substring test `sub in s`, also written `s.find(sub) != -1`. -/
def occursIn (sub s : String) : Bool :=
  decide (sub.toList <:+: s.toList)

theorem ofDigitChars_zfill (n : Nat) (width : Int) :
    Nat.ofDigitChars 10 (zfill n.repr width).toList 0 = n := by
  simp only [zfill, String.toList_ofList, Nat.toList_repr]
  rw [Nat.ofDigitChars_append, Nat.ofDigitChars_replicate_zero, Nat.mul_zero,
    Nat.ofDigitChars_ten_toDigits]

/-- Padded decimals of different numbers differ, whatever the two widths are. -/
theorem zfill_repr_injective {m n : Nat} {width width' : Int}
    (same : zfill m.repr width = zfill n.repr width') : m = n := by
  rw [← ofDigitChars_zfill m width, same, ofDigitChars_zfill]

theorem minus_notMem_repr (n : Nat) : '-' ∉ n.repr.toList := by
  intro member
  rw [Nat.toList_repr] at member
  have digit := Nat.isDigit_of_mem_toDigits (by decide) (by decide) member
  exact absurd digit (by decide)

/-- The part behind the last separator is determined by the whole name. -/
theorem suffix_after_separator {α : Type*} {separator : α} {head head' tail tail' : List α}
    (absent : separator ∉ tail) (absent' : separator ∉ tail')
    (same : head ++ separator :: tail = head' ++ separator :: tail') : tail = tail' := by
  -- One head is a prefix of the other; a non-empty rest would put the separator into a tail.
  rcases List.append_eq_append_iff.mp same with ⟨rest, -, shifted⟩ | ⟨rest, -, shifted⟩
  · cases rest with
    | nil => exact (List.cons.inj shifted).2
    | cons _ rest =>
      have inTail : tail = rest ++ separator :: tail' := (List.cons.inj shifted).2
      exact absurd (by simp [inTail]) absent
  · cases rest with
    | nil => exact (List.cons.inj shifted).2.symm
    | cons _ rest =>
      have inTail : tail' = rest ++ separator :: tail := (List.cons.inj shifted).2
      exact absurd (by simp [inTail]) absent'

/-! ## Hexadecimal numbers -/

/-- `format(n, 'x')` -/
def hex (n : Nat) : String :=
  String.ofList (Nat.toDigits 16 n)

theorem digitChar_injective {a b : Nat} (ha : a < 16) (hb : b < 16)
    (same : a.digitChar = b.digitChar) : a = b := by
  have every : ∀ a b : Fin 16, a.val.digitChar = b.val.digitChar → a = b := by decide +kernel
  exact congrArg Fin.val (every ⟨a, ha⟩ ⟨b, hb⟩ same)

theorem toDigits_injective {a b : Nat} (same : Nat.toDigits 16 a = Nat.toDigits 16 b) : a = b := by
  induction a using Nat.strong_induction_on generalizing b with
  | h a ih =>
    rw [@Nat.toDigits_eq_if 16 a (by omega), @Nat.toDigits_eq_if 16 b (by omega)] at same
    have nonempty : ∀ n, (Nat.toDigits 16 n).length ≠ 0 :=
      fun n => Nat.pos_iff_ne_zero.mp Nat.length_toDigits_pos
    by_cases small : a < 16
    · by_cases small' : b < 16
      · rw [if_pos small, if_pos small'] at same
        exact digitChar_injective small small' (List.singleton_inj.mp same)
      · rw [if_pos small, if_neg small'] at same
        have lengths := congrArg List.length same
        simp [nonempty] at lengths
    · by_cases small' : b < 16
      · rw [if_neg small, if_pos small'] at same
        have lengths := congrArg List.length same
        simp [nonempty] at lengths
      · rw [if_neg small, if_neg small'] at same
        obtain ⟨high, low⟩ := List.append_inj' same rfl
        have quotient : a / 16 = b / 16 := ih (a / 16) (by omega) high
        have remainder : a % 16 = b % 16 :=
          digitChar_injective (Nat.mod_lt a (by omega)) (Nat.mod_lt b (by omega))
            (List.singleton_inj.mp low)
        omega

theorem hex_injective {a b : Nat} (same : hex a = hex b) : a = b :=
  toDigits_injective (String.ofList_injective same)

end Taf.Lib
