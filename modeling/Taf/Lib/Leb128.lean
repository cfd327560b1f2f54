import Mathlib
import Taf.Lib.Bytes

/-! # Unsigned LEB128

Groups of seven bits, the lowest first; every byte but the last has its top bit set.  `groups` is
the number that such bytes stand for, whatever their top bits are. -/

namespace Taf.Lib

def leb128 (n : Nat) : Bytes :=
  if n < 128 then [UInt8.ofNat n] else UInt8.ofNat (n % 128 + 128) :: leb128 (n / 128)
termination_by n

def groups : Bytes → Nat
  | [] => 0
  | byte :: bytes => byte.toNat % 128 + 128 * groups bytes

theorem toNat_ofNat_of_lt {n : Nat} (small : n < 256) : (UInt8.ofNat n).toNat = n :=
  UInt8.toNat_ofNat_of_lt' small

theorem leb128_of_lt {n : Nat} (small : n < 128) : leb128 n = [UInt8.ofNat n] := by
  rw [leb128, if_pos small]

theorem leb128_of_ge {n : Nat} (large : 128 ≤ n) :
    leb128 n = UInt8.ofNat (n % 128 + 128) :: leb128 (n / 128) := by
  rw [leb128, if_neg (by omega)]

theorem length_leb128_pos (n : Nat) : 0 < (leb128 n).length := by
  rw [leb128]
  split <;> simp

theorem groups_leb128 (n : Nat) : groups (leb128 n) = n := by
  induction n using Nat.strongRecOn with
  | ind n ih =>
    by_cases small : n < 128
    · rw [leb128_of_lt small, groups, groups, toNat_ofNat_of_lt (by omega)]
      omega
    · rw [leb128_of_ge (by omega), groups, toNat_ofNat_of_lt (by omega), ih (n / 128) (by omega)]
      omega

/-- The bytes of a number are continuation bytes and then one stop byte. -/
theorem leb128_shape (n : Nat) : ∃ front stop, leb128 n = front ++ [stop] ∧
    (∀ byte ∈ front, 128 ≤ byte.toNat) ∧ stop.toNat < 128 := by
  induction n using Nat.strongRecOn with
  | ind n ih =>
    by_cases small : n < 128
    · refine ⟨[], UInt8.ofNat n, leb128_of_lt small, by simp, ?_⟩
      rw [toNat_ofNat_of_lt (by omega)]
      exact small
    · obtain ⟨front, stop, shape, above, below⟩ := ih (n / 128) (by omega)
      refine ⟨UInt8.ofNat (n % 128 + 128) :: front, stop, ?_, ?_, below⟩
      · rw [leb128_of_ge (by omega), shape]
        rfl
      · intro byte member
        rcases List.mem_cons.mp member with rfl | member
        · rw [toNat_ofNat_of_lt (by omega)]
          omega
        · exact above byte member

end Taf.Lib
