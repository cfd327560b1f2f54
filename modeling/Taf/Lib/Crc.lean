import Mathlib

/-! # Reflected cyclic codes by bits and by table, and masks of signed integers

A reflected code divides by its polynomial one bit at a time, from the low end.  The division is
linear in exclusive or, so that `n` of its steps are one shift by `n` and one word that depends on
the low `n` bits alone, which is what a table stores.  Signed integers keep infinitely many bits, and
a mask of `k` low bits is the remainder by `2 ^ k`. -/

namespace Taf.Lib

/-! ## One bit at a time -/

variable {w : Nat} (poly : BitVec w)

def reflectedStep (x : BitVec w) : BitVec w :=
  if x.getLsbD 0 then (x >>> 1) ^^^ poly else x >>> 1

def reflectedSteps (n : Nat) (x : BitVec w) : BitVec w :=
  (reflectedStep poly)^[n] x

theorem reflectedSteps_succ (n : Nat) (x : BitVec w) :
    reflectedSteps poly (n + 1) x = reflectedSteps poly n (reflectedStep poly x) := rfl

theorem reflectedStep_xor (x y : BitVec w) :
    reflectedStep poly (x ^^^ y) = reflectedStep poly x ^^^ reflectedStep poly y := by
  simp only [reflectedStep, BitVec.getLsbD_xor, BitVec.ushiftRight_xor_distrib]
  -- The polynomial is added twice or not at all unless exactly one of the low bits is set.
  cases x.getLsbD 0 <;> cases y.getLsbD 0 <;>
    simp only [Bool.xor_false, Bool.xor_true, Bool.not_true, Bool.not_false, if_true, if_false,
      Bool.false_eq_true]
  · rw [BitVec.xor_assoc]
  · rw [BitVec.xor_assoc, BitVec.xor_assoc, BitVec.xor_comm poly]
  · have cancel : poly ^^^ (y >>> 1 ^^^ poly) = y >>> 1 := by
      rw [BitVec.xor_comm, BitVec.xor_assoc, BitVec.xor_self, BitVec.xor_zero]
    rw [BitVec.xor_assoc, cancel]

theorem reflectedSteps_xor (n : Nat) (x y : BitVec w) :
    reflectedSteps poly n (x ^^^ y) = reflectedSteps poly n x ^^^ reflectedSteps poly n y := by
  induction n generalizing x y with
  | zero => rfl
  | succ n ih => simp only [reflectedSteps_succ, reflectedStep_xor, ih]

/-- Where the low bits are clear the polynomial never comes in. -/
theorem reflectedSteps_of_clear {n : Nat} {x : BitVec w} (clear : ∀ i < n, x.getLsbD i = false) :
    reflectedSteps poly n x = x >>> n := by
  induction n generalizing x with
  | zero => simp [reflectedSteps]
  | succ n ih =>
    have shifted : reflectedStep poly x = x >>> 1 := by
      simp [reflectedStep, clear 0 (Nat.succ_pos n)]
    have clearAfter : ∀ i < n, (x >>> 1).getLsbD i = false := by
      intro i inside
      rw [BitVec.getLsbD_ushiftRight]
      exact clear (1 + i) (by omega)
    rw [reflectedSteps_succ, shifted, ih clearAfter, ← BitVec.shiftRight_add, Nat.add_comm]

/-! ## A table for the low bits -/

def lowBits (n : Nat) (x : BitVec w) : BitVec w :=
  BitVec.ofNat w (x.toNat % 2 ^ n)

theorem getLsbD_lowBits (n : Nat) (x : BitVec w) (i : Nat) :
    (lowBits n x).getLsbD i = (decide (i < n) && x.getLsbD i) := by
  rw [lowBits, BitVec.getLsbD_ofNat, Nat.testBit_mod_two_pow, BitVec.testBit_toNat]
  by_cases inside : i < w
  · simp [inside]
  · simp [BitVec.getLsbD_of_ge x i (by omega)]

/-- The steps over the low bits are one shift and one entry of the table. -/
theorem reflectedSteps_eq_table (n : Nat) (x : BitVec w) :
    reflectedSteps poly n x = (x >>> n) ^^^ reflectedSteps poly n (lowBits n x) := by
  have parts : x = (x ^^^ lowBits n x) ^^^ lowBits n x := by
    rw [BitVec.xor_assoc, BitVec.xor_self, BitVec.xor_zero]
  have clear : ∀ i < n, (x ^^^ lowBits n x).getLsbD i = false := by
    intro i inside
    simp [BitVec.getLsbD_xor, getLsbD_lowBits, inside]
  have sameHigh : (x ^^^ lowBits n x) >>> n = x >>> n := by
    apply BitVec.eq_of_getLsbD_eq
    intro i _
    simp [BitVec.getLsbD_ushiftRight, BitVec.getLsbD_xor, getLsbD_lowBits]
  calc reflectedSteps poly n x
      = reflectedSteps poly n (x ^^^ lowBits n x) ^^^ reflectedSteps poly n (lowBits n x) := by
        rw [← reflectedSteps_xor, ← parts]
    _ = (x >>> n) ^^^ reflectedSteps poly n (lowBits n x) := by
        rw [reflectedSteps_of_clear poly clear, sameHigh]

/-! ## Masks of signed integers -/

theorem land_two_pow_sub_one (value : Int) (k : Nat) :
    Int.land value ((2 ^ k - 1 : Nat) : Int) = value % 2 ^ k := by
  have positive : 0 < 2 ^ k := Nat.two_pow_pos k
  cases value with
  | ofNat n =>
    have masked : n &&& (2 ^ k - 1) = n % 2 ^ k := Nat.and_two_pow_sub_one_eq_mod n k
    calc Int.land (Int.ofNat n) ((2 ^ k - 1 : Nat) : Int) = ((n &&& (2 ^ k - 1) : Nat) : Int) := rfl
      _ = ((n % 2 ^ k : Nat) : Int) := by rw [masked]
      _ = Int.ofNat n % 2 ^ k := by push_cast; rfl
  | negSucc n =>
    have below : n % 2 ^ k < 2 ^ k := Nat.mod_lt n positive
    -- The bits of a negative number are the complements of those of `n`.
    have masked : Nat.ldiff (2 ^ k - 1) n = 2 ^ k - (n % 2 ^ k + 1) := by
      apply Nat.eq_of_testBit_eq
      intro i
      rw [Nat.testBit_ldiff, Nat.testBit_two_pow_sub_one, Nat.testBit_two_pow_sub_succ below,
        Nat.testBit_mod_two_pow]
      cases decide (i < k) <;> simp
    have remainder : Int.negSucc n % 2 ^ k = ((2 ^ k - (n % 2 ^ k + 1) : Nat) : Int) := by
      rw [Int.negSucc_emod n (by positivity)]
      push_cast [Nat.cast_sub below]
      omega
    calc Int.land (Int.negSucc n) ((2 ^ k - 1 : Nat) : Int)
        = ((Nat.ldiff (2 ^ k - 1) n : Nat) : Int) := rfl
      _ = Int.negSucc n % 2 ^ k := by rw [masked, remainder]

/-- A mask within a mask is the smaller one. -/
theorem land_land_two_pow_sub_one (value : Int) {inner outer : Nat} (nested : outer ≤ inner) :
    Int.land (Int.land value ((2 ^ inner - 1 : Nat) : Int)) ((2 ^ outer - 1 : Nat) : Int) =
      Int.land value ((2 ^ outer - 1 : Nat) : Int) := by
  rw [land_two_pow_sub_one, land_two_pow_sub_one, land_two_pow_sub_one,
    Int.emod_emod_of_dvd value (pow_dvd_pow 2 nested)]

theorem complement_natCast (n : Nat) : ~~~ (n : Int) = -(n + 1) := Int.negSucc_eq n

/-- Shifted and masked, integers with the same low bits are the same. -/
theorem land_shiftRight_congr {first second : Int} {width shift k : Nat}
    (same : first % 2 ^ width = second % 2 ^ width) (enough : shift + k ≤ width) :
    Int.land (first >>> shift) ((2 ^ k - 1 : Nat) : Int) =
      Int.land (second >>> shift) ((2 ^ k - 1 : Nat) : Int) := by
  obtain ⟨more, rfl⟩ : ∃ more, width = shift + (k + more) := ⟨width - shift - k, by omega⟩
  have split : (2 : Int) ^ (shift + (k + more)) = 2 ^ shift * (2 ^ k * 2 ^ more) := by
    rw [pow_add, pow_add]
  obtain ⟨turns, apart⟩ : ∃ turns, first = second + 2 ^ shift * (2 ^ k * (2 ^ more * turns)) := by
    obtain ⟨turns, apart⟩ := Int.modEq_iff_add_fac.mp same.symm
    exact ⟨turns, by rw [apart, split, mul_assoc, mul_assoc]⟩
  -- Whole turns of the wider modulus stay whole turns of `2 ^ k` after the shift.
  have shifted : first / 2 ^ shift = second / 2 ^ shift + 2 ^ k * (2 ^ more * turns) := by
    rw [apart, Int.add_mul_ediv_left _ _ (by positivity)]
  rw [land_two_pow_sub_one, land_two_pow_sub_one, Int.shiftRight_eq_div_pow,
    Int.shiftRight_eq_div_pow]
  push_cast
  rw [shifted, Int.add_mul_emod_self_left]

end Taf.Lib
