import Mathlib

/-! # Fixed-width big-endian records

A record is a list of field widths in bytes.  `pack` writes the fields one after the other and
refuses a value that does not fit its width; `unpack` reads them back.  Two records of the same
widths that are written to the same bytes have the same fields. -/

namespace Taf.Lib

abbrev Bytes := List UInt8

/-- The lowest `width` bytes of a number, the highest one first. -/
def beBytes : Nat → Nat → Bytes
  | 0, _ => []
  | width + 1, n => UInt8.ofNat (n / 256 ^ width) :: beBytes width n

def beNat : Bytes → Nat
  | [] => 0
  | byte :: bytes => byte.toNat * 256 ^ bytes.length + beNat bytes

@[simp] theorem length_beBytes (width n : Nat) : (beBytes width n).length = width := by
  induction width with
  | zero => rfl
  | succ width ih => rw [beBytes, List.length_cons, ih]

theorem beNat_beBytes (width n : Nat) : beNat (beBytes width n) = n % 256 ^ width := by
  induction width with
  | zero => simp [beBytes, beNat, Nat.mod_one]
  | succ width ih =>
    have digit : (UInt8.ofNat (n / 256 ^ width)).toNat = n / 256 ^ width % 256 := UInt8.toNat_ofNat'
    rw [beBytes, beNat, length_beBytes, ih, digit, Nat.pow_succ, @Nat.mod_mul (256 ^ width) 256,
      Nat.add_comm, Nat.mul_comm]

/-! ## Records -/

/-- Every value fits the width of its field, and there are as many values as fields. -/
def Fits (widths values : List Nat) : Prop :=
  List.Forall₂ (fun width value => value < 256 ^ width) widths values

instance (widths values : List Nat) : Decidable (Fits widths values) :=
  inferInstanceAs (Decidable (List.Forall₂ _ widths values))

def record (widths values : List Nat) : Bytes :=
  (List.zipWith beBytes widths values).flatten

/-- `struct.pack`: `none` stands for its `struct.error`. -/
def pack (widths values : List Nat) : Option Bytes :=
  if Fits widths values then some (record widths values) else none

/-- `struct.unpack` of a buffer that is long enough. -/
def unpack : List Nat → Bytes → List Nat
  | [], _ => []
  | width :: widths, bytes => beNat (bytes.take width) :: unpack widths (bytes.drop width)

theorem record_cons (width value : Nat) (widths values : List Nat) :
    record (width :: widths) (value :: values) = beBytes width value ++ record widths values := rfl

theorem length_record {widths values : List Nat} (fits : Fits widths values) :
    (record widths values).length = widths.sum := by
  induction fits with
  | nil => rfl
  | cons _ _ ih => rw [record_cons, List.length_append, length_beBytes, ih, List.sum_cons]

theorem unpack_record {widths values : List Nat} (fits : Fits widths values) (rest : Bytes) :
    unpack widths (record widths values ++ rest) = values := by
  induction fits with
  | nil => rfl
  | @cons width value widths values small _ ih =>
    have taken : (beBytes width value ++ (record widths values ++ rest)).take width =
        beBytes width value := by
      simp
    have dropped : (beBytes width value ++ (record widths values ++ rest)).drop width =
        record widths values ++ rest := by
      simp
    rw [record_cons, List.append_assoc, unpack, taken, dropped, ih, beNat_beBytes,
      Nat.mod_eq_of_lt small]

/-- A stream that starts with a record determines the record and what follows it. -/
theorem record_append_inj {widths values values' : List Nat} {rest rest' : Bytes}
    (fits : Fits widths values) (fits' : Fits widths values')
    (same : record widths values ++ rest = record widths values' ++ rest') :
    values = values' ∧ rest = rest' := by
  have fields : values = values' := by
    rw [← unpack_record fits rest, same, unpack_record fits' rest']
  subst fields
  exact ⟨rfl, List.append_cancel_left same⟩

end Taf.Lib
