import Mathlib
import Taf.Lib.Split

/-! # JSON values as Python compares them

`json.loads` builds dictionaries, lists, strings, numbers, booleans and `None`.
Python's `==` does not tell `1`, `1.0` and `True` apart and ignores the order of a
dictionary, so numbers and booleans are one constructor here and `pyEq` looks the
keys of an object up instead of walking both in step. -/

namespace Taf.Lib

/-- The keys of an object are distinct, as they are in a Python dictionary. -/
inductive PyJson where
  | null
  | num (value : Rat)
  | str (text : String)
  | arr (items : List PyJson)
  | obj (fields : List (String × PyJson))

namespace PyJson

mutual

def pyEq : PyJson → PyJson → Bool
  | .null, .null => true
  | .num a, .num b => a == b
  | .str a, .str b => a == b
  | .arr xs, .arr ys => pyEqItems xs ys
  | .obj xs, .obj ys => xs.length == ys.length && pyEqFields xs ys
  | _, _ => false

def pyEqItems : List PyJson → List PyJson → Bool
  | [], [] => true
  | x :: xs, y :: ys => pyEq x y && pyEqItems xs ys
  | _, _ => false

def pyEqFields : List (String × PyJson) → List (String × PyJson) → Bool
  | [], _ => true
  | (key, x) :: xs, ys =>
    (match ys.lookup key with
      | some y => pyEq x y
      | none => false) && pyEqFields xs ys

end

/-- The digits of `int(text)`, behind the blanks and the sign. -/
def digitsToNat (digits : List Char) : Option Nat :=
  if digits.isEmpty || !digits.all Char.isDigit then none
  else some (Nat.ofDigitChars 10 digits 0)

/-- `int(text)`; `none` is the `ValueError`. -/
def parseInt (text : String) : Option Int :=
  match strip text.toList with
  | '-' :: digits => (digitsToNat digits).map fun n => -(n : Int)
  | '+' :: digits => (digitsToNat digits).map Int.ofNat
  | digits => (digitsToNat digits).map Int.ofNat

/-- A number without a sign is not negative. -/
theorem parseInt_nonneg {text : String} {number : ℤ} (isNumber : parseInt text = some number)
    (unsigned : '-' ∉ text.toList) : 0 ≤ number := by
  rw [parseInt] at isNumber
  split at isNumber
  case h_1 digits stripped =>
    have sign : '-' ∈ strip text.toList := by
      rw [stripped]
      exact List.mem_cons_self
    exact absurd ((List.dropWhile_suffix _).subset ((List.rdropWhile_prefix _ _).subset sign)) unsigned
  case h_2 =>
    obtain ⟨digits, _, rfl⟩ := Option.map_eq_some_iff.mp isNumber
    exact Int.natCast_nonneg digits
  case h_3 =>
    obtain ⟨digits, _, rfl⟩ := Option.map_eq_some_iff.mp isNumber
    exact Int.natCast_nonneg digits

/-- `int(value)`: numbers are truncated towards zero; `none` is a `TypeError` or `ValueError`. -/
def toInt : PyJson → Option Int
  | .num value => some (value.num.tdiv value.den)
  | .str text => parseInt text
  | _ => none

end PyJson

abbrev PyDict := AList fun _ : String => PyJson

/-- `expected == actual` for two dictionaries. -/
def PyDict.pyEq (expected actual : PyDict) : Bool :=
  expected.entries.length == actual.entries.length &&
    expected.entries.all fun field =>
      match actual.lookup field.1 with
      | some value => field.2.pyEq value
      | none => false

end Taf.Lib
