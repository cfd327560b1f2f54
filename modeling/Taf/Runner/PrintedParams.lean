import Taf.Runner.TestInput

/-! # Parameters as a text

`main` of `testrunner.py` puts the parameters that a test leaves behind its name: those that are
true, in the order of the dictionary, with `str` of their values.  `str` of an object may raise. -/

namespace Taf.Runner

open Taf.Lib

variable {F : Type}

/-! ## `str` and truth -/

def apostrophe : Char := Char.ofNat 39

/-- One character in the `repr` of a string -/
def reprChar (quote c : Char) : Str :=
  if c = quote ∨ c = '\\' then ['\\', c]
  else if c = '\t' then ['\\', 't']
  else if c = '\n' then ['\\', 'n']
  else if c = '\r' then ['\\', 'r']
  else if c.toNat < 32 ∨ 127 ≤ c.toNat then
    ['\\', 'x'] ++ zeros (2 - (Nat.toDigits 16 c.toNat).length) ++ Nat.toDigits 16 c.toNat
  else [c]
where
  zeros (count : Nat) : Str := List.replicate count '0'

def repr (text : Str) : Str :=
  let quote := if apostrophe ∈ text ∧ '"' ∉ text then '"' else apostrophe
  quote :: text.flatMap (reprChar quote) ++ [quote]

/-- The truth of a value -/
def Value.truthy : Value F → Option Bool
  | .text content => some (content ≠ [])
  | .list items => some (items ≠ [])
  | .int number => some (number ≠ 0)
  | .bool truth => some truth
  | .other object => object.truthy

/-- `str(value)` -/
def valueText : Value F → Option Str
  | .text content => some content
  | .list items => some ('[' :: [',', ' '].intercalate (items.map repr) ++ [']'])
  | .int number => some number.repr.toList
  | .bool truth => some (str (if truth then "True" else "False"))
  | .other object => object.text

/-! ## The entries that are printed -/

/-- `if key and value` -/
def printedEntries : List (Sigma fun _ : Str => Value F) → Option (List (Str × Str))
  | [] => some []
  | ⟨key, value⟩ :: entries =>
    if key = [] then printedEntries entries
    else do
      if ← value.truthy then
        let text ← valueText value
        let rest ← printedEntries entries
        some ((key, text) :: rest)
      else printedEntries entries

def printed (params : Params F) : Option (List (Str × Str)) := printedEntries params.entries

section

variable {params : Params F} {entries : List (Sigma fun _ : Str => Value F)} {key : Str} {value : Value F}
  {pairs : List (Str × Str)} {pair : Str × Str}

/-- The first entry is left out, or printed in front. -/
theorem printedEntries_cons (shown : printedEntries (⟨key, value⟩ :: entries) = some pairs) :
    ((key = [] ∨ value.truthy = some false) ∧ printedEntries entries = some pairs) ∨
      (key ≠ [] ∧ value.truthy = some true ∧ ∃ text rest, valueText value = some text ∧
        printedEntries entries = some rest ∧ pairs = (key, text) :: rest) := by
  rw [printedEntries] at shown
  by_cases unnamed : key = []
  · rw [if_pos unnamed] at shown
    exact .inl ⟨.inl unnamed, shown⟩
  rw [if_neg unnamed] at shown
  obtain ⟨truth, told, shown⟩ := Option.bind_eq_some_iff.mp shown
  cases truth with
  | false => exact .inl ⟨.inr told, shown⟩
  | true =>
    obtain ⟨text, written, shown⟩ := Option.bind_eq_some_iff.mp shown
    obtain ⟨rest, others, same⟩ := Option.bind_eq_some_iff.mp shown
    exact .inr ⟨unnamed, told, text, rest, written, others, (Option.some.inj same).symm⟩

theorem mem_printedEntries (shown : printedEntries entries = some pairs) : pair ∈ pairs ↔
    ∃ value, ⟨pair.1, value⟩ ∈ entries ∧ pair.1 ≠ [] ∧ value.truthy = some true ∧
      valueText value = some pair.2 := by
  induction entries generalizing pairs with
  | nil =>
    cases shown
    simp
  | cons entry entries ih =>
    obtain ⟨key, value⟩ := entry
    obtain ⟨hidden, rest⟩ | ⟨named, told, text, rest, written, others, rfl⟩ := printedEntries_cons shown
    · rw [ih rest]
      constructor
      · rintro ⟨other, member, found⟩
        exact ⟨other, List.mem_cons_of_mem _ member, found⟩
      · rintro ⟨other, member, found⟩
        cases List.mem_cons.mp member with
        | inr member => exact ⟨other, member, found⟩
        | inl first =>
          cases first
          cases hidden with
          | inl unnamed => exact absurd unnamed found.1
          | inr off => rw [off] at found; cases found.2.1
    · rw [List.mem_cons, ih others]
      constructor
      · rintro (rfl | ⟨other, member, found⟩)
        · exact ⟨value, List.mem_cons_self, named, told, written⟩
        · exact ⟨other, List.mem_cons_of_mem _ member, found⟩
      · rintro ⟨other, member, found⟩
        cases List.mem_cons.mp member with
        | inr member => exact .inr ⟨other, member, found⟩
        | inl first =>
          obtain ⟨first, second⟩ := pair
          cases first
          cases written.symm.trans found.2.2
          exact .inl rfl

/-- A parameter is printed if it has a name and is true. -/
theorem mem_printed (shown : printed params = some pairs) : pair ∈ pairs ↔
    ∃ value, params.lookup pair.1 = some value ∧ pair.1 ≠ [] ∧ value.truthy = some true ∧
      valueText value = some pair.2 := by
  rw [mem_printedEntries shown]
  simp only [← AList.mem_lookup_iff, Option.mem_def]

theorem sublist_printedEntries (shown : printedEntries entries = some pairs) :
    (pairs.map Prod.fst).Sublist (entries.map Sigma.fst) := by
  induction entries generalizing pairs with
  | nil =>
    cases shown
    exact .slnil
  | cons entry entries ih =>
    obtain ⟨key, value⟩ := entry
    obtain ⟨_, rest⟩ | ⟨_, _, text, rest, _, others, rfl⟩ := printedEntries_cons shown
    · exact (ih rest).cons key
    · exact (ih others).cons_cons key

theorem keys_printed (shown : printed params = some pairs) : (pairs.map Prod.fst).Nodup :=
  (sublist_printedEntries shown).nodup params.keys_nodup

end

end Taf.Runner
