import Taf.Lib.PyOrder
import Taf.Lib.Split

/-! # Lines of fields

A line is a list of fields with commas between them.  Two lines are alike if their first fields are
equal and the other fields are the same in some order; then the lines have the same characters. -/

namespace Taf.Lib

/-- The fields behind the first, in any order -/
def canon (line : Str) : Str × Multiset Str :=
  ((line.splitOn ',').headD [], ((line.splitOn ',').tail : List Str))

theorem splitOn_eq_cons (line : Str) :
    line.splitOn ',' = (line.splitOn ',').headD [] :: (line.splitOn ',').tail := by
  obtain ⟨first, rest, fields⟩ := List.exists_cons_of_ne_nil (List.splitOn_ne_nil ',' line)
  rw [fields]
  rfl

theorem comma_notMem_assignment {pair : Str × Str} (isKey : IsKey pair.1) (value : ',' ∉ pair.2) :
    ',' ∉ assignment pair := by
  rw [assignment, List.mem_append, List.mem_cons]
  rintro (inKey | same | inValue)
  · exact absurd (isKey.2 ',' inKey) (by simp [keyChar])
  · exact absurd same (by simp)
  · exact value inValue

/-- The pairs can be read off their fields. -/
theorem map_assignment_perm_iff {pairs others : List (Str × Str)}
    (keys : ∀ pair ∈ pairs, IsKey pair.1) (keys' : ∀ pair ∈ others, IsKey pair.1) :
    (pairs.map assignment).Perm (others.map assignment) ↔ pairs.Perm others := by
  let read : Str → Str × Str := fun field =>
    (field.takeWhile keyChar, (field.dropWhile keyChar).tail)
  have readBack : ∀ pairs : List (Str × Str), (∀ pair ∈ pairs, IsKey pair.1) →
      (pairs.map assignment).map read = pairs := by
    intro pairs keys
    rw [List.map_map, List.map_congr_left fun pair member => ?_, List.map_id]
    have plain := (keys pair member).2
    simp only [read, Function.comp_apply, assignment]
    rw [List.takeWhile_append_of_pos plain, List.dropWhile_append_of_pos plain]
    simp [keyChar]
  constructor
  · intro perm
    have back := perm.map read
    rwa [readBack pairs keys, readBack others keys'] at back
  · exact fun perm => perm.map assignment

/-! ## The characters of a line -/

theorem intercalate_cons_eq (field : Str) (fields : List Str) :
    [','].intercalate (field :: fields) = field ++ fields.flatMap fun next => ',' :: next := by
  induction fields generalizing field with
  | nil => simp
  | cons next fields ih =>
    rw [List.intercalate_cons_cons, ih, List.flatMap_cons]
    simp

theorem perm_of_canon_eq {line other : Str} (same : canon line = canon other) : line.Perm other := by
  obtain ⟨firsts, rests⟩ := Prod.mk.inj same
  have tails := (Multiset.coe_eq_coe.mp rests).flatMap_right fun next => ',' :: next
  rw [← @List.intercalate_splitOn _ line _ _ ',', ← @List.intercalate_splitOn _ other _ _ ',',
    splitOn_eq_cons line, splitOn_eq_cons other, intercalate_cons_eq, intercalate_cons_eq, firsts]
  exact List.Perm.append_left _ tails

/-! ## Sorted fields -/

/-- `"%s,%s" % (fields[0], ",".join(sorted(fields[1:])))` -/
def sortedLine (first : Str) (fields : List Str) : Str :=
  first ++ ',' :: [','].intercalate (fields.mergeSort fun a b => a ≤ b)

theorem splitOn_sortedLine {first : Str} {fields : List Str} (comma : ',' ∉ first)
    (plain : ∀ field ∈ fields, ',' ∉ field) : (sortedLine first fields).splitOn ',' =
      first :: if fields = [] then [[]] else fields.mergeSort fun a b => a ≤ b := by
  rw [sortedLine, List.splitOn_append_cons_self_of_not_mem comma]
  split
  · rename_i empty
    rw [empty, List.mergeSort_nil]
    rfl
  · rename_i nonempty
    rw [List.splitOn_intercalate ',']
    · exact fun field member => plain field (List.mem_mergeSort.mp member)
    · intro empty
      have perm := List.mergeSort_perm fields fun a b => a ≤ b
      rw [empty] at perm
      exact nonempty perm.nil_eq.symm

theorem sortedLine_inj {first other : Str} {fields fields' : List Str}
    (comma : ',' ∉ first) (comma' : ',' ∉ other) (plain : ∀ field ∈ fields, ',' ∉ field ∧ field ≠ [])
    (plain' : ∀ field ∈ fields', ',' ∉ field ∧ field ≠ []) :
    sortedLine first fields = sortedLine other fields' ↔ first = other ∧ fields.Perm fields' := by
  constructor
  · intro same
    have parts := congrArg (List.splitOn ',') same
    rw [splitOn_sortedLine comma fun field member => (plain field member).1,
      splitOn_sortedLine comma' fun field member => (plain' field member).1, List.cons.injEq] at parts
    refine ⟨parts.1, mergeSort_eq_mergeSort_iff.mp ?_⟩
    -- A field that is empty would look like no field.
    have filled : ∀ fields : List Str, (∀ field ∈ fields, ',' ∉ field ∧ field ≠ []) →
        [[]] ≠ fields.mergeSort fun a b => a ≤ b := by
      intro fields plain empty
      have member : [] ∈ fields.mergeSort fun a b => a ≤ b := empty ▸ List.mem_singleton.mpr rfl
      exact (plain [] (List.mem_mergeSort.mp member)).2 rfl
    have rests := parts.2
    split at rests
    · rename_i empty
      split at rests
      · rename_i empty'
        rw [empty, empty']
      · exact absurd rests (filled fields' plain')
    · split at rests
      · exact absurd rests.symm (filled fields plain)
      · exact rests
  · rintro ⟨rfl, perm⟩
    rw [sortedLine, sortedLine, mergeSort_eq_mergeSort_iff.mpr perm]

end Taf.Lib
