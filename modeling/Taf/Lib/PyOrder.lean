import Taf.Lib.PyJson

/-! # The order of JSON values

Python 2 compares any two values: `None` comes before the numbers, these before
dictionaries, lists and strings; lists compare item by item, dictionaries by their length
and then by their fields in the order of the keys.  A value is written as a word over
linearly ordered letters such that values compare as their words do.  With the fields of
every object in the order of its keys, `==` is equality, and a list is sorted in one way. -/

namespace Taf.Lib

theorem mergeSort_eq_mergeSort_iff {α : Type*} [LinearOrder α] {items other : List α} :
    (items.mergeSort fun a b => a ≤ b) = (other.mergeSort fun a b => a ≤ b) ↔ items.Perm other := by
  have ordered : ∀ items : List α, (items.mergeSort fun a b => a ≤ b).Pairwise (· ≤ ·) := by
    intro items
    simpa using @List.pairwise_mergeSort α (fun first second => first ≤ second)
      (fun _ _ _ first second => by simpa using le_trans (by simpa using first) (by simpa using second))
      (fun first second => by simpa using le_total first second) items
  have sorted : ∀ items : List α, (items.mergeSort fun a b => a ≤ b).Perm items := fun items =>
    List.mergeSort_perm items _
  constructor
  · intro same
    exact (sorted items).symm.trans (same ▸ sorted other)
  · intro perm
    have both := (sorted items).trans (perm.trans (sorted other).symm)
    exact both.eq_of_pairwise' (ordered items) (ordered other)

namespace PyJson

/-- The kind of a value or a mark of the spelling, with the number or the text that goes with it. -/
abbrev Letter := Nat ×ₗ Rat ×ₗ String

def letter (kind : Nat) (number : Rat) (text : String) : Letter := toLex (kind, toLex (number, text))

mutual

def word : PyJson → List Letter
  | .null => [letter 1 0 ""]
  | .num value => [letter 2 value ""]
  | .obj fields => letter 3 fields.length "" :: wordFields fields
  | .arr items => letter 4 0 "" :: wordItems items
  | .str text => [letter 5 0 text]

/-- The end of a list comes before every item. -/
def wordItems : List PyJson → List Letter
  | [] => [letter 0 0 ""]
  | item :: items => word item ++ wordItems items

def wordFields : List (String × PyJson) → List Letter
  | [] => []
  | (key, value) :: fields => letter 6 0 key :: (word value ++ wordFields fields)

end

theorem letter_inj {kind kind' : Nat} {number number' : Rat} {text text' : String}
    (same : letter kind number text = letter kind' number' text') :
    kind = kind' ∧ number = number' ∧ text = text' := by
  have outer := toLex.injective same
  have inner := toLex.injective (Prod.mk.inj outer).2
  exact ⟨(Prod.mk.inj outer).1, Prod.mk.inj inner⟩

/-- The first letter of a value is not the mark of an end. -/
theorem word_head (value : PyJson) :
    ∃ kind number text rest, word value = letter kind number text :: rest ∧ 0 < kind := by
  cases value with
  | null => exact ⟨1, 0, "", [], by simp [word], by omega⟩
  | num value => exact ⟨2, value, "", [], by simp [word], by omega⟩
  | obj fields => exact ⟨3, fields.length, "", wordFields fields, by simp [word], by omega⟩
  | arr items => exact ⟨4, 0, "", wordItems items, by simp [word], by omega⟩
  | str text => exact ⟨5, 0, text, [], by simp [word], by omega⟩

theorem end_ne_word (value : PyJson) (items : List PyJson) (rest rest' : List Letter) :
    letter 0 0 "" :: rest ≠ (word value ++ wordItems items) ++ rest' := by
  obtain ⟨kind, number, text, tail, spelled, positive⟩ := word_head value
  rw [spelled]
  intro same
  have heads := (letter_inj (List.cons.inj same).1).1
  omega

mutual

/-- No word is the beginning of another one. -/
theorem word_append_inj (value other : PyJson) {rest rest' : List Letter}
    (same : word value ++ rest = word other ++ rest') : value = other ∧ rest = rest' := by
  cases value with
  | null =>
    cases other with
    | null => simpa [word] using same
    | num | str | arr | obj =>
      simp only [word, List.cons_append, List.cons.injEq] at same
      have kinds := letter_inj same.1
      simp at kinds
  | num value =>
    cases other with
    | num other =>
      simp only [word, List.cons_append, List.nil_append, List.cons.injEq] at same
      obtain ⟨_, rfl, _⟩ := letter_inj same.1
      exact ⟨rfl, same.2⟩
    | null | str | arr | obj =>
      simp only [word, List.cons_append, List.cons.injEq] at same
      have kinds := letter_inj same.1
      simp at kinds
  | str text =>
    cases other with
    | str other =>
      simp only [word, List.cons_append, List.nil_append, List.cons.injEq] at same
      obtain ⟨_, _, rfl⟩ := letter_inj same.1
      exact ⟨rfl, same.2⟩
    | null | num | arr | obj =>
      simp only [word, List.cons_append, List.cons.injEq] at same
      have kinds := letter_inj same.1
      simp at kinds
  | arr items =>
    cases other with
    | arr items' =>
      simp only [word, List.cons_append, List.cons.injEq, true_and] at same
      obtain ⟨rfl, rest⟩ := wordItems_append_inj items items' same
      exact ⟨rfl, rest⟩
    | null | num | str | obj =>
      simp only [word, List.cons_append, List.cons.injEq] at same
      have kinds := letter_inj same.1
      simp at kinds
  | obj fields =>
    cases other with
    | obj fields' =>
      simp only [word, List.cons_append, List.cons.injEq] at same
      have lengths : fields.length = fields'.length := by
        have numbers := (letter_inj same.1).2.1
        exact_mod_cast numbers
      obtain ⟨rfl, rest⟩ := wordFields_append_inj fields fields' lengths same.2
      exact ⟨rfl, rest⟩
    | null | num | str | arr =>
      simp only [word, List.cons_append, List.cons.injEq] at same
      have kinds := letter_inj same.1
      simp at kinds

theorem wordItems_append_inj (items other : List PyJson) {rest rest' : List Letter}
    (same : wordItems items ++ rest = wordItems other ++ rest') : items = other ∧ rest = rest' := by
  cases items with
  | nil =>
    cases other with
    | nil => simpa [wordItems] using same
    | cons value other =>
      simp only [wordItems, List.cons_append, List.nil_append] at same
      exact absurd same (end_ne_word value other rest rest')
  | cons item items =>
    cases other with
    | nil =>
      simp only [wordItems, List.cons_append, List.nil_append] at same
      exact absurd same.symm (end_ne_word item items rest' rest)
    | cons value other =>
      simp only [wordItems, List.append_assoc] at same
      obtain ⟨rfl, tails⟩ := word_append_inj item value same
      obtain ⟨rfl, rest⟩ := wordItems_append_inj items other tails
      exact ⟨rfl, rest⟩

theorem wordFields_append_inj (fields other : List (String × PyJson))
    (lengths : fields.length = other.length) {rest rest' : List Letter}
    (same : wordFields fields ++ rest = wordFields other ++ rest') :
    fields = other ∧ rest = rest' := by
  cases fields with
  | nil =>
    cases other with
    | nil => simpa [wordFields] using same
    | cons field other => simp at lengths
  | cons field fields =>
    cases other with
    | nil => simp at lengths
    | cons field' other =>
      obtain ⟨key, value⟩ := field
      obtain ⟨key', value'⟩ := field'
      simp only [wordFields, List.cons_append, List.cons.injEq, List.append_assoc] at same
      obtain ⟨_, _, rfl⟩ := letter_inj same.1
      obtain ⟨rfl, tails⟩ := word_append_inj value value' same.2
      obtain ⟨rfl, rest⟩ := wordFields_append_inj fields other (by simpa using lengths) tails
      exact ⟨rfl, rest⟩

end

theorem word_injective : Function.Injective word := by
  intro value other same
  have spelled : word value ++ [] = word other ++ [] := by rw [same]
  exact (word_append_inj value other spelled).1

instance : LinearOrder PyJson := LinearOrder.lift' word word_injective

/-! ## Sorting -/

/-- `items.sort()` -/
def sort (items : List PyJson) : List PyJson := items.mergeSort fun first second => first ≤ second

theorem sort_perm (items : List PyJson) : (sort items).Perm items := List.mergeSort_perm items _

/-- Lists that have the same items are sorted into the same list. -/
theorem sort_eq_sort_iff {items other : List PyJson} : sort items = sort other ↔ items.Perm other :=
  mergeSort_eq_mergeSort_iff

end PyJson

end Taf.Lib
