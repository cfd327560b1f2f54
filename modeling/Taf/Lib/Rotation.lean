import Mathlib

/-! # A loop that moves the elements it goes over

`for item in items: items.remove(item); items.append(item)` goes over positions, not over elements:
after the first element has moved to the end, the second one stands where the loop has been already.
The loop visits exactly every other element. -/

namespace Taf.Lib

variable {α : Type*} [DecidableEq α]

/-- So many more positions from one on: the selected elements that are visited, and the list in the end.
    The elements that are not selected stay where they are. -/
def moveFrom (selected : α → Bool) : ℕ → ℕ → List α → List α × List α
  | 0, _, items => ([], items)
  | left + 1, i, items =>
    match items[i]? with
    | none => ([], items)
    | some item =>
      if selected item then
        let (visited, items) := moveFrom selected left (i + 1) (items.erase item ++ [item])
        (item :: visited, items)
      else moveFrom selected left (i + 1) items

/-- The elements that are visited from here on: the first one moves behind the last one, and the loop
    passes the second one. -/
def visits : List α → List α
  | [] => []
  | [item] => [item]
  | item :: _ :: items => item :: visits (items ++ [item])
termination_by items => items.length

/-- The elements at even positions -/
def everyOther : List α → List α
  | [] => []
  | [item] => [item]
  | item :: _ :: items => item :: everyOther items

variable {selected : α → Bool}

theorem moveFrom_none (none : ∀ item, selected item = false) (left i : ℕ) (items : List α) :
    moveFrom selected left i items = ([], items) := by
  induction left generalizing i with
  | zero => rfl
  | succ left ih =>
    rw [moveFrom]
    split
    · rfl
    · rw [none, if_neg Bool.false_ne_true, ih]

theorem moveFrom_perm (left i : ℕ) (items : List α) : (moveFrom selected left i items).2.Perm items := by
  induction left generalizing i items with
  | zero => exact List.Perm.refl items
  | succ left ih =>
    rw [moveFrom]
    split
    · exact List.Perm.refl items
    · rename_i item found
      split
      · have member : item ∈ items := List.mem_of_getElem? found
        apply (ih (i + 1) (items.erase item ++ [item])).trans
        exact (List.perm_append_singleton item _).trans (List.perm_cons_erase member).symm
      · exact ih (i + 1) items

theorem moveFrom_visits (passed items : List α) (distinct : (passed ++ items).Nodup)
    (each : ∀ item ∈ items, selected item = true) :
    (moveFrom selected items.length passed.length (passed ++ items)).1 = visits items := by
  induction items using visits.induct generalizing passed with
  | case1 => simp [moveFrom, visits]
  | case2 item =>
    have here : (passed ++ [item])[passed.length]? = some item := by simp
    rw [List.length_singleton, moveFrom, here]
    simp [each item List.mem_cons_self, moveFrom, visits]
  | case3 item next items ih =>
    have fresh : item ∉ passed := by
      intro member
      rw [List.nodup_append] at distinct
      exact distinct.2.2 _ member _ List.mem_cons_self rfl
    have here : (passed ++ item :: next :: items)[passed.length]? = some item := by simp
    have shape : (passed ++ item :: next :: items).erase item ++ [item] =
        (passed ++ [next]) ++ (items ++ [item]) := by
      simp [List.erase_append_right _ fresh]
    have perm : ((passed ++ [next]) ++ (items ++ [item])).Perm (passed ++ item :: next :: items) := by
      rw [← shape]
      have member : item ∈ passed ++ item :: next :: items := by simp
      exact (List.perm_append_singleton item _).trans (List.perm_cons_erase member).symm
    have rest := ih (passed ++ [next]) (perm.nodup_iff.mpr distinct) (by
      intro other member
      apply each other
      rcases List.mem_append.mp member with inside | last
      · simp [inside]
      · simp [List.mem_singleton.mp last])
    rw [List.length_cons, moveFrom, here]
    simp only [each item List.mem_cons_self, if_true]
    have lengths : (next :: items).length = (items ++ [item]).length := by simp
    have position : passed.length + 1 = (passed ++ [next]).length := by simp
    rw [shape, visits, lengths, position, rest]

omit [DecidableEq α] in
/-- Elements that have been visited already may be visited again. -/
theorem mem_visits_append (size : ℕ) (item : α) : ∀ items done : List α, (items ++ done).length = size →
    (item ∈ visits (items ++ done) ∨ item ∈ done ↔ item ∈ everyOther items ∨ item ∈ done) := by
  induction size using Nat.strong_induction_on with
  | h size ih =>
    intro items done length
    match items, done with
    | [], [] => simp [visits, everyOther]
    | [], [first] => simp [visits, everyOther]
    | [], first :: second :: rest =>
      have smaller := ih (size - 1) (by simp at length; omega) [] (rest ++ [first])
        (by simp at length ⊢; omega)
      rw [List.nil_append, visits]
      simp only [everyOther, List.nil_append, List.mem_append, List.mem_cons, List.not_mem_nil] at smaller ⊢
      tauto
    | [first], [] => simp [visits, everyOther]
    | [first], second :: rest =>
      have smaller := ih (size - 1) (by simp at length; omega) [] (rest ++ [first])
        (by simp at length ⊢; omega)
      rw [List.singleton_append, visits]
      simp only [everyOther, List.nil_append, List.mem_append, List.mem_cons, List.not_mem_nil] at smaller ⊢
      tauto
    | first :: second :: items, done =>
      have smaller := ih (size - 1) (by simp at length; omega) items (done ++ [first])
        (by simp at length ⊢; omega)
      rw [List.cons_append, List.cons_append, visits, List.append_assoc]
      simp only [everyOther, List.mem_append, List.mem_cons, List.not_mem_nil] at smaller ⊢
      tauto

omit [DecidableEq α] in
theorem mem_visits {items : List α} {item : α} : item ∈ visits items ↔ item ∈ everyOther items := by
  have same := mem_visits_append items.length item items [] (by simp)
  simpa using same

omit [DecidableEq α] in
theorem mem_everyOther {items : List α} {item : α} :
    item ∈ everyOther items ↔ ∃ i : ℕ, items[2 * i]? = some item := by
  induction items using everyOther.induct with
  | case1 => simp [everyOther]
  | case2 first =>
    rw [everyOther, List.mem_singleton]
    constructor
    · intro same
      exact ⟨0, by simp [same]⟩
    · intro ⟨i, found⟩
      have inside := (List.getElem?_eq_some_iff.mp found).1
      obtain rfl : i = 0 := by simp at inside; omega
      simpa using found.symm
  | case3 first second items ih =>
    rw [everyOther, List.mem_cons, ih]
    constructor
    · intro member
      rcases member with same | ⟨i, found⟩
      · exact ⟨0, by simp [same]⟩
      · exact ⟨i + 1, by simpa [Nat.mul_add] using found⟩
    · intro ⟨i, found⟩
      cases i with
      | zero => exact Or.inl (by simpa using found.symm)
      | succ i => exact Or.inr ⟨i, by simpa [Nat.mul_add] using found⟩

/-- A loop that moves every element visits those at even positions. -/
theorem mem_moveFrom {items : List α} (distinct : items.Nodup)
    (each : ∀ item ∈ items, selected item = true) {item : α} :
    item ∈ (moveFrom selected items.length 0 items).1 ↔ ∃ i : ℕ, items[2 * i]? = some item := by
  have visited := @moveFrom_visits α _ selected [] items distinct each
  rw [List.nil_append, List.length_nil] at visited
  rw [visited, mem_visits, mem_everyOther]

end Taf.Lib
