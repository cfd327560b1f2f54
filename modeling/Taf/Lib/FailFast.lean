import Mathlib

/-! # Loops over a list that is changed meanwhile

The iterator of an `ArrayList` compares its cursor with the size of the list before it looks whether the list was
changed: behind a change the loop may end as if it were through, or with an exception. -/

namespace Taf.Lib

structure ArrayList (α : Type) where
  elements : List α
  -- how often elements were added or removed
  modCount : ℕ

namespace ArrayList

variable {α σ : Type} [DecidableEq α]

/-- `remove(Object)`: the first occurrence, if there is one -/
def remove (list : ArrayList α) (a : α) : ArrayList α :=
  if a ∈ list.elements then ⟨list.elements.erase a, list.modCount + 1⟩ else list

theorem remove_cases (list : ArrayList α) (a : α) : (a ∉ list.elements ∧ list.remove a = list) ∨
    (a ∈ list.elements ∧ list.remove a = ⟨list.elements.erase a, list.modCount + 1⟩) := by
  by_cases listed : a ∈ list.elements
  · exact Or.inr ⟨listed, if_pos listed⟩
  · exact Or.inl ⟨listed, if_neg listed⟩

/-- `for (a : list) body`, where `rest` are the elements behind the cursor of a list that is not changed.  `false`
    is the end with an exception. -/
def forEach (list : σ → ArrayList α) (body : α → σ → σ) (expected : ℕ) : List α → ℕ → σ → Bool × σ
  | [], cursor, state => (cursor = (list state).elements.length, state)
  | a :: rest, cursor, state =>
    if cursor = (list state).elements.length then (true, state)
    else if (list state).modCount ≠ expected then (false, state)
    else forEach list body expected rest (cursor + 1) (body a state)

variable {list : σ → ArrayList α} {body : α → σ → σ} {expected cursor : ℕ} {rest : List α} {state : σ}

omit [DecidableEq α]

theorem forEach_done (through : cursor = (list state).elements.length) :
    forEach list body expected rest cursor state = (true, state) := by
  cases rest with
  | nil => rw [forEach, decide_eq_true through]
  | cons a rest => rw [forEach, if_pos through]

theorem forEach_changed (left : cursor ≠ (list state).elements.length) (changed : (list state).modCount ≠ expected) :
    forEach list body expected rest cursor state = (false, state) := by
  cases rest with
  | nil => rw [forEach, decide_eq_false left]
  | cons a rest => rw [forEach, if_neg left, if_pos changed]

theorem forEach_next {a : α} (left : cursor ≠ (list state).elements.length)
    (same : (list state).modCount = expected) : forEach list body expected (a :: rest) cursor state =
      forEach list body expected rest (cursor + 1) (body a state) := by
  rw [forEach, if_neg left, if_neg (not_not_intro same)]

/-- The body meets only elements of the list, and only while the list is not changed. -/
theorem forEach_invariant {I : σ → Prop}
    (step : ∀ a ∈ rest, ∀ state, (list state).modCount = expected → I state → I (body a state)) (start : I state) :
    I (forEach list body expected rest cursor state).2 := by
  induction rest generalizing cursor state with
  | nil => exact start
  | cons a rest ih =>
    by_cases through : cursor = (list state).elements.length
    · rw [forEach_done through]
      exact start
    · by_cases same : (list state).modCount = expected
      · rw [forEach_next through same]
        apply ih
        · intro a' later
          exact step a' (List.mem_cons_of_mem a later)
        · exact step a List.mem_cons_self state same start
      · rw [forEach_changed through same]
        exact start

/-- A body that does nothing is gone through for every element. -/
theorem forEach_idle (idle : ∀ a ∈ rest, body a state = state) (same : (list state).modCount = expected)
    (size : cursor + rest.length = (list state).elements.length) :
    forEach list body expected rest cursor state = (true, state) := by
  induction rest generalizing cursor with
  | nil => exact forEach_done size
  | cons a rest ih =>
    rw [List.length_cons] at size
    rw [forEach_next (by omega) same, idle a List.mem_cons_self]
    apply ih
    · intro a' later
      exact idle a' (List.mem_cons_of_mem a later)
    · omega

end ArrayList

end Taf.Lib
