import Mathlib

/-! # Loops over keyed items

A loop that changes, for each item, what its state shows for the item's key, and nothing else.  What it
leaves for a key is what a loop over the items of the key alone makes of it, and it raises exactly if
one of these loops does or an item has no key. -/

namespace Taf.Lib

variable {ι σ α β : Type*} [DecidableEq α]

def ofKey (key : ι → Option α) (items : List ι) (k : α) : List ι := items.filter fun item => key item = some k

/-- A round of the loop over the items of one key -/
def slot (update : Option β → ι → Option β) (entry : Option β) (item : ι) : Option (Option β) :=
  (update entry item).map some

/-- A round changes what the state shows for the item's key as `update` says. -/
structure Keyed (look : σ → α → Option β) (key : ι → Option α) (update : Option β → ι → Option β)
    (step : σ → ι → Option σ) : Prop where
  steps : ∀ s item next, step s item = some next → ∃ k value, key item = some k ∧
    update (look s k) item = some value ∧ look next k = some value ∧ ∀ other, other ≠ k → look next other = look s other
  returns : ∀ s item k value, key item = some k → update (look s k) item = some value → ∃ next, step s item = some next

section

variable {look : σ → α → Option β} {key : ι → Option α} {update : Option β → ι → Option β} {step : σ → ι → Option σ}
  {items : List ι} {s last : σ} {k : α} {item : ι}

theorem ofKey_cons_of_eq (here : key item = some k) : ofKey key (item :: items) k = item :: ofKey key items k :=
  List.filter_cons_of_pos (by simp [here])

theorem ofKey_cons_of_ne (elsewhere : key item ≠ some k) : ofKey key (item :: items) k = ofKey key items k :=
  List.filter_cons_of_neg (by simp [elsewhere])

/-- The entry of a key in the end -/
theorem Keyed.lookup (keyed : Keyed look key update step) (returned : items.foldlM step s = some last) (k : α) :
    (ofKey key items k).foldlM (slot update) (look s k) = some (look last k) := by
  induction items generalizing s with
  | nil =>
    cases returned
    rfl
  | cons item items ih =>
    rw [List.foldlM_cons] at returned
    obtain ⟨next, stepped, returned⟩ := Option.bind_eq_some_iff.mp returned
    obtain ⟨name, value, isKey, updated, written, kept⟩ := keyed.steps s item next stepped
    have rest := ih returned
    by_cases here : k = name
    · subst here
      rw [ofKey_cons_of_eq isKey, List.foldlM_cons, slot, updated]
      rw [written] at rest
      exact rest
    · rw [ofKey_cons_of_ne (by rw [isKey]; exact fun same => here (Option.some.inj same).symm), ← kept k here]
      exact rest

theorem Keyed.returns_iff (keyed : Keyed look key update step) : (∃ last, items.foldlM step s = some last) ↔
    (∀ item ∈ items, ∃ k, key item = some k) ∧
      ∀ k, ∃ entry, (ofKey key items k).foldlM (slot update) (look s k) = some entry := by
  induction items generalizing s with
  | nil => exact iff_of_true ⟨s, rfl⟩ ⟨fun _ member => absurd member List.not_mem_nil, fun k => ⟨_, rfl⟩⟩
  | cons item items ih =>
    constructor
    · rintro ⟨last, returned⟩
      refine ⟨?_, fun k => ⟨_, keyed.lookup returned k⟩⟩
      rw [List.foldlM_cons] at returned
      obtain ⟨next, stepped, returned⟩ := Option.bind_eq_some_iff.mp returned
      obtain ⟨name, _, isKey, _⟩ := keyed.steps s item next stepped
      exact List.forall_mem_cons.mpr ⟨⟨name, isKey⟩, (ih.mp ⟨last, returned⟩).1⟩
    · rintro ⟨named, slots⟩
      obtain ⟨⟨name, isKey⟩, named⟩ := List.forall_mem_cons.mp named
      obtain ⟨entry, own⟩ := slots name
      rw [ofKey_cons_of_eq isKey, List.foldlM_cons] at own
      obtain ⟨updated, isUpdated, _⟩ := Option.bind_eq_some_iff.mp own
      obtain ⟨value, isValue, _⟩ := Option.map_eq_some_iff.mp isUpdated
      obtain ⟨next, stepped⟩ := keyed.returns s item name value isKey isValue
      obtain ⟨name', value', isKey', isValue', written, kept⟩ := keyed.steps s item next stepped
      cases isKey.symm.trans isKey'
      have rest : ∀ k, ∃ entry, (ofKey key items k).foldlM (slot update) (look next k) = some entry := by
        intro k
        obtain ⟨entry, folded⟩ := slots k
        by_cases here : k = name
        · subst here
          rw [ofKey_cons_of_eq isKey, List.foldlM_cons, slot, isValue'] at folded
          rw [written]
          exact ⟨entry, folded⟩
        · rw [ofKey_cons_of_ne (by rw [isKey]; exact fun same => here (Option.some.inj same).symm)] at folded
          rw [kept k here]
          exact ⟨entry, folded⟩
      obtain ⟨last, returned⟩ := ih.mpr ⟨named, rest⟩
      refine ⟨last, ?_⟩
      rw [List.foldlM_cons, stepped]
      exact returned

theorem ofKey_eq_singleton (distinct : (items.map key).Nodup) (member : item ∈ items) (isKey : key item = some k) :
    ofKey key items k = [item] := by
  induction items with
  | nil => cases member
  | cons first items ih =>
    obtain ⟨new, distinct⟩ := List.nodup_cons.mp distinct
    rcases List.mem_cons.mp member with rfl | later
    · have none : ofKey key items k = [] := by
        rw [ofKey, List.filter_eq_nil_iff]
        intro other isOther same
        exact new (List.mem_map.mpr ⟨other, isOther, (of_decide_eq_true same).trans isKey.symm⟩)
      rw [ofKey_cons_of_eq isKey, none]
    · have elsewhere : key first ≠ some k := fun same =>
        new (List.mem_map.mpr ⟨item, later, isKey.trans same.symm⟩)
      rw [ofKey_cons_of_ne elsewhere, ih distinct later]

/-- What is left of an item whose key no other item has -/
theorem Keyed.written (keyed : Keyed look key update step) (distinct : (items.map key).Nodup)
    (returned : items.foldlM step s = some last) (member : item ∈ items) (isKey : key item = some k) :
    ∃ value, update (look s k) item = some value ∧ look last k = some value := by
  have own := keyed.lookup returned k
  rw [ofKey_eq_singleton distinct member isKey, List.foldlM_cons] at own
  obtain ⟨entry, updated, ended⟩ := Option.bind_eq_some_iff.mp own
  obtain ⟨value, isValue, rfl⟩ := Option.map_eq_some_iff.mp updated
  exact ⟨value, isValue, (Option.some.inj ended).symm⟩

end

end Taf.Lib
