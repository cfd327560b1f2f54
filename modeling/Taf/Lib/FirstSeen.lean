import Mathlib

/-! # Comparing with the first

A program that has to see whether all the values under a key are alike keeps the first one it meets
and compares every later one with it.  The loop notes what differs.  Where being alike is an
equivalence, nothing is noted exactly when any two values under one key are alike, so neither the
order of the items nor the choice of the representative matters. -/

namespace Taf.Lib

variable {κ ν μ : Type*} [DecidableEq κ]

/-- The first value of each key, and the notes on the later ones -/
structure FirstSeen (κ ν μ : Type*) where
  first : AList fun _ : κ => ν
  notes : List μ

namespace FirstSeen

def empty : FirstSeen κ ν μ := ⟨∅, []⟩

variable (differ : κ → ν → ν → List μ)

/-- One item: the first of its key is kept, a later one is compared with it. -/
def see (seen : FirstSeen κ ν μ) (item : κ × ν) : FirstSeen κ ν μ :=
  match seen.first.lookup item.1 with
  | some first => { seen with notes := seen.notes ++ differ item.1 first item.2 }
  | none => { seen with first := seen.first.insert item.1 item.2 }

def seeAll (seen : FirstSeen κ ν μ) (items : List (κ × ν)) : FirstSeen κ ν μ :=
  items.foldl (see differ) seen

variable {differ} {seen : FirstSeen κ ν μ} {item : κ × ν} {items : List (κ × ν)} {key : κ} {value : ν}

theorem see_of_some (found : seen.first.lookup item.1 = some value) :
    seen.see differ item = { seen with notes := seen.notes ++ differ item.1 value item.2 } := by
  rw [see, found]

theorem see_of_none (absent : seen.first.lookup item.1 = none) :
    seen.see differ item = { seen with first := seen.first.insert item.1 item.2 } := by
  rw [see, absent]

theorem seeAll_cons : seen.seeAll differ (item :: items) = (seen.see differ item).seeAll differ items := rfl

/-- What stands under the key of an item behind it -/
theorem lookup_see_self : (seen.see differ item).first.lookup item.1 =
    some ((seen.first.lookup item.1).getD item.2) := by
  cases found : seen.first.lookup item.1 with
  | some first => rw [see_of_some found, found, Option.getD_some]
  | none => rw [see_of_none found, AList.lookup_insert, Option.getD_none]

theorem lookup_see_ne (other : key ≠ item.1) :
    (seen.see differ item).first.lookup key = seen.first.lookup key := by
  cases found : seen.first.lookup item.1 with
  | some first => rw [see_of_some found]
  | none => rw [see_of_none found, AList.lookup_insert_ne other]

/-- A key keeps the value it has, and otherwise has that of its first item. -/
theorem lookup_seeAll : (seen.seeAll differ items).first.lookup key =
    (seen.first.lookup key).or (items.lookup key) := by
  induction items generalizing seen with
  | nil => rw [List.lookup_nil, Option.or_none]; rfl
  | cons item items ih =>
    rw [seeAll_cons, ih]
    by_cases own : key = item.1
    · subst own
      rw [lookup_see_self, List.lookup_cons_self, Option.some_or]
      cases seen.first.lookup item.1 <;> rfl
    · rw [lookup_see_ne own, List.lookup_cons, beq_false_of_ne own]

theorem lookup_seeAll_of_some (known : seen.first.lookup key = some value) :
    (seen.seeAll differ items).first.lookup key = some value := by
  rw [lookup_seeAll, known, Option.some_or]

/-- Every item finds a value under its key, and none of the values is made up. -/
theorem lookup_seeAll_of_mem (member : item ∈ items) :
    ∃ value, (seen.seeAll differ items).first.lookup item.1 = some value := by
  induction items generalizing seen with
  | nil => exact absurd member List.not_mem_nil
  | cons head items ih =>
    obtain rfl | later := List.mem_cons.mp member
    · rw [seeAll_cons]
      exact ⟨_, lookup_seeAll_of_some lookup_see_self⟩
    · exact ih later

theorem mem_of_lookup_seeAll (found : (seen.seeAll differ items).first.lookup key = some value) :
    seen.first.lookup key = some value ∨ (key, value) ∈ items := by
  rw [lookup_seeAll, Option.or_eq_some_iff] at found
  refine found.imp_right fun later => ?_
  obtain ⟨before, after, rfl, -⟩ := List.lookup_eq_some_iff.mp later.2
  simp

section Alike

variable {alike : ν → ν → Prop} (notes_iff : ∀ key first later, differ key first later = [] ↔ alike first later)

include notes_iff

/-- Nothing is noted exactly when every item is alike to what stands under its key in the end. -/
theorem notes_seeAll_iff (refl : ∀ value, alike value value) : (seen.seeAll differ items).notes = [] ↔
    seen.notes = [] ∧ ∀ item ∈ items, ∀ value,
      (seen.seeAll differ items).first.lookup item.1 = some value → alike value item.2 := by
  induction items generalizing seen with
  | nil => simp [seeAll]
  | cons item items ih =>
    rw [seeAll_cons, ih, List.forall_mem_cons, ← and_assoc]
    refine and_congr_left fun _ => ?_
    rw [lookup_seeAll_of_some lookup_see_self]
    cases found : seen.first.lookup item.1 with
    | some first => simp [see_of_some found, notes_iff]
    | none => simp [see_of_none found, refl]

/-- Comparing with the first is comparing all pairs. -/
theorem notes_eq_nil_iff (equiv : Equivalence alike) : ((empty : FirstSeen κ ν μ).seeAll differ items).notes = [] ↔
    ∀ item ∈ items, ∀ other ∈ items, item.1 = other.1 → alike item.2 other.2 := by
  rw [notes_seeAll_iff notes_iff equiv.refl]
  constructor
  · intro noted item member other member' same
    obtain ⟨value, found⟩ := @lookup_seeAll_of_mem _ _ _ _ differ empty item items member
    exact equiv.trans (equiv.symm (noted.2 item member value found)) (noted.2 other member' value (by rwa [← same]))
  · intro pairs
    refine ⟨rfl, fun item member value found => ?_⟩
    obtain known | first := mem_of_lookup_seeAll found
    · exact absurd known (by simp [empty])
    · exact pairs (item.1, value) first item member rfl

end Alike

end FirstSeen

end Taf.Lib
