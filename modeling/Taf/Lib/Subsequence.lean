import Mathlib

/-! # Matching a list against a subsequence

A pattern matches a list if its elements match, in order, those of a subsequence.  One pass
that gives every element of the list to the first element of the pattern that is still open
finds such a subsequence if there is one: taking the earliest match leaves the most behind it. -/

namespace Taf.Lib

variable {α β : Type*} {P : α → β → Prop} {a : α} {b : β} {as : List α} {bs : List β}

/-- The elements of `bs` match, in order, a subsequence of `as`. -/
def MatchesSubsequence (P : α → β → Prop) (as : List α) (bs : List β) : Prop :=
  ∃ sub, sub.Sublist as ∧ List.Forall₂ P sub bs

theorem matchesSubsequence_nil (as : List α) : MatchesSubsequence P as [] :=
  ⟨[], List.nil_sublist as, .nil⟩

theorem not_matchesSubsequence_nil_cons : ¬ MatchesSubsequence P [] (b :: bs) := by
  intro ⟨sub, sublist, matched⟩
  rw [List.sublist_nil.mp sublist] at matched
  cases matched

theorem MatchesSubsequence.mono (found : MatchesSubsequence P as bs) :
    MatchesSubsequence P (a :: as) bs := by
  obtain ⟨sub, sublist, matched⟩ := found
  exact ⟨sub, sublist.cons a, matched⟩

/-- An element that matches may be taken at once. -/
theorem matchesSubsequence_cons_of_matches (here : P a b) :
    MatchesSubsequence P (a :: as) (b :: bs) ↔ MatchesSubsequence P as bs := by
  constructor
  · intro ⟨sub, sublist, matched⟩
    cases matched with
    | cons _ rest =>
      cases sublist with
      | cons _ later => exact ⟨_, (List.sublist_cons_self _ _).trans later, rest⟩
      | cons_cons _ later => exact ⟨_, later, rest⟩
  · intro ⟨sub, sublist, matched⟩
    exact ⟨a :: sub, sublist.cons_cons a, .cons here matched⟩

/-- An element that does not match is passed over. -/
theorem matchesSubsequence_cons_of_not_matches (other : ¬ P a b) :
    MatchesSubsequence P (a :: as) (b :: bs) ↔ MatchesSubsequence P as (b :: bs) := by
  constructor
  · intro ⟨sub, sublist, matched⟩
    cases sublist with
    | cons _ later => exact ⟨sub, later, matched⟩
    | cons_cons _ later =>
      cases matched with
      | cons here _ => exact absurd here other
  · exact MatchesSubsequence.mono

end Taf.Lib
