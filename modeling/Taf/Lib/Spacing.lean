import Taf.Lib.OnePerClass

/-! # Items apart in time

Items with a key and a time are read one after the other.  As long as the times do not go back, those
of one key are apart exactly if each is apart from the last one before it. -/

namespace Taf.Lib

section

variable {α κ τ : Type*} [AddCommGroup τ] [LinearOrder τ] [IsOrderedAddMonoid τ] (key : α → κ)
  (time : α → τ) (gap : τ)

def InOrder (items : List α) : Prop :=
  items.Pairwise fun first second => time first ≤ time second

/-- Any two items of one key are at least `gap` apart. -/
def Apart (items : List α) : Prop :=
  items.Pairwise fun first second => key first = key second → gap ≤ |time second - time first|

variable {key time gap} {items : List α} {new : α}

omit [AddCommGroup τ] [IsOrderedAddMonoid τ] in
theorem InOrder.le_last (ordered : InOrder time items) {last item : α} (isLast : items.getLast? = some last)
    (member : item ∈ items) : time item ≤ time last := by
  cases items using List.reverseRecOn with
  | nil => cases member
  | append_singleton items final _ =>
    rw [List.getLast?_concat, Option.some.injEq] at isLast
    subst isLast
    cases List.mem_append.mp member with
    | inl earlier => exact (List.pairwise_append.mp ordered).2.2 item earlier final (List.mem_singleton_self final)
    | inr same => rw [List.mem_singleton.mp same]

omit [AddCommGroup τ] [IsOrderedAddMonoid τ] in
/-- It is enough to look at the item that was read last. -/
theorem inOrder_concat : InOrder time (items ++ [new]) ↔
    InOrder time items ∧ ∀ last ∈ items.getLast?, time last ≤ time new := by
  rw [InOrder, List.pairwise_append]
  constructor
  · intro ⟨ordered, _, before⟩
    exact ⟨ordered, fun last isLast =>
      before last (List.mem_of_getLast? isLast) new (List.mem_singleton_self new)⟩
  · intro ⟨ordered, before⟩
    refine ⟨ordered, List.pairwise_singleton _ new, ?_⟩
    intro item member other isNew
    rw [List.mem_singleton.mp isNew]
    cases final : items.getLast? with
    | none =>
      rw [List.getLast?_eq_none_iff.mp final] at member
      cases member
    | some last => exact (InOrder.le_last ordered final member).trans (before last final)

omit [AddCommGroup τ] [IsOrderedAddMonoid τ] in
theorem InOrder.le_isLast (ordered : InOrder time items) {last item : α} (isLast : IsLast key items last)
    (member : item ∈ items) (same : key item = key last) : time item ≤ time last := by
  obtain ⟨before, after, rfl, others⟩ := isLast
  have inside := (List.pairwise_append.mp ordered).2.2
  cases List.mem_append.mp member with
  | inl earlier => exact inside item earlier last List.mem_cons_self
  | inr later =>
    cases List.mem_cons.mp later with
    | inl equal => rw [equal]
    | inr behind => exact absurd same (others item behind)

/-- It is enough to look at the last item of the same key. -/
theorem apart_concat (ordered : InOrder time (items ++ [new])) : Apart key time gap (items ++ [new]) ↔
    Apart key time gap items ∧
      ∀ last, IsLast key items last → key last = key new → gap ≤ time new - time last := by
  obtain ⟨itemsOrdered, _, beforeNew⟩ := List.pairwise_append.mp ordered
  have forward : ∀ item ∈ items, 0 ≤ time new - time item := fun item member =>
    sub_nonneg.mpr (beforeNew item member new (List.mem_singleton_self new))
  rw [Apart, List.pairwise_append]
  constructor
  · intro ⟨apart, _, fromNew⟩
    refine ⟨apart, fun last isLast same => ?_⟩
    have far := fromNew last isLast.mem new (List.mem_singleton_self new) same
    rwa [abs_of_nonneg (forward last isLast.mem)] at far
  · intro ⟨apart, fromLast⟩
    refine ⟨apart, List.pairwise_singleton _ new, ?_⟩
    intro item member other isNew same
    rw [List.mem_singleton.mp isNew] at same ⊢
    obtain ⟨last, isLast, alike⟩ := exists_isLast (f := key) member
    have far := fromLast last isLast (alike.trans same)
    have earlier := InOrder.le_isLast itemsOrdered isLast member alike.symm
    rw [abs_of_nonneg (forward item member)]
    exact far.trans (sub_le_sub_left earlier (time new))

end

end Taf.Lib
