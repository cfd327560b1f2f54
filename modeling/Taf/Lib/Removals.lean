import Mathlib

/-! # Removing the first element of a class for each request

Elements are sorted into classes by `key`.  A request for a class removes its first element, if there
is one.  After a list of requests every class has lost as many elements from its front as there were
requests for it; this is a filter exactly if the filter too takes that many from each front. -/

namespace Taf.Lib

variable {α κ : Type*} [DecidableEq κ] (key : α → κ)

/-- One request after the other -/
def removeFirsts (requests : List κ) (items : List α) : List α :=
  requests.foldl (fun items request => items.eraseP fun item => key item = request) items

/-- What is left when the requests are counted off from the front -/
def survivors : Multiset κ → List α → List α
  | _, [] => []
  | requests, item :: items =>
    if key item ∈ requests then survivors (requests.erase (key item)) items
    else item :: survivors requests items

theorem survivors_zero (items : List α) : survivors key 0 items = items := by
  induction items with
  | nil => rfl
  | cons item items ih => rw [survivors, if_neg (Multiset.notMem_zero _), ih]

theorem eraseP_survivors (requests : Multiset κ) (request : κ) (items : List α) :
    (survivors key requests items).eraseP (fun item => key item = request) =
      survivors key (request ::ₘ requests) items := by
  induction items generalizing requests with
  | nil => rfl
  | cons item items ih =>
    rw [survivors, survivors]
    by_cases same : key item = request
    · subst same
      rw [if_pos (Multiset.mem_cons_self _ _), Multiset.erase_cons_head]
      split
      · -- The request that was counted off before is the next one now.
        rename_i member
        rw [ih, Multiset.cons_erase member]
      · exact List.eraseP_cons_of_pos (by simp)
    · have unmoved : key item ∈ request ::ₘ requests ↔ key item ∈ requests := by
        rw [Multiset.mem_cons, or_iff_right same]
      rw [if_congr unmoved rfl rfl, Multiset.erase_cons_tail _ (Ne.symm same)]
      split
      · exact ih _
      · rw [List.eraseP_cons_of_neg (by simpa using same), ih]

theorem removeFirsts_eq_survivors (requests : List κ) (items : List α) :
    removeFirsts key requests items = survivors key requests items := by
  have general : ∀ counted : Multiset κ,
      removeFirsts key requests (survivors key counted items) =
        survivors key (counted + requests) items := by
    induction requests with
    | nil =>
      intro counted
      simp [removeFirsts]
    | cons request requests ih =>
      intro counted
      rw [removeFirsts, List.foldl_cons, eraseP_survivors, ← removeFirsts, ih,
        ← Multiset.cons_coe, Multiset.add_cons, Multiset.cons_add]
  have start := general 0
  rwa [survivors_zero, zero_add] at start

/-- Every class loses its front. -/
theorem filter_survivors (requests : Multiset κ) (items : List α) (class' : κ) :
    (survivors key requests items).filter (fun item => key item = class') =
      (items.filter fun item => key item = class').drop (requests.count class') := by
  induction items generalizing requests with
  | nil => simp [survivors]
  | cons item items ih =>
    rw [survivors]
    by_cases same : key item = class'
    · subst same
      rw [List.filter_cons_of_pos (by simp)]
      split
      · rename_i member
        have more : requests.count (key item) = (requests.erase (key item)).count (key item) + 1 := by
          rw [← Multiset.count_cons_self, Multiset.cons_erase member]
        rw [ih, more, List.drop_succ_cons]
      · rename_i absent
        rw [List.filter_cons_of_pos (by simp), ih, Multiset.count_eq_zero_of_notMem absent]
        rfl
    · rw [List.filter_cons_of_neg (by simpa using same)]
      split
      · rw [ih, Multiset.count_erase_of_ne (Ne.symm same)]
      · rw [List.filter_cons_of_neg (by simpa using same), ih]

/-- In every class the requests are for exactly the elements that `named` has, and these come
    first. -/
def NamedFirst (named : α → Prop) (requests : Multiset κ) (items : List α) : Prop :=
  ∀ class' : κ,
    (∀ item ∈ (items.filter fun item => key item = class').take (requests.count class'), named item) ∧
    ∀ item ∈ (items.filter fun item => key item = class').drop (requests.count class'), ¬ named item

section NamedFirst

variable {key} {named : α → Prop} {requests : Multiset κ} {item : α} {items : List α}

/-- The first element of its class is named exactly if there is a request for the class. -/
theorem NamedFirst.head (first : NamedFirst key named requests (item :: items)) :
    key item ∈ requests ↔ named item := by
  have own := first (key item)
  rw [List.filter_cons_of_pos (by simp)] at own
  cases counted : requests.count (key item) with
  | zero =>
    rw [counted] at own
    exact iff_of_false (Multiset.count_eq_zero.mp counted) (own.2 item List.mem_cons_self)
  | succ fewer =>
    rw [counted, List.take_succ_cons] at own
    have member : key item ∈ requests := Multiset.count_pos.mp (by omega)
    exact iff_of_true member (own.1 item List.mem_cons_self)

theorem NamedFirst.tail (first : NamedFirst key named requests (item :: items)) :
    NamedFirst key named (requests.erase (key item)) items := by
  intro class'
  have own := first class'
  by_cases same : key item = class'
  · subst same
    rw [List.filter_cons_of_pos (by simp)] at own
    rw [Multiset.count_erase_self]
    cases counted : requests.count (key item) with
    | zero =>
      rw [counted] at own
      exact ⟨by simp, fun other inside => own.2 other (List.mem_cons_of_mem _ inside)⟩
    | succ fewer =>
      rw [counted, List.take_succ_cons, List.drop_succ_cons] at own
      exact ⟨fun other inside => own.1 other (List.mem_cons_of_mem _ inside), own.2⟩
  · rw [List.filter_cons_of_neg (by simpa using same)] at own
    rwa [Multiset.count_erase_of_ne (Ne.symm same)]

end NamedFirst

theorem survivors_of_namedFirst {named : α → Prop} [DecidablePred named] {requests : Multiset κ}
    {items : List α} (first : NamedFirst key named requests items) :
    survivors key requests items = items.filter fun item => ¬ named item := by
  induction items generalizing requests with
  | nil => rfl
  | cons item items ih =>
    have rest := first.tail
    rw [survivors]
    by_cases member : key item ∈ requests
    · have gone := first.head.mp member
      rw [if_pos member, List.filter_cons_of_neg (by simpa using gone)]
      exact ih rest
    · have stays := mt first.head.mpr member
      rw [Multiset.erase_of_notMem member] at rest
      rw [if_neg member, List.filter_cons_of_pos (by simpa using stays), ih rest]

/-- A filter that leaves the rest of a list takes all of its front. -/
theorem named_of_drop_eq_filter {named : α → Prop} [DecidablePred named] {n : Nat} {items : List α}
    (same : items.drop n = items.filter fun item => ¬ named item) :
    (∀ item ∈ items.take n, named item) ∧ ∀ item ∈ items.drop n, ¬ named item := by
  have rest : ∀ item ∈ items.drop n, ¬ named item := by
    intro item member
    rw [same] at member
    simpa using (List.mem_filter.mp member).2
  have whole : (items.drop n).filter (fun item => ¬ named item) = items.drop n :=
    List.filter_eq_self.mpr (by simpa using rest)
  have split : items.filter (fun item => ¬ named item) =
      (items.take n).filter (fun item => ¬ named item) ++ items.drop n := by
    rw [← List.take_append_drop n items, List.filter_append, List.take_append_drop, whole]
  have front : (items.take n).filter (fun item => ¬ named item) = [] := by
    rw [split] at same
    exact List.append_left_eq_self.mp same.symm
  refine ⟨?_, rest⟩
  intro item member
  simpa using List.filter_eq_nil_iff.mp front item member

theorem removeFirsts_eq_filter_iff {named : α → Prop} [DecidablePred named] {requests : List κ}
    {items : List α} :
    (removeFirsts key requests items = items.filter fun item => ¬ named item) ↔
      NamedFirst key named requests items := by
  rw [removeFirsts_eq_survivors]
  constructor
  · intro same class'
    apply named_of_drop_eq_filter
    rw [← filter_survivors, same, List.filter_comm]
  · exact survivors_of_namedFirst key

end Taf.Lib
