import Mathlib

/-! # One element of every class

A list is sorted into classes by a function.  A dictionary in which a new element takes the place of
one with an equal key holds exactly the last elements of the classes, and it does so for another
classification as well exactly when the two have the same last elements.  A list to which an element
is added only if none of its class is there holds one element of each class, and it represents a
finer classification exactly when the two are the same. -/

namespace Taf.Lib

variable {α κ δ ε : Type*} {f : α → δ} {items : List α} {item a b : α}

/-- No later element is of the same class. -/
def IsLast (f : α → δ) (items : List α) (item : α) : Prop :=
  ∃ before after, items = before ++ item :: after ∧ ∀ other ∈ after, f other ≠ f item

theorem isLast_concat {new : α} :
    IsLast f (items ++ [new]) item ↔ item = new ∨ (IsLast f items item ∧ f new ≠ f item) := by
  constructor
  · rintro ⟨before, after, same, last⟩
    rcases List.eq_nil_or_concat after with rfl | ⟨middle, final, rfl⟩
    · left
      obtain ⟨same, -⟩ := List.cons.inj (List.append_inj_right' same rfl)
      exact same.symm
    · right
      rw [List.concat_eq_append, ← List.cons_append, ← List.append_assoc] at same
      have front := List.append_inj_left' same rfl
      obtain ⟨rfl, -⟩ := List.cons.inj (List.append_inj_right' same rfl)
      refine ⟨⟨before, middle, front, fun other member => last other ?_⟩, last _ ?_⟩
      · simp [member]
      · simp
  · rintro (rfl | ⟨⟨before, after, rfl, last⟩, other⟩)
    · exact ⟨items, [], rfl, by simp⟩
    · refine ⟨before, after ++ [new], by simp, fun later member => ?_⟩
      rcases List.mem_append.mp member with member | member
      · exact last later member
      · rw [List.mem_singleton.mp member]
        exact other

theorem IsLast.mem (last : IsLast f items item) : item ∈ items := by
  obtain ⟨before, after, rfl, -⟩ := last
  simp

theorem exists_isLast (member : item ∈ items) : ∃ last, IsLast f items last ∧ f last = f item := by
  induction items using List.reverseRecOn with
  | nil => cases member
  | append_singleton items new ih =>
    by_cases same : f new = f item
    · exact ⟨new, isLast_concat.mpr (.inl rfl), same⟩
    · rcases List.mem_append.mp member with member | member
      · obtain ⟨last, isLast, alike⟩ := ih member
        exact ⟨last, isLast_concat.mpr (.inr ⟨isLast, alike ▸ same⟩), alike⟩
      · rw [List.mem_singleton.mp member] at same
        exact absurd rfl same

theorem IsLast.unique (first : IsLast f items a) (second : IsLast f items b) (same : f a = f b) :
    a = b := by
  induction items using List.reverseRecOn with
  | nil => cases first.mem
  | append_singleton items new ih =>
    rcases isLast_concat.mp first with rfl | ⟨first, otherFirst⟩
    · rcases isLast_concat.mp second with rfl | ⟨-, otherSecond⟩
      · rfl
      · exact absurd same otherSecond
    · rcases isLast_concat.mp second with rfl | ⟨second, -⟩
      · exact absurd same.symm otherFirst
      · exact ih first second

theorem isLast_congr {g : α → ε} (same : ∀ a ∈ items, ∀ b ∈ items, f a = f b ↔ g a = g b) :
    IsLast f items item ↔ IsLast g items item := by
  constructor
  · rintro ⟨before, after, rfl, last⟩
    refine ⟨before, after, rfl, fun other member alike => last other member ?_⟩
    exact (same other (by simp [member]) item (by simp)).mpr alike
  · rintro ⟨before, after, rfl, last⟩
    refine ⟨before, after, rfl, fun other member alike => last other member ?_⟩
    exact (same other (by simp [member]) item (by simp)).mp alike

theorem isLast_map {β : Type*} {g : β → α} {sources : List β} :
    IsLast f (sources.map g) item ↔ ∃ source, item = g source ∧ IsLast (f ∘ g) sources source := by
  constructor
  · rintro ⟨before, after, same, last⟩
    obtain ⟨front, back, rfl, rfl, rest⟩ := List.map_eq_append_iff.mp same
    obtain ⟨source, behind, rfl, rfl, rfl⟩ := List.map_eq_cons_iff.mp rest
    refine ⟨source, rfl, front, behind, rfl, fun other member => last _ (List.mem_map_of_mem member)⟩
  · rintro ⟨source, rfl, before, after, rfl, last⟩
    refine ⟨before.map g, after.map g, by simp, fun other member => ?_⟩
    obtain ⟨own, inside, rfl⟩ := List.mem_map.mp member
    exact last own inside

/-! ## The dictionary -/

variable [DecidableEq κ] (norm : κ → δ) (keyOf : α → κ)

/-- An element takes the place of one whose key has the same normal form. -/
def putLatest [DecidableEq δ] (store : AList fun _ : κ => α) (item : α) : AList fun _ : κ => α :=
  match store.keys.find? fun key => norm key = norm (keyOf item) with
  | some key => store.insert key item
  | none => store.insert (keyOf item) item

structure Latest (store : AList fun _ : κ => α) (items : List α) : Prop where
  entry : ∀ key found, store.lookup key = some found →
    norm key = norm (keyOf found) ∧ IsLast (norm ∘ keyOf) items found
  stored : ∀ item, IsLast (norm ∘ keyOf) items item → ∃ key, store.lookup key = some item
  single : ∀ key ∈ store, ∀ key' ∈ store, norm key = norm key' → key = key'

variable {norm keyOf} {store : AList fun _ : κ => α}

theorem Latest.empty : Latest norm keyOf (∅ : AList fun _ : κ => α) [] where
  entry _ _ found := by cases found
  stored _ last := by cases last.mem
  single _ member := by cases member

/-- The element is stored under a key of its own class, and nothing else of it is left. -/
theorem Latest.insert (latest : Latest norm keyOf store items) {key : κ}
    (own : norm key = norm (keyOf item))
    (only : ∀ other ∈ store, norm other = norm (keyOf item) → other = key) :
    Latest norm keyOf (store.insert key item) (items ++ [item]) where
  entry place found seen := by
    by_cases here : place = key
    · subst here
      rw [AList.lookup_insert] at seen
      cases seen
      exact ⟨own, isLast_concat.mpr (.inl rfl)⟩
    · rw [AList.lookup_insert_ne here] at seen
      obtain ⟨same, last⟩ := latest.entry place found seen
      refine ⟨same, isLast_concat.mpr (.inr ⟨last, fun alike => here ?_⟩)⟩
      have present : place ∈ store := AList.lookup_isSome.mp (by rw [seen]; rfl)
      exact only place present (same.trans alike.symm)
  stored other last := by
    rcases isLast_concat.mp last with rfl | ⟨last, different⟩
    · exact ⟨key, AList.lookup_insert _⟩
    · obtain ⟨place, seen⟩ := latest.stored other last
      refine ⟨place, (AList.lookup_insert_ne ?_).trans seen⟩
      rintro rfl
      exact different (own.symm.trans (latest.entry _ other seen).1)
  single place present place' present' same := by
    have fresh : ∀ other ∈ store, norm other = norm key → other = key := fun other member alike =>
      only other member (alike.trans own)
    rcases (AList.mem_insert _).mp present with rfl | inside
    · rcases (AList.mem_insert _).mp present' with rfl | inside'
      · rfl
      · exact (fresh place' inside' same.symm).symm
    · rcases (AList.mem_insert _).mp present' with rfl | inside'
      · exact fresh place inside same
      · exact latest.single place inside place' inside' same

theorem Latest.put [DecidableEq δ] (latest : Latest norm keyOf store items) (item : α) :
    Latest norm keyOf (putLatest norm keyOf store item) (items ++ [item]) := by
  rw [putLatest]
  split
  · rename_i key found
    have own : norm key = norm (keyOf item) := by simpa using List.find?_some found
    have present : key ∈ store := List.mem_of_find?_eq_some found
    exact latest.insert own fun other member alike =>
      latest.single other member key present (alike.trans own.symm)
  · rename_i missing
    refine latest.insert rfl fun other member alike => ?_
    exact absurd alike (by simpa using List.find?_eq_none.mp missing other member)

theorem Latest.putAll [DecidableEq δ] (latest : Latest norm keyOf store items) (more : List α) :
    Latest norm keyOf (more.foldl (putLatest norm keyOf) store) (items ++ more) := by
  induction more generalizing store items with
  | nil => simpa using latest
  | cons item more ih =>
    have next := ih (latest.put item)
    rwa [List.append_assoc] at next

/-- One entry for every class of `g`, and each is the last element of its class. -/
def OnePerClass (g : α → ε) (store : AList fun _ : κ => α) (items : List α) : Prop :=
  (∀ item ∈ items, ∃! key, ∃ found, store.lookup key = some found ∧ g found = g item) ∧
    ∀ key found, store.lookup key = some found → IsLast g items found

theorem Latest.onePerClass_iff (latest : Latest norm keyOf store items) (g : α → ε) :
    OnePerClass g store items ↔
      ∀ item, IsLast (norm ∘ keyOf) items item ↔ IsLast g items item := by
  constructor
  · rintro ⟨one, last⟩ item
    constructor
    · intro isLast
      obtain ⟨key, seen⟩ := latest.stored item isLast
      exact last key item seen
    · intro isLast
      obtain ⟨key, ⟨found, seen, alike⟩, -⟩ := one item isLast.mem
      have same := (last key found seen).unique isLast alike
      subst same
      exact (latest.entry key found seen).2
  · intro same
    constructor
    · intro item member
      obtain ⟨last, isLast, alike⟩ := exists_isLast member
      obtain ⟨key, seen⟩ := latest.stored last ((same last).mpr isLast)
      refine ⟨key, ⟨last, seen, alike⟩, ?_⟩
      rintro other ⟨found, seen', alike'⟩
      have foundLast := (same found).mp (latest.entry other found seen').2
      have equal := foundLast.unique isLast (alike'.trans alike.symm)
      subst equal
      have present : ∀ {place : κ}, store.lookup place = some found → place ∈ store :=
        fun seen => AList.lookup_isSome.mp (by rw [seen]; rfl)
      apply latest.single other (present seen') key (present seen)
      rw [(latest.entry other found seen').1, (latest.entry key found seen).1]
    · intro key found seen
      exact (same found).mp (latest.entry key found seen).2

/-! ## The first elements -/

/-- An element is kept unless one with the same key is there. -/
def keepNew [DecidableEq δ] (key : α → δ) (kept : List α) (item : α) : List α :=
  if kept.any fun other => key other = key item then kept else kept ++ [item]

/-- One element of every class -/
structure Represents (key : α → δ) (kept items : List α) : Prop where
  mem : ∀ item ∈ kept, item ∈ items
  some : ∀ item ∈ items, ∃ own ∈ kept, key own = key item
  apart : kept.Pairwise fun a b => key a ≠ key b

variable {key : α → δ} {kept : List α}

theorem Represents.single (represents : Represents key kept items) (first : a ∈ kept)
    (second : b ∈ kept) (same : key a = key b) : a = b := by
  have symmetric : Std.Symm fun a b : α => key a ≠ key b := ⟨fun _ _ apart => apart.symm⟩
  by_contra different
  exact represents.apart.forall first second different same

theorem Represents.keepNew [DecidableEq δ] (represents : Represents key kept items) (item : α) :
    Represents key (keepNew key kept item) (items ++ [item]) := by
  rw [Lib.keepNew]
  split
  · rename_i seen
    obtain ⟨own, member, same⟩ := List.any_eq_true.mp seen
    refine ⟨fun other inside => by simp [represents.mem other inside], ?_, represents.apart⟩
    intro other inside
    rcases List.mem_append.mp inside with inside | inside
    · exact represents.some other inside
    · rw [List.mem_singleton.mp inside]
      exact ⟨own, member, by simpa using same⟩
  · rename_i unseen
    have fresh : ∀ own ∈ kept, key own ≠ key item := by
      intro own member same
      exact unseen (List.any_eq_true.mpr ⟨own, member, by simpa using same⟩)
    refine ⟨?_, ?_, ?_⟩
    · intro other inside
      rcases List.mem_append.mp inside with inside | inside
      · simp [represents.mem other inside]
      · simp [List.mem_singleton.mp inside]
    · intro other inside
      rcases List.mem_append.mp inside with inside | inside
      · obtain ⟨own, member, same⟩ := represents.some other inside
        exact ⟨own, by simp [member], same⟩
      · exact ⟨item, by simp, by rw [List.mem_singleton.mp inside]⟩
    · rw [List.pairwise_append]
      exact ⟨represents.apart, List.pairwise_singleton _ _, fun own member other inside =>
        List.mem_singleton.mp inside ▸ fresh own member⟩

theorem Represents.keepAll [DecidableEq δ] (represents : Represents key kept items) (more : List α) :
    Represents key (more.foldl (Lib.keepNew key) kept) (items ++ more) := by
  induction more generalizing kept items with
  | nil => simpa using represents
  | cons item more ih =>
    have next := ih (represents.keepNew item)
    rwa [List.append_assoc] at next

theorem represents_foldl [DecidableEq δ] (key : α → δ) (items : List α) :
    Represents key (items.foldl (keepNew key) []) items := by
  have start : Represents key ([] : List α) [] := ⟨by simp, by simp, .nil⟩
  exact start.keepAll items

/-- No earlier element is of the same class. -/
def IsFirst (f : α → δ) (items : List α) (item : α) : Prop :=
  ∃ before after, items = before ++ item :: after ∧ ∀ other ∈ before, f other ≠ f item

theorem IsFirst.mem (first : IsFirst f items item) : item ∈ items := by
  obtain ⟨before, after, rfl, -⟩ := first
  simp

theorem isFirst_concat {new : α} : IsFirst f (items ++ [new]) item ↔
    IsFirst f items item ∨ (item = new ∧ ∀ other ∈ items, f other ≠ f new) := by
  constructor
  · rintro ⟨before, after, same, first⟩
    rcases List.eq_nil_or_concat after with rfl | ⟨middle, final, rfl⟩
    · right
      obtain ⟨rfl, own⟩ := List.append_inj' same rfl
      cases own
      exact ⟨rfl, first⟩
    · left
      rw [List.concat_eq_append, ← List.cons_append, ← List.append_assoc] at same
      exact ⟨before, middle, List.append_inj_left' same rfl, first⟩
  · rintro (⟨before, after, rfl, first⟩ | ⟨rfl, apart⟩)
    · exact ⟨before, after ++ [new], by simp, first⟩
    · exact ⟨items, [], rfl, apart⟩

theorem isFirst_map {β : Type*} {g : β → α} {sources : List β} :
    IsFirst f (sources.map g) item ↔ ∃ source, item = g source ∧ IsFirst (f ∘ g) sources source := by
  constructor
  · rintro ⟨before, after, same, first⟩
    obtain ⟨front, back, rfl, rfl, rest⟩ := List.map_eq_append_iff.mp same
    obtain ⟨source, behind, rfl, rfl, rfl⟩ := List.map_eq_cons_iff.mp rest
    refine ⟨source, rfl, front, behind, rfl, fun other member => first _ (List.mem_map_of_mem member)⟩
  · rintro ⟨source, rfl, before, after, rfl, first⟩
    refine ⟨before.map g, after.map g, by simp, fun other member => ?_⟩
    obtain ⟨own, inside, rfl⟩ := List.mem_map.mp member
    exact first own inside

theorem exists_isFirst (member : item ∈ items) : ∃ first, IsFirst f items first ∧ f first = f item := by
  induction items with
  | nil => cases member
  | cons head items ih =>
    by_cases here : f head = f item
    · exact ⟨head, ⟨[], items, rfl, by simp⟩, here⟩
    · have inTail : item ∈ items := by
        rcases List.mem_cons.mp member with rfl | later
        · exact absurd rfl here
        · exact later
      obtain ⟨first, ⟨before, after, rfl, apart⟩, alike⟩ := ih inTail
      refine ⟨first, ⟨head :: before, after, rfl, ?_⟩, alike⟩
      exact List.forall_mem_cons.mpr ⟨alike ▸ here, apart⟩

/-- What is kept are the first elements of their classes. -/
theorem mem_keepNew_foldl_iff [DecidableEq δ] :
    item ∈ items.foldl (keepNew key) [] ↔ IsFirst key items item := by
  induction items using List.reverseRecOn with
  | nil => exact iff_of_false (by simp) fun first => by cases first.mem
  | append_singleton items new ih =>
    have represents := represents_foldl key items
    rw [List.foldl_append, isFirst_concat, ← ih, List.foldl_cons, List.foldl_nil, keepNew]
    split
    · rename_i seen
      obtain ⟨own, member, same⟩ := List.any_eq_true.mp seen
      have notNew : ¬ (item = new ∧ ∀ other ∈ items, key other ≠ key new) :=
        fun fresh => fresh.2 own (represents.mem own member) (by simpa using same)
      rw [or_iff_left notNew]
    · rename_i unseen
      have fresh : ∀ other ∈ items, key other ≠ key new := by
        intro other inside same
        obtain ⟨own, member, alike⟩ := represents.some other inside
        exact unseen (List.any_eq_true.mpr ⟨own, member, by simpa using alike.trans same⟩)
      rw [List.mem_append, List.mem_singleton, and_iff_left fresh]

/-- The classes of `g`, which are finer, are all there exactly when they are no finer. -/
theorem Represents.all_iff (represents : Represents key kept items) {g : α → ε}
    (finer : ∀ a b, g a = g b → key a = key b) :
    (∀ item ∈ items, ∃ own ∈ kept, g own = g item) ↔
      ∀ a ∈ items, ∀ b ∈ items, key a = key b → g a = g b := by
  constructor
  · intro all first inFirst second inSecond same
    obtain ⟨own, member, alike⟩ := all first inFirst
    obtain ⟨own', member', alike'⟩ := all second inSecond
    have equal : own = own' := by
      apply represents.single member member'
      rw [finer own first alike, finer own' second alike', same]
    rw [← alike, ← alike', equal]
  · intro coarse item inside
    obtain ⟨own, member, same⟩ := represents.some item inside
    exact ⟨own, member, coarse own (represents.mem own member) item inside same⟩

end Taf.Lib
