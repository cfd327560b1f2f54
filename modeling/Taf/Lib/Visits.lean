import Mathlib
import Taf.Lib.Dict

/-! # Loops over nested dictionaries

A loop over dictionaries in dictionaries visits the places of its objects one after the other, in an
order that nobody has promised.  `Precedes` says that one place is visited before any visit to
another; orders that put a chosen key first bring that about.  A running maximum meets an object as
a record exactly if everything before it is smaller. -/

namespace Taf.Lib

/-! ## Orders -/

/-- The order of the entries -/
def KeyOrder.plain {α : Type*} : KeyOrder α where
  order keys := keys
  perm keys := List.Perm.refl keys

/-- The order that puts a key first -/
def KeyOrder.first {α : Type*} [DecidableEq α] (key : α) : KeyOrder α where
  order keys := if key ∈ keys then key :: keys.erase key else keys
  perm keys := by
    split
    · rename_i member
      exact (List.perm_cons_erase member).symm
    · exact List.Perm.refl keys

theorem KeyOrder.order_first {α : Type*} [DecidableEq α] {key : α} {keys : List α} (member : key ∈ keys) :
    (KeyOrder.first key).order keys = key :: keys.erase key :=
  if_pos member

variable {α β : Type*} {visits : List β} {first second : β}

/-- `for key, value in dict.items(): ...`, where the body goes over a list -/
def visit {γ : Type*} [DecidableEq α] (order : KeyOrder α) (dict : AList fun _ : α => γ)
    (body : α → γ → List β) : List β :=
  (order.order dict.keys).flatMap fun key => (dict.lookup key).toList.flatMap (body key)

section Dictionaries

variable {γ : Type*} [DecidableEq α] {order : KeyOrder α} {dict : AList fun _ : α => γ}
  {body : α → γ → List β} {key : α} {value : γ}

theorem mem_keys_of_lookup (found : dict.lookup key = some value) : key ∈ dict.keys := by
  rw [← AList.mem_keys, ← AList.lookup_isSome, found]
  exact Option.isSome_some

theorem mem_visit {item : β} : item ∈ visit order dict body ↔
    ∃ key value, dict.lookup key = some value ∧ item ∈ body key value := by
  rw [visit, List.mem_flatMap]
  constructor
  · rintro ⟨key, -, inside⟩
    obtain ⟨value, found, inside⟩ := List.mem_flatMap.mp inside
    exact ⟨key, value, Option.mem_toList.mp found, inside⟩
  · rintro ⟨key, value, found, inside⟩
    refine ⟨key, (order.perm _).mem_iff.mpr (mem_keys_of_lookup found), ?_⟩
    exact List.mem_flatMap.mpr ⟨value, Option.mem_toList.mpr found, inside⟩

theorem visit_first (found : dict.lookup key = some value) : ∃ rest,
    visit (KeyOrder.first key) dict body = body key value ++ rest := by
  rw [visit, KeyOrder.order_first (mem_keys_of_lookup found), List.flatMap_cons, found]
  exact ⟨_, congrArg (· ++ _) (by simp)⟩

/-- A total to which only one key contributes -/
theorem sum_visit {amount : β → Int} (others : ∀ other ≠ key, ∀ value, ∀ item ∈ body other value,
    amount item = 0) : ((visit order dict body).map amount).sum =
      ((dict.lookup key).map fun value => ((body key value).map amount).sum).getD 0 := by
  have total : ∀ keys : List α, ((keys.flatMap fun key =>
      (dict.lookup key).toList.flatMap (body key)).map amount).sum =
        (keys.map fun key => (((dict.lookup key).toList.flatMap (body key)).map amount).sum).sum := by
    intro keys
    induction keys with
    | nil => rfl
    | cons first keys ih => simp [ih]
  have silent : ∀ other, other ≠ key → other ∈ order.order dict.keys →
      (((dict.lookup other).toList.flatMap (body other)).map amount).sum = 0 := by
    intro other apart _
    apply List.sum_eq_zero
    intro number member
    obtain ⟨item, inside, rfl⟩ := List.mem_map.mp member
    obtain ⟨value, -, inside⟩ := List.mem_flatMap.mp inside
    exact others other apart value item inside
  rw [visit, total, List.sum_map_eq_nsmul_single key _ silent]
  have nodup : (order.order dict.keys).Nodup := (order.perm _).nodup_iff.mpr dict.nodupKeys
  cases found : dict.lookup key with
  | none => simp
  | some value =>
    have once : (order.order dict.keys).count key = 1 :=
      List.count_eq_one_of_mem nodup ((order.perm _).mem_iff.mpr (mem_keys_of_lookup found))
    rw [once]
    simp

end Dictionaries

/-- The first place is visited, and the second one only later. -/
def Precedes (first second : β) (visits : List β) : Prop :=
  ∃ front rest, visits = front ++ rest ∧ first ∈ front ∧ second ∉ front

theorem Precedes.mem_before (precedes : Precedes first second visits) {before after : List β}
    (same : visits = before ++ second :: after) : first ∈ before := by
  obtain ⟨front, rest, rfl, member, absent⟩ := precedes
  rcases List.append_eq_append_iff.mp same with ⟨middle, rfl, -⟩ | ⟨middle, rfl, split⟩
  · exact List.mem_append_left _ member
  · cases middle with
    | nil => simpa using member
    | cons head middle =>
      cases split
      exact absurd (by simp) absent

/-- The places under a key that comes first -/
theorem precedes_of_first {keys : List α} {key : α} {block : α → List β}
    (member : first ∈ block key) (absent : second ∉ block key) :
    Precedes first second ((key :: keys).flatMap block) :=
  ⟨block key, keys.flatMap block, List.flatMap_cons, member, absent⟩

/-- The places under one key, in the order of the loop under it -/
theorem precedes_flatMap {keys : List α} {key : α} {block : α → List β} (member : key ∈ keys)
    (apart : ∀ other, other ≠ key → second ∉ block other)
    (inside : Precedes first second (block key)) : Precedes first second (keys.flatMap block) := by
  obtain ⟨front, rest, same, inFront, absent⟩ := inside
  induction keys with
  | nil => cases member
  | cons head keys ih =>
    classical
    by_cases here : head = key
    · subst here
      refine ⟨front, rest ++ keys.flatMap block, ?_, inFront, absent⟩
      rw [List.flatMap_cons, same, List.append_assoc]
    · rcases List.mem_cons.mp member with rfl | later
      · exact absurd rfl here
      · obtain ⟨front', rest', same', inFront', absent'⟩ := ih later
        refine ⟨block head ++ front', rest', ?_, by simp [inFront'], ?_⟩
        · rw [List.flatMap_cons, same', List.append_assoc]
        · rw [List.mem_append, not_or]
          exact ⟨apart head here, absent'⟩

section Dictionaries

variable {γ : Type*} [DecidableEq α] {order : KeyOrder α} {dict : AList fun _ : α => γ}
  {body : α → γ → List β} {key : α} {value : γ}

theorem precedes_visit_first (found : dict.lookup key = some value) (member : first ∈ body key value)
    (absent : second ∉ body key value) :
    Precedes first second (visit (KeyOrder.first key) dict body) := by
  rw [visit, KeyOrder.order_first (mem_keys_of_lookup found)]
  apply precedes_of_first
  · rw [found]
    exact List.mem_flatMap.mpr ⟨value, List.mem_singleton.mpr rfl, member⟩
  · rw [found]
    intro inside
    obtain ⟨_, same, inside⟩ := List.mem_flatMap.mp inside
    cases List.mem_singleton.mp same
    exact absent inside

theorem precedes_visit (found : dict.lookup key = some value)
    (apart : ∀ other, other ≠ key → ∀ value, second ∉ body other value)
    (inside : Precedes first second (body key value)) : Precedes first second (visit order dict body) := by
  apply precedes_flatMap ((order.perm _).mem_iff.mpr (mem_keys_of_lookup found))
  · intro other different member
    obtain ⟨value, -, member⟩ := List.mem_flatMap.mp member
    exact apart other different value member
  · rw [found]
    simpa using inside

end Dictionaries

/-! ## Records of a running maximum -/

variable [LinearOrder α] {value : β → α} {bound : α} {item : β}

/-- An object that is met with a value above all values before it and above a bound -/
def IsRecord (value : β → α) (bound : α) (visits : List β) (item : β) : Prop :=
  bound < value item ∧ ∃ before after, visits = before ++ item :: after ∧
    ∀ other ∈ before, value other < value item

theorem isRecord_concat {last : β} : IsRecord value bound (visits ++ [last]) item ↔
    IsRecord value bound visits item ∨
      (item = last ∧ bound < value last ∧ ∀ other ∈ visits, value other < value last) := by
  constructor
  · rintro ⟨above, before, after, same, smaller⟩
    rcases List.eq_nil_or_concat after with rfl | ⟨middle, final, rfl⟩
    · right
      obtain ⟨rfl, one⟩ := List.append_inj' same rfl
      cases one
      exact ⟨rfl, above, smaller⟩
    · left
      rw [List.concat_eq_append, ← List.cons_append, ← List.append_assoc] at same
      obtain ⟨rfl, -⟩ := List.append_inj' same rfl
      exact ⟨above, before, middle, rfl, smaller⟩
  · rintro (⟨above, before, after, rfl, smaller⟩ | ⟨rfl, above, smaller⟩)
    · exact ⟨above, before, after ++ [last], by simp, smaller⟩
    · exact ⟨above, visits, [], rfl, smaller⟩

/-- The largest of the values and a bound -/
structure IsPeak (value : β → α) (bound : α) (items : Set β) (peak : α) : Prop where
  atLeast : bound ≤ peak
  upper : ∀ item ∈ items, value item ≤ peak
  attained : peak = bound ∨ ∃ item ∈ items, peak = value item

end Taf.Lib
