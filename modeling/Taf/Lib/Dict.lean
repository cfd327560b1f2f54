import Mathlib

/-! # What a dictionary shows after an update

`AList` is a Python dictionary with one value type: the entry that a lookup finds after
an assignment or a `pop` is the new one or one that was there before. -/

namespace Taf.Lib

variable {α β : Type*} [DecidableEq α] {dict : AList fun _ : α => β} {key written : α}
  {value found : β}

theorem lookup_insert_eq_some : (dict.insert written value).lookup key = some found ↔
    (key = written ∧ found = value) ∨ (key ≠ written ∧ dict.lookup key = some found) := by
  by_cases same : key = written
  · subst same
    rw [AList.lookup_insert, Option.some.injEq]
    simp [eq_comm]
  · simp [AList.lookup_insert_ne same, same]

theorem lookup_erase_eq_some : (dict.erase written).lookup key = some found ↔
    key ≠ written ∧ dict.lookup key = some found := by
  by_cases same : key = written
  · subst same
    simp
  · simp [AList.lookup_erase_ne same, same]

theorem keys_length_pos {α β : Type*} {dict : AList fun _ : α => β} : 0 < dict.keys.length ↔ dict ≠ ∅ := by
  rw [List.length_pos_iff]
  constructor
  · rintro nonempty rfl
    exact nonempty AList.keys_empty
  · intro nonempty noKeys
    exact nonempty (AList.ext (List.map_eq_nil_iff.mp noKeys))

theorem insert_ne_empty : dict.insert key value ≠ ∅ := by
  intro impossible
  have member : key ∈ dict.insert key value := (AList.mem_insert dict).mpr (.inl rfl)
  rw [impossible] at member
  exact AList.notMem_empty key member

/-- The order in which a set of names is iterated -/
structure KeyOrder (α : Type*) where
  order : List α → List α
  perm : ∀ keys, (order keys).Perm keys

theorem mem_order {α : Type*} {sets : KeyOrder α} {name : α} {keys : List α} : name ∈ sets.order keys ↔ name ∈ keys :=
  (sets.perm keys).mem_iff

/-! ## Assignments in a loop -/

/-- `for key, value in pairs: dict[key] = value` -/
def assignAll (pairs : List (α × β)) (dict : AList fun _ : α => β) : AList fun _ : α => β :=
  pairs.foldl (fun dict pair => dict.insert pair.1 pair.2) dict

theorem assignAll_append (first second : List (α × β)) (dict : AList fun _ : α => β) :
    assignAll (first ++ second) dict = assignAll second (assignAll first dict) :=
  List.foldl_append

theorem lookup_assignAll_isSome {pairs : List (α × β)} :
    ((assignAll pairs dict).lookup key).isSome ↔
      key ∈ pairs.map Prod.fst ∨ (dict.lookup key).isSome := by
  induction pairs generalizing dict with
  | nil => simp [assignAll]
  | cons pair pairs ih =>
    rw [assignAll, List.foldl_cons, ← assignAll, ih, List.map_cons, List.mem_cons]
    by_cases same : key = pair.1
    · subst same
      simp
    · simp [AList.lookup_insert_ne same, same]

theorem lookup_assignAll_of_notMem {pairs : List (α × β)} (absent : key ∉ pairs.map Prod.fst) :
    (assignAll pairs dict).lookup key = dict.lookup key := by
  induction pairs generalizing dict with
  | nil => rfl
  | cons pair pairs ih =>
    rw [List.map_cons, List.mem_cons, not_or] at absent
    rw [assignAll, List.foldl_cons, ← assignAll, ih absent.2, AList.lookup_insert_ne absent.1]

theorem lookup_assignAll_of_mem {pairs : List (α × β)} (distinct : (pairs.map Prod.fst).Nodup)
    (member : (key, value) ∈ pairs) : (assignAll pairs dict).lookup key = some value := by
  induction pairs generalizing dict with
  | nil => cases member
  | cons pair pairs ih =>
    obtain ⟨new, distinct⟩ := List.nodup_cons.mp distinct
    rw [assignAll, List.foldl_cons, ← assignAll]
    rcases List.mem_cons.mp member with rfl | member
    · rw [lookup_assignAll_of_notMem new, AList.lookup_insert]
    · exact ih distinct member

/-- An entry was assigned, or it was there and its key was not assigned. -/
theorem lookup_assignAll_cases {pairs : List (α × β)} (found : (assignAll pairs dict).lookup key = some value) :
    (key, value) ∈ pairs ∨ (key ∉ pairs.map Prod.fst ∧ dict.lookup key = some value) := by
  induction pairs generalizing dict with
  | nil => exact .inr ⟨List.not_mem_nil, found⟩
  | cons pair pairs ih =>
    rw [assignAll, List.foldl_cons, ← assignAll] at found
    rcases ih found with later | ⟨absent, here⟩
    · exact .inl (List.mem_cons_of_mem pair later)
    · rcases lookup_insert_eq_some.mp here with ⟨sameKey, sameValue⟩ | ⟨other, before⟩
      · rw [sameKey, sameValue]
        exact .inl List.mem_cons_self
      · refine .inr ⟨?_, before⟩
        rw [List.map_cons, List.mem_cons, not_or]
        exact ⟨other, absent⟩

/-- Entries that are made from items with different names -/
theorem lookup_assignAll_named {ι : Type*} [DecidableEq ι] {name : ι → α} (distinct : Function.Injective name)
    (make : ι → β) (items : List ι) (item : ι) :
    (assignAll (items.map fun item => (name item, make item)) dict).lookup (name item) =
      if item ∈ items then some (make item) else dict.lookup (name item) := by
  induction items generalizing dict with
  | nil => rfl
  | cons first items ih =>
    rw [List.map_cons, assignAll, List.foldl_cons, ← assignAll, ih]
    by_cases later : item ∈ items
    · rw [if_pos later, if_pos (List.mem_cons_of_mem _ later)]
    · by_cases here : item = first
      · subst here
        rw [if_neg later, if_pos List.mem_cons_self, AList.lookup_insert]
      · rw [if_neg later, if_neg (by simp [here, later]),
          AList.lookup_insert_ne fun same => here (distinct same)]

theorem lookup_assignAll_map {γ : Type*} {entries : List (Σ _ : α, γ)} (distinct : entries.NodupKeys)
    (f : γ → β) (dict : AList fun _ : α => β) :
    (assignAll (entries.map fun entry => (entry.1, f entry.2)) dict).lookup key =
      ((List.dlookup key entries).map f).or (dict.lookup key) := by
  induction entries generalizing dict with
  | nil => simp [assignAll]
  | cons entry entries ih =>
    obtain ⟨name, value⟩ := entry
    obtain ⟨new, distinct⟩ := List.nodupKeys_cons.mp distinct
    rw [List.map_cons, assignAll, List.foldl_cons, ← assignAll, ih distinct]
    by_cases same : key = name
    · subst same
      have absent : List.dlookup key entries = none := List.dlookup_eq_none.mpr new
      rw [absent, List.dlookup_cons_eq, AList.lookup_insert]
      rfl
    · rw [List.dlookup_cons_ne _ _ same, AList.lookup_insert_ne same]

/-- A loop over the items of a dictionary assigns what the dictionary has. -/
theorem lookup_assignAll_entries {γ : Type*} (source : AList fun _ : α => γ) (f : γ → β)
    (dict : AList fun _ : α => β) :
    (assignAll (source.entries.map fun entry => (entry.1, f entry.2)) dict).lookup key =
      ((source.lookup key).map f).or (dict.lookup key) :=
  lookup_assignAll_map source.nodupKeys f dict

/-- Pairs with distinct keys are in one order if their keys are. -/
theorem eq_of_perm_of_keys {α β : Type*} {pairs others : List (α × β)} (distinct : (pairs.map Prod.fst).Nodup)
    (perm : pairs.Perm others) (keys : others.map Prod.fst = pairs.map Prod.fst) : pairs = others := by
  induction pairs generalizing others with
  | nil => exact perm.symm.eq_nil.symm
  | cons pair pairs ih =>
    cases others with
    | nil => cases keys
    | cons other others =>
      obtain ⟨sameKey, sameKeys⟩ := List.cons.inj keys
      have same : other = pair :=
        List.inj_on_of_nodup_map distinct (perm.symm.subset List.mem_cons_self) List.mem_cons_self sameKey
      subst same
      rw [List.map_cons, List.nodup_cons] at distinct
      rw [ih distinct.2 perm.cons_inv sameKeys]

/-- The first item of a name is the only one. -/
theorem find?_named {ι : Type*} {name : ι → α} {items : List ι} (distinct : (items.map name).Nodup) {item : ι}
    (member : item ∈ items) : items.find? (fun other => name other = name item) = some item := by
  cases found : items.find? fun other => decide (name other = name item) with
  | none => exact absurd (List.find?_eq_none.mp found item member) (by simp)
  | some other =>
    have same : name other = name item := by simpa using List.find?_some found
    rw [List.inj_on_of_nodup_map distinct (List.mem_of_find?_eq_some found) member same]

/-- Parts that tell by their label which item they are from are distinct. -/
theorem nodup_flatMap_labelled {ι γ δ : Type*} {label : ι → δ} {items : List ι} {parts : ι → List γ} (labelOf : γ → δ)
    (distinct : (items.map label).Nodup) (each : ∀ item ∈ items, (parts item).Nodup)
    (labelled : ∀ item ∈ items, ∀ part ∈ parts item, labelOf part = label item) :
    (items.flatMap parts).Nodup := by
  rw [List.nodup_flatMap]
  refine ⟨each, (List.pairwise_map.mp distinct).imp_of_mem ?_⟩
  intro one other isOne isOther different part inOne inOther
  exact different ((labelled one isOne part inOne).symm.trans (labelled other isOther part inOther))

end Taf.Lib
