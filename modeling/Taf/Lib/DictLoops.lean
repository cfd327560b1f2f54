import Mathlib
import Taf.Lib.Run

/-! # Loops that complete a dictionary

A program that fills in what a dictionary leaves open does it by a few loops: it gives the keys
that are missing their defaults, rewrites every value in place, and adds entries under fresh
names until there are enough of them.  Each loop has one rule about what a lookup finds after
it, one about the number of entries and one about a sum over the values. -/

namespace Taf.Lib

universe u v

/-! ## Defaults -/

section Defaults

variable {α : Type u} {β : α → Type v} [DecidableEq α]

/-- `if key not in dict: dict[key] = value` -/
def setMissing (key : α) (value : β key) (dict : AList β) : AList β :=
  if key ∈ dict then dict else dict.insert key value

/-- `for key, value in defaults.items(): if key not in dict: dict[key] = value` -/
def applyDefaults (defaults dict : AList β) : AList β :=
  defaults.entries.foldl (fun dict entry => setMissing entry.1 entry.2 dict) dict

/-- `for key in keys: dict[key] = value(key)`, for the keys that have a value -/
def assignKeys (value : (key : α) → Option (β key)) (keys : List α) (dict : AList β) : AList β :=
  keys.foldl (fun dict key => ((value key).map fun value => dict.insert key value).getD dict) dict

theorem lookup_setMissing (key : α) (value : β key) (dict : AList β) :
    (setMissing key value dict).lookup key = some ((dict.lookup key).getD value) := by
  rw [setMissing]
  split
  case isTrue present =>
    obtain ⟨found, here⟩ := Option.isSome_iff_exists.mp (AList.lookup_isSome.mpr present)
    simp [here]
  case isFalse absent =>
    simp [AList.lookup_eq_none.mpr absent]

theorem lookup_setMissing_ne {key other : α} (different : other ≠ key) (value : β key) (dict : AList β) :
    (setMissing key value dict).lookup other = dict.lookup other := by
  rw [setMissing]
  split
  · rfl
  · exact AList.lookup_insert_ne different

/-- What is in the dictionary stays. -/
theorem lookup_setMissing_of_some {key other : α} {value : β key} {dict : AList β} {found : β other}
    (here : dict.lookup other = some found) : (setMissing key value dict).lookup other = some found := by
  by_cases same : other = key
  · subst same
    rw [lookup_setMissing, here]
    rfl
  · rwa [lookup_setMissing_ne same]

theorem mem_setMissing {key other : α} {value : β key} {dict : AList β} :
    other ∈ setMissing key value dict ↔ other = key ∨ other ∈ dict := by
  rw [setMissing]
  split
  case isTrue present =>
    exact ⟨.inr, fun either => either.elim (fun same => same ▸ present) id⟩
  case isFalse absent => exact AList.mem_insert dict

/-- Whether a key is set anew or only where it is missing, the number of entries is the same. -/
theorem length_insert_eq_setMissing {key : α} {value value' : β key} {dict : AList β} :
    (dict.insert key value).keys.length = (setMissing key value' dict).keys.length := by
  rw [setMissing]
  split
  case isTrue present =>
    rw [AList.keys_insert, List.length_cons, List.length_erase_of_mem (AList.mem_keys.mp present)]
    have positive : 0 < dict.keys.length := List.length_pos_of_mem (AList.mem_keys.mp present)
    omega
  case isFalse absent =>
    rw [AList.keys_insert, AList.keys_insert]

/-- What is in the dictionary stays, and the rest is what the defaults say. -/
theorem lookup_applyDefaults (defaults dict : AList β) (key : α) :
    (applyDefaults defaults dict).lookup key = (dict.lookup key).or (defaults.lookup key) := by
  obtain ⟨entries, distinct⟩ := defaults
  -- The entries are applied from the left, so the dictionary changes along the induction.
  change (List.foldl _ dict entries).lookup key = (dict.lookup key).or (List.dlookup key entries)
  induction entries generalizing dict with
  | nil => simp
  | cons entry entries ih =>
    obtain ⟨name, value⟩ := entry
    obtain ⟨new, distinct⟩ := List.nodupKeys_cons.mp distinct
    rw [List.foldl_cons, ih _ distinct]
    by_cases same : key = name
    · subst same
      rw [lookup_setMissing, List.dlookup_cons_eq]
      cases dict.lookup key <;> rfl
    · rw [lookup_setMissing_ne same, List.dlookup_cons_ne _ _ same]

theorem lookup_assignKeys (value : (key : α) → Option (β key)) (keys : List α) (dict : AList β) (key : α) :
    (assignKeys value keys dict).lookup key =
      if key ∈ keys then (value key).or (dict.lookup key) else dict.lookup key := by
  induction keys generalizing dict with
  | nil => rfl
  | cons first keys ih =>
    rw [assignKeys, List.foldl_cons, ← assignKeys, ih]
    by_cases same : key = first
    · subst same
      cases found : value key with
      | none => simp
      | some here => simp
    · have untouched : (((value first).map fun value => dict.insert first value).getD dict).lookup key =
          dict.lookup key := by
        cases value first with
        | none => rfl
        | some here => exact AList.lookup_insert_ne same
      simp [untouched, same]

/-- `for key in keys: dict[key] = f(key, dict.get(key, default))` -/
def updateKeys (default : (key : α) → β key) (f : (key : α) → β key → β key) (keys : List α) (dict : AList β) :
    AList β :=
  keys.foldl (fun dict key => dict.insert key (f key ((dict.lookup key).getD (default key)))) dict

/-- Distinct keys are updated independently. -/
theorem lookup_updateKeys (default : (key : α) → β key) (f : (key : α) → β key → β key) {keys : List α}
    (distinct : keys.Nodup) (dict : AList β) (key : α) : (updateKeys default f keys dict).lookup key =
      if key ∈ keys then some (f key ((dict.lookup key).getD (default key))) else dict.lookup key := by
  induction keys generalizing dict with
  | nil => rfl
  | cons first keys ih =>
    obtain ⟨new, distinct⟩ := List.nodup_cons.mp distinct
    rw [updateKeys, List.foldl_cons, ← updateKeys, ih distinct]
    by_cases same : key = first
    · subst same
      simp [new]
    · simp [AList.lookup_insert_ne same, same]

end Defaults

/-! ## Entries that are handled independently -/

section Independent

variable {α : Type u} {β γ σ ε : Type*} (view : σ → α → γ) {entries : List (Σ _ : α, β)}

/-- What holds behind a loop whose rounds touch nothing but their own key, if every round adds a condition
    on its entry -/
theorem foldl_holds_iff {step : σ → (Σ _ : α, β) → σ} (ready : (Σ _ : α, β) → γ → Prop) (P : σ → Prop)
    {ok : (Σ _ : α, β) → Prop} (elsewhere : ∀ s entry key, key ≠ entry.1 → view (step s entry) key = view s key)
    (adds : ∀ s entry, ready entry (view s entry.1) → (P (step s entry) ↔ P s ∧ ok entry))
    (distinct : entries.NodupKeys) {s : σ} (start : ∀ entry ∈ entries, ready entry (view s entry.1)) :
    P (entries.foldl step s) ↔ P s ∧ ∀ entry ∈ entries, ok entry := by
  induction entries generalizing s with
  | nil => simp
  | cons first entries ih =>
    obtain ⟨new, distinct⟩ := List.nodupKeys_cons.mp distinct
    have still : ∀ entry ∈ entries, ready entry (view (step s first) entry.1) := by
      intro entry member
      have different : entry.1 ≠ first.1 := by
        intro same
        exact new (same ▸ List.mem_keys_of_mem member)
      rw [elsewhere s first entry.1 different]
      exact start entry (List.mem_cons_of_mem first member)
    rw [List.foldl_cons, ih distinct still, adds s first (start first List.mem_cons_self), List.forall_mem_cons,
      and_assoc]

/-- The same for a loop whose body may raise: it gets through if no round raises, and each key is related
    to what was there before. -/
theorem foldlM_view {step : σ → (Σ _ : α, β) → Except ε σ} (I : σ → Prop) (ready : (Σ _ : α, β) → γ → Prop)
    (made : (Σ _ : α, β) → γ → γ → Prop)
    (each : ∀ s entry, I s → ready entry (view s entry.1) → ∃ s', step s entry = .ok s' ∧ I s' ∧
      (∀ key, key ≠ entry.1 → view s' key = view s key) ∧ made entry (view s entry.1) (view s' entry.1))
    (distinct : entries.NodupKeys) {s : σ} (holds : I s) (start : ∀ entry ∈ entries, ready entry (view s entry.1)) :
    ∃ s', entries.foldlM step s = .ok s' ∧ I s' ∧
      (∀ entry ∈ entries, made entry (view s entry.1) (view s' entry.1)) ∧
      ∀ key, key ∉ entries.keys → view s' key = view s key := by
  induction entries generalizing s with
  | nil => exact ⟨s, rfl, holds, by simp, fun _ _ => rfl⟩
  | cons first entries ih =>
    obtain ⟨new, distinct⟩ := List.nodupKeys_cons.mp distinct
    obtain ⟨middle, stepped, still, elsewhere, madeFirst⟩ := each s first holds (start first List.mem_cons_self)
    have different : ∀ entry ∈ entries, entry.1 ≠ first.1 := by
      intro entry member same
      exact new (same ▸ List.mem_keys_of_mem member)
    have ready : ∀ entry ∈ entries, ready entry (view middle entry.1) := by
      intro entry member
      rw [elsewhere entry.1 (different entry member)]
      exact start entry (List.mem_cons_of_mem first member)
    obtain ⟨last, looped, stillLast, madeRest, untouched⟩ := ih distinct still ready
    refine ⟨last, ?_, stillLast, ?_, ?_⟩
    · rw [List.foldlM_cons, stepped]
      exact looped
    · intro entry member
      cases List.mem_cons.mp member with
      | inl isFirst =>
        subst isFirst
        rw [untouched entry.1 new]
        exact madeFirst
      | inr later =>
        rw [← elsewhere entry.1 (different entry later)]
        exact madeRest entry later
    · intro key absent
      rw [List.keys_cons, List.mem_cons, not_or] at absent
      rw [untouched key absent.2, elsewhere key absent.1]

/-- Such a loop handles each entry as if it were alone. -/
theorem foldl_view [DecidableEq α] {step : σ → (Σ _ : α, β) → σ} {value : (Σ _ : α, β) → γ → γ}
    (each : ∀ s entry, view (step s entry) = Function.update (view s) entry.1 (value entry (view s entry.1)))
    (distinct : entries.NodupKeys) (s : σ) (key : α) :
    view (entries.foldl step s) key =
      ((List.dlookup key entries).map fun found => value ⟨key, found⟩ (view s key)).getD (view s key) := by
  induction entries generalizing s with
  | nil => rfl
  | cons first entries ih =>
    obtain ⟨new, distinct⟩ := List.nodupKeys_cons.mp distinct
    rw [List.foldl_cons, ih distinct, each]
    by_cases same : key = first.1
    · subst same
      rw [List.dlookup_eq_none.mpr new, List.dlookup_cons_eq]
      simp
    · rw [Function.update_of_ne same, List.dlookup_cons_ne entries first same]

end Independent

section Loops

variable {α σ ε : Type u} {β γ : Type u}

/-- The sum of a weight over the values of a dictionary -/
def total {M : Type*} [AddCommMonoid M] (weight : β → M) (dict : AList fun _ : α => β) : M :=
  (dict.entries.map fun entry => weight entry.2).sum

theorem total_insert [DecidableEq α] {M : Type*} [AddCommMonoid M] (weight : β → M) {dict : AList fun _ : α => β} {key : α}
    (absent : key ∉ dict) (value : β) : total weight (dict.insert key value) = weight value + total weight dict := by
  rw [total, AList.entries_insert_of_notMem absent, List.map_cons, List.sum_cons, ← total]

/-- A loop that adds the weight of each value -/
theorem foldlM_total {M : Type*} [AddCommMonoid M] [DecidableEq α] {weight : β → M} {dict : AList fun _ : α => β}
    {add : M → β → Except ε M}
    (adds : ∀ sum key value, dict.lookup key = some value → add sum value = .ok (sum + weight value)) (start : M) :
    dict.entries.foldlM (fun sum entry => add sum entry.2) start = .ok (start + total weight dict) := by
  have entrywise : ∀ entries : List (Σ _ : α, β), (∀ entry ∈ entries, entry ∈ dict.entries) → ∀ start,
      entries.foldlM (fun sum entry => add sum entry.2) start =
        .ok (start + (entries.map fun entry => weight entry.2).sum) := by
    intro entries
    induction entries with
    | nil =>
      intro _ start
      rw [List.map_nil, List.sum_nil, add_zero]
      rfl
    | cons entry entries ih =>
      intro members start
      have here : dict.lookup entry.1 = some entry.2 :=
        AList.mem_lookup_iff.mpr (members entry List.mem_cons_self)
      rw [List.foldlM_cons, adds start _ _ here, List.map_cons, List.sum_cons, ← add_assoc]
      exact ih (fun later member => members later (List.mem_cons_of_mem entry member)) _
  exact entrywise dict.entries (fun _ member => member) start

/-! ## Every value in turn -/

/-- `for key in dict: dict[key] = f(dict[key])` -/
def mapValues (f : β → γ) (dict : AList fun _ : α => β) : AList fun _ : α => γ where
  entries := dict.entries.map fun entry => ⟨entry.1, f entry.2⟩
  nodupKeys := by
    have keys : (dict.entries.map fun entry => (⟨entry.1, f entry.2⟩ : Σ _ : α, γ)).keys = dict.entries.keys := by
      simp [List.keys, Function.comp_def]
    rw [List.NodupKeys, keys]
    exact dict.nodupKeys

theorem lookup_mapValues [DecidableEq α] (f : β → γ) (dict : AList fun _ : α => β) (key : α) :
    (mapValues f dict).lookup key = (dict.lookup key).map f :=
  List.dlookup_map₂ (f := fun _ => f) key

@[simp] theorem keys_mapValues (f : β → γ) (dict : AList fun _ : α => β) : (mapValues f dict).keys = dict.keys := by
  simp [mapValues, AList.keys, List.keys, Function.comp_def]

/-- A loop over the entries that passes a state on and may raise -/
def traverseEntries (f : σ → α → β → Except ε (γ × σ)) :
    List (Σ _ : α, β) → σ → Except ε (List (Σ _ : α, γ) × σ)
  | [], s => .ok ([], s)
  | entry :: entries, s => do
    let (value, s) ← f s entry.1 entry.2
    let (values, s) ← traverseEntries f entries s
    .ok (⟨entry.1, value⟩ :: values, s)

/-- One round of the loop, taken apart -/
theorem traverseEntries_cons_eq_ok {f : σ → α → β → Except ε (γ × σ)} {entry : Σ _ : α, β} {entries : List (Σ _ : α, β)}
    {entries' : List (Σ _ : α, γ)} {s s' : σ} :
    traverseEntries f (entry :: entries) s = .ok (entries', s') ↔ ∃ value middle values,
      f s entry.1 entry.2 = .ok (value, middle) ∧ traverseEntries f entries middle = .ok (values, s') ∧
        entries' = ⟨entry.1, value⟩ :: values := by
  simp only [traverseEntries, bind_eq_ok]
  constructor
  · intro ⟨⟨value, middle⟩, made, ⟨values, last⟩, rest, returned⟩
    cases returned
    exact ⟨value, middle, values, made, rest, rfl⟩
  · intro ⟨value, middle, values, made, rest, same⟩
    exact ⟨(value, middle), made, (values, s'), rest, same ▸ rfl⟩

/-- Entry by entry, what a value is made from -/
theorem forall₂_of_traverseEntries {f : σ → α → β → Except ε (γ × σ)} {entries : List (Σ _ : α, β)}
    {entries' : List (Σ _ : α, γ)} {s s' : σ} (returned : traverseEntries f entries s = .ok (entries', s')) :
    List.Forall₂ (fun entry entry' => entry'.1 = entry.1 ∧
      ∃ before after, f before entry.1 entry.2 = .ok (entry'.2, after)) entries entries' := by
  induction entries generalizing s entries' with
  | nil =>
    cases returned
    exact .nil
  | cons entry entries ih =>
    obtain ⟨value, middle, values, made, rest, rfl⟩ := traverseEntries_cons_eq_ok.mp returned
    exact .cons ⟨rfl, s, middle, made⟩ (ih rest)

theorem traverseEntries_keys {f : σ → α → β → Except ε (γ × σ)} {entries : List (Σ _ : α, β)}
    {entries' : List (Σ _ : α, γ)} {s s' : σ} (returned : traverseEntries f entries s = .ok (entries', s')) :
    entries'.keys = entries.keys := by
  have pairs := forall₂_of_traverseEntries returned
  clear returned
  induction pairs with
  | nil => rfl
  | cons made _ ih => rw [List.keys_cons, List.keys_cons, made.1, ih]

/-- `for key, value in dict.items(): dict[key] = f(key, value)`, with a state that is passed on -/
def traverse (f : σ → α → β → Except ε (γ × σ)) (dict : AList fun _ : α => β) (s : σ) :
    Except ε ((AList fun _ : α => γ) × σ) :=
  match returned : traverseEntries f dict.entries s with
  | .error e => .error e
  | .ok (entries, s) => .ok (⟨entries, by
      rw [List.NodupKeys, traverseEntries_keys returned]
      exact dict.nodupKeys⟩, s)

section Traverse

variable {f : σ → α → β → Except ε (γ × σ)} {dict : AList fun _ : α => β} {dict' : AList fun _ : α => γ} {s s' : σ}

theorem traverse_eq_ok :
    traverse f dict s = .ok (dict', s') ↔ traverseEntries f dict.entries s = .ok (dict'.entries, s') := by
  rw [traverse]
  split
  case h_1 e raised => simp [raised]
  case h_2 entries last returned =>
    simp only [returned, Except.ok.injEq, Prod.mk.injEq]
    refine and_congr_left fun _ => ?_
    exact ⟨fun same => same ▸ rfl, fun same => AList.ext same⟩

theorem traverse_keys (returned : traverse f dict s = .ok (dict', s')) : dict'.keys = dict.keys :=
  traverseEntries_keys (traverse_eq_ok.mp returned)

/-- A weight that every round carries over is carried over as a sum. -/
theorem traverse_total {M : Type*} [AddCommMonoid M] {weight : β → M} {weight' : γ → M}
    (returned : traverse f dict s = .ok (dict', s'))
    (carried : ∀ before key value value' after, f before key value = .ok (value', after) →
      weight' value' = weight value) :
    total weight' dict' = total weight dict := by
  have pairs := forall₂_of_traverseEntries (traverse_eq_ok.mp returned)
  rw [total, total]
  generalize dict.entries = entries at pairs
  generalize dict'.entries = entries' at pairs
  induction pairs with
  | nil => rfl
  | cons made _ ih =>
    obtain ⟨_, before, after, made⟩ := made
    rw [List.map_cons, List.map_cons, List.sum_cons, List.sum_cons, carried _ _ _ _ _ made, ih]

/-- What every round takes from the state, it puts into its value. -/
theorem traverse_account {M : Type*} [AddCommMonoid M] {weight : γ → M} (left : σ → M)
    (returned : traverse f dict s = .ok (dict', s'))
    (takes : ∀ before key value value' after, f before key value = .ok (value', after) →
      weight value' + left after = left before) :
    total weight dict' + left s' = left s := by
  have entrywise : ∀ (entries : List (Σ _ : α, β)) entries' s s', traverseEntries f entries s = .ok (entries', s') →
      (entries'.map fun entry => weight entry.2).sum + left s' = left s := by
    intro entries
    induction entries with
    | nil =>
      intro entries' s s' returned
      cases returned
      simp
    | cons entry entries ih =>
      intro entries' s s' returned
      obtain ⟨value, middle, values, made, rest, rfl⟩ := traverseEntries_cons_eq_ok.mp returned
      rw [List.map_cons, List.sum_cons, add_assoc, ih values middle s' rest]
      exact takes s _ _ value middle made
  exact entrywise _ _ _ _ (traverse_eq_ok.mp returned)

/-- A state that changes in the same way in every round, as often as the value says -/
theorem traverse_state {change : σ → σ} {rounds : β → ℕ} (returned : traverse f dict s = .ok (dict', s'))
    (changes : ∀ before key value value' after, f before key value = .ok (value', after) →
      after = change^[rounds value] before) :
    s' = change^[total rounds dict] s := by
  have entrywise : ∀ (entries : List (Σ _ : α, β)) entries' s s', traverseEntries f entries s = .ok (entries', s') →
      s' = change^[(entries.map fun entry => rounds entry.2).sum] s := by
    intro entries
    induction entries with
    | nil =>
      intro entries' s s' returned
      cases returned
      rfl
    | cons entry entries ih =>
      intro entries' s s' returned
      obtain ⟨value, middle, values, made, rest, rfl⟩ := traverseEntries_cons_eq_ok.mp returned
      rw [ih values middle s' rest, changes s _ _ value middle made, List.map_cons, List.sum_cons, add_comm,
        Function.iterate_add_apply]
  exact entrywise _ _ _ _ (traverse_eq_ok.mp returned)

theorem mem_traverse (returned : traverse f dict s = .ok (dict', s')) {key : α} : key ∈ dict' ↔ key ∈ dict := by
  rw [AList.mem_keys, traverse_keys returned, ← AList.mem_keys]

variable [DecidableEq α]

/-- The loop finds every key again, with a value that is made from the one before. -/
theorem traverse_lookup (returned : traverse f dict s = .ok (dict', s')) (key : α) :
    Option.Rel (fun value value' => ∃ before after, f before key value = .ok (value', after))
      (dict.lookup key) (dict'.lookup key) := by
  have pairs := forall₂_of_traverseEntries (traverse_eq_ok.mp returned)
  rw [AList.lookup, AList.lookup]
  generalize dict.entries = entries at pairs
  generalize dict'.entries = entries' at pairs
  induction pairs with
  | nil => exact .none
  | @cons entry entry' _ _ made _ ih =>
    obtain ⟨name, value⟩ := entry
    obtain ⟨name', value'⟩ := entry'
    obtain ⟨sameName, before, after, made⟩ := made
    cases sameName
    by_cases same : key = name
    · subst same
      rw [List.dlookup_cons_eq, List.dlookup_cons_eq]
      exact .some ⟨before, after, made⟩
    · rw [List.dlookup_cons_ne _ _ same, List.dlookup_cons_ne _ _ same]
      exact ih

/-- A loop that returns on each of its entries, in whatever state, returns. -/
theorem traverse_returns
    (returns : ∀ s key value, dict.lookup key = some value → ∃ value' s', f s key value = .ok (value', s')) (s : σ) :
    ∃ dict' s', traverse f dict s = .ok (dict', s') := by
  have entrywise : ∀ entries : List (Σ _ : α, β), (∀ entry ∈ entries, entry ∈ dict.entries) → ∀ s,
      ∃ entries' s', traverseEntries f entries s = .ok (entries', s') := by
    intro entries
    induction entries with
    | nil => exact fun _ s => ⟨[], s, rfl⟩
    | cons entry entries ih =>
      intro members s
      have here : dict.lookup entry.1 = some entry.2 :=
        AList.mem_lookup_iff.mpr (members entry List.mem_cons_self)
      obtain ⟨value, middle, made⟩ := returns s entry.1 entry.2 here
      obtain ⟨values, last, rest⟩ := ih (fun later member => members later (List.mem_cons_of_mem entry member)) middle
      exact ⟨_, last, traverseEntries_cons_eq_ok.mpr ⟨value, middle, values, made, rest, rfl⟩⟩
  obtain ⟨entries', last, returned⟩ := entrywise dict.entries (fun _ member => member) s
  have nodupKeys : entries'.NodupKeys := by
    rw [List.NodupKeys, traverseEntries_keys returned]
    exact dict.nodupKeys
  exact ⟨⟨entries', nodupKeys⟩, last, traverse_eq_ok.mpr returned⟩

/-- A loop that changes nothing -/
theorem traverse_unchanged {f : σ → α → β → Except ε (β × σ)}
    (unchanged : ∀ s key value, dict.lookup key = some value → f s key value = .ok (value, s)) (s : σ) :
    traverse f dict s = .ok (dict, s) := by
  have entrywise : ∀ entries : List (Σ _ : α, β), (∀ entry ∈ entries, entry ∈ dict.entries) →
      traverseEntries f entries s = .ok (entries, s) := by
    intro entries
    induction entries with
    | nil => exact fun _ => rfl
    | cons entry entries ih =>
      intro members
      have here : dict.lookup entry.1 = some entry.2 :=
        AList.mem_lookup_iff.mpr (members entry List.mem_cons_self)
      have rest := ih fun later member => members later (List.mem_cons_of_mem entry member)
      exact traverseEntries_cons_eq_ok.mpr ⟨entry.2, s, entries, unchanged s _ _ here, rest, rfl⟩
  exact traverse_eq_ok.mpr (entrywise dict.entries fun _ member => member)

end Traverse

/-! ## New entries -/

/-- `while len(dict) < required: dict[fresh name] = make(name)`, for the number of entries that are missing -/
def fillUp [DecidableEq α] (next : List α → σ → α × σ) (make : α → σ → Except ε (β × σ)) :
    ℕ → (AList fun _ : α => β) → σ → Except ε ((AList fun _ : α => β) × σ)
  | 0, dict, s => .ok (dict, s)
  | missing + 1, dict, s => do
    let (key, s) := next dict.keys s
    let (value, s) ← make key s
    fillUp next make missing (dict.insert key value) s

section FillUp

variable [DecidableEq α] {next : List α → σ → α × σ} {make : α → σ → Except ε (β × σ)} {missing : ℕ}
  {dict dict' : AList fun _ : α => β} {s s' : σ}

/-- One round of the loop, taken apart -/
theorem fillUp_succ_eq_ok (fresh : ∀ used s, (next used s).1 ∉ used) :
    fillUp next make (missing + 1) dict s = .ok (dict', s') → ∃ key value before after,
      key ∉ dict ∧ make key before = .ok (value, after) ∧
        fillUp next make missing (dict.insert key value) after = .ok (dict', s') := by
  intro returned
  rw [fillUp, bind_eq_ok] at returned
  obtain ⟨⟨value, after⟩, made, returned⟩ := returned
  exact ⟨_, value, _, after, fun member => fresh dict.keys s (AList.mem_keys.mp member), made, returned⟩

theorem fillUp_length (fresh : ∀ used s, (next used s).1 ∉ used)
    (returned : fillUp next make missing dict s = .ok (dict', s')) :
    dict'.keys.length = dict.keys.length + missing := by
  induction missing generalizing dict s with
  | zero =>
    cases returned
    rfl
  | succ missing ih =>
    obtain ⟨key, value, _, after, absent, _, rest⟩ := fillUp_succ_eq_ok fresh returned
    rw [ih rest, AList.keys_insert, List.length_cons, List.erase_of_not_mem fun member => absent (AList.mem_keys.mpr member)]
    omega

/-- An entry is one that was there, or it has been made under a name that was not. -/
theorem fillUp_lookup (fresh : ∀ used s, (next used s).1 ∉ used)
    (returned : fillUp next make missing dict s = .ok (dict', s')) (key : α) :
    dict'.lookup key = dict.lookup key ∨ dict.lookup key = none ∧
      ∃ value before after, dict'.lookup key = some value ∧ make key before = .ok (value, after) := by
  induction missing generalizing dict s with
  | zero =>
    cases returned
    exact .inl rfl
  | succ missing ih =>
    obtain ⟨name, value, before, after, absent, made, rest⟩ := fillUp_succ_eq_ok fresh returned
    by_cases same : key = name
    · subst same
      cases ih rest with
      | inl kept =>
        rw [AList.lookup_insert] at kept
        exact .inr ⟨AList.lookup_eq_none.mpr absent, value, before, after, kept, made⟩
      | inr impossible =>
        rw [AList.lookup_insert] at impossible
        exact absurd impossible.1 (Option.some_ne_none value)
    · have elsewhere : (dict.insert name value).lookup key = dict.lookup key := AList.lookup_insert_ne same
      rw [← elsewhere]
      exact ih rest

theorem mem_fillUp (fresh : ∀ used s, (next used s).1 ∉ used)
    (returned : fillUp next make missing dict s = .ok (dict', s')) {key : α} (present : key ∈ dict) : key ∈ dict' := by
  rw [← AList.lookup_isSome] at present ⊢
  cases fillUp_lookup fresh returned key with
  | inl kept => rwa [kept]
  | inr added =>
    rw [added.1] at present
    cases present

theorem fillUp_returns (next : List α → σ → α × σ) (returns : ∀ key s, ∃ value s', make key s = .ok (value, s'))
    (missing : ℕ) (dict : AList fun _ : α => β) (s : σ) : ∃ dict' s', fillUp next make missing dict s = .ok (dict', s') := by
  induction missing generalizing dict s with
  | zero => exact ⟨dict, s, rfl⟩
  | succ missing ih =>
    obtain ⟨value, after, made⟩ := returns (next dict.keys s).1 (next dict.keys s).2
    obtain ⟨dict', last, rest⟩ := ih (dict.insert (next dict.keys s).1 value) after
    refine ⟨dict', last, ?_⟩
    change (make (next dict.keys s).1 (next dict.keys s).2 >>= _) = _
    rw [made]
    exact rest

/-- New entries of one weight -/
theorem fillUp_total {M : Type*} [AddCommMonoid M] {weight : β → M} {each : M}
    (fresh : ∀ used s, (next used s).1 ∉ used) (returned : fillUp next make missing dict s = .ok (dict', s'))
    (weighs : ∀ key before value after, make key before = .ok (value, after) → weight value = each) :
    total weight dict' = total weight dict + missing • each := by
  induction missing generalizing dict s with
  | zero =>
    cases returned
    simp
  | succ missing ih =>
    obtain ⟨key, value, before, after, absent, made, rest⟩ := fillUp_succ_eq_ok fresh returned
    rw [ih rest, total_insert weight absent, weighs key before value after made, succ_nsmul]
    abel

end FillUp

end Loops

end Taf.Lib
