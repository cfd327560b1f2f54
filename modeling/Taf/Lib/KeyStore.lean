import Mathlib
import Taf.Lib.Run

/-! # Key sets under concurrent writers

A store seen through its key set, and the actions of clients on single keys.  The
final key set of a list of actions does not depend on their order as soon as no key
is both inserted and erased (`run_actions`, `run_actions_perm`).  Numbered
documents are addressed by windows: `windowKeys` is the set of keys of the indices
in a half-open interval. -/

namespace Taf.Lib

inductive Effect where
  | insert | erase | keep
  deriving DecidableEq, Repr

section
variable {κ : Type*} [DecidableEq κ]

def applyAction (store : Finset κ) (action : Effect × κ) : Finset κ :=
  match action.1 with
  | .insert => insert action.2 store
  | .erase => store.erase action.2
  | .keep => store

theorem mem_applyAction_of_ne {store : Finset κ} {effect : Effect} {key other : κ}
    (different : other ≠ key) : other ∈ applyAction store (effect, key) ↔ other ∈ store := by
  cases effect <;> simp [applyAction, different]

/-- The keys on which some action of the list has the given effect. -/
def touched (effect : Effect) (actions : List (Effect × κ)) : Finset κ :=
  ((actions.filter fun action => action.1 = effect).map Prod.snd).toFinset

theorem mem_touched {effect : Effect} {actions : List (Effect × κ)} {key : κ} :
    key ∈ touched effect actions ↔ (effect, key) ∈ actions := by
  simp only [touched, List.mem_toFinset, List.mem_map, List.mem_filter, decide_eq_true_eq]
  constructor
  · rintro ⟨⟨_, _⟩, ⟨member, rfl⟩, rfl⟩
    exact member
  · intro member
    exact ⟨(effect, key), ⟨member, rfl⟩, rfl⟩

theorem run_actions {actions : List (Effect × κ)} (store : Finset κ)
    (apart : Disjoint (touched .erase actions) (touched .insert actions)) :
    run applyAction store actions = (store \ touched .erase actions) ∪ touched .insert actions := by
  induction actions generalizing store with
  | nil => simp [touched]
  | cons action actions ih =>
    obtain ⟨effect, key⟩ := action
    simp only [Finset.disjoint_left, mem_touched, List.mem_cons] at apart
    have apartRest : Disjoint (touched .erase actions) (touched .insert actions) := by
      simp only [Finset.disjoint_left, mem_touched]
      intro other erased inserted
      exact apart (.inr erased) (.inr inserted)
    rw [run_cons, ih _ apartRest]
    ext other
    simp only [Finset.mem_union, Finset.mem_sdiff, mem_touched, List.mem_cons, Prod.mk.injEq]
    cases effect with
    | insert =>
      -- The only place where `apart` is needed: a later erase would undo the insert.
      have notErased : ¬ (Effect.erase, key) ∈ actions := fun erased =>
        apart (.inr erased) (.inl rfl)
      simp only [applyAction, Finset.mem_insert]
      by_cases same : other = key
      · subst other; simp [notErased]
      · simp [same]
    | erase =>
      simp only [applyAction, Finset.mem_erase]
      by_cases same : other = key
      · subst other; simp
      · simp [same]
    | keep => simp [applyAction]

/-- Clients that insert and erase different keys may be interleaved in any order. -/
theorem run_actions_perm {actions actions' : List (Effect × κ)} (store : Finset κ)
    (apart : Disjoint (touched .erase actions) (touched .insert actions))
    (reordered : actions.Perm actions') :
    run applyAction store actions' = run applyAction store actions := by
  have same : ∀ effect, touched effect actions' = touched effect actions := by
    intro effect
    ext key
    rw [mem_touched, mem_touched, reordered.mem_iff]
  rw [run_actions store apart, run_actions store (by rwa [same, same]), same, same]

/-! ## One effect on many keys -/

def onKeys (effect : Effect) (keys : List κ) : List (Effect × κ) :=
  keys.map fun key => (effect, key)

theorem mem_touched_onKeys {effect effect' : Effect} {keys : List κ} {key : κ} :
    key ∈ touched effect (onKeys effect' keys) ↔ effect = effect' ∧ key ∈ keys := by
  rw [mem_touched, onKeys, List.mem_map]
  constructor
  · rintro ⟨key', member, same⟩
    obtain ⟨rfl, rfl⟩ := Prod.mk.inj same
    exact ⟨rfl, member⟩
  · rintro ⟨rfl, member⟩
    exact ⟨key, member, rfl⟩

theorem run_onKeys (effect : Effect) (keys : List κ) (store : Finset κ) :
    run applyAction store (onKeys effect keys) =
      match effect with
      | .insert => store ∪ keys.toFinset
      | .erase => store \ keys.toFinset
      | .keep => store := by
  have apart : Disjoint (touched .erase (onKeys effect keys)) (touched .insert (onKeys effect keys)) := by
    rw [Finset.disjoint_left]
    intro key erased inserted
    rw [mem_touched_onKeys] at erased inserted
    exact absurd (erased.1.trans inserted.1.symm) (by decide)
  rw [run_actions store apart]
  ext key
  cases effect <;> simp [mem_touched_onKeys]

end

/-! ## Windows of numbered keys -/

section
variable {κ : Type*} [DecidableEq κ] (key : Int → κ)

noncomputable def windowKeys (low high : Int) : Finset κ :=
  (Finset.Ico low high).image key

theorem mem_windowKeys {low high : Int} {k : κ} :
    k ∈ windowKeys key low high ↔ ∃ index, low ≤ index ∧ index < high ∧ key index = k := by
  simp [windowKeys, and_assoc]

/-- Numbered from 0 on, different indices have different keys. -/
def KeysDistinct : Prop := ∀ i j, 0 ≤ i → 0 ≤ j → key i = key j → i = j

variable {key}

theorem KeysDistinct.mem_windowKeys_iff (distinct : KeysDistinct key) {low high index : Int}
    (lowNonneg : 0 ≤ low) (nonneg : 0 ≤ index) :
    key index ∈ windowKeys key low high ↔ low ≤ index ∧ index < high := by
  rw [mem_windowKeys]
  constructor
  · rintro ⟨other, atLeast, below, same⟩
    obtain rfl := distinct other index (lowNonneg.trans atLeast) nonneg same
    exact ⟨atLeast, below⟩
  · rintro ⟨atLeast, below⟩
    exact ⟨index, atLeast, below, rfl⟩

theorem KeysDistinct.card_windowKeys (distinct : KeysDistinct key) {low high : Int}
    (lowNonneg : 0 ≤ low) (ordered : low ≤ high) :
    ((windowKeys key low high).card : Int) = high - low := by
  have injective : Set.InjOn key (Finset.Ico low high) := by
    intro i iMember j jMember same
    rw [Finset.mem_coe, Finset.mem_Ico] at iMember jMember
    exact distinct i j (by omega) (by omega) same
  rw [windowKeys, Finset.card_image_of_injOn injective, Int.card_Ico]
  omega

theorem windowKeys_union {low middle high : Int} (below : low ≤ middle) (above : middle ≤ high) :
    windowKeys key low middle ∪ windowKeys key middle high = windowKeys key low high := by
  rw [windowKeys, windowKeys, windowKeys, ← Finset.image_union,
    Finset.Ico_union_Ico_eq_Ico below above]

theorem KeysDistinct.windowKeys_sdiff (distinct : KeysDistinct key) {low middle high : Int}
    (lowNonneg : 0 ≤ low) (below : low ≤ middle) :
    windowKeys key low high \ windowKeys key low middle = windowKeys key middle high := by
  ext k
  rw [Finset.mem_sdiff]
  constructor
  · rintro ⟨inWindow, notFirst⟩
    obtain ⟨index, atLeast, isBelow, rfl⟩ := (mem_windowKeys key).mp inWindow
    rw [distinct.mem_windowKeys_iff lowNonneg (by omega)] at notFirst
    exact (mem_windowKeys key).mpr ⟨index, by omega, isBelow, rfl⟩
  · intro inRest
    obtain ⟨index, atLeast, isBelow, rfl⟩ := (mem_windowKeys key).mp inRest
    refine ⟨(mem_windowKeys key).mpr ⟨index, by omega, isBelow, rfl⟩, fun inFirst => ?_⟩
    rw [distinct.mem_windowKeys_iff lowNonneg (by omega)] at inFirst
    omega

theorem KeysDistinct.disjoint_windowKeys (distinct : KeysDistinct key) {low high low' high' : Int}
    (lowNonneg : 0 ≤ low) (ordered : high ≤ low') (low'Nonneg : 0 ≤ low') :
    Disjoint (windowKeys key low high) (windowKeys key low' high') := by
  rw [Finset.disjoint_left]
  intro k inFirst inSecond
  obtain ⟨index, atLeast, isBelow, rfl⟩ := (mem_windowKeys key).mp inFirst
  rw [distinct.mem_windowKeys_iff low'Nonneg (by omega)] at inSecond
  omega

theorem windowKeys_subset {low high low' high' : Int} (inside : low' ≤ low ∧ high ≤ high') :
    windowKeys key low high ⊆ windowKeys key low' high' := by
  intro k member
  rw [mem_windowKeys] at member ⊢
  obtain ⟨index, atLeast, isBelow, rfl⟩ := member
  exact ⟨index, by omega, by omega, rfl⟩

end

end Taf.Lib
