import Mathlib
import Taf.Lib.Dict

/-! # Random draws

`random.sample(population, k)` answers any `k` members of a population and raises where there are
fewer.  A request asks for a number of members or for all of them; it is met with the whole of what
is there, where the number reaches a total, and with a sample of the rest otherwise. -/

namespace Taf.Lib

/-- What the random functions and the sets of one call answer -/
structure Chance (α : Type*) where
  sample : List α → ℕ → List α
  isSample : ∀ population k, k ≤ population.length →
    (sample population k).Subperm population ∧ (sample population k).length = k
  sets : KeyOrder α

/-- A number, or `"all"` -/
inductive Wanted where
  | all
  | num (k : ℕ)

/-- How many of so many are meant -/
def Wanted.limit (available : ℕ) : Wanted → ℕ
  | .all => available
  | .num k => min k available

variable {α : Type*} [DecidableEq α]

/-- `list(set(members))` -/
def Chance.listOfSet (chance : Chance α) (members : List α) : List α :=
  chance.sets.order members.dedup

/-- `random.sample`; `none` is the `ValueError` for a sample that is larger than the population. -/
def Chance.drawn (chance : Chance α) (population : List α) (k : ℕ) : Option (List α) :=
  if k ≤ population.length then some (chance.sample population k) else none

/-- Everything, where the number reaches the total; a sample otherwise -/
def Wanted.take (wanted : Wanted) (chance : Chance α) (total : ℕ) (whole population : List α) :
    Option (List α) :=
  match wanted with
  | .all => some whole
  | .num k => if total ≤ k then some whole else chance.drawn population k

/-- The number reaches the total or does not exceed what is left. -/
def Wanted.Fits (total left : ℕ) : Wanted → Prop
  | .all => True
  | .num k => total ≤ k ∨ k ≤ left

variable {chance : Chance α} {members : List α} {wanted : Wanted} {total : ℕ}

theorem fits_self : wanted.Fits total total := by
  cases wanted with
  | all => trivial
  | num k => exact le_total _ _

theorem perm_listOfSet (nodup : members.Nodup) : (chance.listOfSet members).Perm members := by
  rw [Chance.listOfSet, List.dedup_eq_self.mpr nodup]
  exact chance.sets.perm members

theorem drawn_of_le {k : ℕ} (nodup : members.Nodup) (few : k ≤ members.length) : ∃ chosen,
    chance.drawn (chance.listOfSet members) k = some chosen ∧ chosen.Nodup ∧ chosen ⊆ members ∧
      chosen.length = k := by
  have left := @perm_listOfSet _ _ chance _ nodup
  have enough : k ≤ (chance.listOfSet members).length := left.length_eq ▸ few
  obtain ⟨sub, length⟩ := chance.isSample (chance.listOfSet members) k enough
  refine ⟨_, if_pos enough, ?_, fun item member => left.subset (sub.subset member), length⟩
  obtain ⟨same, perm, sublist⟩ := sub
  exact perm.nodup_iff.mp (sublist.nodup (left.nodup_iff.mpr nodup))

/-- A draw from what is left of a total -/
theorem take_of_fits {whole : List α} (nodup : members.Nodup) (smaller : members.length ≤ total)
    (same : whole.Perm members) (fits : wanted.Fits total members.length) : ∃ chosen,
      wanted.take chance total whole (chance.listOfSet members) = some chosen ∧
        chosen.Nodup ∧ chosen ⊆ members ∧ chosen.length = wanted.limit members.length := by
  cases wanted with
  | all => exact ⟨_, rfl, same.nodup_iff.mpr nodup, same.subset, same.length_eq⟩
  | num k =>
    by_cases enough : total ≤ k
    · refine ⟨_, if_pos enough, same.nodup_iff.mpr nodup, same.subset, ?_⟩
      rw [Wanted.limit, min_eq_right (smaller.trans enough)]
      exact same.length_eq
    · have few : k ≤ members.length := fits.resolve_left enough
      obtain ⟨chosen, drawn, unique, inside, size⟩ := @drawn_of_le _ _ chance _ k nodup few
      refine ⟨chosen, ?_, unique, inside, ?_⟩
      · rw [Wanted.take, if_neg enough, drawn]
      · rw [size, Wanted.limit, min_eq_left few]

theorem take_of_not_fits {whole : List α} (nodup : members.Nodup)
    (unfit : ¬ wanted.Fits total members.length) :
    wanted.take chance total whole (chance.listOfSet members) = none := by
  cases wanted with
  | all => exact absurd trivial unfit
  | num k =>
    have unfit := not_or.mp unfit
    rw [Wanted.take, if_neg unfit.1, Chance.drawn, if_neg]
    rw [(perm_listOfSet nodup).length_eq]
    exact unfit.2

/-- Any members may be the answer. -/
theorem exists_take {chosen : List α} (nodup : members.Nodup) (unique : chosen.Nodup)
    (inside : chosen ⊆ members) (size : chosen.length = wanted.limit members.length) :
    ∃ chance : Chance α, chance.listOfSet members = members ∧ ∃ taken,
      wanted.take chance members.length members members = some taken ∧ taken.Perm chosen := by
  have sub : chosen.Subperm members := List.subperm_of_subset unique inside
  let chance : Chance α :=
    { sample := fun population k => if population = members ∧ k = chosen.length then chosen else
        population.take k
      isSample := by
        intro population k few
        split
        · rename_i both
          rw [both.1, both.2]
          exact ⟨sub, rfl⟩
        · exact ⟨(List.take_sublist k population).subperm, List.length_take_of_le few⟩
      sets := ⟨fun keys => keys, List.Perm.refl⟩ }
  have whole : members.length ≤ chosen.length → members.Perm chosen := fun full =>
    (sub.perm_of_length_le full).symm
  refine ⟨chance, List.dedup_eq_self.mpr nodup, ?_⟩
  cases wanted with
  | all => exact ⟨members, rfl, whole size.ge⟩
  | num k =>
    by_cases enough : members.length ≤ k
    · refine ⟨members, if_pos enough, whole ?_⟩
      rw [size, Wanted.limit, min_eq_right enough]
    · have number : k = chosen.length := by
        rw [size, Wanted.limit, min_eq_left (not_le.mp enough).le]
      refine ⟨chosen, ?_, List.Perm.refl chosen⟩
      rw [Wanted.take, if_neg enough, Chance.drawn, if_pos (not_le.mp enough).le]
      exact congrArg some (if_pos ⟨rfl, number⟩)

/-! ## Draws as sets -/

/-- A number of candidates, as requested -/
def Draws {α : Type*} (wanted : Wanted) (candidates drawn : Set α) : Prop :=
  drawn ⊆ candidates ∧ drawn.ncard = wanted.limit candidates.ncard

theorem ncard_list {α : Type*} {items : List α} (nodup : items.Nodup) :
    {item | item ∈ items}.ncard = items.length := by
  classical
  have same : {item | item ∈ items} = (items.toFinset : Set α) := by simp
  rw [same, Set.ncard_coe_finset, List.toFinset_card_of_nodup nodup]

theorem Draws.of_list {α : Type*} {wanted : Wanted} {members chosen : List α} (nodup : members.Nodup)
    (unique : chosen.Nodup) (inside : chosen ⊆ members) (size : chosen.length = wanted.limit members.length) :
    Draws wanted {item | item ∈ members} {item | item ∈ chosen} := by
  refine ⟨fun item member => inside member, ?_⟩
  rw [ncard_list nodup, ncard_list unique, size]

/-- A draw as a list -/
theorem Draws.exists_list {α : Type*} {wanted : Wanted} {members : List α} {drawn : Set α}
    (nodup : members.Nodup) (draws : Draws wanted {item | item ∈ members} drawn) :
    ∃ chosen : List α, chosen.Nodup ∧ chosen ⊆ members ∧ chosen.length = wanted.limit members.length ∧
      {item | item ∈ chosen} = drawn := by
  classical
  have same : {item | item ∈ members.filter (· ∈ drawn)} = drawn := by
    ext item
    simp only [List.mem_filter, decide_eq_true_eq, Set.mem_ofPred_eq]
    exact ⟨And.right, fun member => ⟨draws.1 member, member⟩⟩
  refine ⟨members.filter (· ∈ drawn), nodup.filter _, List.filter_subset_self members, ?_, same⟩
  rw [← ncard_list (nodup.filter _), same, draws.2, ncard_list nodup]

/-! ## Members with names -/

section Named

variable {β : Type*} {name : β → α} {items : List β} {excluded : List α} {out : Set β}

/-- Members that are named so that no other one has the name -/
def Told (name : β → α) (items : List β) : Prop :=
  ∀ item ∈ items, ∀ other, name other = name item → other = item

omit [DecidableEq α] in
theorem Told.nodup (told : Told name items) (nodup : items.Nodup) : (items.map name).Nodup := by
  apply List.Nodup.map_on _ nodup
  intro item _ other member same
  exact told other member item same

omit [DecidableEq α] in
theorem exists_map_eq {names : List α} (inside : names ⊆ items.map name) :
    ∃ chosen, chosen ⊆ items ∧ chosen.map name = names := by
  induction names with
  | nil => exact ⟨[], by simp, rfl⟩
  | cons first names ih =>
    obtain ⟨chosen, sub, rfl⟩ := ih fun other member => inside (List.mem_cons_of_mem _ member)
    obtain ⟨item, member, rfl⟩ := List.mem_map.mp (inside List.mem_cons_self)
    exact ⟨item :: chosen, List.cons_subset.mpr ⟨member, sub⟩, rfl⟩

open Classical in
theorem filter_map_name (mean : ∀ item ∈ items, name item ∈ excluded ↔ item ∈ out) :
    (items.map name).filter (· ∉ excluded) = (items.filter (· ∉ out)).map name := by
  rw [List.filter_map]
  congr 1
  apply List.filter_congr
  intro item member
  simp [mean item member]

theorem setOf_filter [DecidablePred (· ∉ out)] :
    {item | item ∈ items.filter (· ∉ out)} = {item | item ∈ items} \ out := by
  ext item
  simp

/-- A draw of names is a draw of their members. -/
theorem take_named (told : Told name items) (nodup : items.Nodup)
    (mean : ∀ item ∈ items, name item ∈ excluded ↔ item ∈ out)
    (fits : wanted.Fits {item | item ∈ items}.ncard ({item | item ∈ items} \ out).ncard) :
    ∃ chosen : List β, wanted.take chance (items.map name).length
        (chance.listOfSet ((items.map name).filter (· ∉ excluded)))
        (chance.listOfSet ((items.map name).filter (· ∉ excluded))) = some (chosen.map name) ∧
      Draws wanted ({item | item ∈ items} \ out) {item | item ∈ chosen} := by
  classical
  have toldLeft : Told name (items.filter (· ∉ out)) := fun item member =>
    told item (List.mem_of_mem_filter member)
  have leftNodup := toldLeft.nodup (nodup.filter _)
  rw [← setOf_filter, ncard_list nodup, ncard_list (nodup.filter _)] at fits
  rw [filter_map_name mean, List.length_map]
  have smaller : ((items.filter (· ∉ out)).map name).length ≤ items.length := by
    rw [List.length_map]
    exact List.length_filter_le _ _
  obtain ⟨names, taken, unique, inside, size⟩ := take_of_fits leftNodup smaller
    (@perm_listOfSet _ _ chance _ leftNodup) (by rwa [List.length_map])
  obtain ⟨chosen, sub, rfl⟩ := exists_map_eq inside
  refine ⟨chosen, taken, ?_⟩
  rw [← setOf_filter]
  rw [List.length_map, List.length_map] at size
  exact Draws.of_list (nodup.filter _) unique.of_map sub size

theorem take_named_of_not_fits (told : Told name items) (nodup : items.Nodup)
    (mean : ∀ item ∈ items, name item ∈ excluded ↔ item ∈ out)
    (unfit : ¬ wanted.Fits {item | item ∈ items}.ncard ({item | item ∈ items} \ out).ncard)
    {whole : List α} : wanted.take chance (items.map name).length whole
        (chance.listOfSet ((items.map name).filter (· ∉ excluded))) = none := by
  classical
  have toldLeft : Told name (items.filter (· ∉ out)) := fun item member =>
    told item (List.mem_of_mem_filter member)
  rw [← setOf_filter, ncard_list nodup, ncard_list (nodup.filter _)] at unfit
  rw [filter_map_name mean, List.length_map]
  apply take_of_not_fits (toldLeft.nodup (nodup.filter _))
  rwa [List.length_map]

/-- Any members may be drawn. -/
theorem exists_take_named {drawn : Set β} (told : Told name items) (nodup : items.Nodup)
    (draws : Draws wanted {item | item ∈ items} drawn) :
    ∃ (chance : Chance α) (chosen : List β), wanted.take chance (items.map name).length
        (chance.listOfSet (items.map name)) (chance.listOfSet (items.map name)) =
          some (chosen.map name) ∧ {item | item ∈ chosen} = drawn := by
  obtain ⟨chosen, unique, inside, size, rfl⟩ := draws.exists_list nodup
  have toldChosen : Told name chosen := fun item member => told item (inside member)
  obtain ⟨chance, whole, names, taken, perm⟩ := exists_take (told.nodup nodup) (toldChosen.nodup unique)
    (List.map_subset name inside) (by rwa [List.length_map, List.length_map])
  obtain ⟨same, sub, rfl⟩ := exists_map_eq perm.subset
  refine ⟨chance, same, by rw [whole]; exact taken, ?_⟩
  ext item
  constructor
  · exact fun member => sub member
  · intro member
    obtain ⟨other, inside, equal⟩ := List.mem_map.mp (perm.symm.subset (List.mem_map_of_mem member))
    rwa [← toldChosen item member other equal]

end Named

end Taf.Lib
