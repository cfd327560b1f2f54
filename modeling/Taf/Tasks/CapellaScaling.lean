import Taf.Lib.Dict
import Taf.Lib.PyText
import Taf.Lib.Run
import Taf.Lib.Split

/-! # Scaling a dedicated cluster

`async_rebalance` sends the server groups that a dedicated cluster should have.  Each requested group is compared
with each existing one.  What should make a new group is called with an argument too few, so that nothing is
sent unless all requests match all groups. -/

namespace Taf.Tasks.CapellaScaling

open Taf.Lib

/-- A server group, with what else the configuration says about it -/
structure ServerGroup (δ : Type*) where
  services : List String
  size : ℤ
  details : δ
  deriving DecidableEq

section

variable {δ σ : Type*} (dicts : KeyOrder String)

/-- `CapellaUtils.get_cluster_config_spec` takes `provider`, `services` and `count`, and the call gives two of them. -/
def getClusterConfigSpec (_services : List String) (_nodesToAdd : ℕ) : Except PyError (ServerGroup δ) :=
  .error .typeError

/-- One requested group and one existing one: the existing group afterwards, and what is appended to the new groups -/
def updateSpec (services : List String) (toRemove : List σ) (serviceGroup : String) (spec : ServerGroup δ) :
    Except PyError (ServerGroup δ × List (ServerGroup δ)) :=
  let servicesList := (splitText ',' serviceGroup).mergeSort
  let spec := { spec with services := spec.services.mergeSort }
  if servicesList = spec.services then
    let spec := { spec with size := spec.size + services.count serviceGroup }
    .ok (if "data" ∈ servicesList then { spec with size := spec.size - toRemove.length } else spec, [])
  else do
    let new ← getClusterConfigSpec services (services.count serviceGroup)
    pure (spec, [new])

/-- One requested group and all existing ones -/
def updateSpecs (services : List String) (toRemove : List σ)
    (s : List (ServerGroup δ) × List (ServerGroup δ)) (serviceGroup : String) :
    Except PyError (List (ServerGroup δ) × List (ServerGroup δ)) := do
  let updated ← s.1.mapM (updateSpec services toRemove serviceGroup)
  pure (updated.map Prod.fst, s.2 ++ updated.flatMap Prod.snd)

/-- `if not services: services = [CloudCluster.Services.KV]` -/
def requestedGroups (services : List String) : List String := if services = [] then ["data"] else services

/-- The groups that `async_rebalance` sends for a dedicated cluster -/
def asyncRebalance (servers : List (ServerGroup δ)) (services : List String) (toRemove : List σ) :
    Except PyError (List (ServerGroup δ)) := do
  let services := requestedGroups services
  -- The keys of `service_group_len`
  let (clusterConfig, newServiceGroups) ←
    (dicts.order services.dedup).foldlM (updateSpecs services toRemove) (servers, [])
  pure (clusterConfig ++ newServiceGroups)

/-! ## What should be sent -/

def ServerGroup.serviceSet (group : ServerGroup δ) : Finset String := group.services.toFinset

def requestSet (serviceGroup : String) : Finset String := (splitText ',' serviceGroup).toFinset

/-- How many nodes are requested with the services -/
def requested (services : List String) (set : Finset String) : ℕ :=
  (requestedGroups services).countP fun serviceGroup => requestSet serviceGroup = set

/-- An existing group, with the nodes that come in, and for the data service those that go out -/
structure Scaled (services : List String) (toRemove : List σ) (group sent : ServerGroup δ) : Prop where
  serviceSet : sent.serviceSet = group.serviceSet
  details : sent.details = group.details
  size : sent.size = group.size + requested services group.serviceSet -
    if requested services group.serviceSet ≠ 0 ∧ "data" ∈ group.services then (toRemove.length : ℤ) else 0

/-- The existing groups, scaled, and one new group for each requested set of services that is not there -/
def SentExactly (servers : List (ServerGroup δ)) (services : List String) (toRemove : List σ)
    (sent : List (ServerGroup δ)) : Prop :=
  ∃ kept new, sent.Perm (kept ++ new) ∧ List.Forall₂ (Scaled services toRemove) servers kept ∧
    (new.map ServerGroup.serviceSet).Nodup ∧
    (∀ group ∈ new, group.size = requested services group.serviceSet) ∧
    ∀ set, set ∈ new.map ServerGroup.serviceSet ↔
      (∃ serviceGroup ∈ requestedGroups services, requestSet serviceGroup = set) ∧
        set ∉ servers.map ServerGroup.serviceSet

def Right (servers : List (ServerGroup δ)) (services : List String) (toRemove : List σ) : Prop :=
  ∃ sent, asyncRebalance dicts servers services toRemove = .ok sent ∧ SentExactly servers services toRemove sent

/-- There is one group, all requests are for its services, and nodes of the data service that go out are not
    subtracted twice. -/
def OneGroup (servers : List (ServerGroup δ)) (services : List String) (toRemove : List σ) : Prop :=
  ∃ group, servers = [group] ∧
    (∀ serviceGroup ∈ requestedGroups services, (splitText ',' serviceGroup).Perm group.services) ∧
    ("data" ∈ group.services → toRemove = [] ∨ (requestedGroups services).dedup.length = 1)

end

section

variable {δ σ : Type*} {dicts : KeyOrder String} {services : List String} {toRemove : List σ} {serviceGroup : String}
  {spec group : ServerGroup δ} {servers : List (ServerGroup δ)}

/-! ## One group -/

theorem mergeSort_eq_iff_perm {first second : List String} :
    first.mergeSort = second.mergeSort ↔ first.Perm second := by
  constructor
  · intro same
    exact (first.mergeSort_perm _).symm.trans (same ▸ second.mergeSort_perm _)
  · intro perm
    have sorted : ∀ names : List String, names.mergeSort.Pairwise (· ≤ ·) := by
      intro names
      exact List.pairwise_mergeSort' (· ≤ ·) names
    refine List.Perm.eq_of_pairwise (fun a b _ _ => le_antisymm) (sorted first) (sorted second) ?_
    exact (first.mergeSort_perm _).trans (perm.trans (second.mergeSort_perm _).symm)

/-- What becomes of a group that is requested under a name -/
def grown (services : List String) (toRemove : List σ) (spec : ServerGroup δ) (serviceGroup : String) : ServerGroup δ where
  services := spec.services.mergeSort
  size := spec.size + services.count serviceGroup - if "data" ∈ spec.services then (toRemove.length : ℤ) else 0
  details := spec.details

theorem updateSpec_ok_iff {result : ServerGroup δ × List (ServerGroup δ)} :
    updateSpec services toRemove serviceGroup spec = .ok result ↔
      (splitText ',' serviceGroup).Perm spec.services ∧ result = (grown services toRemove spec serviceGroup, []) := by
  rw [updateSpec]
  dsimp only
  by_cases same : (splitText ',' serviceGroup).Perm spec.services
  · have isData : "data" ∈ (splitText ',' serviceGroup).mergeSort ↔ "data" ∈ spec.services :=
      (List.mergeSort_perm _ _).mem_iff.trans same.mem_iff
    rw [if_pos (mergeSort_eq_iff_perm.mpr same), Except.ok.injEq, and_iff_right same, eq_comm]
    by_cases data : "data" ∈ spec.services
    · simp [isData, data, grown]
    · simp [isData, data, grown]
  · rw [if_neg fun sorted => same (mergeSort_eq_iff_perm.mp sorted)]
    simp [same, getClusterConfigSpec, bind, Except.bind]

/-! ## All requests -/

/-- A single group goes through all the names exactly if they are names of its services. -/
theorem updateSpecs_single_iff {keys : List String} {result : List (ServerGroup δ) × List (ServerGroup δ)} :
    keys.foldlM (updateSpecs services toRemove) ([group], []) = .ok result ↔
      (∀ key ∈ keys, (splitText ',' key).Perm group.services) ∧
        result = ([keys.foldl (grown services toRemove) group], []) := by
  induction keys generalizing group with
  | nil => simp [pure, Except.pure, eq_comm]
  | cons key keys ih =>
    rw [List.foldlM_cons, bind_eq_ok, List.forall_mem_cons, List.foldl_cons]
    have step : ∀ middle, updateSpecs services toRemove ([group], []) key = .ok middle ↔
        (splitText ',' key).Perm group.services ∧ middle = ([grown services toRemove group key], []) := by
      intro middle
      simp only [updateSpecs, List.mapM_cons, List.mapM_nil, bind_eq_ok, updateSpec_ok_iff]
      constructor
      · intro found
        obtain ⟨_, ⟨_, ⟨same, rfl⟩, _, rest, made⟩, ended⟩ := found
        cases rest
        cases made
        cases ended
        exact ⟨same, rfl⟩
      · intro found
        obtain ⟨same, rfl⟩ := found
        exact ⟨_, ⟨_, ⟨same, rfl⟩, _, rfl, rfl⟩, rfl⟩
    have sameServices : ∀ name, (splitText ',' name).Perm (grown services toRemove group key).services ↔
        (splitText ',' name).Perm group.services := by
      intro name
      exact (group.services.mergeSort_perm _).congr_right _
    simp only [step]
    constructor
    · intro found
      obtain ⟨_, ⟨same, rfl⟩, rest⟩ := found
      obtain ⟨others, rfl⟩ := ih.mp rest
      exact ⟨⟨same, fun name member => (sameServices name).mp (others name member)⟩, rfl⟩
    · intro found
      obtain ⟨⟨same, others⟩, rfl⟩ := found
      exact ⟨_, ⟨same, rfl⟩, ih.mpr ⟨fun name member => (sameServices name).mpr (others name member), rfl⟩⟩

/-- What has become of a group after all the names -/
theorem foldl_grown (keys : List String) :
    (keys.foldl (grown services toRemove) group).serviceSet = group.serviceSet ∧
      (keys.foldl (grown services toRemove) group).details = group.details ∧
      (keys.foldl (grown services toRemove) group).size = group.size + ((keys.map services.count).sum : ℕ) -
        if "data" ∈ group.services then (keys.length * toRemove.length : ℤ) else 0 := by
  induction keys generalizing group with
  | nil => simp
  | cons key keys ih =>
    obtain ⟨sets, details, size⟩ := @ih (grown services toRemove group key)
    have sameSet : (grown services toRemove group key).serviceSet = group.serviceSet :=
      List.toFinset_eq_of_perm _ _ (group.services.mergeSort_perm _)
    refine ⟨sets.trans sameSet, details, ?_⟩
    rw [List.foldl_cons, size]
    simp only [grown, List.mem_mergeSort, List.map_cons, List.sum_cons, List.length_cons]
    split_ifs
    · push_cast
      ring
    · push_cast
      ring

theorem not_two_groups {first second : ServerGroup δ} {rest : List (ServerGroup δ)} {keys : List String}
    {result : List (ServerGroup δ) × List (ServerGroup δ)} (nonempty : keys ≠ [])
    (distinct : first.serviceSet ≠ second.serviceSet) :
    keys.foldlM (updateSpecs services toRemove) (first :: second :: rest, []) ≠ .ok result := by
  intro returned
  cases keys with
  | nil => exact nonempty rfl
  | cons key keys =>
    rw [List.foldlM_cons, bind_eq_ok] at returned
    obtain ⟨middle, updated, _⟩ := returned
    simp only [updateSpecs, List.mapM_cons, bind_eq_ok, updateSpec_ok_iff] at updated
    obtain ⟨_, ⟨_, ⟨sameFirst, _⟩, _, ⟨_, ⟨sameSecond, _⟩, _⟩, _⟩, _⟩ := updated
    exact distinct (List.toFinset_eq_of_perm _ _ (sameFirst.symm.trans sameSecond))

/-! ## What is sent -/

theorem requestedGroups_ne_nil : requestedGroups services ≠ [] := by
  unfold requestedGroups
  split_ifs with empty
  · simp
  · exact empty

theorem asyncRebalance_ok_iff {sent : List (ServerGroup δ)} :
    asyncRebalance dicts servers services toRemove = .ok sent ↔
      ∃ result, (dicts.order (requestedGroups services).dedup).foldlM (updateSpecs (requestedGroups services) toRemove)
        (servers, []) = .ok result ∧ result.1 ++ result.2 = sent := by
  rw [asyncRebalance, bind_eq_ok]
  simp [pure, Except.pure]

/-- All nodes of the one group that are requested -/
theorem requested_eq_length
    (same : ∀ serviceGroup ∈ requestedGroups services, (splitText ',' serviceGroup).Perm group.services) :
    requested services group.serviceSet = (requestedGroups services).length := by
  rw [requested, List.countP_eq_length]
  intro serviceGroup member
  exact decide_eq_true (List.toFinset_eq_of_perm _ _ (same serviceGroup member))

/-- The one group that is sent for one group -/
theorem asyncRebalance_single_iff {sent : List (ServerGroup δ)} :
    asyncRebalance dicts [group] services toRemove = .ok sent ↔
      (∀ serviceGroup ∈ requestedGroups services, (splitText ',' serviceGroup).Perm group.services) ∧
        sent = [(dicts.order (requestedGroups services).dedup).foldl (grown (requestedGroups services) toRemove) group] := by
  rw [asyncRebalance_ok_iff]
  simp only [updateSpecs_single_iff, mem_order, List.mem_dedup]
  constructor
  · intro found
    obtain ⟨_, ⟨same, rfl⟩, rfl⟩ := found
    exact ⟨same, rfl⟩
  · intro found
    obtain ⟨same, rfl⟩ := found
    exact ⟨_, ⟨same, rfl⟩, rfl⟩

/-- The size that is sent for one group, with the nodes that go out counted once for each name of its services -/
theorem sent_size (same : ∀ serviceGroup ∈ requestedGroups services, (splitText ',' serviceGroup).Perm group.services) :
    ((dicts.order (requestedGroups services).dedup).foldl (grown (requestedGroups services) toRemove) group).size =
      group.size + requested services group.serviceSet -
        if "data" ∈ group.services then ((requestedGroups services).dedup.length * toRemove.length : ℤ) else 0 := by
  have keys := dicts.perm (requestedGroups services).dedup
  have total : ((dicts.order (requestedGroups services).dedup).map (requestedGroups services).count).sum =
      requested services group.serviceSet := by
    rw [requested_eq_length same, (keys.map _).sum_eq, List.sum_map_count_dedup_eq_length]
  rw [(foldl_grown _).2.2, total, keys.length_eq]

/-- The size is right exactly if nothing is subtracted twice. -/
theorem scaled_iff (dicts : KeyOrder String)
    (same : ∀ serviceGroup ∈ requestedGroups services, (splitText ',' serviceGroup).Perm group.services) :
    Scaled services toRemove group
        ((dicts.order (requestedGroups services).dedup).foldl (grown (requestedGroups services) toRemove) group) ↔
      ("data" ∈ group.services → toRemove = [] ∨ (requestedGroups services).dedup.length = 1) := by
  obtain ⟨sets, details, _⟩ :=
    @foldl_grown _ _ (requestedGroups services) toRemove group (dicts.order (requestedGroups services).dedup)
  have some : requested services group.serviceSet ≠ 0 := by
    rw [requested_eq_length same]
    exact (List.length_pos_of_ne_nil requestedGroups_ne_nil).ne'
  have sizes : (group.size + requested services group.serviceSet -
      (if "data" ∈ group.services then ((requestedGroups services).dedup.length * toRemove.length : ℤ) else 0) =
        group.size + requested services group.serviceSet -
          if requested services group.serviceSet ≠ 0 ∧ "data" ∈ group.services then (toRemove.length : ℤ) else 0) ↔
      ("data" ∈ group.services → toRemove = [] ∨ (requestedGroups services).dedup.length = 1) := by
    by_cases data : "data" ∈ group.services
    · simp only [data, some, ne_eq, not_false_iff, and_self, if_true, sub_right_inj, forall_const]
      by_cases none : toRemove = []
      · simp [none]
      · have removed : (toRemove.length : ℤ) ≠ 0 := by simp [none]
        rw [mul_eq_right₀ removed, Nat.cast_eq_one]
        simp [none]
    · simp [data]
  constructor
  · intro scaled
    exact sizes.mp (by rw [← sent_size same]; exact scaled.size)
  · intro once
    exact ⟨sets, details, by rw [sent_size same]; exact sizes.mpr once⟩

/-- Without a group nothing is sent. -/
theorem asyncRebalance_nil {sent : List (ServerGroup δ)} (called : asyncRebalance dicts [] services toRemove = .ok sent) :
    sent = [] := by
  obtain ⟨result, folded, rfl⟩ := asyncRebalance_ok_iff.mp called
  have keeps : ∀ s key next, updateSpecs (requestedGroups services) toRemove s key = .ok next →
      s = (([], []) : List (ServerGroup δ) × List (ServerGroup δ)) → next = ([], []) := by
    intro s key next stepped nothing
    subst nothing
    cases stepped
    rfl
  have empty := foldlM_invariant folded keeps rfl
  rw [empty]
  rfl

/-- A new group is for services that the one group does not have. -/
theorem no_new_group {new : List (ServerGroup δ)}
    (same : ∀ serviceGroup ∈ requestedGroups services, (splitText ',' serviceGroup).Perm group.services)
    (sets : ∀ set, set ∈ new.map ServerGroup.serviceSet →
      (∃ serviceGroup ∈ requestedGroups services, requestSet serviceGroup = set) ∧
        set ∉ [group].map ServerGroup.serviceSet) : new = [] := by
  cases new with
  | nil => rfl
  | cons first rest =>
    obtain ⟨⟨serviceGroup, member, equal⟩, absent⟩ := sets first.serviceSet (by simp)
    refine absurd ?_ absent
    rw [← equal, requestSet, List.toFinset_eq_of_perm _ _ (same serviceGroup member)]
    simp [ServerGroup.serviceSet]

theorem oneGroup_of_right (distinct : (servers.map ServerGroup.serviceSet).Nodup)
    (right : Right dicts servers services toRemove) : OneGroup servers services toRemove := by
  obtain ⟨sent, called, kept, new, perm, scaled, _, _, sets⟩ := right
  match servers with
  | [] =>
    cases scaled
    rw [asyncRebalance_nil called, List.nil_append, List.nil_perm] at perm
    subst perm
    have nonempty : requestedGroups services ≠ [] := requestedGroups_ne_nil
    obtain ⟨serviceGroup, member⟩ := List.exists_mem_of_ne_nil _ nonempty
    have there := (sets (requestSet serviceGroup)).mpr ⟨⟨serviceGroup, member, rfl⟩, by simp⟩
    cases there
  | [group] =>
    obtain ⟨same, rfl⟩ := asyncRebalance_single_iff.mp called
    have noNew := no_new_group same fun set => (sets set).mp
    subst noNew
    cases scaled with
    | cons here rest =>
      cases rest
      rw [List.append_nil, List.singleton_perm_singleton] at perm
      rw [← perm] at here
      exact ⟨group, rfl, same, (scaled_iff dicts same).mp here⟩
  | first :: second :: rest =>
    obtain ⟨result, folded, _⟩ := asyncRebalance_ok_iff.mp called
    have different : first.serviceSet ≠ second.serviceSet := by
      intro equal
      simp [equal] at distinct
    refine absurd folded (not_two_groups ?_ different)
    rw [← List.length_pos_iff, (dicts.perm _).length_eq, List.length_pos_iff]
    simpa [List.dedup_eq_nil] using requestedGroups_ne_nil

theorem right_of_oneGroup (oneGroup : OneGroup servers services toRemove) : Right dicts servers services toRemove := by
  obtain ⟨group, rfl, same, once⟩ := oneGroup
  refine ⟨_, asyncRebalance_single_iff.mpr ⟨same, rfl⟩, [_], [], ?_, .cons ((scaled_iff dicts same).mpr once) .nil, ?_, ?_, ?_⟩
  · rw [List.append_nil]
  · simp
  · simp
  · intro set
    refine iff_of_false (by simp) fun found => ?_
    obtain ⟨⟨serviceGroup, member, equal⟩, absent⟩ := found
    refine absent ?_
    rw [← equal, requestSet, List.toFinset_eq_of_perm _ _ (same serviceGroup member)]
    simp [ServerGroup.serviceSet]

end

/-- What should be sent is sent exactly if there is one group, all requests are for it, and nodes of the data service
    that go out are not subtracted twice. -/
theorem scaling_right_iff {δ σ : Type*} (dicts : KeyOrder String) (servers : List (ServerGroup δ))
    (services : List String) (toRemove : List σ) (distinct : (servers.map ServerGroup.serviceSet).Nodup) :
    Right dicts servers services toRemove ↔ OneGroup servers services toRemove :=
  ⟨oneGroup_of_right distinct, right_of_oneGroup⟩

/-- Two nodes are added to a group of three, and one goes out. -/
theorem scaling_right_of_three :
    Right ⟨id, fun _ => .refl _⟩ [(⟨["data"], 3, ()⟩ : ServerGroup Unit)] ["data", "data"] ["10.0.0.1"] := by
  refine (scaling_right_iff _ _ _ _ (by simp)).mpr ⟨_, rfl, ?_, fun _ => .inr (by decide)⟩
  decide

/-- A node for the data service is requested where there also is a group of index nodes. -/
theorem second_group_is_a_type_error :
    ¬ Right ⟨id, fun _ => .refl _⟩ [(⟨["data"], 3, ()⟩ : ServerGroup Unit), ⟨["index"], 2, ()⟩] ["data"] ([] : List String) := by
  intro right
  obtain ⟨sent, called, _⟩ := right
  obtain ⟨result, folded, _⟩ := asyncRebalance_ok_iff.mp called
  refine absurd folded (not_two_groups (by decide) ?_)
  decide

end Taf.Tasks.CapellaScaling
