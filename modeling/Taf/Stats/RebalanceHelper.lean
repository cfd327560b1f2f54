import Taf.Lib.Dict
import Taf.Lib.PyJson
import Taf.Lib.Waiting
import Taf.Tasks.Task

/-! # Waiting for a statistic of the cluster

`wait_for_mc_stats_all_nodes`, `wait_for_stats` and `wait_for_stats_int_value` of
`membase/helper/rebalance_helper.py` poll until a statistic has the expected value or the time is over.
The first one adds up what it has read of the nodes, with `-1` for a sum that has no part yet, and keeps
what it has read of nodes that have gone.  The connections of the other two have no `get_bucket_stats`
here: what it gives is the statistics or an exception. -/

namespace Taf.Stats.RebalanceHelper

open Taf.Lib Taf.Tasks

/-- How a wait is left -/
inductive WaitEnd where
  | returned (verified : Bool)
  | raised

/-! ## `wait_for_mc_stats_all_nodes` -/

abbrev NodeStats := AList fun _ : String => String

/-- A node of `node_statuses`, with the answers of `get_nodes_self` and of its memcached server. -/
structure NodeStatus where
  id : String
  clusterMembership : Except Raised String
  stats : Except Raised NodeStats

/-- One round of the loop, with what the clock shows where it is read -/
structure Pass where
  nodes : Except Raised (List NodeStatus)
  setAt : Int
  checkedAt : Int

/-- `all_stats` -/
abbrev AllStats := AList fun _ : String => NodeStats

def readNode (allStats : AllStats) (node : NodeStatus) : Except Raised AllStats := do
  let clusterMembership ← node.clusterMembership
  if clusterMembership = "active" then
    let nStats ← node.stats
    pure (allStats.insert node.id nStats)
  else pure allStats

def readPass (allStats : AllStats) (pass : Pass) : Except Raised AllStats := do
  let nodes ← pass.nodes
  nodes.foldlM readNode allStats

/-- The texts of the statistic, in the order of the dictionary -/
def statTexts (dicts : KeyOrder String) (statKey : String) (allStats : AllStats) : List String :=
  (dicts.order allStats.keys).filterMap fun k => (allStats.lookup k).bind fun nStats => nStats.lookup statKey

/-- `int(...)` of them; `none` is a `ValueError`. -/
def statValues (dicts : KeyOrder String) (statKey : String) (allStats : AllStats) : Option (List Int) :=
  (statTexts dicts statKey allStats).mapM PyJson.parseInt

def actualStatValue (values : List Int) : Int :=
  values.foldl (fun actual value => if actual = -1 then value else actual + value) (-1)

structure Waiting where
  allStats : AllStats
  timeToTimeout : Int
  previousStatValue : Int

def Waiting.start : Waiting where
  allStats := ∅
  timeToTimeout := 0
  previousStatValue := -1

/-- `time_to_timeout` after a value that is not the expected one -/
def nextTimeout (changed : Bool) (timeToTimeout setAt timeout : Int) : Int :=
  if changed then 0 else if timeToTimeout = 0 then setAt + timeout else timeToTimeout

section

variable (dicts : KeyOrder String) (statKey : String) (statValue timeout : Int)

def mcStatsStep (waiting : Waiting) (pass : Pass) : Except WaitEnd Waiting :=
  match readPass waiting.allStats pass with
  | .error _ => .error .raised
  | .ok allStats =>
    match statValues dicts statKey allStats with
    | none => .error .raised
    | some values =>
      let actual := actualStatValue values
      if actual = statValue then .error (.returned true)
      else
        let changed := actual ≠ waiting.previousStatValue
        let timeToTimeout := nextTimeout changed waiting.timeToTimeout pass.setAt timeout
        if ¬ changed ∧ timeToTimeout < pass.checkedAt then .error (.returned false)
        else .ok { allStats := allStats, timeToTimeout := timeToTimeout, previousStatValue := actual }

/-- The wait is over, or it goes on after the passes. -/
def waitForMcStatsAllNodes (passes : List Pass) : Except WaitEnd Waiting :=
  passes.foldlM (mcStatsStep dicts statKey statValue timeout) Waiting.start

end

/-! ## `wait_for_stats` -/

abbrev BucketStats := AList fun _ : String => PyJson

structure StatsPoll where
  -- `RestConnection(master)`, which stands before the `try`
  connects : Bool
  stats : Except Raised BucketStats
  setAt : Int
  checkedAt : Int

structure StatsWaiting where
  timeToTimeout : Int
  currStatValue : PyJson
  previousStatValue : PyJson

def StatsWaiting.start : StatsWaiting where
  timeToTimeout := 0
  currStatValue := .num (-1)
  previousStatValue := .num (-1)

section

variable (statKey : String) (statValue : PyJson) (timeout : Int)

def statsStep (waiting : StatsWaiting) (poll : StatsPoll) : Except WaitEnd StatsWaiting :=
  if poll.connects then
    match poll.stats with
    -- The exception is taken for the value.
    | .error _ => .error (.returned true)
    | .ok stats =>
      if (stats.lookup statKey).any fun found => found.pyEq statValue then .error (.returned true)
      else
        let currStatValue := (stats.lookup statKey).getD waiting.currStatValue
        let changed := !currStatValue.pyEq waiting.previousStatValue
        let timeToTimeout := nextTimeout changed waiting.timeToTimeout poll.setAt timeout
        if ¬ changed ∧ timeToTimeout < poll.checkedAt then .error (.returned false)
        else .ok {
          timeToTimeout := timeToTimeout
          currStatValue := currStatValue
          previousStatValue := currStatValue }
  else .error .raised

def waitForStats (polls : List StatsPoll) : Except WaitEnd StatsWaiting :=
  polls.foldlM (statsStep statKey statValue timeout) StatsWaiting.start

end

/-! ## `wait_for_stats_int_value` -/

/-- The values of `option` -/
inductive CompareOption where
  | eq | gt | lt | ge | le
  deriving DecidableEq

def CompareOption.holds : CompareOption → Int → Int → Bool
  | .eq, a, b => a = b
  | .gt, a, b => a > b
  | .lt, a, b => a < b
  | .ge, a, b => a ≥ b
  | .le, a, b => a ≤ b

/-- `int(stats[stat_key])`; `none` is an exception.  `True` and `False` are the numbers 1 and 0. -/
def toInt : PyJson → Option Int
  | .num value => some (if 0 ≤ value then ⌊value⌋ else ⌈value⌉)
  | .str text => PyJson.parseInt text
  | _ => none

structure IntPoll where
  -- `time.time() - start` in the condition of the loop
  elapsed : Int
  stats : Except Raised BucketStats

section

variable (statKey : String) (statValue : Int) (option : CompareOption) (timeout : Int)

/-- Nothing but the time ends the wait without the value. -/
def intValueStep (waiting : Unit) (poll : IntPoll) : Except WaitEnd Unit :=
  if poll.elapsed ≤ timeout then
    match poll.stats with
    | .error _ => .error .raised
    | .ok stats =>
      match stats.lookup statKey with
      | none => .ok waiting
      | some found =>
        match toInt found with
        | none => .error .raised
        | some actual => if option.holds statValue actual then .error (.returned true) else .ok waiting
  else .error (.returned false)

def waitForStatsIntValue (polls : List IntPoll) : Except WaitEnd Unit :=
  polls.foldlM (intValueStep statKey statValue option timeout) ()

end

/-! ## What the waits are to have seen -/

/-- The statistic of a node; a node without it adds nothing. -/
def statOf (statKey : String) (allStats : AllStats) (id : String) : Int :=
  (((allStats.lookup id).bind fun nStats => nStats.lookup statKey).bind PyJson.parseInt).getD 0

def statSum (statKey : String) (allStats : AllStats) : Int :=
  ∑ id ∈ allStats.keys.toFinset, statOf statKey allStats id

/-- In the pass that ends the wait the nodes that are active then have the value together. -/
def AllNodesSound (dicts : KeyOrder String) (statKey : String) (statValue timeout : Int)
    (passes : List Pass) : Prop :=
  waitForMcStatsAllNodes dicts statKey statValue timeout passes = .error (.returned true) →
    ∃ before last after waiting, passes = before ++ last :: after ∧
      waitForMcStatsAllNodes dicts statKey statValue timeout before = .ok waiting ∧
      mcStatsStep dicts statKey statValue timeout waiting last = .error (.returned true) ∧
      ∃ active, readPass ∅ last = .ok active ∧ statSum statKey active = statValue

/-- The statistics have been read with the value. -/
def StatsSound (statKey : String) (statValue : PyJson) (timeout : Int) (polls : List StatsPoll) : Prop :=
  waitForStats statKey statValue timeout polls = .error (.returned true) →
    ∃ poll ∈ polls, ∃ stats found, poll.stats = .ok stats ∧ stats.lookup statKey = some found ∧
      found.pyEq statValue = true

/-- A number that is read of the statistic -/
def IntPoll.Reads (statKey : String) (poll : IntPoll) (actual : Int) : Prop :=
  ∃ stats found, poll.stats = .ok stats ∧ stats.lookup statKey = some found ∧ toInt found = some actual

/-- A reading had the relation to the value. -/
def IntValueSound (statKey : String) (statValue : Int) (option : CompareOption) (timeout : Int)
    (polls : List IntPoll) : Prop :=
  waitForStatsIntValue statKey statValue option timeout polls = .error (.returned true) →
    ∃ poll ∈ polls, ∃ actual, poll.Reads statKey actual ∧ option.holds actual statValue = true

/-! ## Where they have seen it -/

/-- What is kept of nodes that have gone adds nothing, and `-1` stands for no sum. -/
structure Steady (dicts : KeyOrder String) (statKey : String) (statValue : Int) (before : List Pass)
    (pass : Pass) : Prop where
  gone : ∀ kept all active, before.foldlM readPass ∅ = .ok kept → readPass kept pass = .ok all →
    readPass ∅ pass = .ok active →
      ∑ id ∈ all.keys.toFinset \ active.keys.toFinset, statOf statKey all id = 0
  marked : ∀ kept all values, before.foldlM readPass ∅ = .ok kept → readPass kept pass = .ok all →
    statValues dicts statKey all = some values → (values = [] → statValue ≠ -1) ∧
      ∀ n, 0 < n → n < values.length → (values.take n).sum ≠ -1

/-- The reversed comparison agrees with the one that was asked for. -/
def Symmetric (statKey : String) (statValue : Int) (option : CompareOption) (poll : IntPoll) : Prop :=
  ∀ actual, poll.Reads statKey actual → option.holds statValue actual = true →
    option.holds actual statValue = true

/-! ## The sum over the nodes -/

variable {dicts : KeyOrder String} {statKey : String} {statValue timeout : Int}

theorem actualStatValue_eq_sum {values : List Int} (nonempty : values ≠ [])
    (unmarked : ∀ n, 0 < n → n < values.length → (values.take n).sum ≠ -1) :
    actualStatValue values = values.sum := by
  -- A beginning that adds up to the mark would be taken for no sum yet, and the next value would replace it.
  induction values using List.reverseRecOn with
  | nil => exact absurd rfl nonempty
  | append_singleton front value ih =>
    rw [actualStatValue, List.foldl_append, ← actualStatValue]
    by_cases first : front = []
    · subst first
      simp [actualStatValue]
    · have before : actualStatValue front = front.sum := by
        apply ih first
        intro n positive inside
        have proper := unmarked n positive (by simp; omega)
        rwa [List.take_append_of_le_length (by omega)] at proper
      have sum : front.sum ≠ -1 := by
        have proper := unmarked front.length (List.length_pos_iff.mpr first) (by simp)
        rwa [List.take_left'] at proper
        rfl
      simp [before, sum]

theorem sum_of_mapM {ids : List String} {text : String → Option String} {values : List Int}
    (parsed : (ids.filterMap text).mapM PyJson.parseInt = some values) :
    values.sum = (ids.map fun id => ((text id).bind PyJson.parseInt).getD 0).sum := by
  induction ids generalizing values with
  | nil =>
    cases parsed
    rfl
  | cons id ids ih =>
    rw [List.map_cons, List.sum_cons]
    cases own : text id with
    | none =>
      rw [List.filterMap_cons_none own] at parsed
      simpa using ih parsed
    | some found =>
      rw [List.filterMap_cons_some own, List.mapM_cons] at parsed
      obtain ⟨value, read, parsed⟩ := Option.bind_eq_some_iff.mp parsed
      obtain ⟨others, rest, parsed⟩ := Option.bind_eq_some_iff.mp parsed
      cases parsed
      rw [List.sum_cons, ih rest]
      simp [read]

theorem sum_statValues {allStats : AllStats} {values : List Int}
    (read : statValues dicts statKey allStats = some values) : values.sum = statSum statKey allStats := by
  have order := (dicts.perm allStats.keys).map (statOf statKey allStats)
  rw [sum_of_mapM read, statSum, List.sum_toFinset _ allStats.keys_nodup]
  exact order.sum_eq

/-! ## What a pass reads -/

/-- Over the readings that are kept lie those of the pass. -/
def Overlays (kept active all : AllStats) : Prop :=
  ∀ id, all.lookup id = (active.lookup id).or (kept.lookup id)

theorem readNode_overlays {kept active all next : AllStats} {node : NodeStatus}
    (overlays : Overlays kept active all) (read : readNode all node = .ok next) :
    ∃ nextActive, readNode active node = .ok nextActive ∧ Overlays kept nextActive next := by
  obtain ⟨clusterMembership, membership, read⟩ := bind_eq_ok.mp read
  by_cases isActive : clusterMembership = "active"
  · rw [if_pos isActive] at read
    obtain ⟨nStats, answer, inserted⟩ := bind_eq_ok.mp read
    cases inserted
    have readActive : readNode active node = .ok (active.insert node.id nStats) := by
      rw [readNode, membership]
      exact (if_pos isActive).trans (bind_eq_ok.mpr ⟨nStats, answer, rfl⟩)
    refine ⟨active.insert node.id nStats, readActive, ?_⟩
    intro id
    by_cases own : id = node.id
    · subst own
      simp
    · rw [AList.lookup_insert_ne own, AList.lookup_insert_ne own, overlays]
  · rw [if_neg isActive] at read
    cases read
    have readActive : readNode active node = .ok active := by
      rw [readNode, membership]
      exact if_neg isActive
    exact ⟨active, readActive, overlays⟩

theorem readNodes_overlays {kept active all last : AllStats} {nodes : List NodeStatus}
    (overlays : Overlays kept active all) (read : nodes.foldlM readNode all = .ok last) :
    ∃ lastActive, nodes.foldlM readNode active = .ok lastActive ∧ Overlays kept lastActive last := by
  induction nodes generalizing active all with
  | nil =>
    cases read
    exact ⟨active, rfl, overlays⟩
  | cons node nodes ih =>
    obtain ⟨next, first, rest⟩ := bind_eq_ok.mp read
    obtain ⟨nextActive, firstActive, nextOverlays⟩ := readNode_overlays overlays first
    obtain ⟨lastActive, restActive, lastOverlays⟩ := ih nextOverlays rest
    exact ⟨lastActive, bind_eq_ok.mpr ⟨nextActive, firstActive, restActive⟩, lastOverlays⟩

theorem readPass_overlays {kept all : AllStats} {pass : Pass} (read : readPass kept pass = .ok all) :
    ∃ active, readPass ∅ pass = .ok active ∧ Overlays kept active all := by
  obtain ⟨nodes, answer, read⟩ := bind_eq_ok.mp read
  have start : Overlays kept ∅ kept := fun id => by simp
  obtain ⟨active, readActive, overlays⟩ := readNodes_overlays start read
  exact ⟨active, bind_eq_ok.mpr ⟨nodes, answer, readActive⟩, overlays⟩

theorem statSum_overlays {kept active all : AllStats} (overlays : Overlays kept active all) :
    statSum statKey all = statSum statKey active +
      ∑ id ∈ all.keys.toFinset \ active.keys.toFinset, statOf statKey all id := by
  have inside : active.keys.toFinset ⊆ all.keys.toFinset := by
    intro id member
    rw [List.mem_toFinset, ← AList.mem_keys, ← AList.lookup_isSome] at member ⊢
    rw [overlays]
    simp [member]
  have same : ∑ id ∈ active.keys.toFinset, statOf statKey all id = statSum statKey active := by
    apply Finset.sum_congr rfl
    intro id member
    rw [List.mem_toFinset, ← AList.mem_keys, ← AList.lookup_isSome] at member
    obtain ⟨nStats, found⟩ := Option.isSome_iff_exists.mp member
    rw [statOf, statOf, overlays, found, Option.some_or]
  rw [← same, statSum, add_comm, Finset.sum_sdiff inside]

/-! ## The waits -/

theorem mcStatsStep_ok {waiting next : Waiting} {pass : Pass}
    (going : mcStatsStep dicts statKey statValue timeout waiting pass = .ok next) :
    readPass waiting.allStats pass = .ok next.allStats := by
  rw [mcStatsStep] at going
  split at going
  · cases going
  · rename_i allStats read
    split at going
    · cases going
    · -- Neither of the two ways out was taken.
      dsimp only at going
      split_ifs at going
      cases going
      exact read

theorem mcStatsStep_verified {waiting : Waiting} {pass : Pass}
    (ends : mcStatsStep dicts statKey statValue timeout waiting pass = .error (.returned true)) :
    ∃ all values, readPass waiting.allStats pass = .ok all ∧ statValues dicts statKey all = some values ∧
      actualStatValue values = statValue := by
  rw [mcStatsStep] at ends
  split at ends
  · cases ends
  · rename_i allStats read
    split at ends
    · cases ends
    · rename_i values parsed
      dsimp only at ends
      split_ifs at ends with reached
      · exact ⟨allStats, values, read, parsed, reached⟩
      · cases ends

theorem readPasses_of_going {passes : List Pass} {waiting : Waiting}
    (going : waitForMcStatsAllNodes dicts statKey statValue timeout passes = .ok waiting) :
    passes.foldlM readPass ∅ = .ok waiting.allStats := by
  have start : ([] : List Pass).foldlM readPass ∅ = .ok Waiting.start.allStats := rfl
  apply foldlM_reaches start _ going
  intro behind t pass next reached taken
  rw [List.foldlM_append, reached]
  simp [bind, Except.bind, pure, Except.pure, mcStatsStep_ok taken]

theorem allNodes_sound {passes : List Pass}
    (steady : ∀ before pass after, passes = before ++ pass :: after →
      Steady dicts statKey statValue before pass) :
    AllNodesSound dicts statKey statValue timeout passes := by
  intro verified
  obtain ⟨before, last, after, waiting, split, going, ends⟩ := foldlM_ends_iff.mp verified
  obtain ⟨all, values, read, parsed, reached⟩ := mcStatsStep_verified ends
  have kept := readPasses_of_going going
  have holds := steady before last after split
  obtain ⟨active, readActive, overlays⟩ := readPass_overlays read
  obtain ⟨given, unmarked⟩ := holds.marked _ all values kept read parsed
  have nonempty : values ≠ [] := by
    rintro rfl
    exact given rfl reached.symm
  refine ⟨before, last, after, waiting, split, going, ends, active, readActive, ?_⟩
  -- The sum is over all nodes that are kept, in the order of the dictionary.
  calc statSum statKey active
      = statSum statKey all := by
        rw [statSum_overlays overlays, holds.gone _ all active kept read readActive, add_zero]
    _ = values.sum := (sum_statValues parsed).symm
    _ = actualStatValue values := (actualStatValue_eq_sum nonempty unmarked).symm
    _ = statValue := reached

theorem stats_sound {statValue : PyJson} {polls : List StatsPoll}
    (answers : ∀ poll ∈ polls, ∃ stats, poll.stats = .ok stats) :
    StatsSound statKey statValue timeout polls := by
  intro verified
  obtain ⟨before, last, after, waiting, rfl, _, ends⟩ := foldlM_ends_iff.mp verified
  obtain ⟨stats, answered⟩ := answers last (by simp)
  rw [statsStep, answered] at ends
  split at ends
  · dsimp only at ends
    split_ifs at ends with shown
    · obtain ⟨found, read, same⟩ := (Option.any_eq_true _ _).mp shown
      exact ⟨last, by simp, stats, found, answered, read, same⟩
    · cases ends
  · cases ends

theorem intValue_sound {option : CompareOption} {polls : List IntPoll}
    (symmetric : ∀ poll ∈ polls, Symmetric statKey statValue option poll) :
    IntValueSound statKey statValue option timeout polls := by
  intro verified
  obtain ⟨before, last, after, waiting, rfl, _, ends⟩ := foldlM_ends_iff.mp verified
  have member : last ∈ before ++ last :: after := by simp
  rw [intValueStep] at ends
  split at ends
  · split at ends
    · cases ends
    · rename_i stats answered
      split at ends
      · cases ends
      · rename_i found read
        split at ends
        · cases ends
        · rename_i actual number
          split_ifs at ends with reversed
          · have reads : last.Reads statKey actual := ⟨stats, found, answered, read, number⟩
            exact ⟨last, member, actual, reads, symmetric last member actual reads reversed⟩
  · cases ends

/-- In every run in which what is kept adds nothing, no reading raises and the comparison is not
    reversed, a wait that is verified has seen what it waited for. -/
theorem waits_sound (dicts : KeyOrder String) (statKey : String) (timeout : Int) {mcValue : Int}
    {passes : List Pass} (steady : ∀ before pass after, passes = before ++ pass :: after →
      Steady dicts statKey mcValue before pass)
    {statValue : PyJson} {polls : List StatsPoll}
    (answers : ∀ poll ∈ polls, ∃ stats, poll.stats = .ok stats)
    {intValue : Int} {option : CompareOption} {intPolls : List IntPoll}
    (symmetric : ∀ poll ∈ intPolls, Symmetric statKey intValue option poll) :
    AllNodesSound dicts statKey mcValue timeout passes ∧
      StatsSound statKey statValue timeout polls ∧
      IntValueSound statKey intValue option timeout intPolls :=
  ⟨allNodes_sound steady, stats_sound answers, intValue_sound symmetric⟩

/-! ## A node that has gone -/

def listed : KeyOrder String := ⟨fun keys => keys, fun keys => List.Perm.refl keys⟩

def nodeWith (id clusterMembership items : String) : NodeStatus :=
  { id := id, clusterMembership := .ok clusterMembership,
    stats := .ok (AList.singleton "curr_items" items) }

def passOf (nodes : List NodeStatus) : Pass := { nodes := .ok nodes, setAt := 0, checkedAt := 0 }

/-- After a failover the items of the node that has gone are still counted. -/
theorem gone_node_is_counted :
    ¬ AllNodesSound listed "curr_items" 8 120
      [passOf [nodeWith "a" "active" "5", nodeWith "b" "active" "5"],
        passOf [nodeWith "a" "active" "3", nodeWith "b" "inactiveFailed" "5"]] := by
  intro sound
  obtain ⟨before, last, after, waiting, split, _, _, active, read, sum⟩ := sound rfl
  -- The first pass has ten items and the second one three.
  match before, split with
  | [], split =>
    cases split
    cases read
    exact absurd sum (by decide +kernel)
  | [_], split =>
    cases split
    cases read
    exact absurd sum (by decide +kernel)
  | _ :: _ :: before, split =>
    have lengths := congrArg List.length split
    simp at lengths

/-- `b` has four items in the first pass and five in the second one, in which the wait ends. -/
def twoPasses : List Pass :=
  [passOf [nodeWith "a" "active" "3", nodeWith "b" "active" "4"],
    passOf [nodeWith "a" "active" "3", nodeWith "b" "active" "5"]]

theorem unmarked_pair {first second : Int} (proper : first ≠ -1) :
    ∀ n, 0 < n → n < [first, second].length → ([first, second].take n).sum ≠ -1 := by
  intro n positive inside
  have small : n < 2 := inside
  obtain rfl : n = 1 := by omega
  simpa using proper

/-- No node has gone, and no beginning of the values adds up to the mark. -/
theorem twoPasses_steady {before after : List Pass} {pass : Pass} (split : twoPasses = before ++ pass :: after) :
    Steady listed "curr_items" 8 before pass := by
  match before, split with
  | [], split =>
    cases split
    constructor
    · intro kept all active start read readActive
      cases start
      cases read
      cases readActive
      rfl
    · intro kept all values start read parsed
      cases start
      cases read
      cases parsed
      exact ⟨by simp, unmarked_pair (by decide +kernel)⟩
  | [_], split =>
    cases split
    constructor
    · intro kept all active start read readActive
      cases start
      cases read
      cases readActive
      rfl
    · intro kept all values start read parsed
      cases start
      cases read
      cases parsed
      exact ⟨by simp, unmarked_pair (by decide +kernel)⟩
  | _ :: _ :: before, split =>
    have lengths := congrArg List.length split
    simp [twoPasses] at lengths

theorem waits_sound_twice :
    AllNodesSound listed "curr_items" 8 120 twoPasses ∧
      StatsSound "curr_items" (.num 8) 120
        [⟨true, .ok (AList.singleton "curr_items" (.num 7)), 0, 0⟩,
          ⟨true, .ok (AList.singleton "curr_items" (.num 8)), 0, 0⟩] ∧
      IntValueSound "curr_items" 8 .eq 120
        [⟨0, .ok (AList.singleton "curr_items" (.num 7))⟩, ⟨2, .ok (AList.singleton "curr_items" (.num 8))⟩] := by
  refine waits_sound listed "curr_items" 120 (fun _ _ _ => twoPasses_steady) ?_ ?_
  · intro poll member
    obtain rfl | rfl := List.mem_pair.mp member <;> exact ⟨_, rfl⟩
  · intro poll _ actual _ same
    simpa [CompareOption.holds, eq_comm] using same

end Taf.Stats.RebalanceHelper
