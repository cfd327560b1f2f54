import Taf.Lib.DictLoops
import Taf.Lib.PyText

/-! # History statistics

`get_vb_details_for_bucket` collects what the nodes say about the sequence numbers of their vBuckets, and
`validate_history_start_seqno_stat` compares two collections.  The field of the history start is asked for on
a magma bucket only; it is taken from the list of fields inside the loop over the nodes, which goes well
once. -/

namespace Taf.Stats.HistoryStats

open Taf.Lib

/-! ## Collecting -/

inductive StorageBackend where
  | magma
  | couchstore
  deriving DecidableEq

/-- The statistics of one vBucket, by their names -/
abbrev Fields (V : Type) := AList fun _ : String => V

/-- `Cbstats.vbucket_details`: by the number of the vBucket, as text -/
abbrev Details (V : Type) := AList fun _ : String => Fields V

structure VbStats (V : Type) where
  active : Fields V
  replica : List (Fields V)

abbrev StatDict (V : Type) := AList fun _ : ℕ => VbStats V

/-- What a node answers: `vbucket_details` may be asked several times, the lists come from the keys of a
dictionary. -/
structure Node (V : Type) where
  details : ℕ → Details V
  activeList : List ℕ
  replicaList : List ℕ
  activeNodup : activeList.Nodup
  replicaNodup : replicaList.Nodup

def historyStart : String := "history_start_seqno"

/-- `vb_details_fields`, before the loop -/
def vbDetailsFields : List String := ["high_seqno", historyStart, "purge_seqno"]

section

variable {V : Type}

/-- `while max_retries > 0`, from the answer `k` on; the answer behind the last try is taken as it is. -/
def retry (details : ℕ → Details V) : ℕ → ℕ → Details V
  | 0, k => details k
  | maxRetries + 1, k =>
    if (details k).entries.all fun vb => historyStart ∈ vb.2 then details k
    else retry details maxRetries (k + 1)

/-- `vb_details`, as it is read -/
def Node.vbDetails (backend : StorageBackend) (node : Node V) : Details V :=
  if backend = .magma then retry node.details 5 0 else node.details 0

/-- `vb_details_fields` behind the test of the backend: `remove` raises where the field is not there. -/
def adjustFields (backend : StorageBackend) (fields : List String) : Except PyError (List String) :=
  if backend = .magma then .ok fields
  else if historyStart ∈ fields then .ok (fields.erase historyStart)
  else .error (.valueError "list.remove(x): x not in list")

/-- `vb_details[str(vb)][field]` -/
def statOf (details : Details V) (vb : ℕ) (field : String) : Option V :=
  (details.lookup (toString vb)).bind fun stats => stats.lookup field

/-- `for field in vb_details_fields: stat[field] = vb_details[str(vb)][field]` -/
def copyFields (details : Details V) (vb : ℕ) (fields : List String) (stat : Fields V) : Except PyError (Fields V) :=
  fields.foldlM (fun stat field =>
    match statOf details vb field with
    | some value => .ok (stat.insert field value)
    | none => .error .keyError) stat

/-- The entry of a vBucket, which is made when the vBucket is met for the first time -/
def entryOf (statDict : StatDict V) (vb : ℕ) : VbStats V := (statDict.lookup vb).getD ⟨∅, []⟩

def addActive (details : Details V) (fields : List String) (statDict : StatDict V) (vb : ℕ) :
    Except PyError (StatDict V) := do
  let active ← copyFields details vb fields (entryOf statDict vb).active
  pure (statDict.insert vb { entryOf statDict vb with active })

def addReplica (details : Details V) (fields : List String) (statDict : StatDict V) (vb : ℕ) :
    Except PyError (StatDict V) := do
  let replicaStat ← copyFields details vb fields ∅
  let entry := entryOf statDict vb
  pure (statDict.insert vb { entry with replica := entry.replica ++ [replicaStat] })

/-- One node; the list of fields belongs to the state of the loop. -/
def addNode (backend : StorageBackend) (state : List String × StatDict V) (node : Node V) :
    Except PyError (List String × StatDict V) := do
  let fields ← adjustFields backend state.1
  let details := node.vbDetails backend
  let statDict ← node.activeList.foldlM (addActive details fields) state.2
  let statDict ← node.replicaList.foldlM (addReplica details fields) statDict
  pure (fields, statDict)

/-- `get_vb_details_for_bucket(bucket, kv_nodes)` -/
def getVbDetailsForBucket (backend : StorageBackend) (kvNodes : List (Node V)) : Except PyError (StatDict V) :=
  (kvNodes.foldlM (addNode backend) (vbDetailsFields, ∅)).map Prod.snd

/-! ## The nodes of a bucket -/

/-- The fields that a vBucket must have -/
def backendFields (backend : StorageBackend) : List String :=
  if backend = .magma then vbDetailsFields else vbDetailsFields.erase historyStart

/-- The KV nodes of a bucket: each vBucket is active on one of them, and what a node lists it has the fields of. -/
structure KvNodes (V : Type) (backend : StorageBackend) where
  nodes : List (Node V)
  activeOnce : (nodes.flatMap Node.activeList).Nodup
  activeSomewhere : ∀ node ∈ nodes, ∀ vb ∈ node.replicaList, ∃ other ∈ nodes, vb ∈ other.activeList
  complete : ∀ node ∈ nodes, ∀ vb, vb ∈ node.activeList ∨ vb ∈ node.replicaList →
    ∀ field ∈ backendFields backend, (statOf (node.vbDetails backend) vb field).isSome

/-- An entry holds the fields of the backend as the node has them, and no others. -/
def Holds (backend : StorageBackend) (node : Node V) (vb : ℕ) (entry : Fields V) : Prop :=
  ∀ field, entry.lookup field =
    if field ∈ backendFields backend then statOf (node.vbDetails backend) vb field else none

/-- What the collection promises -/
structure Collected (backend : StorageBackend) (nodes : List (Node V)) (statDict : StatDict V) : Prop where
  listed : ∀ vb, vb ∈ statDict ↔ ∃ node ∈ nodes, vb ∈ node.activeList ∨ vb ∈ node.replicaList
  active : ∀ vb, ∀ node ∈ nodes, vb ∈ node.activeList → Holds backend node vb (entryOf statDict vb).active
  replica : ∀ vb, List.Forall₂ (fun node entry => Holds backend node vb entry)
    (nodes.filter fun node => vb ∈ node.replicaList) (entryOf statDict vb).replica

end

/-! ## Validating -/

inductive Comparison where
  -- `"=="`
  | eq
  -- `">"`
  | gt
  -- `">="`
  | ge
  deriving DecidableEq

/-- `stat[field]` -/
def field (stat : Fields ℕ) (name : String) : Except PyError ℕ :=
  match stat.lookup name with
  | some value => .ok value
  | none => .error .keyError

/-- The three checks of a replica -/
def checkReplica (result : Bool) (rStat : Fields ℕ) : Except PyError Bool := do
  let highSeqno ← field rStat "high_seqno"
  let histStartSeqno ← field rStat historyStart
  let purgeSeqno ← field rStat "purge_seqno"
  pure (result && decide (¬ highSeqno < histStartSeqno) && decide (histStartSeqno ≠ 0) &&
    decide (¬ purgeSeqno > histStartSeqno))

def checkReplicas (result : Bool) (stat : StatDict ℕ) : Except PyError Bool :=
  stat.entries.foldlM (fun result stats => stats.2.replica.foldlM checkReplica result) result

/-- The comparison fails for a pair of history starts. -/
def Comparison.fails : Comparison → ℕ → ℕ → Bool
  | .eq, prev, curr => prev ≠ curr
  | .gt, prev, curr => prev > curr
  | .ge, prev, curr => prev ≥ curr

/-- One vBucket of `prev_stat` -/
def checkActive (comparison : Comparison) (currStats : StatDict ℕ) (result : Bool)
    (stats : Σ _ : ℕ, VbStats ℕ) : Except PyError Bool := do
  let prev ← field stats.2.active historyStart
  match currStats.lookup stats.1 with
  | none => .error .keyError
  | some currEntry =>
    let curr ← field currEntry.active historyStart
    pure (result && !comparison.fails prev curr)

def checkNoHistory (result : Bool) (stats : Σ _ : ℕ, VbStats ℕ) : Except PyError Bool := do
  let histStartSeqno ← field stats.2.active historyStart
  pure (result && decide (histStartSeqno = 0))

/-- `validate_history_start_seqno_stat(prev_stat, curr_stats, comparison, no_history_preserved)` -/
def validateHistoryStartSeqnoStat (prevStat currStats : StatDict ℕ) (comparison : Comparison)
    (noHistoryPreserved : Bool) : Except PyError Bool := do
  let result ← checkReplicas true prevStat
  let result ← checkReplicas result currStats
  if noHistoryPreserved then currStats.entries.foldlM checkNoHistory result
  else prevStat.entries.foldlM (checkActive comparison currStats) result

/-! ## One node -/

section

variable {V : Type} {details : Details V} {fields : List String} {vb : ℕ} {statDict : StatDict V}
  {backend : StorageBackend} {node : Node V}

theorem copyFields_eq (found : ∀ field ∈ fields, (statOf details vb field).isSome) (stat : Fields V) :
    copyFields details vb fields stat = .ok (assignKeys (statOf details vb) fields stat) := by
  induction fields generalizing stat with
  | nil => rfl
  | cons field fields ih =>
    obtain ⟨here, found⟩ := List.forall_mem_cons.mp found
    obtain ⟨value, here⟩ := Option.isSome_iff_exists.mp here
    rw [copyFields, List.foldlM_cons, here]
    refine (ih found _).trans ?_
    rw [assignKeys, assignKeys, List.foldl_cons, here]
    rfl

/-- The entry of a vBucket that is active on the node -/
def activeEntry (details : Details V) (fields : List String) (vb : ℕ) (entry : VbStats V) : VbStats V :=
  { entry with active := assignKeys (statOf details vb) fields entry.active }

def replicaEntry (details : Details V) (fields : List String) (vb : ℕ) (entry : VbStats V) : VbStats V :=
  { entry with replica := entry.replica ++ [assignKeys (statOf details vb) fields ∅] }

/-- What a node adds where it has all the fields -/
def nodeStats (details : Details V) (fields : List String) (node : Node V) (statDict : StatDict V) : StatDict V :=
  updateKeys (fun _ => ⟨∅, []⟩) (replicaEntry details fields) node.replicaList
    (updateKeys (fun _ => ⟨∅, []⟩) (activeEntry details fields) node.activeList statDict)

theorem addNode_eq {listed taken : List String}
    (adjusted : adjustFields backend listed = .ok taken)
    (found : ∀ vb, vb ∈ node.activeList ∨ vb ∈ node.replicaList →
      ∀ field ∈ taken, (statOf (node.vbDetails backend) vb field).isSome) :
    addNode backend (listed, statDict) node = .ok (taken, nodeStats (node.vbDetails backend) taken node statDict) := by
  have actives : node.activeList.foldlM (addActive (node.vbDetails backend) taken) statDict = .ok (updateKeys
      (fun _ => ⟨∅, []⟩) (activeEntry (node.vbDetails backend) taken) node.activeList statDict) :=
    foldlM_eq_ok (fun statDict vb member => by
      rw [addActive, copyFields_eq (found vb (.inl member))]
      rfl) statDict
  have replicas : ∀ statDict, node.replicaList.foldlM (addReplica (node.vbDetails backend) taken) statDict =
      .ok (updateKeys (fun _ => ⟨∅, []⟩) (replicaEntry (node.vbDetails backend) taken) node.replicaList
        statDict) :=
    foldlM_eq_ok fun statDict vb member => by
      rw [addReplica, copyFields_eq (found vb (.inr member))]
      rfl
  simp only [addNode, adjusted, bind, Except.bind, actives, replicas]
  rfl

theorem lookup_nodeStats : (nodeStats details fields node statDict).lookup vb =
    if vb ∈ node.activeList ∨ vb ∈ node.replicaList then some
      { active := if vb ∈ node.activeList then assignKeys (statOf details vb) fields (entryOf statDict vb).active
          else (entryOf statDict vb).active
        replica := if vb ∈ node.replicaList then
            (entryOf statDict vb).replica ++ [assignKeys (statOf details vb) fields ∅]
          else (entryOf statDict vb).replica }
    else statDict.lookup vb := by
  rw [nodeStats, lookup_updateKeys _ _ node.replicaNodup, lookup_updateKeys _ _ node.activeNodup]
  by_cases active : vb ∈ node.activeList
  · by_cases replica : vb ∈ node.replicaList <;> simp [active, replica, activeEntry, replicaEntry, entryOf]
  · by_cases replica : vb ∈ node.replicaList <;> simp [active, replica, replicaEntry, entryOf]

end

/-! ## All nodes -/

section

variable {V : Type} {backend : StorageBackend} {nodes : List (Node V)} {node : Node V}
  {statDict : StatDict V} {vb : ℕ}

/-- The collection where nothing is raised -/
def collect (backend : StorageBackend) (nodes : List (Node V)) (statDict : StatDict V) : StatDict V :=
  nodes.foldl (fun statDict node => nodeStats (node.vbDetails backend) (backendFields backend) node statDict) statDict

theorem collect_cons : collect backend (node :: nodes) statDict =
    collect backend nodes (nodeStats (node.vbDetails backend) (backendFields backend) node statDict) := rfl

theorem mem_nodeStats {details : Details V} {fields : List String} : vb ∈ nodeStats details fields node statDict ↔
    vb ∈ statDict ∨ vb ∈ node.activeList ∨ vb ∈ node.replicaList := by
  rw [← AList.lookup_isSome, lookup_nodeStats]
  by_cases listed : vb ∈ node.activeList ∨ vb ∈ node.replicaList
  · simp [listed]
  · rw [if_neg listed, AList.lookup_isSome]
    exact (or_iff_left listed).symm

theorem entryOf_nodeStats {details : Details V} {fields : List String} :
    entryOf (nodeStats details fields node statDict) vb =
      { active := if vb ∈ node.activeList then assignKeys (statOf details vb) fields (entryOf statDict vb).active
          else (entryOf statDict vb).active
        replica := (entryOf statDict vb).replica ++
          if vb ∈ node.replicaList then [assignKeys (statOf details vb) fields ∅] else [] } := by
  rw [entryOf, lookup_nodeStats]
  by_cases active : vb ∈ node.activeList
  · by_cases replica : vb ∈ node.replicaList <;> simp [active, replica]
  · by_cases replica : vb ∈ node.replicaList <;> simp [active, replica, entryOf]

theorem mem_collect : vb ∈ collect backend nodes statDict ↔
    vb ∈ statDict ∨ ∃ node ∈ nodes, vb ∈ node.activeList ∨ vb ∈ node.replicaList := by
  induction nodes generalizing statDict with
  | nil => simp [collect]
  | cons node nodes ih => rw [collect_cons, ih, mem_nodeStats, or_assoc, List.exists_mem_cons_iff]

/-- The replicas stand in the order of the nodes. -/
theorem replica_collect : (entryOf (collect backend nodes statDict) vb).replica =
    (entryOf statDict vb).replica ++ (nodes.filter fun node => vb ∈ node.replicaList).map fun node =>
      assignKeys (statOf (node.vbDetails backend) vb) (backendFields backend) ∅ := by
  induction nodes generalizing statDict with
  | nil => simp [collect]
  | cons node nodes ih =>
    rw [collect_cons, ih, entryOf_nodeStats, List.append_assoc]
    by_cases replica : vb ∈ node.replicaList <;> simp [replica]

theorem active_collect_of_notMem (passive : ∀ node ∈ nodes, vb ∉ node.activeList) :
    (entryOf (collect backend nodes statDict) vb).active = (entryOf statDict vb).active := by
  induction nodes generalizing statDict with
  | nil => rfl
  | cons node nodes ih =>
    obtain ⟨here, passive⟩ := List.forall_mem_cons.mp passive
    rw [collect_cons, ih passive, entryOf_nodeStats]
    simp [here]

/-- The one node on which a vBucket is active writes its active entry. -/
theorem active_collect (once : (nodes.flatMap Node.activeList).Nodup) (member : node ∈ nodes)
    (active : vb ∈ node.activeList) : (entryOf (collect backend nodes statDict) vb).active =
      assignKeys (statOf (node.vbDetails backend) vb) (backendFields backend) (entryOf statDict vb).active := by
  induction nodes generalizing statDict with
  | nil => exact absurd member List.not_mem_nil
  | cons first nodes ih =>
    rw [List.flatMap_cons, List.nodup_append] at once
    obtain ⟨-, later, apart⟩ := once
    rw [collect_cons]
    obtain rfl | member := List.mem_cons.mp member
    · rw [active_collect_of_notMem, entryOf_nodeStats, if_pos active]
      intro other there activeToo
      exact apart vb active vb (List.mem_flatMap.mpr ⟨other, there, activeToo⟩) rfl
    · have passive : vb ∉ first.activeList := fun activeToo =>
        apart vb activeToo vb (List.mem_flatMap.mpr ⟨node, member, active⟩) rfl
      rw [ih later member, entryOf_nodeStats, if_neg passive]

theorem holds_assignKeys : Holds backend node vb
    (assignKeys (statOf (node.vbDetails backend) vb) (backendFields backend) ∅) := by
  intro field
  rw [lookup_assignKeys]
  simp

/-- What is collected from the nodes of a bucket is right, in every order of them. -/
theorem collected (kvNodes : KvNodes V backend) :
    Collected backend kvNodes.nodes (collect backend kvNodes.nodes ∅) where
  listed := by
    intro vb
    rw [mem_collect]
    simp [AList.notMem_empty]
  active := by
    intro vb node member active
    rw [active_collect kvNodes.activeOnce member active]
    exact holds_assignKeys
  replica := by
    intro vb
    rw [replica_collect]
    simp only [entryOf, AList.lookup_empty, Option.getD_none, List.nil_append, List.forall₂_map_right_iff]
    exact List.forall₂_same.mpr fun node _ => holds_assignKeys

end

/-! ## When the collection is made -/

section

variable {V : Type} {backend : StorageBackend}

/-- The call returns what it promises. -/
def HistoryCollected (backend : StorageBackend) (nodes : List (Node V)) : Prop :=
  ∃ statDict, getVbDetailsForBucket backend nodes = .ok statDict ∧ Collected backend nodes statDict

theorem foldlM_addNode_magma {nodes : List (Node V)} (complete : ∀ node ∈ nodes, ∀ vb,
    vb ∈ node.activeList ∨ vb ∈ node.replicaList →
      ∀ field ∈ vbDetailsFields, (statOf (node.vbDetails .magma) vb field).isSome) (statDict : StatDict V) :
    nodes.foldlM (addNode .magma) (vbDetailsFields, statDict) =
      .ok (vbDetailsFields, collect .magma nodes statDict) := by
  induction nodes generalizing statDict with
  | nil => rfl
  | cons node nodes ih =>
    obtain ⟨here, complete⟩ := List.forall_mem_cons.mp complete
    rw [List.foldlM_cons, addNode_eq rfl here]
    exact ih complete _

/-- The second node of a bucket that is not on magma: the field has been removed before. -/
theorem addNode_twice {statDict statDict' statDict'' : StatDict V} {first second : Node V}
    {fields fields' : List String}
    (added : addNode .couchstore (vbDetailsFields, statDict) first = .ok (fields, statDict')) :
    addNode .couchstore (fields, statDict') second ≠ .ok (fields', statDict'') := by
  have removed : adjustFields .couchstore vbDetailsFields = .ok ["high_seqno", "purge_seqno"] := by decide
  have again : adjustFields .couchstore ["high_seqno", "purge_seqno"] =
      .error (.valueError "list.remove(x): x not in list") := by decide
  rw [addNode, bind_eq_ok] at added
  obtain ⟨taken, adjusted, added⟩ := added
  cases removed.symm.trans adjusted
  obtain ⟨_, -, added⟩ := bind_eq_ok.mp added
  obtain ⟨_, -, same⟩ := bind_eq_ok.mp added
  cases same
  intro second
  rw [addNode, bind_eq_ok] at second
  obtain ⟨_, adjusted, -⟩ := second
  exact nomatch again.symm.trans adjusted

theorem historyCollected_iff (kvNodes : KvNodes V backend) :
    HistoryCollected backend kvNodes.nodes ↔ backend = .magma ∨ kvNodes.nodes.length ≤ 1 := by
  constructor
  · intro found
    obtain ⟨statDict, returned, -⟩ := found
    cases backend with
    | magma => exact .inl rfl
    | couchstore =>
      refine .inr (Nat.le_of_not_lt fun many => ?_)
      obtain ⟨first, second, rest, nodes⟩ : ∃ first second rest, kvNodes.nodes = first :: second :: rest := by
        match nodes : kvNodes.nodes with
        | [] => simp [nodes] at many
        | [_] => simp [nodes] at many
        | first :: second :: rest => exact ⟨first, second, rest, rfl⟩
      obtain ⟨last, looped, -⟩ := map_eq_ok.mp returned
      rw [nodes, List.foldlM_cons, bind_eq_ok] at looped
      obtain ⟨middle, added, looped⟩ := looped
      rw [List.foldlM_cons, bind_eq_ok] at looped
      obtain ⟨later, again, -⟩ := looped
      exact addNode_twice added again
  · intro fits
    have made : getVbDetailsForBucket backend kvNodes.nodes = .ok (collect backend kvNodes.nodes ∅) := by
      cases backend with
      | magma => rw [getVbDetailsForBucket, foldlM_addNode_magma kvNodes.complete]; rfl
      | couchstore =>
        obtain other | few := fits
        · cases other
        · have complete := kvNodes.complete
          match nodes : kvNodes.nodes with
          | [] => rfl
          | [node] =>
            rw [nodes] at complete
            rw [getVbDetailsForBucket, List.foldlM_cons, addNode_eq rfl (complete node List.mem_cons_self)]
            rfl
          | _ :: _ :: _ => simp [nodes] at few
    exact ⟨_, made, collected kvNodes⟩

end

/-! ## What a validation says -/

/-- The three numbers of a replica are there and in order. -/
def ReplicaValid (rStat : Fields ℕ) : Prop :=
  ∃ highSeqno histStartSeqno purgeSeqno, rStat.lookup "high_seqno" = some highSeqno ∧
    rStat.lookup historyStart = some histStartSeqno ∧ rStat.lookup "purge_seqno" = some purgeSeqno ∧
    0 < histStartSeqno ∧ histStartSeqno ≤ highSeqno ∧ purgeSeqno ≤ histStartSeqno

def ReplicasValid (stat : StatDict ℕ) : Prop :=
  ∀ vb entry, stat.lookup vb = some entry → ∀ rStat ∈ entry.replica, ReplicaValid rStat

/-- What the comparison asks for, as documented -/
def Comparison.Passes : Comparison → ℕ → ℕ → Prop
  | .eq, prev, curr => prev = curr
  | .gt, prev, curr => prev ≤ curr
  | .ge, prev, curr => prev < curr

/-- Every vBucket of the first collection is active in both, and passes. -/
def ActivesPass (comparison : Comparison) (prevStat currStats : StatDict ℕ) : Prop :=
  ∀ vb entry, prevStat.lookup vb = some entry → ∃ currEntry prev curr, currStats.lookup vb = some currEntry ∧
    entry.active.lookup historyStart = some prev ∧ currEntry.active.lookup historyStart = some curr ∧
    comparison.Passes prev curr

theorem field_eq_ok {stat : Fields ℕ} {name : String} {value : ℕ} :
    field stat name = .ok value ↔ stat.lookup name = some value := by
  rw [field]
  cases stat.lookup name <;> simp

theorem checkReplica_iff (result : Bool) (rStat : Fields ℕ) :
    checkReplica result rStat = .ok true ↔ result = true ∧ ReplicaValid rStat := by
  simp only [checkReplica, bind_eq_ok, field_eq_ok, ReplicaValid]
  constructor
  · intro checked
    obtain ⟨high, highHere, hist, histHere, purge, purgeHere, verdict⟩ := checked
    have verdict : (result && decide (¬ high < hist) && decide (hist ≠ 0) && decide (¬ purge > hist)) = true :=
      Except.ok.inj verdict
    simp only [Bool.and_eq_true, decide_eq_true_eq] at verdict
    exact ⟨verdict.1.1.1, high, hist, purge, highHere, histHere, purgeHere, by omega, by omega, by omega⟩
  · intro valid
    obtain ⟨kept, high, hist, purge, highHere, histHere, purgeHere, positive, below, purged⟩ := valid
    refine ⟨high, highHere, hist, histHere, purge, purgeHere, congrArg Except.ok ?_⟩
    simp only [kept, Bool.and_eq_true, decide_eq_true_eq, true_and]
    omega

theorem checkReplicas_iff {result : Bool} {stat : StatDict ℕ} :
    checkReplicas result stat = .ok true ↔ result = true ∧ ReplicasValid stat := by
  have each : ∀ (result : Bool) (stats : Σ _ : ℕ, VbStats ℕ),
      stats.2.replica.foldlM checkReplica result = .ok true ↔
        result = true ∧ ∀ rStat ∈ stats.2.replica, ReplicaValid rStat :=
    fun _ _ => foldlM_status_iff checkReplica_iff
  rw [checkReplicas, foldlM_status_iff each]
  refine and_congr_right fun _ => ?_
  constructor
  · intro valid vb entry found
    exact valid ⟨vb, entry⟩ (AList.mem_lookup_iff.mp found)
  · intro valid stats member
    exact valid stats.1 stats.2 (AList.mem_lookup_iff.mpr member)

theorem fails_eq_false_iff {comparison : Comparison} {prev curr : ℕ} :
    comparison.fails prev curr = false ↔ comparison.Passes prev curr := by
  cases comparison with
  | eq => simp [Comparison.fails, Comparison.Passes]
  | gt => simp [Comparison.fails, Comparison.Passes]
  | ge => simp [Comparison.fails, Comparison.Passes]

theorem checkActive_iff {comparison : Comparison} {currStats : StatDict ℕ} (result : Bool)
    (stats : Σ _ : ℕ, VbStats ℕ) : checkActive comparison currStats result stats = .ok true ↔
      result = true ∧ ∃ currEntry prev curr, currStats.lookup stats.1 = some currEntry ∧
        stats.2.active.lookup historyStart = some prev ∧ currEntry.active.lookup historyStart = some curr ∧
        comparison.Passes prev curr := by
  rw [checkActive, bind_eq_ok]
  simp only [field_eq_ok]
  constructor
  · intro checked
    obtain ⟨prev, prevHere, checked⟩ := checked
    cases found : currStats.lookup stats.1 with
    | none => simp [found] at checked
    | some currEntry =>
      simp only [found, bind_eq_ok, field_eq_ok] at checked
      obtain ⟨curr, currHere, verdict⟩ := checked
      have verdict : (result && !comparison.fails prev curr) = true := Except.ok.inj verdict
      rw [Bool.and_eq_true, Bool.not_eq_true', fails_eq_false_iff] at verdict
      exact ⟨verdict.1, currEntry, prev, curr, rfl, prevHere, currHere, verdict.2⟩
  · intro passes
    obtain ⟨kept, currEntry, prev, curr, found, prevHere, currHere, passes⟩ := passes
    refine ⟨prev, prevHere, ?_⟩
    simp only [found, bind_eq_ok, field_eq_ok]
    refine ⟨curr, currHere, congrArg Except.ok ?_⟩
    rw [kept, fails_eq_false_iff.mpr passes]
    rfl

/-- `True` exactly where every replica is in order and every active pair passes. -/
theorem validate_iff {prevStat currStats : StatDict ℕ} {comparison : Comparison} :
    validateHistoryStartSeqnoStat prevStat currStats comparison false = .ok true ↔
      (ReplicasValid prevStat ∧ ReplicasValid currStats) ∧ ActivesPass comparison prevStat currStats := by
  have actives : ∀ result, prevStat.entries.foldlM (checkActive comparison currStats) result = .ok true ↔
      result = true ∧ ActivesPass comparison prevStat currStats := by
    intro result
    rw [foldlM_status_iff checkActive_iff]
    refine and_congr_right fun _ => ?_
    constructor
    · intro passes vb entry found
      exact passes ⟨vb, entry⟩ (AList.mem_lookup_iff.mp found)
    · intro passes stats member
      exact passes stats.1 stats.2 (AList.mem_lookup_iff.mpr member)
  rw [validateHistoryStartSeqnoStat, bind_eq_ok]
  simp only [Bool.false_eq_true, if_false, bind_eq_ok, actives]
  constructor
  · intro checked
    obtain ⟨first, prevChecked, second, currChecked, kept, passes⟩ := checked
    rw [kept, checkReplicas_iff] at currChecked
    rw [currChecked.1, checkReplicas_iff] at prevChecked
    exact ⟨⟨prevChecked.2, currChecked.2⟩, passes⟩
  · intro valid
    exact ⟨true, checkReplicas_iff.mpr ⟨rfl, valid.1.1⟩, true, checkReplicas_iff.mpr ⟨rfl, valid.1.2⟩,
      rfl, valid.2⟩

/-- The statistics of a bucket are collected and validated as promised exactly if it is on magma or has at most
one node. -/
theorem historyStats_iff {V : Type} (backend : StorageBackend) (kvNodes : KvNodes V backend)
    (prevStat currStats : StatDict ℕ) (comparison : Comparison) :
    (HistoryCollected backend kvNodes.nodes ∧
      (validateHistoryStartSeqnoStat prevStat currStats comparison false = .ok true ↔
        (ReplicasValid prevStat ∧ ReplicasValid currStats) ∧ ActivesPass comparison prevStat currStats)) ↔
      backend = .magma ∨ kvNodes.nodes.length ≤ 1 := by
  rw [historyCollected_iff]
  exact and_iff_left validate_iff

/-- What a node without a history knows of the vBucket 0 -/
def plainDetails : Details ℕ :=
  AList.singleton "0" ((AList.singleton "high_seqno" 5).insert "purge_seqno" 0)

theorem statOf_plainDetails : ∀ field ∈ backendFields .couchstore, (statOf plainDetails 0 field).isSome := by decide

def plainNode (activeList replicaList : List ℕ) (activeNodup : activeList.Nodup) (replicaNodup : replicaList.Nodup) :
    Node ℕ where
  details := fun _ => plainDetails
  activeList := activeList
  replicaList := replicaList
  activeNodup := activeNodup
  replicaNodup := replicaNodup

/-- A vBucket that is active on the first and replicated on the second of two nodes -/
def twoPlainNodes : KvNodes ℕ .couchstore where
  nodes := [plainNode [0] [] (by decide) (by decide), plainNode [] [0] (by decide) (by decide)]
  activeOnce := by decide
  activeSomewhere := by
    intro node member vb replica
    obtain rfl | rfl := List.mem_pair.mp member
    · exact absurd replica List.not_mem_nil
    · exact ⟨_, List.mem_cons_self, replica⟩
  complete := by
    intro node member vb listed
    obtain rfl | rfl := List.mem_pair.mp member
    · cases listed.resolve_right List.not_mem_nil with
      | head => exact statOf_plainDetails
      | tail _ member => exact absurd member List.not_mem_nil
    · cases listed.resolve_left List.not_mem_nil with
      | head => exact statOf_plainDetails
      | tail _ member => exact absurd member List.not_mem_nil

/-- The second node of a couchstore bucket raises. -/
theorem second_node_raises :
    ¬ ∀ (backend : StorageBackend) (kvNodes : KvNodes ℕ backend) (prevStat currStats : StatDict ℕ)
        (comparison : Comparison), HistoryCollected backend kvNodes.nodes ∧
      (validateHistoryStartSeqnoStat prevStat currStats comparison false = .ok true ↔
        (ReplicasValid prevStat ∧ ReplicasValid currStats) ∧ ActivesPass comparison prevStat currStats) := by
  intro promised
  have fits := (historyCollected_iff twoPlainNodes).mp (promised .couchstore twoPlainNodes ∅ ∅ .eq).1
  exact absurd fits (by decide)

end Taf.Stats.HistoryStats
