import Taf.Lib.PyText
import Taf.Lib.Visits
import Taf.Lib.Split
import Taf.Lib.Run
import Taf.Lib.Quota

/-! # The server groups of the nodes that come in

`RebalanceTask.add_nodes` takes the server groups one after the other and counts down how many nodes each of
them may still get.  It goes on to the next group when a count is zero after the countdown, so that a
group with the count zero keeps all nodes from then on. -/

namespace Taf.Tasks.ServerGroups

open Taf.Lib

/-- `TestInputServer` -/
structure Server where
  ip : String
  hostname : String
  port : String
  restUsername : String
  restPassword : String

/-- The lists of nodes of the cluster -/
structure Cluster where
  kvNodes : List Server
  indexNodes : List Server
  queryNodes : List Server
  cbasNodes : List Server
  eventingNodes : List Server
  ftsNodes : List Server
  backupNodes : List Server
  nodesInCluster : List Server

/-- The arguments of `rest.add_node` -/
structure Request where
  user : String
  password : String
  remoteIp : String
  port : String
  zoneName : Option String
  services : List String

/-- `services` is empty if there are none or if it is `None`. -/
structure RebalanceTask where
  servers : List Server
  toAdd : List Server
  useHostnames : Bool
  services : List String
  serverGroupsToAdd : AList fun _ : String => ℤ

/-- The part of `__init__` that sets `server_groups_to_add`; `none` is anything but a dictionary. -/
def RebalanceTask.init (servers toAdd : List Server) (useHostnames : Bool) (services : List String)
    (addNodesServerGroups : Option (AList fun _ : String => ℤ)) : Except PyError RebalanceTask :=
  match addNodesServerGroups with
  | none => .ok ⟨servers, toAdd, useHostnames, services, ∅⟩
  | some groups =>
    if (toAdd.length : ℤ) ≠ (groups.entries.map Sigma.snd).sum then
      .error (.runtimeError "Server group map != len(to_add) servers")
    else .ok ⟨servers, toAdd, useHostnames, services, groups⟩

/-- What the loop of `add_nodes` changes -/
structure Adding where
  serverGroupsToAdd : AList fun _ : String => ℤ
  serverGroupIndex : ℕ
  nodeIndex : ℕ
  servicesForNode : List String
  requests : List Request
  cluster : Cluster

/-- Logic to get the next server_group for the adding node -/
def nextServerGroup (serverGroups : List String) (s : Adding) : Except PyError (Option String × Adding) :=
  if serverGroups = [] then .ok (none, s)
  else
    match serverGroups[s.serverGroupIndex]? with
    | none => .error .indexError
    | some zoneName =>
      match s.serverGroupsToAdd.lookup zoneName with
      | none => .error .keyError
      | some count =>
        .ok (some zoneName, { s with
          serverGroupsToAdd := s.serverGroupsToAdd.insert zoneName (count - 1)
          serverGroupIndex := if count - 1 = 0 then s.serverGroupIndex + 1 else s.serverGroupIndex })

/-- The node is appended to the list of a service. -/
def Cluster.addService (cluster : Cluster) (node : Server) (service : String) : Cluster :=
  if service = "kv" then { cluster with kvNodes := cluster.kvNodes ++ [node] }
  else if service = "index" then { cluster with indexNodes := cluster.indexNodes ++ [node] }
  else if service = "n1ql" then { cluster with queryNodes := cluster.queryNodes ++ [node] }
  else if service = "cbas" then { cluster with cbasNodes := cluster.cbasNodes ++ [node] }
  else if service = "eventing" then { cluster with eventingNodes := cluster.eventingNodes ++ [node] }
  else if service = "fts" then { cluster with ftsNodes := cluster.ftsNodes ++ [node] }
  else if service = "backup" then { cluster with backupNodes := cluster.backupNodes ++ [node] }
  else cluster

/-- What becomes of the lists after a node was added -/
def Cluster.addNode (cluster : Cluster) (node : Server) (servicesForNode : List String) : Cluster :=
  let listed := (servicesForNode.flatMap (splitText ',')).foldl (fun cluster => cluster.addService node) cluster
  { listed with nodesInCluster := listed.nodesInCluster ++ [node] }

namespace RebalanceTask

variable (task : RebalanceTask) (sets : KeyOrder String) (addNode : List Request → Request → Except PyError Unit)

/-- The services for the next node -/
def nextServices (s : Adding) : Except PyError Adding :=
  if task.services = [] then .ok s
  else
    match task.services[s.nodeIndex]? with
    | none => .error .indexError
    | some services => .ok { s with servicesForNode := [services], nodeIndex := s.nodeIndex + 1 }

def request (master node : Server) (zoneName : Option String) (servicesForNode : List String) : Request :=
  { user := master.restUsername
    password := master.restPassword
    remoteIp := if task.useHostnames then node.hostname else node.ip
    port := node.port
    zoneName := zoneName
    services := servicesForNode }

/-- A round of the loop: what `addNode` does may depend on the requests before. -/
def addRound (master : Server) (s : Adding) (node : Server) : Except PyError Adding := do
  let (zoneName, s) ← nextServerGroup (sets.order task.serverGroupsToAdd.keys) s
  let s ← task.nextServices s
  let request := task.request master node zoneName s.servicesForNode
  addNode s.requests request
  return { s with
    requests := s.requests ++ [request]
    cluster := s.cluster.addNode node s.servicesForNode }

def start (cluster : Cluster) : Adding :=
  { serverGroupsToAdd := task.serverGroupsToAdd
    serverGroupIndex := 0
    nodeIndex := 0
    servicesForNode := ["kv"]
    requests := []
    cluster := cluster }

/-- `add_nodes`, with the requests in the order in which they are made -/
def addNodes (cluster : Cluster) : Except PyError Adding :=
  match task.servers with
  | [] => .error .indexError
  | master :: _ => task.toAdd.foldlM (task.addRound sets addNode master) (task.start cluster)

/-- It returns, and every server group has got as many nodes as its count says. -/
def PlacesExactly (cluster : Cluster) : Prop :=
  ∃ added, task.addNodes sets addNode cluster = .ok added ∧
    ∀ zoneName count, task.serverGroupsToAdd.lookup zoneName = some count →
      ((added.requests.map Request.zoneName).count (some zoneName) : ℤ) = count

/-! ## What the counts ask for -/

/-- The server groups in the order of the iteration, with their counts -/
def quotas : List (String × ℤ) :=
  (sets.order task.serverGroupsToAdd.keys).map fun zoneName =>
    (zoneName, (task.serverGroupsToAdd.lookup zoneName).getD 0)

/-- The services of the node at `index` -/
def servicesAt (index : ℕ) : List String :=
  if task.services = [] then ["kv"] else (task.services[index]?).toList

/-- The requests for nodes from `index` on, with their server groups -/
def requestsFor (master : Server) (index : ℕ) (placed : List (Server × String)) : List Request :=
  (placed.zipIdx index).map fun node =>
    task.request master node.1.1 (some node.1.2) (task.servicesAt node.2)

/-- The requests that give every server group its count -/
def wanted (master : Server) : List Request :=
  task.requestsFor master 0 (task.toAdd.zip (quotaNames (task.quotas sets)))

end RebalanceTask

/-- Each of the requests is accepted after the ones before it. -/
def Accepted (addNode : List Request → Request → Except PyError Unit) : List Request → List Request → Prop
  | _, [] => True
  | before, request :: later => addNode before request = .ok () ∧ Accepted addNode (before ++ [request]) later

section

variable {task : RebalanceTask} {sets : KeyOrder String} {addNode : List Request → Request → Except PyError Unit}
  {master node : Server} {nodes : List Server} {s next last : Adding} {left rest : List (String × ℤ)}
  {zoneName : String} {zones serverGroups : List String}

/-! ## One node -/

/-- The server groups that may still be taken, with what is left of their counts -/
structure Pending (serverGroups : List String) (s : Adding) (left : List (String × ℤ)) : Prop where
  groups : serverGroups.drop s.serverGroupIndex = left.map Prod.fst
  counts : ∀ quota ∈ left, s.serverGroupsToAdd.lookup quota.1 = some quota.2

/-- The services are as many nodes on as there are requests. -/
structure Ready (task : RebalanceTask) (s : Adding) : Prop where
  keyValue : task.services = [] → s.servicesForNode = ["kv"]
  nodeIndex : task.services ≠ [] → s.nodeIndex = s.requests.length
  enough : task.services = [] ∨ s.requests.length ≤ task.services.length

theorem Pending.group (pending : Pending serverGroups s left) (first : serve left = some (zoneName, rest)) :
    serverGroups[s.serverGroupIndex]? = some zoneName := by
  cases left with
  | nil => cases first
  | cons quota left =>
    cases first
    have head : (serverGroups.drop s.serverGroupIndex)[0]? = some quota.1 := by
      rw [pending.groups]
      rfl
    rwa [List.getElem?_drop, Nat.add_zero] at head

/-- What is done to the counts is what serving a quota does. -/
theorem nextServerGroup_eq (distinct : serverGroups.Nodup) (pending : Pending serverGroups s left)
    (first : serve left = some (zoneName, rest)) : ∃ counts index,
      nextServerGroup serverGroups s =
        .ok (some zoneName, { s with serverGroupsToAdd := counts, serverGroupIndex := index }) ∧
      Pending serverGroups { s with serverGroupsToAdd := counts, serverGroupIndex := index } rest := by
  have group := pending.group first
  have nonempty : serverGroups ≠ [] := by
    rintro rfl
    cases group
  cases left with
  | nil => cases first
  | cons quota left =>
    obtain ⟨name, count⟩ := quota
    have groups : serverGroups.drop s.serverGroupIndex = name :: left.map Prod.fst := pending.groups
    have found : s.serverGroupsToAdd.lookup name = some count := pending.counts (name, count) List.mem_cons_self
    have behind : ∀ quota ∈ left, quota.1 ≠ name := by
      have apart : (name :: left.map Prod.fst).Nodup := groups ▸ distinct.sublist (List.drop_sublist _ _)
      intro quota member same
      exact (List.nodup_cons.mp apart).1 (List.mem_map.mpr ⟨quota, member, same⟩)
    have others : ∀ quota ∈ left, (s.serverGroupsToAdd.insert name (count - 1)).lookup quota.1 = some quota.2 := by
      intro quota member
      rw [AList.lookup_insert_ne (behind quota member)]
      exact pending.counts quota (List.mem_cons_of_mem _ member)
    cases first
    rw [nextServerGroup, if_neg nonempty, group]
    simp only [found]
    refine ⟨_, _, rfl, ?_⟩
    -- the pointer moves on exactly where the quota leaves the queue
    by_cases zero : count - 1 = 0
    · rw [if_pos zero, if_pos zero]
      refine ⟨?_, others⟩
      rw [← List.tail_drop, groups, List.tail_cons]
    · rw [if_neg zero, if_neg zero]
      exact ⟨groups, List.forall_mem_cons.mpr ⟨AList.lookup_insert _, others⟩⟩

theorem nextServices_eq (ready : Ready task s) : task.nextServices s =
    if task.services = [] ∨ s.requests.length < task.services.length then
      .ok { s with
        servicesForNode := task.servicesAt s.requests.length
        nodeIndex := if task.services = [] then s.nodeIndex else s.requests.length + 1 }
    else .error .indexError := by
  rw [RebalanceTask.nextServices, RebalanceTask.servicesAt]
  by_cases none : task.services = []
  · simp [none, ← ready.keyValue none]
  · rw [if_neg none, if_neg none, if_neg none, ready.nodeIndex none]
    by_cases inside : s.requests.length < task.services.length
    · simp [inside]
    · simp [inside, none]

/-- A round serves a quota and makes one request. -/
theorem addRound_eq (pending : Pending (sets.order task.serverGroupsToAdd.keys) s left) (ready : Ready task s)
    (first : serve left = some (zoneName, rest)) : ∃ next,
      task.addRound sets addNode master s node =
        (if task.services = [] ∨ s.requests.length < task.services.length then
          (addNode s.requests (task.request master node (some zoneName) (task.servicesAt s.requests.length))).map fun _ => next
        else .error .indexError) ∧
      Pending (sets.order task.serverGroupsToAdd.keys) next rest ∧
      next.requests = s.requests ++ [task.request master node (some zoneName) (task.servicesAt s.requests.length)] ∧
      (task.services = [] ∨ s.requests.length < task.services.length → Ready task next) := by
  have distinct : (sets.order task.serverGroupsToAdd.keys).Nodup :=
    (sets.perm _).nodup_iff.mpr task.serverGroupsToAdd.keys_nodup
  obtain ⟨counts, index, grouped, pending⟩ := nextServerGroup_eq distinct pending first
  have stillReady : Ready task { s with serverGroupsToAdd := counts, serverGroupIndex := index } :=
    ⟨ready.keyValue, ready.nodeIndex, ready.enough⟩
  refine ⟨{ s with
    serverGroupsToAdd := counts
    serverGroupIndex := index
    servicesForNode := task.servicesAt s.requests.length
    nodeIndex := if task.services = [] then s.nodeIndex else s.requests.length + 1
    requests := s.requests ++ [task.request master node (some zoneName) (task.servicesAt s.requests.length)]
    cluster := s.cluster.addNode node (task.servicesAt s.requests.length) }, ?_, ⟨pending.groups, pending.counts⟩, rfl, ?_⟩
  · rw [RebalanceTask.addRound, grouped]
    simp only [bind, Except.bind, nextServices_eq stillReady]
    by_cases served : task.services = [] ∨ s.requests.length < task.services.length
    · simp only [if_pos served]
      rfl
    · simp only [if_neg served]
  · intro served
    constructor
    · intro none
      simp [RebalanceTask.servicesAt, none]
    · intro some
      simp [some]
    · refine served.imp_right fun inside => ?_
      simpa using inside

/-- What a round that returns has done -/
theorem addRound_ok (pending : Pending (sets.order task.serverGroupsToAdd.keys) s left) (ready : Ready task s)
    (first : serve left = some (zoneName, rest)) (stepped : task.addRound sets addNode master s node = .ok next) :
    addNode s.requests (task.request master node (some zoneName) (task.servicesAt s.requests.length)) = .ok () ∧
      Pending (sets.order task.serverGroupsToAdd.keys) next rest ∧ Ready task next ∧
      next.requests = s.requests ++ [task.request master node (some zoneName) (task.servicesAt s.requests.length)] := by
  obtain ⟨made, round, pending, requests, isReady⟩ := addRound_eq pending ready first
  rw [round] at stepped
  split at stepped
  case isFalse => cases stepped
  case isTrue inside =>
    cases answer : addNode s.requests (task.request master node (some zoneName) (task.servicesAt s.requests.length)) with
    | error e =>
      rw [answer] at stepped
      cases stepped
    | ok =>
      rw [answer] at stepped
      cases stepped
      exact ⟨rfl, pending, isReady inside, requests⟩

/-! ## All nodes -/

theorem requestsFor_cons {index : ℕ} {placed : List (Server × String)} :
    task.requestsFor master index ((node, zoneName) :: placed) =
      task.request master node (some zoneName) (task.servicesAt index) :: task.requestsFor master (index + 1) placed := by
  simp [RebalanceTask.requestsFor, List.zipIdx_cons]

theorem requestsFor_zones {index : ℕ} {placed : List (Server × String)} :
    (task.requestsFor master index placed).map Request.zoneName = (placed.map Prod.snd).map some := by
  induction placed generalizing index with
  | nil => rfl
  | cons first placed ih =>
    rw [requestsFor_cons, List.map_cons, ih]
    rfl

/-- What a loop that returns has asked for -/
theorem run_ok (pending : Pending (sets.order task.serverGroupsToAdd.keys) s left) (ready : Ready task s)
    (done : served nodes.length left = some zones)
    (returned : nodes.foldlM (task.addRound sets addNode master) s = .ok last) :
    (task.services = [] ∨ s.requests.length + nodes.length ≤ task.services.length) ∧
      Accepted addNode s.requests (task.requestsFor master s.requests.length (nodes.zip zones)) ∧
      last.requests = s.requests ++ task.requestsFor master s.requests.length (nodes.zip zones) := by
  induction nodes generalizing s left zones with
  | nil =>
    cases returned
    exact ⟨ready.enough, trivial, (List.append_nil _).symm⟩
  | cons node nodes ih =>
    obtain ⟨zoneName, rest, others, first, later, rfl⟩ := serve_isSome_of_served done
    rw [List.foldlM_cons, bind_eq_ok] at returned
    obtain ⟨next, stepped, returned⟩ := returned
    obtain ⟨answer, pending, ready, requests⟩ := addRound_ok pending ready first stepped
    obtain ⟨enough, accepted, whole⟩ := ih pending ready later returned
    rw [requests, List.length_append, List.length_singleton] at enough accepted whole
    rw [List.zip_cons_cons, requestsFor_cons]
    refine ⟨?_, ⟨answer, accepted⟩, ?_⟩
    · rw [List.length_cons]
      exact enough.imp_right fun bound => by omega
    · rw [whole, List.append_assoc, List.singleton_append]

/-- With services for all nodes, and all requests accepted, the loop returns. -/
theorem run_returns (pending : Pending (sets.order task.serverGroupsToAdd.keys) s left) (ready : Ready task s)
    (done : served nodes.length left = some zones)
    (enough : task.services = [] ∨ s.requests.length + nodes.length ≤ task.services.length)
    (accepted : Accepted addNode s.requests (task.requestsFor master s.requests.length (nodes.zip zones))) :
    ∃ last, nodes.foldlM (task.addRound sets addNode master) s = .ok last := by
  induction nodes generalizing s left zones with
  | nil => exact ⟨s, rfl⟩
  | cons node nodes ih =>
    obtain ⟨zoneName, rest, others, first, later, rfl⟩ := serve_isSome_of_served done
    obtain ⟨next, round, pending, requests, isReady⟩ := addRound_eq pending ready first
    rw [List.zip_cons_cons, requestsFor_cons] at accepted
    obtain ⟨answer, accepted⟩ := accepted
    rw [List.length_cons] at enough
    have inside : task.services = [] ∨ s.requests.length < task.services.length :=
      enough.imp_right fun bound => by omega
    have length : next.requests.length = s.requests.length + 1 := by
      rw [requests, List.length_append, List.length_singleton]
    rw [List.foldlM_cons, round, if_pos inside, answer]
    refine ih pending (isReady inside) later ?_ ?_
    · rw [length]
      exact enough.imp_right fun bound => by omega
    · rw [length, requests]
      exact accepted

/-- After some of the nodes the groups that may still be taken serve the others. -/
theorem run_pending {n : ℕ} (pending : Pending (sets.order task.serverGroupsToAdd.keys) s left) (ready : Ready task s)
    (done : served (nodes.length + n) left = some zones)
    (returned : nodes.foldlM (task.addRound sets addNode master) s = .ok last) : ∃ left' others,
      Pending (sets.order task.serverGroupsToAdd.keys) last left' ∧ served n left' = some others := by
  induction nodes generalizing s left zones with
  | nil =>
    cases returned
    rw [List.length_nil, Nat.zero_add] at done
    exact ⟨left, zones, pending, done⟩
  | cons node nodes ih =>
    rw [List.length_cons, Nat.add_right_comm] at done
    obtain ⟨zoneName, rest, others, first, later, rfl⟩ := serve_isSome_of_served done
    rw [List.foldlM_cons, bind_eq_ok] at returned
    obtain ⟨next, stepped, returned⟩ := returned
    obtain ⟨_, pending, ready, _⟩ := addRound_ok pending ready first stepped
    exact ih pending ready later returned

/-! ## The counts -/

theorem mem_quotas {count : ℤ} : (zoneName, count) ∈ task.quotas sets ↔ task.serverGroupsToAdd.lookup zoneName = some count := by
  rw [RebalanceTask.quotas, List.mem_map]
  constructor
  · rintro ⟨name, member, same⟩
    obtain ⟨found, isFound⟩ := Option.isSome_iff_exists.mp (AList.lookup_isSome.mpr (mem_order.mp member))
    rw [isFound] at same
    cases same
    exact isFound
  · intro found
    refine ⟨zoneName, mem_order.mpr (AList.lookup_isSome.mp (Option.isSome_of_eq_some found)), ?_⟩
    rw [found]
    rfl

theorem quotas_names : (task.quotas sets).map Prod.fst = sets.order task.serverGroupsToAdd.keys := by
  simp [RebalanceTask.quotas, Function.comp_def]

theorem sum_quotas : ((task.quotas sets).map Prod.snd).sum = (task.serverGroupsToAdd.entries.map Sigma.snd).sum := by
  have counts : (task.quotas sets).map Prod.snd =
      (sets.order task.serverGroupsToAdd.keys).map fun zoneName => (task.serverGroupsToAdd.lookup zoneName).getD 0 := by
    simp [RebalanceTask.quotas, Function.comp_def]
  have entries : task.serverGroupsToAdd.entries.map Sigma.snd =
      task.serverGroupsToAdd.keys.map fun zoneName => (task.serverGroupsToAdd.lookup zoneName).getD 0 := by
    rw [AList.keys, List.keys, List.map_map]
    refine List.map_congr_left fun entry member => ?_
    have found : task.serverGroupsToAdd.lookup entry.1 = some entry.2 := AList.mem_lookup_iff.mpr member
    simp [found]
  rw [counts, entries]
  exact ((sets.perm _).map _).sum_eq

theorem start_pending {cluster : Cluster} :
    Pending (sets.order task.serverGroupsToAdd.keys) (task.start cluster) (task.quotas sets) :=
  ⟨quotas_names.symm, fun _ member => mem_quotas.mp member⟩

theorem start_ready {cluster : Cluster} : Ready task (task.start cluster) :=
  ⟨fun _ => rfl, fun _ => rfl, .inr (Nat.zero_le _)⟩

section Built

variable {servers toAdd : List Server} {useHostnames : Bool} {services : List String}
  {groups : AList fun _ : String => ℤ} {cluster : Cluster}

theorem init_ok : RebalanceTask.init servers toAdd useHostnames services (some groups) = .ok task ↔
    task = ⟨servers, toAdd, useHostnames, services, groups⟩ ∧ (toAdd.length : ℤ) = (groups.entries.map Sigma.snd).sum := by
  rw [RebalanceTask.init]
  split
  · simp_all
  · simp_all [eq_comm]

/-- The counts of a task fit the nodes. -/
theorem fills_quotas (built : RebalanceTask.init servers toAdd useHostnames services (some groups) = .ok task)
    (natural : ∀ zoneName count, groups.lookup zoneName = some count → 0 ≤ count) :
    Fills (task.quotas sets) task.toAdd.length := by
  obtain ⟨rfl, sum⟩ := init_ok.mp built
  refine ⟨fun quota member => natural quota.1 quota.2 (mem_quotas.mp member), ?_⟩
  rw [sum_quotas]
  exact sum

/-- The pointer is never behind the list of the server groups when a node is to be added. -/
theorem serverGroup_inside (built : RebalanceTask.init servers toAdd useHostnames services (some groups) = .ok task)
    (natural : ∀ zoneName count, groups.lookup zoneName = some count → 0 ≤ count) {before after : List Server}
    (split : task.toAdd = before ++ node :: after)
    (returned : before.foldlM (task.addRound sets addNode master) (task.start cluster) = .ok s) :
    s.serverGroupIndex < (sets.order task.serverGroupsToAdd.keys).length := by
  have fills : Fills (task.quotas sets) task.toAdd.length := fills_quotas built natural
  have done := served_eq_shares fills
  rw [split, List.length_append, List.length_cons] at done
  obtain ⟨left, others, pending, later⟩ := run_pending start_pending start_ready done returned
  obtain ⟨zoneName, rest, _, first, _, _⟩ := serve_isSome_of_served later
  exact (List.getElem?_eq_some_iff.mp (pending.group first)).1

/-- What `add_nodes` asks for if it returns -/
theorem addNodes_ok (fills : Fills (task.quotas sets) task.toAdd.length) {added : Adding}
    (returned : task.addNodes sets addNode cluster = .ok added) : ∃ master, task.servers.head? = some master ∧
      (task.services = [] ∨ task.toAdd.length ≤ task.services.length) ∧
      Accepted addNode [] (task.requestsFor master 0 (task.toAdd.zip (shares (task.quotas sets) task.toAdd.length))) ∧
      added.requests.map Request.zoneName = (shares (task.quotas sets) task.toAdd.length).map some := by
  have done := served_eq_shares fills
  rw [RebalanceTask.addNodes] at returned
  split at returned
  case h_1 => cases returned
  case h_2 master others isServers =>
    obtain ⟨enough, accepted, requests⟩ := run_ok start_pending start_ready done returned
    refine ⟨master, by rw [isServers]; rfl, ?_, accepted, ?_⟩
    · simpa [RebalanceTask.start] using enough
    · rw [requests, RebalanceTask.start, List.nil_append, requestsFor_zones,
        List.map_snd_zip (length_of_served done).le]

theorem addNodes_returns (fills : Fills (task.quotas sets) task.toAdd.length) (isMaster : task.servers.head? = some master)
    (enough : task.services = [] ∨ task.toAdd.length ≤ task.services.length)
    (accepted : Accepted addNode [] (task.requestsFor master 0 (task.toAdd.zip (shares (task.quotas sets) task.toAdd.length)))) :
    ∃ added, task.addNodes sets addNode cluster = .ok added := by
  obtain ⟨others, isServers⟩ := List.head?_eq_some_iff.mp isMaster
  rw [RebalanceTask.addNodes, isServers]
  refine run_returns start_pending start_ready (served_eq_shares fills) ?_ accepted
  simpa [RebalanceTask.start] using enough

/-- Every server group gets its count exactly if no count of zero comes before another one, there are services
    for all nodes, and the nodes can be added. -/
theorem placesExactly_iff (built : RebalanceTask.init servers toAdd useHostnames services (some groups) = .ok task)
    (natural : ∀ zoneName count, groups.lookup zoneName = some count → 0 ≤ count) :
    task.PlacesExactly sets addNode cluster ↔ ∃ master, task.servers.head? = some master ∧
      ZerosLast (task.quotas sets) ∧ (task.services = [] ∨ task.toAdd.length ≤ task.services.length) ∧
        Accepted addNode [] (task.wanted sets master) := by
  have fills : Fills (task.quotas sets) task.toAdd.length := fills_quotas built natural
  have distinct : ((task.quotas sets).map Prod.fst).Nodup := by
    rw [quotas_names]
    exact (sets.perm _).nodup_iff.mpr task.serverGroupsToAdd.keys_nodup
  have countSome : ∀ zoneName, ((shares (task.quotas sets) task.toAdd.length).map some).count (some zoneName) =
      (shares (task.quotas sets) task.toAdd.length).count zoneName := fun zoneName =>
    List.count_map_of_injective _ _ (Option.some_injective _) zoneName
  constructor
  · rintro ⟨added, returned, counts⟩
    obtain ⟨master, isMaster, enough, accepted, zones⟩ := addNodes_ok fills returned
    -- the run asks for the shares, whatever the order is; they are the counts only if it is right
    have ordered : ZerosLast (task.quotas sets) := by
      refine (shares_exact_iff fills distinct).mp fun quota member => ?_
      rw [← countSome, ← zones]
      exact counts quota.1 quota.2 (mem_quotas.mp member)
    rw [shares_of_zerosLast fills ordered] at accepted
    exact ⟨master, isMaster, ordered, enough, accepted⟩
  · rintro ⟨master, isMaster, ordered, enough, accepted⟩
    rw [RebalanceTask.wanted, ← shares_of_zerosLast fills ordered] at accepted
    obtain ⟨added, returned⟩ := addNodes_returns fills isMaster enough accepted
    refine ⟨added, returned, fun zoneName count found => ?_⟩
    obtain ⟨_, _, _, _, zones⟩ := addNodes_ok fills returned
    rw [zones, countSome]
    exact (shares_exact_iff fills distinct).mpr ordered (zoneName, count) (mem_quotas.mpr found)

end Built

end

/-! ## Two server groups -/

def someNode (ip : String) : Server := ⟨ip, ip, "8091", "Administrator", "password"⟩

def emptyCluster : Cluster := ⟨[], [], [], [], [], [], [], []⟩

def twoGroups (first second : ℤ) : AList fun _ : String => ℤ :=
  ((∅ : AList fun _ : String => ℤ).insert "AZ_2" second).insert "AZ_1" first

def someTask (toAdd : List Server) (groups : AList fun _ : String => ℤ) : RebalanceTask :=
  ⟨[someNode "10.0.0.1"], toAdd, false, [], groups⟩

/-- One node for each of them -/
theorem one_for_each : (someTask [someNode "10.0.0.2", someNode "10.0.0.3"] (twoGroups 1 1)).PlacesExactly
    KeyOrder.plain (fun _ _ => .ok ()) emptyCluster := by
  have built : RebalanceTask.init [someNode "10.0.0.1"] [someNode "10.0.0.2", someNode "10.0.0.3"] false []
      (some (twoGroups 1 1)) = .ok (someTask [someNode "10.0.0.2", someNode "10.0.0.3"] (twoGroups 1 1)) := rfl
  have natural : ∀ zoneName count, (twoGroups 1 1).lookup zoneName = some count → 0 ≤ count := by
    intro zoneName count found
    rw [twoGroups, lookup_insert_eq_some, lookup_insert_eq_some] at found
    rcases found with ⟨_, rfl⟩ | ⟨_, ⟨_, rfl⟩ | ⟨_, impossible⟩⟩
    · decide
    · decide
    · cases impossible
  refine (placesExactly_iff built natural).mpr ⟨_, rfl, ?_, .inl rfl, rfl, rfl, trivial⟩
  exact List.pairwise_of_forall_mem_list (by decide)

/-- The first group should get no node, and it gets the one that there is. -/
theorem zero_gets_all : RebalanceTask.init [someNode "10.0.0.1"] [someNode "10.0.0.2"] false [] (some (twoGroups 0 1)) =
      .ok (someTask [someNode "10.0.0.2"] (twoGroups 0 1)) ∧
    ¬ (someTask [someNode "10.0.0.2"] (twoGroups 0 1)).PlacesExactly KeyOrder.plain (fun _ _ => .ok ()) emptyCluster := by
  refine ⟨rfl, ?_⟩
  rintro ⟨added, returned, counts⟩
  cases returned
  exact absurd (counts "AZ_1" 0 rfl) (by decide)

end Taf.Tasks.ServerGroups
