import Taf.Lib.Run

/-! # The vBuckets of each server

`BucketHelper._get_vbuckets` gives every server two lists of vBuckets.  A row of the vBucketMap names by
its entries the servers that hold the vBucket, the active one first; the code reads the positions of a
row as the servers and the entries as their roles. -/

namespace Taf.VBucketServers

open Taf.Lib

structure Server where
  ip : String
  deriving DecidableEq

/-- `ip.split(":")[0]` -/
def host (entry : String) : String := String.ofList (entry.toList.takeWhile (· ≠ ':'))

/-- The servers that are asked for, and the part of `vBucketServerMap` that is read.  The servers have
    addresses without a colon, since of an IPv6 address `host` keeps the front alone. -/
structure Query where
  servers : List Server
  distinct : (servers.map Server.ip).Nodup
  serverList : List String
  named : ∀ entry ∈ serverList, host entry ∈ servers.map Server.ip
  apart : (serverList.map host).Nodup
  vBucketMap : List (List ℤ)
  valid : ∀ row ∈ vBucketMap, ∀ entry ∈ row, entry = -1 ∨ (0 ≤ entry ∧ entry < serverList.length)
  once : ∀ row ∈ vBucketMap, (row.filter (· ≠ -1)).Nodup

structure VBuckets where
  activeVb : List ℕ
  replicaVb : List ℕ

/-- One entry of a row: nothing happens where there is no target server. -/
def placeEntry (target : List Server) (vbNum : ℕ) (found : Server → VBuckets) (entry : ℤ × ℕ) :
    Server → VBuckets :=
  match target[entry.2]? with
  | none => found
  | some server =>
    let own := found server
    if entry.1 = 0 then
      Function.update found server { own with activeVb := own.activeVb ++ [vbNum] }
    else if entry.1 > 0 then
      Function.update found server { own with replicaVb := own.replicaVb ++ [vbNum] }
    else found

namespace Query

variable (query : Query)

def targetServer : List Server :=
  (query.serverList.map host).flatMap fun name => query.servers.filter fun server => server.ip = name

/-- `_get_vbuckets` -/
def getVbuckets : Server → VBuckets :=
  query.vBucketMap.zipIdx.foldl (fun found row =>
    row.1.zipIdx.foldl (placeEntry query.targetServer row.2) found) fun _ => ⟨[], []⟩

/-- The index of a server in `serverList` -/
def Indexed (server : Server) (index : ℕ) : Prop :=
  (query.serverList.map host)[index]? = some server.ip

/-- Every server has exactly the vBuckets that name it first as active ones, and those that name it later
    as replicas. -/
def Attributed : Prop := ∀ server ∈ query.servers, ∀ vb,
  (vb ∈ (query.getVbuckets server).activeVb ↔ ∃ row index,
    query.vBucketMap[vb]? = some row ∧ query.Indexed server index ∧ row[0]? = some (index : ℤ)) ∧
  (vb ∈ (query.getVbuckets server).replicaVb ↔ ∃ row index later,
    query.vBucketMap[vb]? = some row ∧ query.Indexed server index ∧ row[later + 1]? = some (index : ℤ))

/-- A row where positions and entries come to the same: a position below the number of servers holds
    a server exactly if the row names the server of this index, and the first server stands where the
    first entry says. -/
def Mirrored (row : List ℤ) : Prop := ∀ index < query.serverList.length,
  ((∃ entry ≥ 0, row[index]? = some entry) ↔ (index : ℤ) ∈ row) ∧
    (row[index]? = some 0 ↔ row[0]? = some (index : ℤ))

end Query

/-! ## What the loops collect -/

inductive Role where
  | active | replica

def VBuckets.of (found : VBuckets) : Role → List ℕ
  | .active => found.activeVb
  | .replica => found.replicaVb

/-- The entries that stand for a role -/
def Role.Entry : Role → ℤ → Prop
  | .active, entry => entry = 0
  | .replica, entry => entry > 0

theorem mem_placeEntry (target : List Server) (vbNum : ℕ) (found : Server → VBuckets) (entry : ℤ × ℕ)
    (server : Server) (role : Role) (vb : ℕ) : vb ∈ (placeEntry target vbNum found entry server).of role ↔
      vb ∈ (found server).of role ∨ (vb = vbNum ∧ target[entry.2]? = some server ∧ role.Entry entry.1) := by
  rw [placeEntry]
  cases held : target[entry.2]? with
  | none => simp
  | some holder =>
    by_cases same : holder = server
    · subst same
      by_cases active : entry.1 = 0
      · cases role <;> simp [active, VBuckets.of, Role.Entry]
      · by_cases replica : entry.1 > 0 <;> cases role <;> simp [active, replica, VBuckets.of, Role.Entry]
    · have other : server ≠ holder := Ne.symm same
      simp only [Option.some_inj, same, false_and, and_false, or_false]
      split
      · rw [Function.update_of_ne other]
      · split
        · rw [Function.update_of_ne other]
        · rfl

namespace Query

variable (query : Query)

theorem mem_getVbuckets (server : Server) (role : Role) (vb : ℕ) : vb ∈ (query.getVbuckets server).of role ↔
    ∃ (row : List ℤ) (index : ℕ) (entry : ℤ), query.vBucketMap[vb]? = some row ∧
      query.targetServer[index]? = some server ∧ row[index]? = some entry ∧ role.Entry entry := by
  rw [getVbuckets]
  let shows (found : Server → VBuckets) : Prop := vb ∈ (found server).of role
  have row (found : Server → VBuckets) (row : List ℤ × ℕ) :=
    @foldl_shows_iff _ _ _ shows _
      (fun found entry => mem_placeEntry query.targetServer row.2 found entry server role vb)
      row.1.zipIdx found
  apply (@foldl_shows_iff _ _ _ shows _ row _ _).trans
  have start : vb ∉ (⟨[], []⟩ : VBuckets).of role := by
    cases role <;> exact List.not_mem_nil
  simp only [shows, start, false_or]
  constructor
  · intro ⟨⟨row, vbNum⟩, listed, ⟨entry, index⟩, own, same, held, fits⟩
    subst same
    exact ⟨row, index, entry, List.mem_zipIdx_iff_getElem?.mp listed, held, List.mem_zipIdx_iff_getElem?.mp own, fits⟩
  · intro ⟨row, index, entry, listed, held, own, fits⟩
    exact ⟨(row, vb), List.mem_zipIdx_iff_getElem?.mpr listed, (entry, index), List.mem_zipIdx_iff_getElem?.mpr own,
      rfl, held, fits⟩

/-- The target servers are those of `serverList`, in its order. -/
theorem targetServer_iff (server : Server) (index : ℕ) :
    query.targetServer[index]? = some server ↔ server ∈ query.servers ∧ query.Indexed server index := by
  -- Addresses are distinct, so each name finds one server.
  have alone (server : Server) (known : server ∈ query.servers) :
      query.servers.filter (fun other => other.ip = server.ip) = [server] := by
    have same : ∀ other ∈ query.servers, (decide (other.ip = server.ip)) = (other == server) := by
      intro other member
      rw [Bool.eq_iff_iff, decide_eq_true_iff, beq_iff_eq]
      exact ⟨fun equal => List.inj_on_of_nodup_map query.distinct member known equal, congrArg Server.ip⟩
    rw [List.filter_congr same, List.filter_beq, List.count_eq_one_of_mem query.distinct.of_map known]
    rfl
  have general (names : List String) (known : ∀ name ∈ names, name ∈ query.servers.map Server.ip) (index : ℕ) :
      (names.flatMap fun name => query.servers.filter fun server => server.ip = name)[index]? = some server ↔
        server ∈ query.servers ∧ names[index]? = some server.ip := by
    induction names generalizing index with
    | nil => simp
    | cons name names ih =>
      obtain ⟨first, inside, rfl⟩ := List.mem_map.mp (known name List.mem_cons_self)
      rw [List.flatMap_cons, alone first inside, List.singleton_append]
      cases index with
      | zero =>
        rw [List.getElem?_cons_zero, List.getElem?_cons_zero, Option.some_inj, Option.some_inj]
        constructor
        · intro same
          subst same
          exact ⟨inside, rfl⟩
        · intro ⟨member, same⟩
          exact List.inj_on_of_nodup_map query.distinct inside member same
      | succ index => exact ih (fun other member => known other (List.mem_cons_of_mem _ member)) index
  apply general
  intro name member
  obtain ⟨entry, listed, rfl⟩ := List.mem_map.mp member
  exact query.named entry listed

/-! ## Rows where both readings agree -/

/-- What the code reads in a row about the server of an index is what the row says about it. -/
def ReadsRight (row : List ℤ) (index : ℕ) : Prop :=
  (row[index]? = some 0 ↔ row[0]? = some (index : ℤ)) ∧
    ((∃ entry > 0, row[index]? = some entry) ↔ ∃ later : ℕ, row[later + 1]? = some (index : ℤ))

theorem mem_row_iff {row : List ℤ} {entry : ℤ} :
    entry ∈ row ↔ row[0]? = some entry ∨ ∃ later : ℕ, row[later + 1]? = some entry := by
  rw [List.mem_iff_getElem?]
  constructor
  · intro ⟨position, found⟩
    cases position with
    | zero => exact Or.inl found
    | succ later => exact Or.inr ⟨later, found⟩
  · intro found
    rcases found with first | ⟨later, found⟩
    · exact ⟨0, first⟩
    · exact ⟨later + 1, found⟩

/-- No server stands in a row twice. -/
theorem position_unique {row : List ℤ} (once : (row.filter (· ≠ -1)).Nodup) {index first second : ℕ}
    (found : row[first]? = some (index : ℤ)) (again : row[second]? = some (index : ℤ)) : first = second := by
  induction row generalizing first second with
  | nil => simp at found
  | cons entry row ih =>
    have rest : (row.filter (· ≠ -1)).Nodup := once.sublist ((List.sublist_cons_self entry row).filter _)
    -- The head is not among the entries that follow.
    have apart {later : ℕ} (head : entry = index) (named : row[later]? = some (index : ℤ)) : False := by
      have kept : entry ≠ -1 := by omega
      rw [List.filter_cons_of_pos (by simpa using kept), List.nodup_cons] at once
      exact once.1 (List.mem_filter.mpr ⟨head ▸ List.mem_of_getElem? named, by simpa using kept⟩)
    cases first with
    | zero =>
      cases second with
      | zero => rfl
      | succ second => exact (apart (by simpa using found) again).elim
    | succ first =>
      cases second with
      | zero => exact (apart (by simpa using again) found).elim
      | succ second => rw [ih rest found again]

theorem mirrored_iff {row : List ℤ} (once : (row.filter (· ≠ -1)).Nodup) :
    query.Mirrored row ↔ ∀ index < query.serverList.length, ReadsRight row index := by
  apply forall₂_congr
  intro index _
  rw [mem_row_iff, ReadsRight]
  constructor
  · intro ⟨held, first⟩
    refine ⟨first, ?_⟩
    constructor
    · intro ⟨entry, positive, own⟩
      apply (held.mp ⟨entry, le_of_lt positive, own⟩).resolve_left
      intro named
      rw [first.mpr named, Option.some_inj] at own
      omega
    · intro ⟨later, named⟩
      obtain ⟨entry, nonneg, own⟩ := held.mpr (Or.inr ⟨later, named⟩)
      refine ⟨entry, lt_of_le_of_ne nonneg ?_, own⟩
      intro zero
      subst zero
      cases position_unique once (first.mp own) named
  · intro ⟨first, later⟩
    refine ⟨?_, first⟩
    constructor
    · intro ⟨entry, nonneg, own⟩
      by_cases zero : entry = 0
      · subst zero
        exact Or.inl (first.mp own)
      · exact Or.inr (later.mp ⟨entry, lt_of_le_of_ne nonneg (Ne.symm zero), own⟩)
    · intro named
      rcases named with named | named
      · exact ⟨0, le_refl 0, first.mpr named⟩
      · obtain ⟨entry, positive, own⟩ := later.mpr named
        exact ⟨entry, le_of_lt positive, own⟩

theorem indexed_unique {server : Server} {first second : ℕ} (one : query.Indexed server first)
    (other : query.Indexed server second) : first = second := by
  have inside := (List.getElem?_eq_some_iff.mp one).1
  exact (List.getElem?_inj inside query.apart).mp (one.trans other.symm)

/-- Every server of `serverList` is asked for. -/
theorem exists_indexed {index : ℕ} (small : index < query.serverList.length) :
    ∃ server ∈ query.servers, query.Indexed server index := by
  obtain ⟨server, member, same⟩ := List.mem_map.mp (query.named _ (List.getElem_mem small))
  refine ⟨server, member, ?_⟩
  rw [Indexed, List.getElem?_map, List.getElem?_eq_getElem small, Option.map_some, same]

theorem index_small {server : Server} {index : ℕ} (indexed : query.Indexed server index) :
    index < query.serverList.length := by
  have inside := (List.getElem?_eq_some_iff.mp indexed).1
  rwa [List.length_map] at inside

/-- The lists that the code gives to a server of `serverList` -/
theorem mem_of_indexed {server : Server} (member : server ∈ query.servers) {index : ℕ}
    (indexed : query.Indexed server index) (role : Role) (vb : ℕ) : vb ∈ (query.getVbuckets server).of role ↔
      ∃ row : List ℤ, query.vBucketMap[vb]? = some row ∧ ∃ entry, row[index]? = some entry ∧ role.Entry entry := by
  rw [mem_getVbuckets]
  constructor
  · intro ⟨row, position, entry, listed, held, own, fits⟩
    rw [query.indexed_unique indexed ((query.targetServer_iff server position).mp held).2]
    exact ⟨row, listed, entry, own, fits⟩
  · intro ⟨row, listed, entry, own, fits⟩
    exact ⟨row, index, entry, listed, (query.targetServer_iff server index).mpr ⟨member, indexed⟩, own, fits⟩

/-- What is attributed to a server of `serverList` is decided row by row. -/
theorem attributed_server_iff {server : Server} (member : server ∈ query.servers) {index : ℕ}
    (indexed : query.Indexed server index) (vb : ℕ) :
    ((vb ∈ (query.getVbuckets server).activeVb ↔ ∃ row index,
        query.vBucketMap[vb]? = some row ∧ query.Indexed server index ∧ row[0]? = some (index : ℤ)) ∧
      (vb ∈ (query.getVbuckets server).replicaVb ↔ ∃ row index later,
        query.vBucketMap[vb]? = some row ∧ query.Indexed server index ∧ row[later + 1]? = some (index : ℤ))) ↔
    ∀ row, query.vBucketMap[vb]? = some row → ReadsRight row index := by
  have active := query.mem_of_indexed member indexed .active vb
  have replica := query.mem_of_indexed member indexed .replica vb
  have only (other : ℕ) : query.Indexed server other ↔ other = index :=
    ⟨fun again => query.indexed_unique again indexed, fun same => same ▸ indexed⟩
  simp only [VBuckets.of, Role.Entry] at active replica
  rw [active, replica]
  simp only [only]
  cases query.vBucketMap[vb]? with
  | none => simp
  | some row => simp [ReadsRight, and_comm]

/-- The servers have their vBuckets exactly if positions and entries come to the same in every row. -/
theorem attributed_iff : query.Attributed ↔ ∀ row ∈ query.vBucketMap, query.Mirrored row := by
  constructor
  · intro attributed row listed
    rw [query.mirrored_iff (query.once row listed)]
    intro index small
    obtain ⟨server, member, indexed⟩ := query.exists_indexed small
    obtain ⟨vb, place⟩ := List.mem_iff_getElem?.mp listed
    exact (query.attributed_server_iff member indexed vb).mp (attributed server member vb) row place
  · intro mirrored server member vb
    by_cases named : ∃ index, query.Indexed server index
    · obtain ⟨index, indexed⟩ := named
      rw [query.attributed_server_iff member indexed vb]
      intro row place
      have listed := List.mem_of_getElem? place
      exact (query.mirrored_iff (query.once row listed)).mp (mirrored row listed) index (query.index_small indexed)
    · -- A server that the bucket is not on has no vBuckets.
      have nothing (role : Role) : vb ∉ (query.getVbuckets server).of role := by
        intro given
        obtain ⟨_, index, _, _, held, _, _⟩ := (query.mem_getVbuckets server role vb).mp given
        exact named ⟨index, ((query.targetServer_iff server index).mp held).2⟩
      refine ⟨?_, ?_⟩
      · refine iff_of_false (nothing .active) ?_
        intro ⟨_, index, _, indexed, _⟩
        exact named ⟨index, indexed⟩
      · refine iff_of_false (nothing .replica) ?_
        intro ⟨_, index, _, _, indexed, _⟩
        exact named ⟨index, indexed⟩

end Query

/-- Two servers with one vBucket each, without replicas -/
def twoServers : Query where
  servers := [⟨"10.1.1.1"⟩, ⟨"10.1.1.2"⟩]
  distinct := by decide
  serverList := ["10.1.1.1:11210", "10.1.1.2:11210"]
  named := by decide
  apart := by decide
  vBucketMap := [[0], [1]]
  valid := by decide
  once := by decide

/-- The vBucket of the second server becomes a replica of the first one. -/
theorem twoServers_misread : ¬ twoServers.Attributed := by
  rw [Query.attributed_iff]
  intro mirrored
  have second := (mirrored [1] (by decide) 1 (by decide)).1
  have held := second.mpr (by decide)
  simp at held

end Taf.VBucketServers
