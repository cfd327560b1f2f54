import Taf.Lib.Run
import Taf.Lib.Dict

/-! # The SDK client pool

`SDKClientPool` keeps, for a bucket, its idle and its busy clients and one entry per
`scope + collection` that counts the tasks sharing the client of that collection.  The
bodies under the bucket's lock are the steps, so a list of calls is one interleaving of
any number of tasks.  `Session` puts the acquisitions that are still outstanding beside
the pool: they are what the entries and the bindings of the clients are compared with. -/

namespace Taf.Sdk

open Taf.Lib

/-! ## The pool of one bucket -/

/-- What `select_collection` sets. -/
structure SDKClient where
  scopeName : String := "_default"
  collectionName : String := "_default"
  deriving DecidableEq

def SDKClient.colName (client : SDKClient) : String :=
  client.scopeName ++ client.collectionName

/-- The dictionary kept under `scope + collection`. -/
structure CollectionRef where
  client : Nat
  counter : Int
  deriving DecidableEq

/-- `self.clients[bucket.name]`; clients are numbered in the order of their creation. -/
structure SDKClientPool where
  -- `bucket.name in self.clients`
  known : Bool := false
  lockHeld : Bool := false
  idleClients : List Nat := []
  busyClients : List Nat := []
  refs : AList fun _ : String => CollectionRef := ∅
  sdkClients : Nat → SDKClient := fun _ => {}
  created : Nat := 0

/-- The keys of the dictionary that are not collections. -/
def reservedKeys : List String := ["lock", "idle_clients", "busy_clients"]

inductive Got where
  | client (client : Nat)
  -- The bucket has no pool.
  | none
  -- No client is free, or the lock is taken: the loop tries again.
  | waiting
  | raised
  deriving DecidableEq

inductive Released where
  | returned
  | waiting
  | raised
  deriving DecidableEq

namespace SDKClientPool

variable (pool : SDKClientPool)

def createClients (reqClients : Int) : SDKClientPool :=
  { pool with
    known := true
    idleClients := pool.idleClients ++ List.range' pool.created reqClients.toNat
    created := pool.created + reqClients.toNat }

/-- One round of the loop in `get_client_for_bucket`.  On a reserved key the subscript
    `["client"]` raises with the lock taken, and nobody gives it back. -/
def getClientForBucket (scope collection : String) : Got × SDKClientPool :=
  let colName := scope ++ collection
  if !pool.known then (.none, pool)
  else if pool.lockHeld then (.waiting, pool)
  else if colName ∈ reservedKeys then (.raised, { pool with lockHeld := true })
  else match pool.refs.lookup colName with
    | some ref =>
      (.client ref.client,
        { pool with refs := pool.refs.insert colName { ref with counter := ref.counter + 1 } })
    | none =>
      match pool.idleClients.getLast? with
      | some client =>
        (.client client,
          { pool with
            idleClients := pool.idleClients.dropLast
            busyClients := pool.busyClients ++ [client]
            refs := pool.refs.insert colName ⟨client, 1⟩
            sdkClients := Function.update pool.sdkClients client ⟨scope, collection⟩ })
      | none => (.waiting, pool)

def releaseClient (client : Nat) : Released × SDKClientPool :=
  let colName := (pool.sdkClients client).colName
  if !pool.known then (.returned, pool)
  else if pool.lockHeld then (.waiting, pool)
  else match pool.refs.lookup colName with
    | none => (.raised, { pool with lockHeld := true })
    | some ref =>
      if ref.counter = 1 then
        if client ∈ pool.busyClients then
          (.returned,
            { pool with
              idleClients := pool.idleClients ++ [client]
              busyClients := pool.busyClients.erase client
              refs := pool.refs.erase colName })
        else (.raised, { pool with lockHeld := true, refs := pool.refs.erase colName })
      else
        (.returned,
          { pool with refs := pool.refs.insert colName { ref with counter := ref.counter - 1 } })

end SDKClientPool

/-! ## Tasks that use the pool -/

/-- A client as a task got it: for which collection it had asked. -/
structure Acquisition where
  client : Nat
  scope : String
  collection : String
  deriving DecidableEq

structure Session where
  pool : SDKClientPool := {}
  held : List Acquisition := []

inductive PoolCall where
  | createClients (reqClients : Int)
  | getClientForBucket (scope collection : String)
  | releaseClient (acquisition : Acquisition)
  deriving DecidableEq

namespace Session

def step (s : Session) : PoolCall → Session
  | .createClients reqClients => { s with pool := s.pool.createClients reqClients }
  | .getClientForBucket scope collection =>
    match s.pool.getClientForBucket scope collection with
    | (.client client, pool) => ⟨pool, s.held ++ [⟨client, scope, collection⟩]⟩
    | (_, pool) => { s with pool := pool }
  | .releaseClient acquisition =>
    match s.pool.releaseClient acquisition.client with
    | (.returned, pool) => ⟨pool, s.held.erase acquisition⟩
    | (_, pool) => { s with pool := pool }

/-- A task releases only what it holds. -/
def ReleasesHeld (s : Session) : PoolCall → Prop
  | .releaseClient acquisition => acquisition ∈ s.held
  | _ => True

instance (s : Session) (call : PoolCall) : Decidable (s.ReleasesHeld call) := by
  cases call <;> (unfold ReleasesHeld; infer_instance)

def outstanding (s : Session) (client : Nat) : Nat :=
  s.held.countP fun acquisition => acquisition.client == client

/-- What holds in every state that tasks can bring about. -/
structure Inv (s : Session) : Prop where
  idleNodup : s.pool.idleClients.Nodup
  busyNodup : s.pool.busyClients.Nodup
  disjoint : ∀ client ∈ s.pool.idleClients, client ∉ s.pool.busyClients
  created : ∀ client, client < s.pool.created ↔
    client ∈ s.pool.idleClients ∨ client ∈ s.pool.busyClients
  -- Only a bucket with a pool has clients.
  known : s.pool.known = false → s.pool.created = 0
  refClient : ∀ key ref, s.pool.refs.lookup key = some ref →
    ref.client ∈ s.pool.busyClients ∧ (s.pool.sdkClients ref.client).colName = key
  refCounter : ∀ key ref, s.pool.refs.lookup key = some ref →
    ref.counter = s.outstanding ref.client ∧ 1 ≤ ref.counter
  busyRef : ∀ client ∈ s.pool.busyClients,
    ∃ ref, s.pool.refs.lookup (s.pool.sdkClients client).colName = some ref ∧
      ref.client = client
  heldBusy : ∀ acquisition ∈ s.held, acquisition.client ∈ s.pool.busyClients
  heldKey : ∀ acquisition ∈ s.held,
    (s.pool.sdkClients acquisition.client).colName =
      acquisition.scope ++ acquisition.collection
  unreserved : ∀ key ∈ reservedKeys, s.pool.refs.lookup key = none

theorem outstanding_append (pool : SDKClientPool) (held : List Acquisition) (taken : Acquisition)
    (client : Nat) :
    outstanding ⟨pool, held ++ [taken]⟩ client =
      outstanding ⟨pool, held⟩ client + if taken.client = client then 1 else 0 := by
  by_cases same : taken.client = client <;> simp [outstanding, List.countP_append, same]

theorem outstanding_erase (pool : SDKClientPool) {held : List Acquisition} {given : Acquisition}
    (member : given ∈ held) (client : Nat) :
    outstanding ⟨pool, held⟩ client =
      outstanding ⟨pool, held.erase given⟩ client + if given.client = client then 1 else 0 := by
  have permuted := (List.perm_cons_erase member).countP_eq
    fun acquisition : Acquisition => acquisition.client == client
  rw [List.countP_cons] at permuted
  simpa [outstanding] using permuted

/-! ### What one call can do -/

section Cases

variable (pool : SDKClientPool) (scope collection : String)

/-- A round of `get_client_for_bucket` returns no client, shares the one of the entry,
    or binds the last idle one. -/
theorem getClientForBucket_cases :
    (∃ got lockHeld, (∀ client, got ≠ .client client) ∧
      (scope ++ collection ∉ reservedKeys → lockHeld = pool.lockHeld) ∧
      (pool.known = true → pool.lockHeld = false → scope ++ collection ∉ reservedKeys →
        pool.refs.lookup (scope ++ collection) = none) ∧
      pool.getClientForBucket scope collection = (got, { pool with lockHeld := lockHeld })) ∨
    (∃ ref, pool.refs.lookup (scope ++ collection) = some ref ∧ pool.lockHeld = false ∧
      pool.getClientForBucket scope collection =
        (.client ref.client,
          { pool with
            refs := pool.refs.insert (scope ++ collection)
              { ref with counter := ref.counter + 1 } })) ∨
    (∃ rest client, pool.idleClients = rest ++ [client] ∧ scope ++ collection ∉ reservedKeys ∧
      pool.known = true ∧ pool.refs.lookup (scope ++ collection) = none ∧
      pool.getClientForBucket scope collection =
        (.client client,
          { pool with
            idleClients := rest
            busyClients := pool.busyClients ++ [client]
            refs := pool.refs.insert (scope ++ collection) ⟨client, 1⟩
            sdkClients := Function.update pool.sdkClients client ⟨scope, collection⟩ })) := by
  simp only [SDKClientPool.getClientForBucket]
  split
  · rename_i unknown
    refine .inl ⟨.none, pool.lockHeld, by simp, fun _ => rfl, ?_, rfl⟩
    intro known
    simp [known] at unknown
  rename_i known
  split
  · rename_i locked
    refine .inl ⟨.waiting, pool.lockHeld, by simp, fun _ => rfl, ?_, rfl⟩
    intro _ free
    simp [free] at locked
  rename_i free
  split
  · rename_i reserved
    refine .inl ⟨.raised, true, by simp, ?_, ?_, rfl⟩
    · exact fun unreserved => absurd reserved unreserved
    · exact fun _ _ unreserved => absurd reserved unreserved
  rename_i unreserved
  split
  · rename_i ref found
    exact .inr (.inl ⟨ref, found, by simpa using free, rfl⟩)
  rename_i absent
  split
  · rename_i client last
    obtain ⟨rest, split⟩ := List.getLast?_eq_some_iff.mp last
    refine .inr (.inr ⟨rest, client, split, unreserved, by simpa using known, absent, ?_⟩)
    rw [split, List.dropLast_concat]
  · exact .inl ⟨.waiting, pool.lockHeld, by simp, fun _ => rfl, fun _ _ _ => absent, rfl⟩

end Cases

/-- Releasing a client that is held never raises: it waits for the lock, gives the client
    back to the idle ones, or counts down. -/
theorem releaseClient_cases {s : Session} (inv : s.Inv) {given : Acquisition}
    (held : given ∈ s.held) :
    s.pool.releaseClient given.client = (.waiting, s.pool) ∨
    ∃ ref, s.pool.refs.lookup (s.pool.sdkClients given.client).colName = some ref ∧
      ref.client = given.client ∧
      ((ref.counter = 1 ∧ s.pool.releaseClient given.client =
          (.returned,
            { s.pool with
              idleClients := s.pool.idleClients ++ [given.client]
              busyClients := s.pool.busyClients.erase given.client
              refs := s.pool.refs.erase (s.pool.sdkClients given.client).colName })) ∨
        (ref.counter ≠ 1 ∧ s.pool.releaseClient given.client =
          (.returned,
            { s.pool with
              refs := s.pool.refs.insert (s.pool.sdkClients given.client).colName
                { ref with counter := ref.counter - 1 } }))) := by
  have busy := inv.heldBusy given held
  obtain ⟨ref, found, sameClient⟩ := inv.busyRef given.client busy
  have known : s.pool.known = true := by
    by_contra unknown
    have none := inv.known (by simpa using unknown)
    have := (inv.created given.client).mpr (.inr busy)
    omega
  simp only [SDKClientPool.releaseClient, known, found, busy]
  by_cases locked : s.pool.lockHeld = true
  · exact .inl (by simp [locked])
  refine .inr ⟨ref, rfl, sameClient, ?_⟩
  by_cases last : ref.counter = 1
  · exact .inl ⟨last, by simp [locked, last]⟩
  · exact .inr ⟨last, by simp [locked, last]⟩

/-! ### Every call keeps the invariant -/

theorem Inv.empty : Inv {} where
  idleNodup := List.nodup_nil
  busyNodup := List.nodup_nil
  disjoint := by simp
  created := by simp
  known := by simp
  refClient := by simp
  refCounter := by simp
  busyRef := by simp
  heldBusy := by simp
  heldKey := by simp
  unreserved := by simp

theorem Inv.createClients {s : Session} (inv : s.Inv) (reqClients : Int) :
    Inv { s with pool := s.pool.createClients reqClients } where
  idleNodup := by
    refine List.nodup_append.mpr ⟨inv.idleNodup, List.nodup_range', ?_⟩
    intro old oldIdle new newIdle same
    have older := (inv.created old).mpr (.inl oldIdle)
    have newer := (List.mem_range'_1.mp newIdle).1
    omega
  busyNodup := inv.busyNodup
  disjoint := by
    intro client idle busy
    have older := (inv.created client).mpr (.inr busy)
    cases List.mem_append.mp idle with
    | inl old => exact inv.disjoint client old busy
    | inr new =>
      have newer := (List.mem_range'_1.mp new).1
      omega
  created := by
    intro client
    simp only [SDKClientPool.createClients, List.mem_append, List.mem_range'_1]
    rw [or_right_comm, ← inv.created client]
    omega
  known := by simp [SDKClientPool.createClients]
  refClient := inv.refClient
  refCounter := inv.refCounter
  busyRef := inv.busyRef
  heldBusy := inv.heldBusy
  heldKey := inv.heldKey
  unreserved := inv.unreserved

/-- The lock is not part of what the invariant compares. -/
theorem Inv.lock {s : Session} (inv : s.Inv) (lockHeld : Bool) :
    Inv { s with pool := { s.pool with lockHeld := lockHeld } } :=
  { inv with }

/-- Entries of different keys have different clients. -/
theorem Inv.ref_client_ne {s : Session} (inv : s.Inv) {key : String} {ref : CollectionRef}
    {client : Nat} (present : s.pool.refs.lookup key = some ref)
    (different : key ≠ (s.pool.sdkClients client).colName) : client ≠ ref.client := by
  intro same
  apply different
  rw [← (inv.refClient key ref present).2, same]

/-! An entry whose counter changes keeps its key and its client. -/

section Counter

variable {s : Session} {key : String} {ref : CollectionRef}

theorem Inv.refClient_counter (inv : s.Inv) (found : s.pool.refs.lookup key = some ref)
    (counter : Int) {other : String} {entry : CollectionRef}
    (present : (s.pool.refs.insert key { ref with counter := counter }).lookup other = some entry) :
    entry.client ∈ s.pool.busyClients ∧ (s.pool.sdkClients entry.client).colName = other := by
  cases lookup_insert_eq_some.mp present with
  | inl this =>
    obtain ⟨rfl, rfl⟩ := this
    exact inv.refClient _ ref found
  | inr old => exact inv.refClient other entry old.2

theorem Inv.busyRef_counter (inv : s.Inv) (found : s.pool.refs.lookup key = some ref)
    (counter : Int) {client : Nat} (busy : client ∈ s.pool.busyClients) :
    ∃ entry, (s.pool.refs.insert key { ref with counter := counter }).lookup
        (s.pool.sdkClients client).colName = some entry ∧ entry.client = client := by
  obtain ⟨old, oldFound, oldClient⟩ := inv.busyRef client busy
  by_cases same : (s.pool.sdkClients client).colName = key
  · rw [same, found, Option.some.injEq] at oldFound
    refine ⟨{ ref with counter := counter }, ?_, ?_⟩
    · exact lookup_insert_eq_some.mpr (.inl ⟨same, rfl⟩)
    · rw [← oldClient, ← oldFound]
  · exact ⟨old, lookup_insert_eq_some.mpr (.inr ⟨same, oldFound⟩), oldClient⟩

theorem Inv.unreserved_counter (inv : s.Inv) (found : s.pool.refs.lookup key = some ref)
    (counter : Int) {other : String} (reserved : other ∈ reservedKeys) :
    (s.pool.refs.insert key { ref with counter := counter }).lookup other = none := by
  have none := inv.unreserved other reserved
  refine AList.lookup_insert_eq_none.mpr ⟨?_, none⟩
  intro same
  rw [same, found] at none
  cases none

/-- A release of one client does not change the count of another. -/
theorem Inv.refCounter_erase (inv : s.Inv) {given : Acquisition} (held : given ∈ s.held)
    (found : s.pool.refs.lookup key = some ref)
    (different : key ≠ (s.pool.sdkClients given.client).colName) (pool : SDKClientPool) :
    ref.counter = outstanding ⟨pool, s.held.erase given⟩ ref.client ∧ 1 ≤ ref.counter := by
  have count := outstanding_erase s.pool held ref.client
  rw [if_neg (inv.ref_client_ne found different)] at count
  obtain ⟨oldCount, positive⟩ := inv.refCounter key ref found
  simp only [outstanding] at oldCount count ⊢
  omega

end Counter

/-- The client of an entry gets one more holder. -/
theorem Inv.share {s : Session} (inv : s.Inv) {scope collection : String} {ref : CollectionRef}
    (found : s.pool.refs.lookup (scope ++ collection) = some ref) :
    Inv ⟨{ s.pool with
        refs := s.pool.refs.insert (scope ++ collection) { ref with counter := ref.counter + 1 } },
      s.held ++ [⟨ref.client, scope, collection⟩]⟩ := by
  obtain ⟨refBusy, refKey⟩ := inv.refClient _ _ found
  obtain ⟨refCount, refPositive⟩ := inv.refCounter _ _ found
  exact
    { inv with
      refClient := fun _ _ present => inv.refClient_counter found _ present
      refCounter := by
        intro key other present
        rw [outstanding_append]
        cases lookup_insert_eq_some.mp present with
        | inl this =>
          obtain ⟨rfl, rfl⟩ := this
          simp only [outstanding] at refCount ⊢
          simp only [if_true]
          omega
        | inr old =>
          obtain ⟨different, old⟩ := old
          obtain ⟨count, positive⟩ := inv.refCounter key other old
          have notShared : ref.client ≠ other.client := inv.ref_client_ne old (refKey.symm ▸ different)
          rw [if_neg notShared]
          exact ⟨count, positive⟩
      busyRef := fun _ busy => inv.busyRef_counter found _ busy
      heldBusy := by
        intro acquisition held
        cases List.mem_append.mp held with
        | inl old => exact inv.heldBusy acquisition old
        | inr new =>
          rw [List.mem_singleton.mp new]
          exact refBusy
      heldKey := by
        intro acquisition held
        cases List.mem_append.mp held with
        | inl old => exact inv.heldKey acquisition old
        | inr new =>
          rw [List.mem_singleton.mp new]
          exact refKey
      unreserved := fun _ reserved => inv.unreserved_counter found _ reserved }

/-- The last idle client is bound to the collection and gets its first holder. -/
theorem Inv.bind {s : Session} (inv : s.Inv) {scope collection : String} {rest : List Nat}
    {client : Nat} (idle : s.pool.idleClients = rest ++ [client])
    (unreserved : scope ++ collection ∉ reservedKeys) (known : s.pool.known = true)
    (absent : s.pool.refs.lookup (scope ++ collection) = none) :
    Inv ⟨{ s.pool with
        idleClients := rest
        busyClients := s.pool.busyClients ++ [client]
        refs := s.pool.refs.insert (scope ++ collection) ⟨client, 1⟩
        sdkClients := Function.update s.pool.sdkClients client ⟨scope, collection⟩ },
      s.held ++ [⟨client, scope, collection⟩]⟩ := by
  have wasIdle : client ∈ s.pool.idleClients := by simp [idle]
  have notBusy := inv.disjoint client wasIdle
  have idleNodup := inv.idleNodup
  rw [idle, List.nodup_append] at idleNodup
  have notRest : client ∉ rest := by
    intro again
    exact idleNodup.2.2 client again client List.mem_cons_self rfl
  have busyNe : ∀ other ∈ s.pool.busyClients, other ≠ client := by
    intro other busy same
    exact notBusy (same ▸ busy)
  have notHeld : outstanding s client = 0 := by
    refine List.countP_eq_zero.mpr ?_
    intro acquisition held same
    exact busyNe _ (inv.heldBusy acquisition held) (by simpa using same)
  exact
    { idleNodup := idleNodup.1
      busyNodup := by
        refine List.nodup_append.mpr ⟨inv.busyNodup, List.nodup_singleton client, ?_⟩
        intro other busy _ new
        rw [List.mem_singleton.mp new]
        exact busyNe other busy
      disjoint := by
        intro other stillIdle busy
        cases List.mem_append.mp busy with
        | inl old => exact inv.disjoint other (by simp [idle, stillIdle]) old
        | inr new => exact notRest (List.mem_singleton.mp new ▸ stillIdle)
      created := by
        intro other
        rw [inv.created other, idle]
        simp only [List.mem_append, List.mem_singleton]
        tauto
      known := by
        intro unknown
        rw [known] at unknown
        cases unknown
      refClient := by
        intro key ref present
        cases lookup_insert_eq_some.mp present with
        | inl this =>
          obtain ⟨rfl, rfl⟩ := this
          simp [SDKClient.colName]
        | inr old =>
          obtain ⟨busy, keyOf⟩ := inv.refClient key ref old.2
          refine ⟨List.mem_append_left _ busy, ?_⟩
          simp only [Function.update_of_ne (busyNe _ busy), keyOf]
      refCounter := by
        intro key ref present
        rw [outstanding_append]
        cases lookup_insert_eq_some.mp present with
        | inl this =>
          obtain ⟨rfl, rfl⟩ := this
          simp only [outstanding] at notHeld ⊢
          simp [notHeld]
        | inr old =>
          obtain ⟨count, positive⟩ := inv.refCounter key ref old.2
          rw [if_neg (busyNe _ (inv.refClient key ref old.2).1).symm]
          exact ⟨count, positive⟩
      busyRef := by
        intro other busy
        cases List.mem_append.mp busy with
        | inl old =>
          obtain ⟨ref, found, same⟩ := inv.busyRef other old
          refine ⟨ref, lookup_insert_eq_some.mpr (.inr ?_), same⟩
          dsimp only
          rw [Function.update_of_ne (busyNe other old)]
          refine ⟨?_, found⟩
          intro sameKey
          rw [sameKey, absent] at found
          cases found
        | inr new =>
          rw [List.mem_singleton.mp new]
          refine ⟨⟨client, 1⟩, lookup_insert_eq_some.mpr (.inl ⟨?_, rfl⟩), rfl⟩
          dsimp only
          rw [Function.update_self]
          rfl
      heldBusy := by
        intro acquisition held
        cases List.mem_append.mp held with
        | inl old => exact List.mem_append_left _ (inv.heldBusy acquisition old)
        | inr new =>
          rw [List.mem_singleton.mp new]
          simp
      heldKey := by
        intro acquisition held
        cases List.mem_append.mp held with
        | inl old =>
          simp only [Function.update_of_ne (busyNe _ (inv.heldBusy acquisition old)),
            inv.heldKey acquisition old]
        | inr new =>
          rw [List.mem_singleton.mp new]
          simp [SDKClient.colName]
      unreserved := by
        intro key reserved
        have different : key ≠ scope ++ collection := by
          intro same
          exact unreserved (same ▸ reserved)
        simp only [AList.lookup_insert_ne different, inv.unreserved key reserved] }

/-- One holder of several gives the client back. -/
theorem Inv.unshare {s : Session} (inv : s.Inv) {given : Acquisition} (held : given ∈ s.held)
    {ref : CollectionRef}
    (found : s.pool.refs.lookup (s.pool.sdkClients given.client).colName = some ref)
    (sameClient : ref.client = given.client) (several : ref.counter ≠ 1) :
    Inv ⟨{ s.pool with
        refs := s.pool.refs.insert (s.pool.sdkClients given.client).colName
          { ref with counter := ref.counter - 1 } }, s.held.erase given⟩ := by
  obtain ⟨refCount, refPositive⟩ := inv.refCounter _ _ found
  have counts := outstanding_erase s.pool held
  exact
    { inv with
      refClient := fun _ _ present => inv.refClient_counter found _ present
      refCounter := by
        intro key other present
        cases lookup_insert_eq_some.mp present with
        | inl this =>
          obtain ⟨rfl, rfl⟩ := this
          have count := counts ref.client
          rw [if_pos sameClient.symm] at count
          simp only [outstanding] at refCount count ⊢
          omega
        | inr old => exact inv.refCounter_erase held old.2 old.1 _
      busyRef := fun _ busy => inv.busyRef_counter found _ busy
      heldBusy := fun acquisition still => inv.heldBusy acquisition (List.mem_of_mem_erase still)
      heldKey := fun acquisition still => inv.heldKey acquisition (List.mem_of_mem_erase still)
      unreserved := fun _ reserved => inv.unreserved_counter found _ reserved }

/-- The last holder gives the client back and its entry goes. -/
theorem Inv.unbind {s : Session} (inv : s.Inv) {given : Acquisition} (held : given ∈ s.held)
    {ref : CollectionRef}
    (found : s.pool.refs.lookup (s.pool.sdkClients given.client).colName = some ref)
    (sameClient : ref.client = given.client) (last : ref.counter = 1) :
    Inv ⟨{ s.pool with
        idleClients := s.pool.idleClients ++ [given.client]
        busyClients := s.pool.busyClients.erase given.client
        refs := s.pool.refs.erase (s.pool.sdkClients given.client).colName },
      s.held.erase given⟩ := by
  have wasBusy := inv.heldBusy given held
  have counts := outstanding_erase s.pool held
  have noneLeft : ∀ acquisition ∈ s.held.erase given, acquisition.client ≠ given.client := by
    have count := counts given.client
    rw [if_pos rfl] at count
    have refCount := (inv.refCounter _ _ found).1
    rw [sameClient] at refCount
    have zero : outstanding ⟨s.pool, s.held.erase given⟩ given.client = 0 := by
      simp only [outstanding] at refCount count ⊢
      omega
    intro acquisition still same
    exact List.countP_eq_zero.mp zero acquisition still (by simpa using same)
  have stillBusy : ∀ client, client ∈ s.pool.busyClients.erase given.client ↔
      client ≠ given.client ∧ client ∈ s.pool.busyClients := by
    intro client
    exact inv.busyNodup.mem_erase_iff
  exact
    { idleNodup := by
        refine List.nodup_append.mpr ⟨inv.idleNodup, List.nodup_singleton _, ?_⟩
        intro other idle _ new same
        rw [List.mem_singleton.mp new] at same
        exact inv.disjoint other idle (same ▸ wasBusy)
      busyNodup := inv.busyNodup.erase _
      disjoint := by
        intro other idle busy
        obtain ⟨different, busy⟩ := (stillBusy other).mp busy
        cases List.mem_append.mp idle with
        | inl old => exact inv.disjoint other old busy
        | inr new => exact different (List.mem_singleton.mp new)
      created := by
        intro other
        rw [inv.created other]
        simp only [stillBusy, List.mem_append, List.mem_singleton]
        by_cases same : other = given.client
        · simp [same, wasBusy]
        · simp [same]
      known := inv.known
      refClient := by
        intro key other present
        obtain ⟨different, old⟩ := lookup_erase_eq_some.mp present
        obtain ⟨busy, keyOf⟩ := inv.refClient key other old
        exact ⟨(stillBusy _).mpr ⟨(inv.ref_client_ne old different).symm, busy⟩, keyOf⟩
      refCounter := by
        intro key other present
        obtain ⟨different, old⟩ := lookup_erase_eq_some.mp present
        exact inv.refCounter_erase held old different _
      busyRef := by
        intro client busy
        obtain ⟨different, busy⟩ := (stillBusy client).mp busy
        obtain ⟨old, oldFound, oldClient⟩ := inv.busyRef client busy
        refine ⟨old, lookup_erase_eq_some.mpr ⟨?_, oldFound⟩, oldClient⟩
        intro same
        rw [same, found, Option.some.injEq] at oldFound
        apply different
        rw [← oldClient, ← oldFound, sameClient]
      heldBusy := by
        intro acquisition still
        exact (stillBusy _).mpr
          ⟨noneLeft acquisition still, inv.heldBusy acquisition (List.mem_of_mem_erase still)⟩
      heldKey := fun acquisition still => inv.heldKey acquisition (List.mem_of_mem_erase still)
      unreserved := by
        intro key reserved
        have none := inv.unreserved key reserved
        have different : key ≠ (s.pool.sdkClients given.client).colName := by
          intro same
          rw [same, found] at none
          cases none
        simp only [AList.lookup_erase_ne different, none] }

theorem Inv.step {s : Session} (inv : s.Inv) {call : PoolCall} (allowed : s.ReleasesHeld call) :
    Inv (s.step call) := by
  cases call with
  | createClients reqClients => exact inv.createClients reqClients
  | getClientForBucket scope collection =>
    obtain ⟨got, lockHeld, noClient, -, -, outcome⟩ | ⟨ref, found, -, outcome⟩ |
        ⟨rest, client, idle, unreserved, known, absent, outcome⟩ :=
      getClientForBucket_cases s.pool scope collection
    · cases got with
      | client client => exact absurd rfl (noClient client)
      | none | waiting | raised =>
        simp only [Session.step, outcome]
        exact inv.lock lockHeld
    · simp only [Session.step, outcome]
      exact inv.share found
    · simp only [Session.step, outcome]
      exact inv.bind idle unreserved known absent
  | releaseClient given =>
    obtain outcome | ⟨ref, found, sameClient, ⟨last, outcome⟩ | ⟨several, outcome⟩⟩ :=
      releaseClient_cases inv allowed
    · simp only [Session.step, outcome]
      exact inv
    · simp only [Session.step, outcome]
      exact inv.unbind allowed found sameClient last
    · simp only [Session.step, outcome]
      exact inv.unshare allowed found sameClient several

/-! ## Conservation -/

structure Conserved (s : Session) : Prop where
  idleNodup : s.pool.idleClients.Nodup
  busyNodup : s.pool.busyClients.Nodup
  disjoint : s.pool.idleClients.Disjoint s.pool.busyClients
  clients : ∀ client, client ∈ s.pool.idleClients ∨ client ∈ s.pool.busyClients ↔
    client < s.pool.created
  busyRef : ∀ client, client ∈ s.pool.busyClients ↔
    ∃! key, ∃ ref, s.pool.refs.lookup key = some ref ∧ ref.client = client
  counter : ∀ key ref, s.pool.refs.lookup key = some ref →
    ref.counter = s.outstanding ref.client ∧ 1 ≤ ref.counter
  allReleased : s.held = [] →
    (∀ client, client ∈ s.pool.idleClients ↔ client < s.pool.created) ∧
      s.pool.busyClients = [] ∧ ∀ key, s.pool.refs.lookup key = none

theorem Inv.busy_iff_ref {s : Session} (inv : s.Inv) (client : Nat) :
    client ∈ s.pool.busyClients ↔
      ∃! key, ∃ ref, s.pool.refs.lookup key = some ref ∧ ref.client = client := by
  constructor
  · intro busy
    refine ⟨(s.pool.sdkClients client).colName, inv.busyRef client busy, ?_⟩
    intro key ⟨ref, found, same⟩
    rw [← same, (inv.refClient key ref found).2]
  · intro ⟨key, ⟨ref, found, same⟩, _⟩
    rw [← same]
    exact (inv.refClient key ref found).1

theorem Inv.conserved {s : Session} (inv : s.Inv) : s.Conserved where
  idleNodup := inv.idleNodup
  busyNodup := inv.busyNodup
  disjoint := fun _ idle busy => inv.disjoint _ idle busy
  clients := fun client => (inv.created client).symm
  busyRef := inv.busy_iff_ref
  counter := inv.refCounter
  allReleased := by
    intro released
    -- An entry would count an acquisition that nobody has.
    have noRefs : ∀ key, s.pool.refs.lookup key = none := by
      intro key
      by_contra present
      obtain ⟨ref, found⟩ := Option.ne_none_iff_exists'.mp present
      obtain ⟨count, positive⟩ := inv.refCounter key ref found
      simp only [outstanding, released, List.countP_nil] at count
      omega
    have noBusy : s.pool.busyClients = [] := by
      refine List.eq_nil_iff_forall_not_mem.mpr ?_
      intro client busy
      obtain ⟨ref, found, _⟩ := inv.busyRef client busy
      rw [noRefs] at found
      cases found
    refine ⟨?_, noBusy, noRefs⟩
    intro client
    rw [inv.created client, noBusy]
    simp

def Unreserved : PoolCall → Prop
  | .getClientForBucket scope collection => scope ++ collection ∉ reservedKeys
  | _ => True

instance (call : PoolCall) : Decidable (Unreserved call) := by
  cases call <;> (unfold Unreserved; infer_instance)

/-- Nobody leaves with the lock. -/
theorem lockHeld_step {s : Session} (inv : s.Inv) {call : PoolCall}
    (allowed : s.ReleasesHeld call) (unreserved : Unreserved call) :
    (s.step call).pool.lockHeld = s.pool.lockHeld := by
  cases call with
  | createClients reqClients => rfl
  | getClientForBucket scope collection =>
    obtain ⟨got, lockHeld, noClient, same, -, outcome⟩ | ⟨ref, -, -, outcome⟩ |
        ⟨rest, client, -, -, -, -, outcome⟩ :=
      getClientForBucket_cases s.pool scope collection
    · cases got with
      | client client => exact absurd rfl (noClient client)
      | none | waiting | raised =>
        simp only [Session.step, outcome]
        exact same unreserved
    · simp only [Session.step, outcome]
    · simp only [Session.step, outcome]
  | releaseClient given =>
    obtain outcome | ⟨ref, found, sameClient, ⟨last, outcome⟩ | ⟨several, outcome⟩⟩ :=
      releaseClient_cases inv allowed
    · simp only [Session.step, outcome]
    · simp only [Session.step, outcome]
    · simp only [Session.step, outcome]

theorem conserved_of_run {calls : List PoolCall}
    (guarded : Guarded step (fun s call => s.ReleasesHeld call ∧ Unreserved call) {} calls) :
    (run step {} calls).Conserved ∧ (run step {} calls).pool.lockHeld = false := by
  have reached : (run step {} calls).Inv ∧ (run step {} calls).pool.lockHeld = false := by
    refine @Guarded.invariant _ _ step _ (fun s => s.Inv ∧ s.pool.lockHeld = false)
      ?_ _ ⟨Inv.empty, rfl⟩ _ guarded
    intro s call ⟨inv, free⟩ ⟨allowed, unreserved⟩
    refine ⟨inv.step allowed, ?_⟩
    rw [lockHeld_step inv allowed unreserved, free]
  exact ⟨reached.1.conserved, reached.2⟩

/-- Two tasks share a client, a third one has to wait, and both give it back. -/
def sharingRun : List PoolCall :=
  [.createClients 1, .getClientForBucket "s" "c", .getClientForBucket "s" "c",
    .getClientForBucket "s" "d", .releaseClient ⟨0, "s", "c"⟩, .releaseClient ⟨0, "s", "c"⟩]

theorem conserved_of_sharingRun :
    (run step {} sharingRun).Conserved ∧ (run step {} sharingRun).pool.lockHeld = false :=
  conserved_of_run (by decide)

/-! ## Binding -/

/-- Every holder has a client that is bound to the collection it asked for. -/
structure CorrectlyBound (s : Session) : Prop where
  bound : ∀ acquisition ∈ s.held,
    (s.pool.sdkClients acquisition.client).scopeName = acquisition.scope ∧
      (s.pool.sdkClients acquisition.client).collectionName = acquisition.collection
  unshared : ∀ one ∈ s.held, ∀ other ∈ s.held, one.client = other.client →
    one.scope = other.scope ∧ one.collection = other.collection

/-- A request whose scope and collection, written together, read like those of another
    acquisition that is still outstanding, is for the same scope and collection. -/
def Distinguished (s : Session) : PoolCall → Prop
  | .getClientForBucket scope collection =>
    s.pool.lockHeld = false → ∀ acquisition ∈ s.held,
      acquisition.scope ++ acquisition.collection = scope ++ collection →
        acquisition.scope = scope ∧ acquisition.collection = collection
  | _ => True

theorem correctlyBound_of_bound {s : Session}
    (bound : ∀ acquisition ∈ s.held,
      s.pool.sdkClients acquisition.client = ⟨acquisition.scope, acquisition.collection⟩) :
    s.CorrectlyBound where
  bound := by
    intro acquisition held
    rw [bound acquisition held]
    exact ⟨rfl, rfl⟩
  unshared := by
    intro one oneHeld other otherHeld same
    have agree := bound one oneHeld
    rw [same, bound other otherHeld, SDKClient.mk.injEq] at agree
    exact ⟨agree.1.symm, agree.2.symm⟩

theorem CorrectlyBound.client_eq {s : Session} (correct : s.CorrectlyBound)
    {acquisition : Acquisition} (held : acquisition ∈ s.held) :
    s.pool.sdkClients acquisition.client = ⟨acquisition.scope, acquisition.collection⟩ := by
  obtain ⟨scope, collection⟩ := correct.bound acquisition held
  rw [← scope, ← collection]

/-- The entry under which an acquisition is counted. -/
theorem Inv.held_ref {s : Session} (inv : s.Inv) {acquisition : Acquisition}
    (held : acquisition ∈ s.held) :
    ∃ ref, s.pool.refs.lookup (acquisition.scope ++ acquisition.collection) = some ref ∧
      ref.client = acquisition.client := by
  rw [← inv.heldKey acquisition held]
  exact inv.busyRef acquisition.client (inv.heldBusy acquisition held)

/-- An entry has a holder. -/
theorem Inv.ref_held {s : Session} (inv : s.Inv) {key : String} {ref : CollectionRef}
    (found : s.pool.refs.lookup key = some ref) :
    ∃ acquisition ∈ s.held, acquisition.client = ref.client ∧
      acquisition.scope ++ acquisition.collection = key := by
  obtain ⟨count, positive⟩ := inv.refCounter key ref found
  have some : 0 < s.outstanding ref.client := by omega
  obtain ⟨acquisition, held, same⟩ := List.countP_pos_iff.mp some
  have same : acquisition.client = ref.client := by simpa using same
  refine ⟨acquisition, held, same, ?_⟩
  rw [← inv.heldKey acquisition held, same, (inv.refClient key ref found).2]

theorem distinguished_of_absent {s : Session} (inv : s.Inv) {scope collection : String}
    (absent : s.pool.known = true → s.pool.lockHeld = false →
      scope ++ collection ∉ reservedKeys → s.pool.refs.lookup (scope ++ collection) = none) :
    s.Distinguished (.getClientForBucket scope collection) := by
  intro free acquisition held sameKey
  obtain ⟨ref, found, _⟩ := inv.held_ref held
  rw [sameKey] at found
  have known : s.pool.known = true := by
    by_contra unknown
    have none := inv.known (by simpa using unknown)
    have := (inv.created acquisition.client).mpr (.inr (inv.heldBusy acquisition held))
    omega
  have unreserved : scope ++ collection ∉ reservedKeys := by
    intro reserved
    rw [inv.unreserved _ reserved] at found
    cases found
  rw [absent known free unreserved] at found
  cases found

theorem correctlyBound_step_iff {s : Session} (inv : s.Inv) {call : PoolCall}
    (allowed : s.ReleasesHeld call) (correct : s.CorrectlyBound) :
    (s.step call).CorrectlyBound ↔ s.Distinguished call := by
  cases call with
  | createClients reqClients => exact iff_of_true ⟨correct.bound, correct.unshared⟩ trivial
  | getClientForBucket scope collection =>
    obtain ⟨got, lockHeld, noClient, -, absent, outcome⟩ | ⟨ref, found, free, outcome⟩ |
        ⟨rest, client, idle, unreserved, known, absent, outcome⟩ :=
      getClientForBucket_cases s.pool scope collection
    · have distinguished := distinguished_of_absent inv absent
      cases got with
      | client client => exact absurd rfl (noClient client)
      | none | waiting | raised =>
        simp only [Session.step, outcome]
        exact iff_of_true ⟨correct.bound, correct.unshared⟩ distinguished
    · simp only [Session.step, outcome]
      obtain ⟨holder, holderHeld, holderClient, holderKey⟩ := inv.ref_held found
      constructor
      · intro after _ acquisition held sameKey
        -- The acquisition is counted under the same entry, so its client is the one returned.
        obtain ⟨same, sameFound, sameClient⟩ := inv.held_ref held
        rw [sameKey, found, Option.some.injEq] at sameFound
        rw [sameFound] at after
        exact after.unshared acquisition (List.mem_append_left _ held) _
          (List.mem_append_right _ (List.mem_singleton.mpr rfl)) sameClient.symm
      · intro distinguished
        apply correctlyBound_of_bound
        intro acquisition held
        cases List.mem_append.mp held with
        | inl old => exact correct.client_eq old
        | inr new =>
          rw [List.mem_singleton.mp new]
          obtain ⟨rfl, rfl⟩ := distinguished free holder holderHeld holderKey
          rw [← holderClient]
          exact correct.client_eq holderHeld
    · have distinguished := distinguished_of_absent inv (fun _ _ _ => absent)
      refine iff_of_true (correctlyBound_of_bound ?_) distinguished
      simp only [Session.step, outcome]
      intro acquisition held
      cases List.mem_append.mp held with
      | inl old =>
        have notIdle : acquisition.client ≠ client := by
          intro same
          have wasIdle : client ∈ s.pool.idleClients := by simp [idle]
          exact inv.disjoint client wasIdle (same ▸ inv.heldBusy acquisition old)
        rw [Function.update_of_ne notIdle]
        exact correct.client_eq old
      | inr new =>
        rw [List.mem_singleton.mp new, Function.update_self]
  | releaseClient given =>
    refine iff_of_true (correctlyBound_of_bound ?_) trivial
    obtain outcome | ⟨ref, found, sameClient, ⟨last, outcome⟩ | ⟨several, outcome⟩⟩ :=
      releaseClient_cases inv allowed
    · simp only [Session.step, outcome]
      exact fun acquisition held => correct.client_eq held
    · simp only [Session.step, outcome]
      exact fun acquisition still => correct.client_eq (List.mem_of_mem_erase still)
    · simp only [Session.step, outcome]
      exact fun acquisition still => correct.client_eq (List.mem_of_mem_erase still)

/-- A run binds its clients correctly in all its states exactly if no request is made
    while another one that reads the same is outstanding. -/
theorem correctlyBound_iff_distinguished {calls : List PoolCall}
    (guarded : Guarded step ReleasesHeld {} calls) :
    (∀ before after, calls = before ++ after → (run step {} before).CorrectlyBound) ↔
      Guarded step Distinguished {} calls :=
  guarded.forall_prefix_iff (fun _ _ inv allowed => inv.step allowed)
    (fun _ _ inv allowed correct => correctlyBound_step_iff inv allowed correct) Inv.empty
    ⟨by simp, by simp⟩

theorem correctlyBound_of_sharingRun :
    Guarded step ReleasesHeld {} sharingRun ∧
      ((∀ before after, sharingRun = before ++ after → (run step {} before).CorrectlyBound) ↔
        Guarded step Distinguished {} sharingRun) :=
  ⟨by decide, correctlyBound_iff_distinguished (by decide)⟩

/-- The requests for `ab.c` and for `a.bc` get one client, bound to `ab.c`. -/
theorem clients_shared_across_collections :
    ¬ ∀ calls, Guarded step ReleasesHeld {} calls →
      ∀ before after, calls = before ++ after → (run step {} before).CorrectlyBound := by
  intro always
  have correct := always
    [.createClients 1, .getClientForBucket "ab" "c", .getClientForBucket "a" "bc"] (by decide)
    _ [] (List.append_nil _).symm
  have held : (⟨0, "a", "bc"⟩ : Acquisition) ∈ (run step {}
      [.createClients 1, .getClientForBucket "ab" "c", .getClientForBucket "a" "bc"]).held := by
    decide
  have bound := (correct.bound _ held).1
  revert bound
  decide

end Session

end Taf.Sdk
