import Taf.Lib.Locks
import Taf.Memcached.KvStore
import Taf.Memcached.VBucketHash

/-! # The locks of the in-memory store

`KVStore` of `lib/memcached/helper/kvstore.py`: every partition has a lock, and who wants some of them
takes `acquire_lock` first.  Keys are byte strings, the `str` of Python 2. -/

namespace Taf.Memcached.KvLocks

open Taf.Lib Taf.Lib.Locks Taf.Memcached.KvStore

structure KVStore where
  form : Crc32Form
  numLocks : ℕ+

/-- `acquire_lock`, and `cache[itr]["lock"]` -/
inductive LockId where
  | acquireLock
  | partition (itr : ℕ)
  deriving DecidableEq

/-- What a thread does with the store: the cell `itr` is `cache[itr]["partition"]`. -/
abbrev Thread (P β : Type) := Code LockId ℕ P β

section

variable {P : Type}

def acquire (id : LockId) : Thread P Unit := .lock id (.pure ())

def release (id : LockId) : Thread P Unit := .unlock id (.pure ())

def partitionOf (itr : ℕ) : Thread P P := .read itr .pure

def update (itr : ℕ) (partition : P) : Thread P Unit := .write itr partition (.pure ())

variable (store : KVStore)

/-- `_hash` -/
def hash (key : Bytes) : ℕ := (store.form.read (crc32 key) % store.numLocks).toNat

/-- The partition is given by its `part_id`. -/
def acquirePartition (key : Bytes) : Thread P ℕ := do
  acquire (.partition (hash store key))
  pure (hash store key)

/-- Partitions are equal if their `part_id` is. -/
abbrev PartObjKeys := AList fun _ : ℕ => List Bytes

/-- `part_obj_keys[partition_obj].append(key)` -/
def append (partObjKeys : PartObjKeys) (partition : ℕ) (key : Bytes) : PartObjKeys :=
  partObjKeys.insert partition ((partObjKeys.lookup partition).getD [] ++ [key])

def acquirePartitions (keys : List Bytes) : Thread P PartObjKeys := do
  acquire .acquireLock
  let partObjKeys ← keys.foldlM (fun partObjKeys key => do
    let partition := hash store key
    if partition ∉ partObjKeys then
      acquire (.partition partition)
      pure (append (partObjKeys.insert partition []) partition key)
    else
      pure (append partObjKeys partition key)) ∅
  release .acquireLock
  pure partObjKeys

def releasePartitions : List ℕ → Thread P Unit
  | [] => pure ()
  | partition :: partitionObjs => do
    release (.partition partition)
    releasePartitions partitionObjs

/-- What `release_partition` may be called with -/
inductive PartitionKey where
  | str (key : Bytes)
  | int (itr : ℕ)

def PartitionKey.partition : PartitionKey → ℕ
  | str key => hash store key
  | int itr => itr

def releasePartition (key : PartitionKey) : Thread P Unit := release (.partition (key.partition store))

/-- The loop of `acquire_random_partition` -/
def searchPartition (wanted : P → Bool) : List ℕ → Thread P (Option ℕ)
  | [] => pure none
  | partNum :: rest => do
    acquire (.partition partNum)
    let partition ← partitionOf partNum
    if wanted partition then pure (some partNum)
    else
      release (.partition partNum)
      searchPartition wanted rest

end

variable {V F T : Type} [LinearOrder T] [Zero T]

abbrev Part (V F T : Type) := Partition Bytes V F T

def hasValidKeys (part : Part V F T) : Bool := 0 < part.valid.keys.length

def hasDeletedKeys (part : Part V F T) : Bool := 0 < part.deleted.keys.length

variable (store : KVStore)

/-- `seed` is what `random.choice` returns. -/
def acquireRandomPartition (seed : ℕ) (hasValid : Bool) : Thread (Part V F T) (Option ℕ) :=
  searchPartition (fun part => if hasValid then hasValidKeys part else hasDeletedKeys part)
    ((List.range store.numLocks).map fun itr => (seed + itr) % store.numLocks)

/-- `clocks itr` is the clock as the two calls for the partition `itr` see it. -/
def keySet (clocks : ℕ → Clock T) (keyOrder : KeyOrder Bytes) :
    Thread (Part V F T) (List Bytes × List Bytes) :=
  (List.range store.numLocks).foldlM (fun keys itr => do
    acquire (.partition itr)
    let partition ← partitionOf itr
    let valid := validKeySet (clocks itr) keyOrder (partition, 0)
    let deleted := deletedKeySet (clocks itr) keyOrder valid.2
    update itr deleted.2.1
    release (.partition itr)
    pure (keys.1 ++ valid.1, keys.2 ++ deleted.1)) ([], [])

/-- `partitions itr` is `partitions[itr]['partition']`. -/
def mergePartitions (partitions : ℕ → Part V F T) : Thread (Part V F T) Unit :=
  (List.range store.numLocks).foldlM (fun _ itr => do
    acquire (.partition itr)
    let partition ← partitionOf itr
    update itr (KvStore.merge partition (partitions itr))
    release (.partition itr)) ()

/-! ## Clients of the store -/

/-- The keys of a call, by their partitions -/
def grouped (keys : List Bytes) : PartObjKeys :=
  keys.foldl (fun partObjKeys key => append partObjKeys (hash store key) key) ∅

/-- A thread that gives back what one call has acquired before the next call, and meanwhile does
anything with these partitions. -/
inductive Client (dicts : KeyOrder ℕ) : Thread (Part V F T) Unit → Prop
  | done : Client dicts (pure ())
  | partition {β : Type} (key : Bytes) (body : ℕ → Thread (Part V F T) β) (released : PartitionKey)
      (next : β → Thread (Part V F T) Unit)
      (touches : Touches {hash store key} (body (hash store key)))
      (same : released.partition store = hash store key) (rest : ∀ result, Client dicts (next result)) :
      Client dicts do
        let part ← acquirePartition store key
        let result ← body part
        releasePartition store released
        next result
  | partitions {β : Type} (keys : List Bytes) (body : PartObjKeys → Thread (Part V F T) β)
      (next : β → Thread (Part V F T) Unit)
      (touches : Touches {part | part ∈ grouped store keys} (body (grouped store keys)))
      (rest : ∀ result, Client dicts (next result)) :
      Client dicts do
        let parts ← acquirePartitions store keys
        let result ← body parts
        releasePartitions (dicts.order parts.keys)
        next result
  | randomPartition {β : Type} (seed : ℕ) (hasValid : Bool) (body : ℕ → Thread (Part V F T) β)
      (next : Option β → Thread (Part V F T) Unit) (touches : ∀ part, Touches {part} (body part))
      (rest : ∀ result, Client dicts (next result)) :
      Client dicts do
        match ← acquireRandomPartition store seed hasValid with
        | none => next none
        | some part => do
          let result ← body part
          releasePartition store (.int part)
          next (some result)
  | keySet (clocks : ℕ → Clock T) (keyOrder : KeyOrder Bytes)
      (next : List Bytes × List Bytes → Thread (Part V F T) Unit)
      (rest : ∀ result, Client dicts (next result)) :
      Client dicts (KvLocks.keySet store clocks keyOrder >>= next)
  | mergePartitions (partitions : ℕ → Part V F T) (next : Thread (Part V F T) Unit)
      (rest : Client dicts next) :
      Client dicts (KvLocks.mergePartitions store partitions >>= fun _ => next)

/-! ## What the monitors see of a client -/

section

variable {P M : Type} {monitor : Monitor LockId M} {begin m : M} {Growing : M → Prop} {store : KVStore}

/-- A thread that has one lock, or the locks of some partitions -/
def Has (monitor : Monitor LockId M) (begin : M) (parts : List ℕ) (m : M) : Prop :=
  (monitor.holds m).Perm (parts.map .partition) ∧ (parts = [] → m = begin)

theorem Has.mem (has : Has monitor begin parts m) {part : ℕ} (member : part ∈ parts) :
    LockId.partition part ∈ monitor.holds m :=
  has.1.mem_iff.mpr (List.mem_map_of_mem member)

theorem obeys_body {β : Type} {cells : Set ℕ} {body : Thread P β} (has : Has monitor begin parts m)
    (touches : Touches cells body) (inside : ∀ cell ∈ cells, cell ∈ parts) :
    Obeys monitor .partition m body fun m' _ => m' = m :=
  touches.obeys fun cell member => has.mem (inside cell member)

theorem obeys_acquire (admits : Admits monitor .acquireLock begin Growing) (part : ℕ) {β : Type}
    {next : Unit → Thread P β} {Post : M → β → Prop}
    (rest : ∀ m, Has monitor begin [part] m → Obeys monitor .partition m (next ()) Post) :
    Obeys monitor .partition begin (acquire (.partition part) >>= next) Post := by
  have absent : LockId.partition part ∉ monitor.holds begin := by simp [admits.holds_begin]
  obtain ⟨m, taken, -⟩ := admits.lock admits.growing absent (.inl admits.holds_begin)
  refine ⟨m, taken, rest m ⟨?_, by simp⟩⟩
  rw [(monitor.holds_lock taken).2, admits.holds_begin]
  rfl

theorem obeys_releasePartitions (admits : Admits monitor .acquireLock begin Growing) {parts : List ℕ}
    (has : Has monitor begin parts m) :
    Obeys monitor .partition m (releasePartitions parts : Thread P Unit) fun m' _ => m' = begin := by
  induction parts generalizing m with
  | nil => exact has.2 rfl
  | cons part parts ih =>
    obtain ⟨m', given⟩ := admits.unlock (has.mem List.mem_cons_self)
    obtain ⟨-, holds⟩ := monitor.holds_unlock given
    have left : (monitor.holds m').Perm (parts.map .partition) := by
      rw [holds]
      simpa using has.1.erase (.partition part)
    refine ⟨m', given, ih ⟨left, fun none => admits.last given ?_⟩⟩
    simpa [none] using left

theorem obeys_release (admits : Admits monitor .acquireLock begin Growing) {part : ℕ}
    (has : Has monitor begin [part] m) :
    Obeys monitor .partition m (release (.partition part) : Thread P Unit) fun m' _ => m' = begin :=
  obeys_releasePartitions admits has

/-- The locks while `acquire_partitions` goes over the keys -/
structure Gathering (monitor : Monitor LockId M) (Growing : M → Prop) (m : M) (parts : List ℕ) : Prop where
  growing : Growing m
  holds : (monitor.holds m).Perm (.acquireLock :: parts.map .partition)

theorem append_insert {partObjKeys : PartObjKeys} {part : ℕ} (absent : part ∉ partObjKeys) (key : Bytes) :
    append (partObjKeys.insert part []) part key = append partObjKeys part key := by
  simp [append, AList.lookup_eq_none.mpr absent, AList.insert_insert]

theorem Gathering.append {partObjKeys : PartObjKeys} (gathering : Gathering monitor Growing m partObjKeys.keys)
    {part : ℕ} (present : part ∈ partObjKeys) (key : Bytes) :
    Gathering monitor Growing m (KvLocks.append partObjKeys part key).keys where
  growing := gathering.growing
  holds := by
    rw [KvLocks.append, AList.keys_insert]
    exact gathering.holds.trans (((List.perm_cons_erase present).map _).cons _)

theorem obeys_gather (admits : Admits monitor .acquireLock begin Growing) (keys : List Bytes)
    {partObjKeys : PartObjKeys} (gathering : Gathering monitor Growing m partObjKeys.keys) :
    Obeys monitor .partition m
      (keys.foldlM (fun partObjKeys key => do
        let partition := hash store key
        if partition ∉ partObjKeys then
          acquire (.partition partition)
          pure (append (partObjKeys.insert partition []) partition key)
        else
          pure (append partObjKeys partition key)) partObjKeys : Thread P PartObjKeys)
      fun m result => result = keys.foldl (fun dict key => append dict (hash store key) key) partObjKeys ∧
        Gathering monitor Growing m result.keys := by
  induction keys generalizing m partObjKeys with
  | nil => exact ⟨rfl, gathering⟩
  | cons key keys ih =>
    rw [List.foldlM_cons]
    by_cases present : hash store key ∈ partObjKeys
    · rw [if_neg (not_not.mpr present)]
      exact ih (gathering.append present key)
    · rw [if_pos present]
      have absent : LockId.partition (hash store key) ∉ monitor.holds m := by
        simpa [gathering.holds.mem_iff, AList.mem_keys] using present
      obtain ⟨m', taken, growing⟩ := admits.lock gathering.growing absent
        (.inr (gathering.holds.mem_iff.mpr List.mem_cons_self))
      refine ⟨m', taken, ?_⟩
      rw [List.foldl_cons, ← append_insert present]
      refine ih (Gathering.append ⟨growing, ?_⟩ (by simp) key)
      rw [(monitor.holds_lock taken).2, AList.keys_insert, List.erase_of_not_mem present]
      exact (gathering.holds.cons _).trans (.swap _ _ _)

theorem obeys_acquirePartitions (admits : Admits monitor .acquireLock begin Growing) (keys : List Bytes) :
    Obeys monitor .partition begin (acquirePartitions store keys : Thread P PartObjKeys)
      fun m result => result = grouped store keys ∧ Has monitor begin result.keys m := by
  have absent : LockId.acquireLock ∉ monitor.holds begin := by simp [admits.holds_begin]
  obtain ⟨m, taken, growing⟩ := admits.lock admits.growing absent (.inl admits.holds_begin)
  have start : Gathering monitor Growing m (∅ : PartObjKeys).keys := by
    refine ⟨growing, ?_⟩
    rw [(monitor.holds_lock taken).2, admits.holds_begin]
    simp
  refine ⟨m, taken, (obeys_gather admits keys start).bind fun m' result gathered => ?_⟩
  obtain ⟨same, gathered⟩ := gathered
  obtain ⟨m'', given⟩ := admits.unlock (gathered.holds.mem_iff.mpr List.mem_cons_self)
  have left : (monitor.holds m'').Perm (result.keys.map .partition) := by
    rw [(monitor.holds_unlock given).2]
    simpa using gathered.holds.erase .acquireLock
  exact ⟨m'', given, same, left, fun none => admits.last given (by simpa [none] using left)⟩

theorem obeys_searchPartition (admits : Admits monitor .acquireLock begin Growing) (wanted : P → Bool)
    (partNums : List ℕ) :
    Obeys monitor .partition begin (searchPartition wanted partNums : Thread P (Option ℕ))
      fun m found => Has monitor begin found.toList m := by
  induction partNums with
  | nil => exact ⟨by simp [admits.holds_begin], fun _ => rfl⟩
  | cons partNum rest ih =>
    refine obeys_acquire admits partNum fun m has => ⟨has.mem List.mem_cons_self, fun partition => ?_⟩
    by_cases this : wanted partition = true
    · simp only [Code.bind, this]
      exact has
    · simp only [Code.bind, this]
      exact (obeys_release admits has).bind fun m' _ same => same ▸ ih

/-- One partition after the other, with its lock -/
theorem obeys_visit (admits : Admits monitor .acquireLock begin Growing) (change : P → P) {β : Type} (part : ℕ)
    (result : P → β) :
    Obeys monitor .partition begin (do
      acquire (.partition part)
      let partition ← partitionOf part
      update part (change partition)
      release (.partition part)
      pure (result partition)) fun m _ => m = begin := by
  refine obeys_acquire admits part fun m has => ?_
  have held := has.mem (List.mem_singleton.mpr rfl)
  exact ⟨held, fun partition => ⟨held, (obeys_release admits has).bind fun m' _ same => same⟩⟩

variable {τ : Type}

/-- All is done. -/
def Finished (state : State τ LockId ℕ P Unit) : Prop :=
  (∀ thread, ∃ result, state.code thread = .pure result) ∧ ∀ id, state.locked id = false

theorem finished_of_watched {state : State τ LockId ℕ P Unit} {held : τ → List LockId}
    (watched : Watched (gated .acquireLock) .partition (fun held (_ : Unit) => held = []) state held)
    (ended : ∀ thread, ∃ result, state.code thread = .pure result) : Finished state := by
  refine ⟨ended, fun id => ?_⟩
  by_contra taken
  obtain ⟨thread, member⟩ := (watched.locked id).mp (by simpa using taken)
  have nothing := watched.obeys thread
  obtain ⟨result, this⟩ := ended thread
  rw [this] at nothing
  rw [show held thread = [] from nothing] at member
  cases member

end

variable {M : Type} {monitor : Monitor LockId M} {begin : M} {Growing : M → Prop} {store : KVStore}

theorem Client.obeys (admits : Admits monitor .acquireLock begin Growing) {dicts : KeyOrder ℕ}
    {thread : Thread (Part V F T) Unit} (client : Client store dicts thread) :
    Obeys monitor .partition begin thread fun m _ => m = begin := by
  induction client with
  | done => rfl
  | partition key body released next touches same rest ih =>
    change Obeys monitor .partition begin (acquire (.partition (hash store key)) >>= fun _ =>
      body (hash store key) >>= fun result => releasePartition store released >>= fun _ => next result) _
    refine obeys_acquire admits (hash store key) fun m has => ?_
    refine (obeys_body has touches fun cell member => List.mem_singleton.mpr member).bind fun m' result kept => ?_
    subst kept
    rw [releasePartition, same]
    exact (obeys_release admits has).bind fun m' _ ends => ends ▸ ih result
  | partitions keys body next touches rest ih =>
    refine (obeys_acquirePartitions admits keys).bind fun m parts acquired => ?_
    obtain ⟨rfl, has⟩ := acquired
    refine (obeys_body has touches fun cell member => member).bind fun m' result kept => ?_
    subst kept
    have perm := dicts.perm (grouped store keys).keys
    have has' : Has monitor begin (dicts.order (grouped store keys).keys) m' :=
      ⟨has.1.trans (perm.symm.map _), fun none => has.2 (by simpa [none] using perm.symm)⟩
    exact (obeys_releasePartitions admits has').bind fun m' _ ends => ends ▸ ih result
  | randomPartition seed hasValid body next touches rest ih =>
    refine (obeys_searchPartition admits _ _).bind fun m found has => ?_
    cases found with
    | none =>
      obtain rfl := has.2 rfl
      exact ih none
    | some part =>
      refine (obeys_body has (touches part) fun cell member => List.mem_singleton.mpr member).bind
        fun m' result kept => ?_
      subst kept
      exact (obeys_release admits has).bind fun m' _ ends => ends ▸ ih (some result)
  | keySet clocks keyOrder next rest ih =>
    have loop : Obeys monitor .partition begin (KvLocks.keySet store clocks keyOrder) fun m _ => m = begin :=
      Obeys.foldlM (fun m keys itr same => by
        let valid (partition : Part V F T) := validKeySet (clocks itr) keyOrder (partition, 0)
        let deleted (partition : Part V F T) := deletedKeySet (clocks itr) keyOrder (valid partition).2
        rw [same]
        exact obeys_visit admits (fun partition => (deleted partition).2.1) itr
          fun partition => (keys.1 ++ (valid partition).1, keys.2 ++ (deleted partition).1)) _ rfl
    exact loop.bind fun m result same => same ▸ ih result
  | mergePartitions partitions next rest ih =>
    have loop : Obeys monitor .partition begin (KvLocks.mergePartitions store partitions) fun m _ => m = begin :=
      Obeys.foldlM (fun m _ itr same => by rw [same]; exact obeys_visit admits _ itr _) _ rfl
    exact loop.bind fun m _ same => same ▸ ih

/-! ## Any number of clients, in any order -/

section

variable {τ : Type} [DecidableEq τ] {dicts : KeyOrder ℕ} {code : τ → Thread (Part V F T) Unit}
  {partitions : ℕ → Part V F T} {schedule : List τ} {state : State τ LockId ℕ (Part V F T) Unit}

/-- Nobody has a lock. -/
def idle (code : τ → Thread (Part V F T) Unit) (partitions : ℕ → Part V F T) :
    State τ LockId ℕ (Part V F T) Unit where
  code := code
  locked := fun _ => false
  cell := partitions

/-- The gate keeps the clients from waiting for each other in a circle. -/
theorem watched_gated (clients : ∀ thread, Client store dicts (code thread))
    (ran : schedule.foldlM step (idle code partitions) = some state) :
    ∃ held, Watched (gated .acquireLock) .partition (fun held _ => held = []) state held := by
  have obeys thread := (clients thread).obeys (gated_admits LockId.acquireLock)
  have start : Watched _ _ _ (idle code partitions) _ := .start rfl obeys fun _ => rfl
  exact start.of_run ran

/-- Whatever the clients have done in whatever order: no partition is given back that is not taken, somebody
can go on as long as not all is done, and all of them can come to their end. -/
theorem clients_never_deadlock [Fintype τ] (clients : ∀ thread, Client store dicts (code thread))
    (ran : schedule.foldlM step (idle code partitions) = some state) :
    (∀ thread id rest, state.code thread = .unlock id rest → state.locked id = true) ∧
      (Finished state ∨ ∃ thread next, step state thread = some next) ∧
      ∃ (more : List τ) (final : State τ LockId ℕ (Part V F T) Unit),
        more.foldlM step state = some final ∧ Finished final := by
  obtain ⟨held, watched⟩ := watched_gated clients ran
  refine ⟨fun thread id rest => watched.locked_of_unlock, ?_, ?_⟩
  · exact watched.exists_step.imp_left (finished_of_watched watched)
  · obtain ⟨more, final, ran, ended⟩ := watched.exists_finish
    obtain ⟨held, watched⟩ := watched.of_run ran
    exact ⟨more, final, ran, finished_of_watched watched ended⟩

/-- What the clients leave, they could have left one after the other. -/
theorem clients_serializable (clients : ∀ thread, Client store dicts (code thread))
    (ran : schedule.foldlM step (idle code partitions) = some state)
    (free : ∀ id, state.locked id = false) : Relation.ReflTransGen Turn (idle code partitions) state := by
  have obeys thread := (clients thread).obeys (twoPhase_admits LockId.acquireLock)
  exact exists_turns (fun _ _ same => congrArg Prod.snd same) obeys (fun _ => rfl) ran free

/-! ## Two clients -/

def smallStore : KVStore := ⟨.signed, 2⟩

/-- One client wants two partitions, the other one wants one of them. -/
def smallClients : Bool → Thread (Part ℕ ℕ ℕ) Unit
  | true => do
    let parts ← acquirePartitions smallStore [[], [1]]
    let _ ← (pure () : Thread (Part ℕ ℕ ℕ) Unit)
    releasePartitions parts.keys
    pure ()
  | false => do
    let part ← acquirePartition smallStore []
    let _ ← update part ⟨∅, ∅, ∅, [[1]]⟩
    releasePartition smallStore (.str [])
    pure ()

theorem smallClients_client : ∀ thread, Client smallStore ⟨id, fun _ => .refl _⟩ (smallClients thread)
  | true => .partitions _ (fun _ => pure ()) (fun _ => pure ()) trivial fun _ => .done
  | false => .partition [] (fun part => update part ⟨∅, ∅, ∅, [[1]]⟩) (.str []) (fun _ => pure ())
      ⟨rfl, trivial⟩ rfl fun _ => .done

theorem smallClients_never_deadlock :
    ∃ state, [true, false].foldlM step (idle smallClients fun _ => Partition.empty) = some state ∧
      (∀ thread id rest, state.code thread = .unlock id rest → state.locked id = true) ∧
        (Finished state ∨ ∃ thread next, step state thread = some next) ∧
        ∃ (more : List Bool) (final : State Bool LockId ℕ (Part ℕ ℕ ℕ) Unit),
          more.foldlM step state = some final ∧ Finished final := by
  obtain ⟨state, ran⟩ : ∃ state, [true, false].foldlM step
      (idle smallClients fun _ => Partition.empty) = some state := ⟨_, rfl⟩
  exact ⟨state, ran, clients_never_deadlock smallClients_client ran⟩

theorem smallClients_serializable :
    ∃ state, [true, false, false, false, true, true, true, true, true].foldlM step
        (idle smallClients fun _ => Partition.empty) = some state ∧
      Relation.ReflTransGen Turn (idle smallClients fun _ => Partition.empty) state := by
  obtain ⟨state, ran, free⟩ : ∃ state, [true, false, false, false, true, true, true, true, true].foldlM step
      (idle smallClients fun _ => Partition.empty) = some state ∧ ∀ id, state.locked id = false := by
    refine ⟨_, rfl, fun id => ?_⟩
    simp only [Function.update_apply, idle, PartitionKey.partition]
    split_ifs <;> rfl
  exact ⟨state, ran, clients_serializable smallClients_client ran free⟩

end

end Taf.Memcached.KvLocks
