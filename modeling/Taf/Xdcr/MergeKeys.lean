import Taf.Lib.Split
import Taf.Lib.Text
import Taf.Memcached.KvLocks

/-! # Merging the keys of a replication

`XDCRUtils.__merge_keys` of `xdcr_ready_functions.py`: what a source store has is written to the store of the
destination.  The thread that merges is alone, so that a lock that is taken stays taken. -/

namespace Taf.Xdcr.MergeKeys

open Taf.Lib Taf.Memcached Taf.Memcached.KvStore
open Taf.Memcached.KvLocks (KVStore Part hash)

variable {V F T : Type} [LinearOrder T] [Zero T]

/-- A `KVStore`, and which of its partitions have been acquired -/
structure Side (V F T : Type) where
  store : KVStore
  partitions : ℕ → Part V F T
  locked : ℕ → Bool

/-- Why a merge does not return -/
inductive Stop where
  | waits
  | typeError
  | indexError
  deriving DecidableEq

def Side.acquire (side : Side V F T) (itr : ℕ) : Except Stop (Side V F T) :=
  if side.locked itr then .error .waits else .ok { side with locked := Function.update side.locked itr true }

def Side.release (side : Side V F T) (itr : ℕ) : Side V F T :=
  { side with locked := Function.update side.locked itr false }

def Side.put (side : Side V F T) (itr : ℕ) (partition : Part V F T) : Side V F T :=
  { side with partitions := Function.update side.partitions itr partition }

/-- The partition of a key -/
def Side.at (side : Side V F T) (key : Bytes) : Part V F T := side.partitions (hash side.store key)

/-- `get_timestamp` -/
def getTimestamp (part : Part V F T) (key : Bytes) : T := (part.timestamp.lookup key).getD 0

/-- `get_key` -/
def getKey (part : Part V F T) (key : Bytes) : Option (Entry V F T) := part.valid.lookup key

variable (clock : Clock T) (keyOrder : KeyOrder Bytes)

/-- What `key_set` has collected -/
structure Scan (V F T : Type) where
  valid : List Bytes
  deleted : List Bytes
  side : Side V F T
  readings : ℕ

def visit (scan : Scan V F T) (itr : ℕ) : Except Stop (Scan V F T) := do
  let side ← scan.side.acquire itr
  let valid := validKeySet clock keyOrder (side.partitions itr, scan.readings)
  let deleted := deletedKeySet clock keyOrder valid.2
  pure {
    valid := scan.valid ++ valid.1
    deleted := scan.deleted ++ deleted.1
    side := (side.put itr deleted.2.1).release itr
    readings := deleted.2.2 }

/-- `key_set`, with the clock read `readings` times so far -/
def keySet (side : Side V F T) (readings : ℕ) : Except Stop (Scan V F T) :=
  (List.range side.store.numLocks).foldlM (visit clock keyOrder) ⟨[], [], side, readings⟩

/-- The text between the first two quotes of a filter on `META().id`, and any other filter as it is -/
def filterPattern (filterExp : String) : Except Stop String :=
  if occursIn "META().id" filterExp then
    match (splitText '\'' filterExp)[1]? with
    | some pattern => pure pattern
    | none => throw .indexError
  else pure filterExp

/-- The keys that a filter expression lets through; `search` is `re.search`. -/
def filterKeys (search : String → Bytes → Bool) (filterExp : Option String) (keys : List Bytes) :
    Except Stop (List Bytes) :=
  match filterExp with
  | none => pure keys
  | some filterExp =>
    if filterExp = "" then pure keys
    else do
      let pattern ← filterPattern filterExp
      pure (keys.filter (search pattern))

structure World (V F T : Type) where
  src : Side V F T
  dest : Side V F T
  readings : ℕ

/-- "if source's key timestamp is lower than destination" -/
def Older (lww : Bool) (src dest : Side V F T) (key : Bytes) : Prop :=
  lww = true ∧ getTimestamp (src.at key) key < getTimestamp (dest.at key) key

instance (lww : Bool) (src dest : Side V F T) (key : Bytes) : Decidable (Older lww src dest key) :=
  inferInstanceAs (Decidable (_ ∧ _))

/-- A round of one of the two loops; `change` is what it does to the partition of the destination. -/
def mergeKey (change : Part V F T → Timed Bytes V F T → Bytes → Except Stop (Timed Bytes V F T)) (lww : Bool)
    (deletedDest : List Bytes) (world : World V F T) (key : Bytes) : Except Stop (World V F T) :=
  if key ∈ deletedDest then pure world
  else do
    let src ← world.src.acquire (hash world.src.store key)
    let dest ← world.dest.acquire (hash world.dest.store key)
    if Older lww src dest key then
      -- `continue`, without `release_partition`
      pure { world with src := src, dest := dest }
    else
      let after ← change (src.at key) (dest.at key, world.readings) key
      pure {
        src := src.release (hash src.store key)
        dest := (dest.put (hash dest.store key) after.1).release (hash dest.store key)
        readings := after.2 }

/-- `partition2.set(key, key_add["value"], key_add["expires"], key_add["flag"])` -/
def setKey [Add T] (src : Part V F T) (dest : Timed Bytes V F T) (key : Bytes) : Except Stop (Timed Bytes V F T) :=
  match getKey src key with
  | some keyAdd => pure (KvStore.set clock dest key keyAdd.value keyAdd.expires keyAdd.flag)
  | none => throw .typeError

/-- The loop over `valid_keys_src` -/
def mergeValid [Add T] (lww : Bool) (deletedDest : List Bytes) :
    World V F T → Bytes → Except Stop (World V F T) :=
  mergeKey (setKey clock) lww deletedDest

/-- The loop over `deleted_keys_src` -/
def mergeDeleted (lww : Bool) (deletedDest : List Bytes) : World V F T → Bytes → Except Stop (World V F T) :=
  mergeKey (fun _ dest key => pure (KvStore.delete clock dest key)) lww deletedDest

/-- `__merge_keys` -/
def mergeKeys [Add T] (lww : Bool) (search : String → Bytes → Bool) (filterExp : Option String) (src dest : Side V F T)
    (readings : ℕ) : Except Stop (World V F T) := do
  let srcScan ← keySet clock keyOrder src readings
  let destScan ← keySet clock keyOrder dest srcScan.readings
  let validSrc ← filterKeys search filterExp srcScan.valid
  let world ← validSrc.foldlM (mergeValid clock lww destScan.deleted)
    ⟨srcScan.side, destScan.side, destScan.readings⟩
  let world ← srcScan.deleted.foldlM (mergeDeleted clock lww destScan.deleted) world
  let last ← keySet clock keyOrder world.dest world.readings
  pure { world with dest := last.side, readings := last.readings }

/-! ## `key_set` -/

/-- Every key is in the partition of its hash. -/
def Placed (side : Side V F T) : Prop :=
  ∀ itr key, key ∈ (side.partitions itr).valid ∨ key ∈ (side.partitions itr).deleted →
    hash side.store key = itr

def Free (side : Side V F T) : Prop := ∀ itr, side.locked itr = false

variable {clock keyOrder}

theorem mem_valid_of_lapses {before after : Timed Bytes V F T} (lapses : Lapses clock before after) {key : Bytes}
    (member : key ∈ after.1.valid) : key ∈ before.1.valid := by
  obtain same | ⟨gone, -⟩ := lapses.lookup key
  · rw [← AList.lookup_isSome] at member ⊢
    rwa [← same]
  · exact absurd member (AList.lookup_eq_none.mp gone)

theorem Lapses.widen {before after : Timed Bytes V F T} (lapses : Lapses clock before after) {first last : ℕ}
    (early : first ≤ before.2) (late : after.2 ≤ last) : Lapses clock (before.1, first) (after.1, last) where
  readings := early.trans (lapses.readings.trans late)
  lookup key := by
    obtain same | ⟨gone, entry, found, limited, n, before, past⟩ := lapses.lookup key
    · exact .inl same
    · exact .inr ⟨gone, entry, found, limited, n, before.trans_le late, past⟩

/-- What `key_set` knows after some partitions -/
structure Scanned (clock : Clock T) (side : Side V F T) (readings n : ℕ) (scan : Scan V F T) : Prop where
  store : scan.side.store = side.store
  free : Free scan.side
  lapses : ∀ itr, Lapses clock (side.partitions itr, readings) (scan.side.partitions itr, scan.readings)
  placed : Placed side → Placed scan.side ∧ scan.valid.Nodup ∧ scan.deleted.Nodup ∧
    ∀ key, key ∈ scan.valid ∨ key ∈ scan.deleted → hash side.store key < n
  sound : (∀ itr, Sound (side.partitions itr)) → ∀ itr, Sound (scan.side.partitions itr)
  deleted : Placed side → ∀ key ∈ scan.deleted, key ∈ (scan.side.at key).deleted

theorem visit_eq {scan : Scan V F T} {itr : ℕ} (free : scan.side.locked itr = false) :
    visit clock keyOrder scan itr = .ok (
      let valid := validKeySet clock keyOrder (scan.side.partitions itr, scan.readings)
      let deleted := deletedKeySet clock keyOrder valid.2
      { valid := scan.valid ++ valid.1
        deleted := scan.deleted ++ deleted.1
        side := {
          store := scan.side.store
          partitions := Function.update scan.side.partitions itr deleted.2.1
          locked := Function.update (Function.update scan.side.locked itr true) itr false }
        readings := deleted.2.2 }) := by
  simp [visit, Side.acquire, free, Side.put, Side.release, bind, Except.bind, pure, Except.pure]

omit [LinearOrder T] [Zero T] in
theorem acquire_stops {side : Side V F T} {itr : ℕ} {stop : Stop} (stopped : side.acquire itr = .error stop) :
    stop = .waits := by
  rw [Side.acquire] at stopped
  split at stopped
  · exact (Except.error.inj stopped).symm
  · cases stopped

theorem keySet_stops {side : Side V F T} {readings : ℕ} {stop : Stop}
    (stopped : keySet clock keyOrder side readings = .error stop) : stop = .waits := by
  obtain ⟨scan, itr, -, -, stopped⟩ :=
    @foldlM_raised _ _ _ _ _ (fun _ => True) _ _ stopped (fun _ _ _ _ _ => trivial) trivial
  obtain stopped | ⟨side, -, never⟩ := bind_eq_error.mp stopped
  · exact acquire_stops stopped
  · cases never

theorem keySet_returns {side : Side V F T} (free : Free side) (readings : ℕ) :
    ∃ scan, keySet clock keyOrder side readings = .ok scan := by
  refine foldlM_returns_keeping (fun scan => Free scan.side) (fun scan itr _ free => ?_) free
  refine ⟨_, visit_eq (free itr), fun other => ?_⟩
  by_cases same : other = itr
  · subst same; exact Function.update_self ..
  · exact (Function.update_of_ne same _ _).trans ((Function.update_of_ne same _ _).trans (free other))

omit [LinearOrder T] [Zero T] in
theorem acquire_eq_ok {side next : Side V F T} {itr : ℕ} :
    side.acquire itr = .ok next ↔
      side.locked itr = false ∧ next = { side with locked := Function.update side.locked itr true } := by
  rw [Side.acquire]
  by_cases taken : side.locked itr = true
  · simp [taken]
  · rw [if_neg taken, Except.ok.injEq, eq_comm]
    exact ⟨fun same => ⟨Bool.eq_false_of_not_eq_true taken, same⟩, And.right⟩

theorem free_of_visit {scan next : Scan V F T} {itr : ℕ} (visited : visit clock keyOrder scan itr = .ok next) :
    scan.side.locked itr = false := by
  obtain ⟨side, acquired, -⟩ := bind_eq_ok.mp visited
  exact (acquire_eq_ok.mp acquired).1

/-- A partition that nobody gives back -/
theorem keySet_waits {side : Side V F T} {itr : ℕ} (locked : side.locked itr = true)
    (inside : itr < side.store.numLocks) (readings : ℕ) (scan : Scan V F T) :
    keySet clock keyOrder side readings ≠ .ok scan := by
  rw [keySet]
  have member : itr ∈ List.range side.store.numLocks := List.mem_range.mpr inside
  generalize List.range _ = items at member
  have locked : (⟨[], [], side, readings⟩ : Scan V F T).side.locked itr = true := locked
  generalize (⟨[], [], side, readings⟩ : Scan V F T) = start at locked
  induction items generalizing start with
  | nil => cases member
  | cons first items ih =>
    intro returned
    rw [List.foldlM_cons, bind_eq_ok] at returned
    obtain ⟨next, visited, returned⟩ := returned
    have free := free_of_visit visited
    by_cases same : first = itr
    · subst same
      rw [locked] at free
      cases free
    · rw [visit_eq free] at visited
      obtain rfl := Except.ok.inj visited
      refine ih ((List.mem_cons.mp member).resolve_left (Ne.symm same)) _ ?_ returned
      simpa [Function.update_of_ne (Ne.symm same)] using locked

section

variable [Add T]

omit [Add T] in
/-- A key that is found deleted has been so, or has been valid. -/
theorem mem_deleted_of_expireKeys {keys : List Bytes} {part : Timed Bytes V F T} {key : Bytes}
    (member : key ∈ (keys.foldl (expireKey clock) part).1.deleted) :
    key ∈ part.1.valid ∨ key ∈ part.1.deleted := by
  induction keys generalizing part with
  | nil => exact .inr member
  | cons first keys ih =>
    obtain valid | deleted := ih member
    · exact .inl (mem_valid_of_lapses (Lapses.expireKey part first) valid)
    · rw [expireKey] at deleted
      split at deleted
      · rename_i entry found
        split at deleted
        · split at deleted
          · obtain rfl | deleted := AList.mem_insert _ |>.mp deleted
            · exact .inl (mem_of_lookup found)
            · exact .inr deleted
          · exact .inr deleted
        · exact .inr deleted
      · exact .inr deleted

omit [Add T] in
theorem Scanned.visit {side : Side V F T} {readings n : ℕ} {scan next : Scan V F T}
    (scanned : Scanned clock side readings n scan) (visited : visit clock keyOrder scan n = .ok next) :
    Scanned clock side readings (n + 1) next := by
  rw [visit_eq (scanned.free n)] at visited
  obtain rfl := Except.ok.inj visited
  set before : Timed Bytes V F T := (scan.side.partitions n, scan.readings) with before_eq
  set valid := validKeySet clock keyOrder before with valid_eq
  set deleted := deletedKeySet clock keyOrder valid.2 with deleted_eq
  have first : Lapses clock before valid.2 := Lapses.expireKeys before _
  have second : Lapses clock valid.2 deleted.2 := Lapses.expireKeys valid.2 _
  have both := first.trans second
  have grown := (scanned.lapses n).readings
  have known {key : Bytes} (member : key ∈ deleted.2.1.valid ∨ key ∈ deleted.2.1.deleted) :
      key ∈ (scan.side.partitions n).valid ∨ key ∈ (scan.side.partitions n).deleted := by
    rcases member with member | member
    · exact .inl (mem_valid_of_lapses both member)
    · rcases mem_deleted_of_expireKeys member with member | member
      · exact .inl (mem_valid_of_lapses first member)
      · exact mem_deleted_of_expireKeys member
  have here {key : Bytes} (placed : Placed side) (member : key ∈ valid.1 ∨ key ∈ deleted.1) :
      hash side.store key = n := by
    rw [← scanned.store]
    refine (scanned.placed placed).1 n key ?_
    rcases member with member | member
    · exact .inl (mem_valid_of_lapses first member)
    · exact known (.inr member)
  have fresh (placed : Placed side) {keys others : List Bytes} (nodup : keys.Nodup) (nodup' : others.Nodup)
      (old : ∀ key ∈ keys, hash side.store key < n) (new : ∀ key ∈ others, hash side.store key = n) :
      (keys ++ others).Nodup :=
    nodup.append nodup' fun key member member' => absurd (new key member') (old key member).ne
  refine ⟨scanned.store, fun itr => ?_, fun itr => ?_, fun placed => ?_, fun sound itr => ?_, fun placed => ?_⟩
  · by_cases same : itr = n
    · subst same; exact Function.update_self ..
    · exact (Function.update_of_ne same _ _).trans ((Function.update_of_ne same _ _).trans (scanned.free itr))
  · by_cases same : itr = n
    · subst same
      simp only [Function.update_self]
      exact (scanned.lapses itr).trans both
    · simp only [Function.update_of_ne same]
      exact Lapses.widen (scanned.lapses itr) le_rfl both.readings
  · obtain ⟨placed', validNodup, deletedNodup, old⟩ := scanned.placed placed
    refine ⟨fun itr key member => ?_, ?_, ?_, fun key member => ?_⟩
    · by_cases same : itr = n
      · subst same
        simp only [Function.update_self] at member
        exact placed' itr key (known member)
      · simp only [Function.update_of_ne same] at member
        exact placed' itr key member
    · exact fresh placed validNodup valid.2.1.valid.nodupKeys (fun key member => old key (.inl member))
        fun key member => here placed (.inl member)
    · exact fresh placed deletedNodup deleted.2.1.deleted.nodupKeys (fun key member => old key (.inr member))
        fun key member => here placed (.inr member)
    · simp only [List.mem_append] at member
      rcases member with (member | member) | (member | member)
      · exact (old key (.inl member)).trans (Nat.lt_succ_self n)
      · exact (here placed (.inl member)).trans_lt (Nat.lt_succ_self n)
      · exact (old key (.inr member)).trans (Nat.lt_succ_self n)
      · exact (here placed (.inr member)).trans_lt (Nat.lt_succ_self n)
  · by_cases same : itr = n
    · subst same
      simp only [Function.update_self]
      exact Sound.expireKeys (Sound.expireKeys (scanned.sound sound itr) _) _
    · simp only [Function.update_of_ne same]
      exact scanned.sound sound itr
  · intro key member
    have store := scanned.store
    rcases List.mem_append.mp member with member | member
    · have old := ((scanned.placed placed).2.2.2 key (.inr member)).ne
      simp only [Side.at, store, Function.update_of_ne old]
      simpa only [Side.at, store] using scanned.deleted placed key member
    · simp only [Side.at, store, here placed (.inr member), Function.update_self]
      exact member

omit [Add T] in
theorem keySet_scanned {side : Side V F T} (free : Free side) {readings : ℕ} {scan : Scan V F T}
    (returned : keySet clock keyOrder side readings = .ok scan) :
    Scanned clock side readings side.store.numLocks scan := by
  rw [keySet] at returned
  generalize (side.store.numLocks : ℕ) = n at returned ⊢
  induction n generalizing scan with
  | zero =>
    obtain rfl := Except.ok.inj returned
    exact ⟨rfl, free, fun _ => Lapses.refl _, fun placed => ⟨placed, List.nodup_nil, List.nodup_nil, by simp⟩,
      fun sound => sound, fun _ => by simp⟩
  | succ n ih =>
    rw [List.range_succ, List.foldlM_append, bind_eq_ok] at returned
    obtain ⟨mid, before, visited⟩ := returned
    obtain ⟨next, visited, ended⟩ := bind_eq_ok.mp visited
    cases ended
    exact (ih before).visit visited

end

/-! ## The loops over the keys -/

/-- A lock of the destination that is not given back -/
def Leaked (world : World V F T) : Prop :=
  ∃ itr < (world.dest.store.numLocks : ℕ), world.dest.locked itr = true

theorem hash_lt (store : KVStore) (key : Bytes) : hash store key < store.numLocks := by
  have pos : (0 : ℤ) < store.numLocks := by exact_mod_cast store.numLocks.pos
  have bound := Int.emod_lt_of_pos (store.form.read (crc32 key)) pos
  have nonneg := Int.emod_nonneg (store.form.read (crc32 key)) pos.ne'
  rw [KvLocks.hash]
  omega

/-- Two partitions that hold the same for a key -/
def SameAt (key : Bytes) (part other : Part V F T) : Prop :=
  part.valid.lookup key = other.valid.lookup key ∧ part.timestamp.lookup key = other.timestamp.lookup key

variable {change : Part V F T → Timed Bytes V F T → Bytes → Except Stop (Timed Bytes V F T)} {lww : Bool}
  {deletedDest : List Bytes} {world next last : World V F T} {key : Bytes} {keys : List Bytes}

/-- What a round that gives its locks back leaves -/
structure Stepped (change : Part V F T → Timed Bytes V F T → Bytes → Except Stop (Timed Bytes V F T))
    (world : World V F T) (key : Bytes) (next : World V F T) : Prop where
  src : next.src.partitions = world.src.partitions ∧ next.src.store = world.src.store
  store : next.dest.store = world.dest.store
  free : Free next.src ∧ Free next.dest
  here : ∃ after, change (world.src.at key) (world.dest.at key, world.readings) key = .ok after ∧
    next.dest.at key = after.1 ∧ next.readings = after.2
  elsewhere : ∀ itr ≠ hash world.dest.store key, next.dest.partitions itr = world.dest.partitions itr

theorem older_locked {src dest : Side V F T} (locked locked' : ℕ → Bool) :
    Older lww { src with locked := locked } { dest with locked := locked' } key ↔ Older lww src dest key :=
  Iff.rfl

/-- What a round does once it has its locks -/
theorem mergeKey_eq_ok : mergeKey change lww deletedDest world key = .ok next ↔
    (key ∈ deletedDest ∧ next = world) ∨
      (key ∉ deletedDest ∧ world.src.locked (hash world.src.store key) = false ∧
        world.dest.locked (hash world.dest.store key) = false ∧
        let src := { world.src with locked := Function.update world.src.locked (hash world.src.store key) true }
        let dest := { world.dest with
          locked := Function.update world.dest.locked (hash world.dest.store key) true }
        (Older lww world.src world.dest key ∧ next = { world with src := src, dest := dest }) ∨
        (¬ Older lww world.src world.dest key ∧
          ∃ after, change (world.src.at key) (world.dest.at key, world.readings) key = .ok after ∧
            next = { src := src.release (hash world.src.store key)
                     dest := (dest.put (hash world.dest.store key) after.1).release (hash world.dest.store key)
                     readings := after.2 })) := by
  rw [mergeKey]
  by_cases member : key ∈ deletedDest
  · rw [if_pos member]
    constructor
    · exact fun merged => .inl ⟨member, (Except.ok.inj merged).symm⟩
    · rintro (⟨-, rfl⟩ | ⟨absent, -⟩)
      · rfl
      · exact absurd member absent
  · rw [if_neg member]
    constructor
    · intro merged
      obtain ⟨src, acquired, merged⟩ := bind_eq_ok.mp merged
      obtain ⟨dest, acquired', merged⟩ := bind_eq_ok.mp merged
      obtain ⟨srcFree, rfl⟩ := acquire_eq_ok.mp acquired
      obtain ⟨destFree, rfl⟩ := acquire_eq_ok.mp acquired'
      refine .inr ⟨member, srcFree, destFree, ?_⟩
      simp only [older_locked] at merged
      by_cases older : Older lww world.src world.dest key
      · rw [if_pos older] at merged
        exact .inl ⟨older, (Except.ok.inj merged).symm⟩
      · rw [if_neg older] at merged
        obtain ⟨after, changed, merged⟩ := bind_eq_ok.mp merged
        exact .inr ⟨older, after, changed, (Except.ok.inj merged).symm⟩
    · rintro (⟨present, -⟩ | ⟨-, srcFree, destFree, outcome⟩)
      · exact absurd present member
      · refine bind_eq_ok.mpr ⟨_, acquire_eq_ok.mpr ⟨srcFree, rfl⟩, ?_⟩
        refine bind_eq_ok.mpr ⟨_, acquire_eq_ok.mpr ⟨destFree, rfl⟩, ?_⟩
        simp only [older_locked]
        obtain ⟨older, rfl⟩ | ⟨newer, after, changed, rfl⟩ := outcome
        · rw [if_pos older]
          rfl
        · rw [if_neg newer]
          exact bind_eq_ok.mpr ⟨after, changed, rfl⟩

omit [LinearOrder T] [Zero T] in
theorem free_relock {locked : ℕ → Bool} (free : ∀ itr, locked itr = false) (part itr : ℕ) :
    Function.update (Function.update locked part true) part false itr = false := by
  by_cases same : itr = part
  · rw [same, Function.update_self]
  · rw [Function.update_of_ne same, Function.update_of_ne same, free]

/-- What a round does if no lock is taken before -/
theorem mergeKey_cases (srcFree : Free world.src) (destFree : Free world.dest)
    (merged : mergeKey change lww deletedDest world key = .ok next) :
    (key ∈ deletedDest ∧ next = world) ∨
      (key ∉ deletedDest ∧ Older lww world.src world.dest key ∧ Leaked next) ∨
      (key ∉ deletedDest ∧ ¬ Older lww world.src world.dest key ∧ Stepped change world key next) := by
  obtain ⟨member, same⟩ | ⟨absent, -, -, ⟨older, rfl⟩ | ⟨newer, after, changed, rfl⟩⟩ := mergeKey_eq_ok.mp merged
  · exact .inl ⟨member, same⟩
  · exact .inr (.inl ⟨absent, older, _, hash_lt world.dest.store key, Function.update_self ..⟩)
  · refine .inr (.inr ⟨absent, newer, ⟨rfl, rfl⟩, rfl, ⟨free_relock srcFree _, free_relock destFree _⟩,
      ⟨after, changed, Function.update_self .., rfl⟩, fun itr different => Function.update_of_ne different _ _⟩)

theorem mergeKey_returns (srcFree : Free world.src) (destFree : Free world.dest)
    (newer : ¬ Older lww world.src world.dest key)
    (changes : ∀ part, ∃ after, change (world.src.at key) part key = .ok after) :
    ∃ next, mergeKey change lww deletedDest world key = .ok next := by
  by_cases member : key ∈ deletedDest
  · exact ⟨world, mergeKey_eq_ok.mpr (.inl ⟨member, rfl⟩)⟩
  · obtain ⟨after, changed⟩ := changes (world.dest.at key, world.readings)
    exact ⟨_, mergeKey_eq_ok.mpr (.inr ⟨member, srcFree _, destFree _, .inr ⟨newer, after, changed, rfl⟩⟩)⟩

theorem mergeKey_stops {stop : Stop} (stopped : mergeKey change lww deletedDest world key = .error stop) :
    key ∉ deletedDest ∧ (stop = .waits ∨
      ∃ part, change (world.src.at key) part key = .error stop) := by
  rw [mergeKey] at stopped
  split at stopped
  · cases stopped
  · rename_i absent
    refine ⟨absent, ?_⟩
    obtain first | ⟨src, acquired, stopped⟩ := bind_eq_error.mp stopped
    · exact .inl (acquire_stops first)
    · obtain second | ⟨dest, acquired', stopped⟩ := bind_eq_error.mp stopped
      · exact .inl (acquire_stops second)
      · obtain ⟨-, rfl⟩ := acquire_eq_ok.mp acquired
        split at stopped
        · cases stopped
        · obtain stuck | ⟨after, -, never⟩ := bind_eq_error.mp stopped
          · exact .inr ⟨_, stuck⟩
          · cases never

/-- The loops do not write to the source. -/
theorem mergeKey_src (merged : mergeKey change lww deletedDest world key = .ok next) :
    next.src.partitions = world.src.partitions ∧ next.src.store = world.src.store := by
  obtain ⟨-, rfl⟩ | ⟨-, -, -, ⟨-, rfl⟩ | ⟨-, after, -, rfl⟩⟩ := mergeKey_eq_ok.mp merged <;> exact ⟨rfl, rfl⟩

theorem loop_stops {stop : Stop} (stopped : keys.foldlM (mergeKey change lww deletedDest) world = .error stop)
    (other : stop ≠ .waits) :
    ∃ key ∈ keys, key ∉ deletedDest ∧ ∃ part, change (world.src.at key) part key = .error stop := by
  have keeps : ∀ middle key next, mergeKey change lww deletedDest middle key = .ok next →
      middle.src.partitions = world.src.partitions ∧ middle.src.store = world.src.store →
      next.src.partitions = world.src.partitions ∧ next.src.store = world.src.store := by
    intro middle key next merged same
    obtain ⟨partitions, store⟩ := mergeKey_src merged
    exact ⟨partitions.trans same.1, store.trans same.2⟩
  obtain ⟨middle, key, member, same, stopped⟩ := foldlM_raised stopped keeps ⟨rfl, rfl⟩
  obtain ⟨absent, waits | ⟨part, stuck⟩⟩ := mergeKey_stops stopped
  · exact absurd waits other
  · refine ⟨key, member, absent, part, ?_⟩
    simpa only [Side.at, same] using stuck

/-- A lock stays taken. -/
theorem Leaked.mergeKey (leaked : Leaked world)
    (merged : MergeKeys.mergeKey change lww deletedDest world key = .ok next) : Leaked next := by
  obtain ⟨itr, inside, taken⟩ := leaked
  have other (free : world.dest.locked (hash world.dest.store key) = false) : itr ≠ hash world.dest.store key := by
    rintro rfl
    rw [taken] at free
    cases free
  obtain ⟨-, rfl⟩ | ⟨-, -, free, ⟨-, rfl⟩ | ⟨-, after, -, rfl⟩⟩ := mergeKey_eq_ok.mp merged
  · exact ⟨itr, inside, taken⟩
  · exact ⟨itr, inside, (Function.update_of_ne (other free) _ _).trans taken⟩
  · exact ⟨itr, inside, (Function.update_of_ne (other free) _ _).trans
      ((Function.update_of_ne (other free) _ _).trans taken)⟩

omit [LinearOrder T] [Zero T] in
theorem SameAt.trans {part other third : Part V F T} (one : SameAt key part other) (two : SameAt key other third) :
    SameAt key part third :=
  ⟨one.1.trans two.1, one.2.trans two.2⟩

/-- The timestamps of a key decide. -/
theorem older_congr {src src' dest dest' : Side V F T} (partitions : src'.partitions = src.partitions)
    (store : src'.store = src.store) (same : SameAt key (dest'.at key) (dest.at key)) :
    Older lww src' dest' key ↔ Older lww src dest key := by
  simp only [Older, getTimestamp, Side.at, partitions, store]
  rw [show (dest'.partitions _).timestamp.lookup key = _ from same.2]
  rfl

/-- A change of the partition for a key changes nothing else, and does not turn the clock back. -/
def Local (change : Part V F T → Timed Bytes V F T → Bytes → Except Stop (Timed Bytes V F T)) : Prop :=
  ∀ src part key after, change src part key = .ok after →
    part.2 ≤ after.2 ∧ ∀ other ≠ key, SameAt other after.1 part.1

omit [LinearOrder T] [Zero T] in
theorem Stepped.sameAt (stepped : Stepped change world key next) (isLocal : Local change) {other : Bytes}
    (different : other ≠ key) : SameAt other (next.dest.at other) (world.dest.at other) := by
  obtain ⟨after, changed, here, -⟩ := stepped.here
  have kept := (isLocal _ _ _ _ changed).2 other different
  by_cases same : hash world.dest.store other = hash world.dest.store key
  · simp only [Side.at, stepped.store, same] at here ⊢
    rw [here]
    exact kept
  · simp only [Side.at, stepped.store, stepped.elsewhere _ same]
    exact ⟨rfl, rfl⟩

/-- What a loop that gives all its locks back has done -/
structure Merging (change : Part V F T → Timed Bytes V F T → Bytes → Except Stop (Timed Bytes V F T)) (lww : Bool)
    (deletedDest : List Bytes) (world : World V F T) (keys : List Bytes) (last : World V F T) : Prop where
  src : last.src.partitions = world.src.partitions ∧ last.src.store = world.src.store
  store : last.dest.store = world.dest.store
  free : Free last.src ∧ Free last.dest
  readings : world.readings ≤ last.readings
  kept : ∀ key, key ∉ keys ∨ key ∈ deletedDest → SameAt key (last.dest.at key) (world.dest.at key)
  merged : ∀ key ∈ keys, key ∉ deletedDest → ¬ Older lww world.src world.dest key ∧
    ∃ part after, world.readings ≤ part.2 ∧ after.2 ≤ last.readings ∧ SameAt key part.1 (world.dest.at key) ∧
      change (world.src.at key) part key = .ok after ∧ SameAt key (last.dest.at key) after.1

omit [LinearOrder T] [Zero T] in
theorem Stepped.srcAt (stepped : Stepped change world key next) (other : Bytes) :
    next.src.at other = world.src.at other := by
  simp only [Side.at, stepped.src]

theorem Stepped.older_iff (stepped : Stepped change world key next) (isLocal : Local change) {other : Bytes}
    (different : other ≠ key) :
    Older lww next.src next.dest other ↔ Older lww world.src world.dest other :=
  older_congr stepped.src.1 stepped.src.2 (stepped.sameAt isLocal different)

/-- A round of a key that the destination has deleted does not count. -/
theorem Merging.skipped (merging : Merging change lww deletedDest world keys last) (member : key ∈ deletedDest) :
    Merging change lww deletedDest world (key :: keys) last where
  src := merging.src
  store := merging.store
  free := merging.free
  readings := merging.readings
  kept := by
    intro other this
    by_cases same : other = key
    · exact merging.kept other (.inr (same ▸ member))
    · exact merging.kept other (by simpa [same] using this)
  merged := by
    intro other this absent
    have rest : other ∈ keys := (List.mem_cons.mp this).resolve_left fun same => absent (same ▸ member)
    exact merging.merged other rest absent

/-- One more round in front of the others -/
theorem Merging.stepped (merging : Merging change lww deletedDest next keys last) (isLocal : Local change)
    (fresh : key ∉ keys) (absent : key ∉ deletedDest) (newer : ¬ Older lww world.src world.dest key)
    (stepped : Stepped change world key next) : Merging change lww deletedDest world (key :: keys) last := by
  have here : SameAt key (last.dest.at key) (next.dest.at key) := merging.kept key (.inl fresh)
  obtain ⟨after, changed, set, read⟩ := stepped.here
  have onward : world.readings ≤ next.readings := by
    rw [read]
    exact (isLocal _ _ _ _ changed).1
  refine ⟨⟨merging.src.1.trans stepped.src.1, merging.src.2.trans stepped.src.2⟩, merging.store.trans stepped.store,
    merging.free, onward.trans merging.readings, fun other this => ?_, fun other this absent' => ?_⟩
  · have different : other ≠ key := by
      rintro rfl
      exact this.elim (fun out => out List.mem_cons_self) absent
    exact (merging.kept other (by simpa [different] using this)).trans (stepped.sameAt isLocal different)
  · by_cases same : other = key
    · subst same
      exact ⟨newer, _, after, le_rfl, read ▸ merging.readings, ⟨rfl, rfl⟩, changed, set ▸ here⟩
    · have rest : other ∈ keys := (List.mem_cons.mp this).resolve_left same
      obtain ⟨newer', part, after, early, late, before, changed, set⟩ := merging.merged other rest absent'
      exact ⟨fun older => newer' ((stepped.older_iff isLocal same).mpr older), part, after, onward.trans early, late,
        before.trans (stepped.sameAt isLocal same), stepped.srcAt other ▸ changed, set⟩

theorem loop_returned (isLocal : Local change) (nodup : keys.Nodup) (srcFree : Free world.src)
    (destFree : Free world.dest) (returned : keys.foldlM (mergeKey change lww deletedDest) world = .ok last) :
    Leaked last ∨ Merging change lww deletedDest world keys last := by
  induction keys generalizing world with
  | nil =>
    obtain rfl := Except.ok.inj returned
    exact .inr ⟨⟨rfl, rfl⟩, rfl, ⟨srcFree, destFree⟩, le_rfl, fun _ _ => ⟨rfl, rfl⟩, fun _ member => nomatch member⟩
  | cons key keys ih =>
    obtain ⟨fresh, nodup⟩ := List.nodup_cons.mp nodup
    rw [List.foldlM_cons, bind_eq_ok] at returned
    obtain ⟨next, merged, returned⟩ := returned
    obtain ⟨member, rfl⟩ | ⟨absent, older, leaked⟩ | ⟨absent, newer, stepped⟩ :=
      mergeKey_cases srcFree destFree merged
    · obtain leaked | merging := ih nodup srcFree destFree returned
      · exact .inl leaked
      · exact .inr (merging.skipped member)
    · exact .inl (foldlM_invariant returned (fun _ _ _ merged leaked => leaked.mergeKey merged) leaked)
    · obtain leaked | merging := ih nodup stepped.free.1 stepped.free.2 returned
      · exact .inl leaked
      · exact .inr (merging.stepped isLocal fresh absent newer stepped)

omit [LinearOrder T] [Zero T] in
theorem Leaked.not_free (leaked : Leaked world) (free : Free world.dest) : False := by
  obtain ⟨itr, -, taken⟩ := leaked
  rw [free itr] at taken
  cases taken

theorem loop_returns (isLocal : Local change) (nodup : keys.Nodup) (srcFree : Free world.src)
    (destFree : Free world.dest)
    (fine : ∀ key ∈ keys, key ∉ deletedDest → ¬ Older lww world.src world.dest key ∧
      ∀ part, ∃ after, change (world.src.at key) part key = .ok after) :
    ∃ last, keys.foldlM (mergeKey change lww deletedDest) world = .ok last ∧
      Merging change lww deletedDest world keys last := by
  have returns : ∃ last, keys.foldlM (mergeKey change lww deletedDest) world = .ok last ∧ Free last.dest := by
    induction keys generalizing world with
    | nil => exact ⟨world, rfl, destFree⟩
    | cons key keys ih =>
      obtain ⟨fresh, nodup⟩ := List.nodup_cons.mp nodup
      have first := fine key List.mem_cons_self
      have rest (other : Bytes) (member : other ∈ keys) := fine other (List.mem_cons_of_mem key member)
      simp only [List.foldlM_cons, bind_eq_ok]
      by_cases member : key ∈ deletedDest
      · obtain ⟨last, returned, free⟩ := ih nodup srcFree destFree rest
        exact ⟨last, ⟨world, mergeKey_eq_ok.mpr (.inl ⟨member, rfl⟩), returned⟩, free⟩
      · obtain ⟨newer, changes⟩ := first member
        obtain ⟨next, merged⟩ := mergeKey_returns srcFree destFree newer changes
        obtain ⟨present, -⟩ | ⟨-, older, -⟩ | ⟨-, -, stepped⟩ := mergeKey_cases srcFree destFree merged
        · exact absurd present member
        · exact absurd older newer
        · obtain ⟨last, returned, free⟩ := ih nodup stepped.free.1 stepped.free.2 fun other member absent => by
            have different : other ≠ key := fun same => fresh (same ▸ member)
            obtain ⟨newer, changes⟩ := rest other member absent
            exact ⟨fun older => newer ((stepped.older_iff isLocal different).mp older),
              stepped.srcAt other ▸ changes⟩
          exact ⟨last, ⟨next, merged, returned⟩, free⟩
  obtain ⟨last, returned, free⟩ := returns
  exact ⟨last, returned, (loop_returned isLocal nodup srcFree destFree returned).resolve_left
    fun leaked => leaked.not_free free⟩

theorem local_setKey [Add T] : Local (setKey clock : Part V F T → _) := by
  intro src part key after changed
  rw [setKey] at changed
  split at changed
  · obtain rfl := Except.ok.inj changed
    exact ⟨(readings_expiresAt _ part.2).trans (Nat.le_succ _), fun other different =>
      ⟨AList.lookup_insert_ne different, AList.lookup_insert_ne different⟩⟩
  · cases changed

omit [Zero T] in
theorem local_delete :
    Local fun (_ : Part V F T) dest key => .ok (KvStore.delete clock dest key) := by
  intro src part key after changed
  obtain rfl := Except.ok.inj changed
  rw [KvStore.delete]
  split
  · exact ⟨Nat.le_succ _, fun other different =>
      ⟨AList.lookup_erase_ne different, AList.lookup_insert_ne different⟩⟩
  · exact ⟨le_rfl, fun _ _ => ⟨rfl, rfl⟩⟩

/-! ## The merge -/

section

variable [Add T] {search : String → Bytes → Bool} {filterExp : Option String} {src dest : Side V F T}
  {readings : ℕ} {srcScan destScan : Scan V F T} {validSrc : List Bytes}

theorem filterKeys_subset (filtered : filterKeys search filterExp keys = .ok validSrc) : validSrc.Sublist keys := by
  unfold filterKeys at filtered
  split at filtered
  · obtain rfl := Except.ok.inj filtered
    exact .refl _
  · split at filtered
    · obtain rfl := Except.ok.inj filtered
      exact .refl _
    · obtain ⟨pattern, -, filtered⟩ := bind_eq_ok.mp filtered
      obtain rfl := Except.ok.inj filtered
      exact List.filter_sublist

theorem mergeKeys_eq_ok (scanned : keySet clock keyOrder src readings = .ok srcScan)
    (scanned' : keySet clock keyOrder dest srcScan.readings = .ok destScan)
    (filtered : filterKeys search filterExp srcScan.valid = .ok validSrc) :
    mergeKeys clock keyOrder lww search filterExp src dest readings = .ok world ↔
      ∃ mid after scan,
        validSrc.foldlM (mergeValid clock lww destScan.deleted) ⟨srcScan.side, destScan.side, destScan.readings⟩ =
          .ok mid ∧
        srcScan.deleted.foldlM (mergeDeleted clock lww destScan.deleted) mid = .ok after ∧
        keySet clock keyOrder after.dest after.readings = .ok scan ∧
        world = { after with dest := scan.side, readings := scan.readings } := by
  rw [mergeKeys]
  simp only [bind_eq_ok, scanned, scanned', filtered, Except.ok.injEq, exists_eq_left', pure, Except.pure]
  constructor
  · rintro ⟨mid, valid, after, deleted, scan, last, same⟩
    exact ⟨mid, after, scan, valid, deleted, last, same.symm⟩
  · rintro ⟨mid, after, scan, valid, deleted, last, same⟩
    exact ⟨mid, valid, after, deleted, scan, last, same.symm⟩

/-- The two loops of a merge that returns -/
theorem loops_of_mergeKeys (srcFree : Free src) (destFree : Free dest) (placed : Placed src)
    (scanned : keySet clock keyOrder src readings = .ok srcScan)
    (scanned' : keySet clock keyOrder dest srcScan.readings = .ok destScan)
    (filtered : filterKeys search filterExp srcScan.valid = .ok validSrc)
    (merged : mergeKeys clock keyOrder lww search filterExp src dest readings = .ok world) :
    ∃ mid after scan,
      Merging (setKey clock) lww destScan.deleted ⟨srcScan.side, destScan.side, destScan.readings⟩ validSrc mid ∧
      Merging (fun _ dest key => .ok (KvStore.delete clock dest key)) lww destScan.deleted mid srcScan.deleted
        after ∧
      keySet clock keyOrder after.dest after.readings = .ok scan ∧
      world = { after with dest := scan.side, readings := scan.readings } := by
  obtain ⟨mid, after, scan, valid, deleted, last, rfl⟩ := (mergeKeys_eq_ok scanned scanned' filtered).mp merged
  have s := keySet_scanned srcFree scanned
  have d := keySet_scanned destFree scanned'
  obtain ⟨-, validNodup, deletedNodup, -⟩ := s.placed placed
  have notLeaked : ¬ Leaked after := fun ⟨itr, inside, taken⟩ => keySet_waits taken inside _ _ last
  obtain leaked | merging := loop_returned local_setKey ((filterKeys_subset filtered).nodup validNodup) s.free
    d.free valid
  · exact absurd (foldlM_invariant deleted (fun _ _ _ merged leaked => leaked.mergeKey merged) leaked) notLeaked
  · obtain leaked | merging' := loop_returned local_delete deletedNodup merging.free.1 merging.free.2 deleted
    · exact absurd leaked notLeaked
    · exact ⟨mid, after, scan, merging, merging', last, rfl⟩

omit [Add T] in
/-- A key that is valid has not been found deleted. -/
theorem notMem_deleted (srcFree : Free src) (placed : Placed src) (sound : ∀ itr, Sound (src.partitions itr))
    (scanned : keySet clock keyOrder src readings = .ok srcScan)
    (valid : (getKey (srcScan.side.at key) key).isSome) : key ∉ srcScan.deleted := by
  have s := keySet_scanned srcFree scanned
  intro member
  exact (s.sound sound _).disjoint key (AList.lookup_isSome.mp valid) (s.deleted placed key member)

theorem setKey_eq_ok {src : Part V F T} {part after : Timed Bytes V F T} :
    setKey clock src part key = .ok after ↔ ∃ keyAdd, getKey src key = some keyAdd ∧
      after = KvStore.set clock part key keyAdd.value keyAdd.expires keyAdd.flag := by
  rw [setKey]
  cases getKey src key <;> simp [pure, Except.pure, throw, throwThe, MonadExceptOf.throw, eq_comm]

/-- A merge returns exactly if no key that it looks at is newer in the destination, where the last write wins,
and all the valid ones are still there. -/
theorem mergeKeys_ok_iff (srcFree : Free src) (destFree : Free dest) (placed : Placed src)
    (sound : ∀ itr, Sound (src.partitions itr)) (scanned : keySet clock keyOrder src readings = .ok srcScan)
    (scanned' : keySet clock keyOrder dest srcScan.readings = .ok destScan)
    (filtered : filterKeys search filterExp srcScan.valid = .ok validSrc) :
    (∃ world, mergeKeys clock keyOrder lww search filterExp src dest readings = .ok world) ↔
      ∀ key ∉ destScan.deleted,
        (key ∈ validSrc → (getKey (srcScan.side.at key) key).isSome ∧ ¬ Older lww srcScan.side destScan.side key) ∧
        (key ∈ srcScan.deleted → ¬ Older lww srcScan.side destScan.side key) := by
  have s := keySet_scanned srcFree scanned
  have d := keySet_scanned destFree scanned'
  obtain ⟨-, validNodup, deletedNodup, -⟩ := s.placed placed
  -- The second loop finds the timestamps of its keys as the first one has found them.
  have still {mid : World V F T} {key : Bytes} (member : key ∈ srcScan.deleted)
      (merging : Merging (setKey clock) lww destScan.deleted ⟨srcScan.side, destScan.side, destScan.readings⟩
        validSrc mid)
      (valid : key ∈ validSrc → key ∉ destScan.deleted → (getKey (srcScan.side.at key) key).isSome) :
      Older lww mid.src mid.dest key ↔ Older lww srcScan.side destScan.side key := by
    refine older_congr merging.src.1 merging.src.2 (merging.kept key ?_)
    by_contra both
    simp only [not_or, not_not] at both
    exact notMem_deleted srcFree placed sound scanned (valid both.1 both.2) member
  constructor
  · rintro ⟨world, merged⟩ key absent
    obtain ⟨mid, after, scan, merging, merging', -, -⟩ :=
      loops_of_mergeKeys srcFree destFree placed scanned scanned' filtered merged
    have valid (member : key ∈ validSrc) : (getKey (srcScan.side.at key) key).isSome ∧
        ¬ Older lww srcScan.side destScan.side key := by
      obtain ⟨newer, part, after, -, -, -, changed, -⟩ := merging.merged key member absent
      obtain ⟨keyAdd, found, -⟩ := setKey_eq_ok.mp changed
      exact ⟨Option.isSome_of_mem found, newer⟩
    refine ⟨valid, fun member older => ?_⟩
    exact (merging'.merged key member absent).1
      ((still member merging fun member _ => (valid member).1).mpr older)
  · intro fine
    have first : ∃ mid, validSrc.foldlM (mergeValid clock lww destScan.deleted)
        ⟨srcScan.side, destScan.side, destScan.readings⟩ = .ok mid ∧ Merging (setKey clock) lww destScan.deleted
          ⟨srcScan.side, destScan.side, destScan.readings⟩ validSrc mid := by
      refine loop_returns local_setKey ((filterKeys_subset filtered).nodup validNodup) s.free d.free ?_
      intro key member absent
      obtain ⟨valid, newer⟩ := (fine key absent).1 member
      obtain ⟨keyAdd, found⟩ := Option.isSome_iff_exists.mp valid
      exact ⟨newer, fun part => ⟨_, setKey_eq_ok.mpr ⟨keyAdd, found, rfl⟩⟩⟩
    obtain ⟨mid, first, merging⟩ := first
    have second : ∃ after, srcScan.deleted.foldlM (mergeDeleted clock lww destScan.deleted) mid = .ok after ∧
        Merging (fun _ dest key => .ok (KvStore.delete clock dest key)) lww destScan.deleted mid srcScan.deleted
          after := by
      refine loop_returns local_delete deletedNodup merging.free.1 merging.free.2 fun key member absent => ?_
      have newer := (still member merging fun member absent => ((fine key absent).1 member).1).mp
      exact ⟨fun older => (fine key absent).2 member (newer older), fun part => ⟨_, rfl⟩⟩
    obtain ⟨after, second, merging'⟩ := second
    obtain ⟨scan, last⟩ : ∃ scan, keySet clock keyOrder after.dest after.readings = .ok scan :=
      keySet_returns merging'.free.2 after.readings
    exact ⟨_, (mergeKeys_eq_ok scanned scanned' filtered).mpr ⟨mid, after, scan, first, second, last, rfl⟩⟩

/-- What stops a merge is a lock that it has not given back, or a key that is gone. -/
theorem mergeKeys_stops {stop : Stop} (scanned : keySet clock keyOrder src readings = .ok srcScan)
    (scanned' : keySet clock keyOrder dest srcScan.readings = .ok destScan)
    (filtered : filterKeys search filterExp srcScan.valid = .ok validSrc)
    (stopped : mergeKeys clock keyOrder lww search filterExp src dest readings = .error stop) :
    stop = .waits ∨ ∃ key ∈ validSrc, key ∉ destScan.deleted ∧ getKey (srcScan.side.at key) key = none := by
  rw [mergeKeys] at stopped
  simp only [bind_eq_error, scanned, scanned', filtered, Except.ok.injEq, exists_eq_left', reduceCtorEq, false_or] at stopped
  obtain first | ⟨mid, -, second | ⟨after, -, last | ⟨scan, -, never⟩⟩⟩ := stopped
  · refine or_iff_not_imp_left.mpr fun other => ?_
    obtain ⟨key, member, absent, part, stuck⟩ := loop_stops first other
    refine ⟨key, member, absent, ?_⟩
    rw [setKey] at stuck
    split at stuck
    · cases stuck
    · assumption
  · refine or_iff_not_imp_left.mpr fun other => ?_
    obtain ⟨key, -, -, part, stuck⟩ := loop_stops second other
    cases stuck
  · exact .inl (keySet_stops last)
  · cases never

/-- A merge returns exactly if no key that it looks at is newer in the destination, where the last write wins,
and all the valid ones are still there.  If these are, a newer key makes it wait for a lock of its own. -/
theorem mergeKeys_returns_iff (srcFree : Free src) (destFree : Free dest) (placed : Placed src)
    (sound : ∀ itr, Sound (src.partitions itr)) (scanned : keySet clock keyOrder src readings = .ok srcScan)
    (scanned' : keySet clock keyOrder dest srcScan.readings = .ok destScan)
    (filtered : filterKeys search filterExp srcScan.valid = .ok validSrc) :
    ((∃ world, mergeKeys clock keyOrder lww search filterExp src dest readings = .ok world) ↔
      ∀ key ∉ destScan.deleted,
        (key ∈ validSrc → (getKey (srcScan.side.at key) key).isSome ∧ ¬ Older lww srcScan.side destScan.side key) ∧
        (key ∈ srcScan.deleted → ¬ Older lww srcScan.side destScan.side key)) ∧
    ((∀ key ∈ validSrc, key ∉ destScan.deleted → (getKey (srcScan.side.at key) key).isSome) →
      (mergeKeys clock keyOrder lww search filterExp src dest readings = .error .waits ↔
        ∃ key ∉ destScan.deleted, (key ∈ validSrc ∨ key ∈ srcScan.deleted) ∧
          Older lww srcScan.side destScan.side key)) := by
  have returns := @mergeKeys_ok_iff _ _ _ _ _ clock keyOrder lww _ search filterExp _ _ _ _ _ _ srcFree destFree placed sound scanned scanned' filtered
  refine ⟨returns, fun present => ⟨fun waits => ?_, fun newer => ?_⟩⟩
  · by_contra fine
    push Not at fine
    obtain ⟨world, merged⟩ := returns.mpr fun key absent =>
      ⟨fun member => ⟨present key member absent, fine key absent (.inl member)⟩,
        fun member => fine key absent (.inr member)⟩
    rw [waits] at merged
    cases merged
  · cases outcome : mergeKeys clock keyOrder lww search filterExp src dest readings with
    | ok world =>
      obtain ⟨key, absent, member, older⟩ := newer
      have fine := returns.mp ⟨world, outcome⟩ key absent
      exact absurd older (member.elim (fun member => (fine.1 member).2) fine.2)
    | error stop =>
      obtain rfl | ⟨key, member, absent, gone⟩ := mergeKeys_stops scanned scanned' filtered outcome
      · rfl
      · have here := present key member absent
        rw [gone] at here
        cases here

/-- A key keeps its entry, if this does not expire. -/
def Kept (clock : Clock T) (readings : ℕ) (before after : Option (Entry V F T)) : Prop :=
  after = before ∨ (after = none ∧ ∃ entry, before = some entry ∧ entry.expires ≠ 0 ∧
    ∃ n < readings, entry.expires < clock.reading n)

omit [Add T] in
theorem kept_of_keySet {side : Side V F T} {scan : Scan V F T} (free : Free side)
    (scanned : keySet clock keyOrder side readings = .ok scan) (key : Bytes) :
    Kept clock scan.readings (getKey (side.at key) key) (getKey (scan.side.at key) key) := by
  have s := keySet_scanned free scanned
  have lapses := (s.lapses (hash side.store key)).lookup key
  simpa only [Kept, getKey, Side.at, s.store] using lapses

omit [Zero T] [Add T] in
theorem getKey_delete {part : Timed Bytes V F T} : getKey (KvStore.delete clock part key).1 key = none := by
  rw [KvStore.delete, getKey]
  split
  · exact AList.lookup_erase _ _
  · assumption

/-- What the destination holds after a merge.  A time at which a key expires in the source is taken for the time
that is left: it is added to a reading of the clock that is made while the keys are merged. -/
theorem mergeKeys_entries (srcFree : Free src) (destFree : Free dest) (placed : Placed src)
    (sound : ∀ itr, Sound (src.partitions itr)) (scanned : keySet clock keyOrder src readings = .ok srcScan)
    (scanned' : keySet clock keyOrder dest srcScan.readings = .ok destScan)
    (filtered : filterKeys search filterExp srcScan.valid = .ok validSrc)
    (merged : mergeKeys clock keyOrder lww search filterExp src dest readings = .ok world) (key : Bytes) :
    (key ∈ validSrc → key ∉ destScan.deleted → ∃ keyAdd n, getKey (srcScan.side.at key) key = some keyAdd ∧
      destScan.readings ≤ n ∧ n < world.readings ∧
      Kept clock world.readings (some { keyAdd with expires := (expiresAt clock keyAdd.expires n).1 })
        (getKey (world.dest.at key) key)) ∧
    (key ∈ srcScan.deleted → key ∉ destScan.deleted → getKey (world.dest.at key) key = none) ∧
    ((key ∉ validSrc ∧ key ∉ srcScan.deleted) ∨ key ∈ destScan.deleted →
      Kept clock world.readings (getKey (destScan.side.at key) key) (getKey (world.dest.at key) key)) := by
  obtain ⟨mid, after, scan, merging, merging', last, rfl⟩ :=
    loops_of_mergeKeys srcFree destFree placed scanned scanned' filtered merged
  have kept := kept_of_keySet merging'.free.2 last key
  have scanReadings : after.readings ≤ scan.readings := ((keySet_scanned merging'.free.2 last).lapses 0).readings
  refine ⟨fun member absent => ?_, fun member absent => ?_, fun others => ?_⟩
  · obtain ⟨-, part, written, early, late, -, changed, same⟩ := merging.merged key member absent
    obtain ⟨keyAdd, found, rfl⟩ := setKey_eq_ok.mp changed
    have valid : (getKey (srcScan.side.at key) key).isSome := Option.isSome_of_mem found
    have same' := merging'.kept key (.inl (notMem_deleted srcFree placed sound scanned valid))
    have inside : part.2 < scan.readings := by
      have written := @readings_expiresAt _ _ _ _ clock keyAdd.expires part.2
      exact (Nat.lt_of_lt_of_le (Nat.lt_succ_of_le written) late).trans_le (merging'.readings.trans scanReadings)
    refine ⟨keyAdd, part.2, found, early, inside, ?_⟩
    rw [show getKey (after.dest.at key) key = _ from (same'.trans same).1, KvStore.set, AList.lookup_insert] at kept
    exact kept
  · obtain ⟨-, part, written, -, -, -, changed, same⟩ := merging'.merged key member absent
    obtain rfl := Except.ok.inj changed
    rw [show getKey (after.dest.at key) key = _ from same.1.trans getKey_delete] at kept
    obtain gone | ⟨gone, -⟩ := kept
    · exact gone
    · exact gone
  · have same := merging.kept key (others.imp_left And.left)
    have same' := merging'.kept key (others.imp_left And.right)
    rw [show getKey (after.dest.at key) key = _ from (same'.trans same).1] at kept
    exact kept

end

/-! ## Stores with two keys -/

/-- The keys `k1`, which expires at 100, and `k2` -/
def twoKeys (first second : ℕ) : Side ℕ ℕ ℕ where
  store := ⟨.unsigned, 1⟩
  partitions itr :=
    if itr = 0 then
      { valid := [⟨[107, 49], ⟨5, 100, 0⟩⟩, ⟨[107, 50], ⟨6, 0, 0⟩⟩].toAList
        deleted := ∅
        timestamp := [⟨[107, 49], first⟩, ⟨[107, 50], second⟩].toAList
        expiredKeys := [] }
    else Partition.empty
  locked _ := false

def secondClock : Clock ℕ := ⟨id, monotone_id⟩

def asIs : KeyOrder Bytes := ⟨id, fun _ => .refl _⟩

theorem twoKeys_placed (first second : ℕ) : Placed (twoKeys first second) := by
  intro itr key member
  by_cases only : itr = 0
  · subst only
    exact Nat.lt_one_iff.mp (hash_lt (twoKeys first second).store key)
  · simp [twoKeys, only, Partition.empty] at member

theorem twoKeys_sound (first second itr : ℕ) : Sound ((twoKeys first second).partitions itr) := by
  by_cases only : itr = 0
  · subst only
    exact ⟨fun _ _ => AList.notMem_empty _, List.nodup_nil, by simp [twoKeys]⟩
  · simp only [twoKeys, only, if_false]
    exact Sound.empty

/-- The newer `k2` of the destination is kept, and its locks are taken for ever. -/
theorem twoKeys_wait :
    mergeKeys secondClock asIs true (fun _ _ => true) none (twoKeys 3 3) (twoKeys 2 4) 0 = .error .waits := by
  refine ((mergeKeys_returns_iff (fun _ => rfl) (fun _ => rfl) (twoKeys_placed 3 3) (twoKeys_sound 3 3) rfl rfl rfl).2
    ?_).mpr ⟨[107, 50], by decide, .inl (by decide), by decide⟩
  decide

theorem twoKeys_expire : ∃ world,
    mergeKeys secondClock asIs true (fun _ _ => true) none (twoKeys 3 3) (twoKeys 2 3) 0 = .ok world ∧
      getKey (world.dest.at [107, 50]) [107, 50] = some ⟨6, 0, 0⟩ ∧
      ∃ n < world.readings, Kept secondClock world.readings (some ⟨5, (expiresAt secondClock 100 n).1, 0⟩)
        (getKey (world.dest.at [107, 49]) [107, 49]) := by
  obtain ⟨world, merged⟩ : ∃ world,
      mergeKeys secondClock asIs true (fun _ _ => true) none (twoKeys 3 3) (twoKeys 2 3) 0 = .ok world := ⟨_, rfl⟩
  have entries := mergeKeys_entries (fun _ => rfl) (fun _ => rfl) (twoKeys_placed 3 3) (twoKeys_sound 3 3)
    rfl rfl rfl merged
  obtain ⟨keyAdd, n, found, -, late, kept⟩ := (entries [107, 49]).1 (by decide) (by decide)
  obtain ⟨other, m, found', -, -, kept'⟩ := (entries [107, 50]).1 (by decide) (by decide)
  obtain rfl : (⟨5, 100, 0⟩ : Entry ℕ ℕ ℕ) = keyAdd := Option.some_inj.mp found
  obtain rfl : (⟨6, 0, 0⟩ : Entry ℕ ℕ ℕ) = other := Option.some_inj.mp found'
  refine ⟨world, merged, ?_, n, late, kept⟩
  obtain same | ⟨-, entry, same, limited, -⟩ := kept'
  · exact same
  · exact absurd (congrArg Entry.expires (Option.some_inj.mp same)).symm limited

end Taf.Xdcr.MergeKeys
