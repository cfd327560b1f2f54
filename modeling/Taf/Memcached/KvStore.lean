import Taf.Lib.Dict
import Taf.Lib.Run

/-! # The partitions of the in-memory store

`Partition` of `lib/memcached/helper/kvstore.py`.  A key expires when somebody asks for it: it moves
from the valid to the deleted keys, and its name is noted.  Every call of `time.time()` takes the
next reading of a clock that does not go back; the times may be of any type with an order, a zero
and a sum, about which nothing else is needed. -/

namespace Taf.Memcached.KvStore

open Taf.Lib

/-- An `expires` of zero says that the key does not expire. -/
structure Entry (V F T : Type) where
  value : V
  expires : T
  flag : F

structure Partition (κ V F T : Type) where
  valid : AList fun _ : κ => Entry V F T
  deleted : AList fun _ : κ => V
  timestamp : AList fun _ : κ => T
  expiredKeys : List κ

/-- The readings of `time.time()` -/
structure Clock (T : Type) [Preorder T] where
  reading : ℕ → T
  mono : Monotone reading

/-- A partition, and how often the clock has been read -/
abbrev Timed (κ V F T : Type) := Partition κ V F T × ℕ

variable {κ V F T ι : Type} [DecidableEq κ] [DecidableEq ι] [LinearOrder T] [Zero T] [Add T]

/-! ## The operations -/

def Partition.empty : Partition κ V F T where
  valid := ∅
  deleted := ∅
  timestamp := ∅
  expiredKeys := []

variable (clock : Clock T)

/-- `exp = (time.time() + exp)` if there is one, and the next reading -/
def expiresAt (exp : T) (readings : ℕ) : T × ℕ :=
  if exp ≠ 0 then (clock.reading readings + exp, readings + 1) else (exp, readings)

def set (part : Timed κ V F T) (key : κ) (value : V) (exp : T) (flag : F) : Timed κ V F T :=
  let timed := expiresAt clock exp part.2
  ({ valid := part.1.valid.insert key { value := value, expires := timed.1, flag := flag }
     deleted := part.1.deleted.erase key
     timestamp := part.1.timestamp.insert key (clock.reading timed.2)
     expiredKeys := part.1.expiredKeys.erase key }, timed.2 + 1)

def delete (part : Timed κ V F T) (key : κ) : Timed κ V F T :=
  match part.1.valid.lookup key with
  | some entry =>
    ({ part.1 with
       deleted := part.1.deleted.insert key entry.value
       timestamp := part.1.timestamp.insert key (clock.reading part.2)
       valid := part.1.valid.erase key }, part.2 + 1)
  | none => part

/-- `__expire_key` -/
def expireKey (part : Timed κ V F T) (key : κ) : Timed κ V F T :=
  match part.1.valid.lookup key with
  | some entry =>
    if entry.expires ≠ 0 then
      if entry.expires < clock.reading part.2 then
        ({ part.1 with
           deleted := part.1.deleted.insert key entry.value
           expiredKeys := part.1.expiredKeys ++ [key]
           valid := part.1.valid.erase key }, part.2 + 1)
      else (part.1, part.2 + 1)
    else part
  | none => part

def getValid (part : Timed κ V F T) (key : κ) : Option V × Timed κ V F T :=
  let after := expireKey clock part key
  ((after.1.valid.lookup key).map Entry.value, after)

def getDeleted (part : Timed κ V F T) (key : κ) : Option V × Timed κ V F T :=
  let after := expireKey clock part key
  (after.1.deleted.lookup key, after)

def getFlag (part : Timed κ V F T) (key : κ) : Option F × Timed κ V F T :=
  let after := expireKey clock part key
  ((after.1.valid.lookup key).map Entry.flag, after)

variable (keyOrder : KeyOrder κ)

/-- `[self.__expire_key(key) for key in valid_keys]` -/
def expireAll (part : Timed κ V F T) : Timed κ V F T :=
  (keyOrder.order part.1.valid.keys).foldl (expireKey clock) part

def validKeySet (part : Timed κ V F T) : List κ × Timed κ V F T :=
  let after := expireAll clock keyOrder part
  (after.1.valid.keys, after)

def deletedKeySet (part : Timed κ V F T) : List κ × Timed κ V F T :=
  let after := expireAll clock keyOrder part
  (after.1.deleted.keys, after)

def expiredKeySet (part : Timed κ V F T) : List κ × Timed κ V F T :=
  let after := expireAll clock keyOrder part
  (after.1.expiredKeys, after)

/-- `__len__` -/
def len (part : Timed κ V F T) : ℕ × Timed κ V F T :=
  let after := expireAll clock keyOrder part
  (after.1.valid.keys.length, after)

/-- `none` stands for the exception about a key that is not known. -/
def expired (part : Timed κ V F T) (key : κ) : Option Bool × Timed κ V F T :=
  if key ∉ part.1.valid ∧ key ∉ part.1.deleted then (none, part)
  else
    let after := expireKey clock part key
    (some (key ∈ after.1.expiredKeys), after)

def merge (part other : Partition κ V F T) : Partition κ V F T where
  valid := other.valid ∪ part.valid
  deleted := other.valid.keys.foldl (fun deleted key => deleted.erase key) part.deleted
  timestamp := other.timestamp ∪ part.timestamp
  expiredKeys := other.valid.keys.foldl List.erase part.expiredKeys

/-! ## Sequences of calls -/

inductive Op (κ V F T : Type) where
  | set (key : κ) (value : V) (exp : T) (flag : F)
  | delete (key : κ)
  | getValid (key : κ)
  | getDeleted (key : κ)
  | getFlag (key : κ)
  | validKeySet
  | deletedKeySet
  | expiredKeySet
  | expired (key : κ)
  | len

/-- What a call leaves of its partition -/
def Op.apply (part : Timed κ V F T) : Op κ V F T → Timed κ V F T
  | .set key value exp flag => KvStore.set clock part key value exp flag
  | .delete key => KvStore.delete clock part key
  | .getValid key => (KvStore.getValid clock part key).2
  | .getDeleted key => (KvStore.getDeleted clock part key).2
  | .getFlag key => (KvStore.getFlag clock part key).2
  | .validKeySet => (KvStore.validKeySet clock keyOrder part).2
  | .deletedKeySet => (KvStore.deletedKeySet clock keyOrder part).2
  | .expiredKeySet => (KvStore.expiredKeySet clock keyOrder part).2
  | .expired key => (KvStore.expired clock part key).2
  | .len => (KvStore.len clock keyOrder part).2

inductive Call (ι κ V F T : Type) where
  | on (id : ι) (op : Op κ V F T)
  | merge (into source : ι)

structure World (ι κ V F T : Type) where
  partitions : ι → Partition κ V F T
  readings : ℕ

def World.init : World ι κ V F T where
  partitions := fun _ => Partition.empty
  readings := 0

def World.timed (world : World ι κ V F T) (id : ι) : Timed κ V F T :=
  (world.partitions id, world.readings)

def step (world : World ι κ V F T) : Call ι κ V F T → World ι κ V F T
  | .on id op =>
    let after := op.apply clock keyOrder (world.timed id)
    { partitions := Function.update world.partitions id after.1, readings := after.2 }
  | .merge into source =>
    { world with
      partitions := Function.update world.partitions into
        (KvStore.merge (world.partitions into) (world.partitions source)) }

/-- The world after a sequence of calls -/
def reached (calls : List (Call ι κ V F T)) : World ι κ V F T :=
  run (step clock keyOrder) World.init calls

/-! ## The containers -/

structure Sound (part : Partition κ V F T) : Prop where
  disjoint : ∀ key ∈ part.valid, key ∉ part.deleted
  nodup : part.expiredKeys.Nodup
  expired : ∀ key ∈ part.expiredKeys, key ∈ part.deleted

variable {clock keyOrder} {part : Timed κ V F T}

omit [DecidableEq κ] [LinearOrder T] [Zero T] [Add T] in
theorem Sound.empty : Sound (Partition.empty : Partition κ V F T) where
  disjoint _ member := absurd member (AList.notMem_empty _)
  nodup := List.nodup_nil
  expired _ member := by cases member

theorem Sound.set (sound : Sound part.1) (key : κ) (value : V) (exp : T) (flag : F) :
    Sound (KvStore.set clock part key value exp flag).1 where
  disjoint other member := by
    rw [KvStore.set] at member ⊢
    simp only [AList.mem_insert, AList.mem_erase, not_and] at member ⊢
    rintro different
    rcases member with same | member
    · exact absurd same different
    · exact sound.disjoint other member
  nodup := sound.nodup.erase key
  expired other member := by
    obtain ⟨different, member⟩ := sound.nodup.mem_erase_iff.mp member
    exact AList.mem_erase.mpr ⟨different, sound.expired other member⟩

theorem mem_of_lookup {β : Type} {dict : AList fun _ : κ => β} {key : κ} {value : β}
    (found : dict.lookup key = some value) : key ∈ dict := by
  rw [← AList.lookup_isSome, found]
  exact Option.isSome_some

omit [LinearOrder T] [Zero T] [Add T] in
/-- A key that moves from the valid to the deleted ones -/
theorem Sound.move (sound : Sound part.1) {key : κ} {entry : Entry V F T} {after : Partition κ V F T}
    (found : part.1.valid.lookup key = some entry) (valid : after.valid = part.1.valid.erase key)
    (deleted : after.deleted = part.1.deleted.insert key entry.value)
    (names : after.expiredKeys = part.1.expiredKeys ∨ after.expiredKeys = part.1.expiredKeys ++ [key]) :
    Sound after where
  disjoint other member := by
    rw [valid, AList.mem_erase] at member
    rw [deleted, AList.mem_insert]
    rintro (same | isDeleted)
    · exact member.1 same
    · exact sound.disjoint other member.2 isDeleted
  nodup := by
    rcases names with same | same
    · exact same ▸ sound.nodup
    · have fresh : key ∉ part.1.expiredKeys := fun noted =>
        sound.disjoint key (mem_of_lookup found) (sound.expired key noted)
      rw [same]
      exact sound.nodup.append (List.nodup_singleton key) (by simpa using fresh)
  expired other member := by
    rw [deleted, AList.mem_insert]
    rcases names with same | same
    · exact .inr (sound.expired other (same ▸ member))
    · rw [same] at member
      rcases List.mem_append.mp member with member | member
      · exact .inr (sound.expired other member)
      · exact .inl (List.mem_singleton.mp member)

omit [Zero T] [Add T] in
theorem Sound.delete (sound : Sound part.1) (key : κ) : Sound (KvStore.delete clock part key).1 := by
  rw [KvStore.delete]
  split
  · rename_i entry found
    exact sound.move found rfl rfl (.inl rfl)
  · exact sound

omit [Add T] in
theorem Sound.expireKey (sound : Sound part.1) (key : κ) :
    Sound (KvStore.expireKey clock part key).1 := by
  rw [KvStore.expireKey]
  split
  · rename_i entry found
    split
    · split
      · exact sound.move found rfl rfl (.inr rfl)
      · exact sound
    · exact sound
  · exact sound

omit [Add T] in
theorem Sound.expireKeys (sound : Sound part.1) (keys : List κ) :
    Sound (keys.foldl (KvStore.expireKey clock) part).1 := by
  induction keys generalizing part with
  | nil => exact sound
  | cons key keys ih => exact ih (sound.expireKey key)

theorem Sound.apply (sound : Sound part.1) (op : Op κ V F T) :
    Sound (op.apply clock keyOrder part).1 := by
  cases op with
  | set key value exp flag => exact sound.set key value exp flag
  | delete key => exact sound.delete key
  | getValid key => exact sound.expireKey key
  | getDeleted key => exact sound.expireKey key
  | getFlag key => exact sound.expireKey key
  | validKeySet => exact sound.expireKeys _
  | deletedKeySet => exact sound.expireKeys _
  | expiredKeySet => exact sound.expireKeys _
  | expired key =>
    show Sound (KvStore.expired clock part key).2.1
    rw [KvStore.expired]
    split
    · exact sound
    · exact sound.expireKey key
  | len => exact sound.expireKeys _

/-! A merge -/

theorem mem_foldl_eraseKey {β : Type} {keys : List κ} {dict : AList fun _ : κ => β} {key : κ} :
    key ∈ keys.foldl (fun dict key => dict.erase key) dict ↔ key ∉ keys ∧ key ∈ dict := by
  induction keys generalizing dict with
  | nil => simp
  | cons first keys ih =>
    rw [List.foldl_cons, ih, AList.mem_erase, List.mem_cons]
    tauto

theorem nodup_foldl_erase {keys names : List κ} (nodup : names.Nodup) :
    (keys.foldl List.erase names).Nodup ∧
      ∀ key, key ∈ keys.foldl List.erase names ↔ key ∉ keys ∧ key ∈ names := by
  induction keys generalizing names with
  | nil => exact ⟨nodup, by simp⟩
  | cons first keys ih =>
    obtain ⟨still, members⟩ := ih (nodup.erase first)
    refine ⟨still, fun key => ?_⟩
    rw [List.foldl_cons, members, nodup.mem_erase_iff, List.mem_cons]
    tauto

omit [LinearOrder T] [Zero T] [Add T] in
theorem Sound.merge {part other : Partition κ V F T} (sound : Sound part) :
    Sound (KvStore.merge part other) where
  disjoint key member := by
    rw [KvStore.merge] at member ⊢
    rw [mem_foldl_eraseKey]
    rintro ⟨absent, isDeleted⟩
    rcases AList.mem_union.mp member with fresh | own
    · exact absent (AList.mem_keys.mp fresh)
    · exact sound.disjoint key own isDeleted
  nodup := (nodup_foldl_erase sound.nodup).1
  expired key member := by
    obtain ⟨absent, noted⟩ := ((nodup_foldl_erase sound.nodup).2 key).mp member
    exact mem_foldl_eraseKey.mpr ⟨absent, sound.expired key noted⟩

theorem partitions_step_on (world : World ι κ V F T) (own id : ι) (op : Op κ V F T) :
    (step clock keyOrder world (.on own op)).partitions id =
      if id = own then (op.apply clock keyOrder (world.timed own)).1 else world.partitions id :=
  Function.update_apply ..

theorem partitions_step_merge (world : World ι κ V F T) (into source id : ι) :
    (step clock keyOrder world (.merge into source)).partitions id =
      if id = into then merge (world.partitions into) (world.partitions source)
      else world.partitions id :=
  Function.update_apply ..

theorem Sound.step {world : World ι κ V F T} (sound : ∀ id, Sound (world.partitions id))
    (call : Call ι κ V F T) (id : ι) : Sound ((KvStore.step clock keyOrder world call).partitions id) := by
  cases call with
  | on own op =>
    have before : Sound (world.timed own).1 := sound own
    rw [partitions_step_on]
    split
    · exact before.apply op
    · exact sound id
  | merge into source =>
    rw [partitions_step_merge]
    split
    · exact (sound into).merge
    · exact sound id

theorem Sound.reached (calls : List (Call ι κ V F T)) (id : ι) :
    Sound ((KvStore.reached clock keyOrder calls).partitions id) := by
  induction calls using List.reverseRecOn generalizing id with
  | nil => exact Sound.empty
  | append_singleton calls call ih =>
    rw [KvStore.reached, run_append]
    exact Sound.step ih call id

/-! ## The value of a key -/

/-- Nothing happens to the valid keys but that some expire, which takes readings of the clock. -/
structure Lapses (clock : Clock T) (before after : Timed κ V F T) : Prop where
  readings : before.2 ≤ after.2
  lookup : ∀ key, after.1.valid.lookup key = before.1.valid.lookup key ∨
    (after.1.valid.lookup key = none ∧ ∃ entry, before.1.valid.lookup key = some entry ∧
      entry.expires ≠ 0 ∧ ∃ n < after.2, entry.expires < clock.reading n)

omit [Add T] in
theorem Lapses.refl (part : Timed κ V F T) : Lapses clock part part :=
  ⟨le_refl _, fun _ => .inl rfl⟩

omit [Add T] in
theorem Lapses.trans {first second third : Timed κ V F T} (one : Lapses clock first second)
    (two : Lapses clock second third) : Lapses clock first third where
  readings := one.readings.trans two.readings
  lookup key := by
    rcases two.lookup key with same | ⟨gone, entry, found, limited, n, early, past⟩
    · rcases one.lookup key with same' | ⟨gone, entry, found, limited, n, early, past⟩
      · exact .inl (same.trans same')
      · exact .inr ⟨same.trans gone, entry, found, limited, n, early.trans_le two.readings, past⟩
    · rcases one.lookup key with same' | ⟨gone', -⟩
      · exact .inr ⟨gone, entry, same' ▸ found, limited, n, early, past⟩
      · rw [gone'] at found
        cases found

omit [Add T] in
theorem Lapses.expireKey (part : Timed κ V F T) (key : κ) :
    Lapses clock part (KvStore.expireKey clock part key) := by
  rw [KvStore.expireKey]
  split
  · rename_i entry found
    split
    · rename_i limited
      split
      · rename_i past
        refine ⟨Nat.le_succ _, fun other => ?_⟩
        by_cases here : other = key
        · subst here
          exact .inr ⟨AList.lookup_erase _ _, entry, found, limited, part.2, Nat.lt_succ_self _, past⟩
        · exact .inl (AList.lookup_erase_ne here)
      · exact ⟨Nat.le_succ _, fun _ => .inl rfl⟩
    · exact Lapses.refl part
  · exact Lapses.refl part

omit [Add T] in
theorem Lapses.expireKeys (part : Timed κ V F T) (keys : List κ) :
    Lapses clock part (keys.foldl (KvStore.expireKey clock) part) := by
  induction keys generalizing part with
  | nil => exact Lapses.refl part
  | cons key keys ih => exact (Lapses.expireKey part key).trans (ih _)

/-- The calls that decide what a key holds -/
def Op.Writes (key : κ) : Op κ V F T → Prop
  | .set own _ _ _ => own = key
  | .delete own => own = key
  | _ => False

/-- A call that does not write a key can only let it lapse. -/
theorem apply_cases (part : Timed κ V F T) (op : Op κ V F T) :
    (∃ key value exp flag, op = .set key value exp flag ∧
      op.apply clock keyOrder part = set clock part key value exp flag) ∨
    (∃ key, op = .delete key ∧ op.apply clock keyOrder part = delete clock part key) ∨
    (Lapses clock part (op.apply clock keyOrder part) ∧ ∀ key, ¬ op.Writes key) := by
  cases op with
  | set key value exp flag => exact .inl ⟨key, value, exp, flag, rfl, rfl⟩
  | delete key => exact .inr (.inl ⟨key, rfl, rfl⟩)
  | getValid key => exact .inr (.inr ⟨Lapses.expireKey part key, fun _ => id⟩)
  | getDeleted key => exact .inr (.inr ⟨Lapses.expireKey part key, fun _ => id⟩)
  | getFlag key => exact .inr (.inr ⟨Lapses.expireKey part key, fun _ => id⟩)
  | validKeySet => exact .inr (.inr ⟨Lapses.expireKeys part _, fun _ => id⟩)
  | deletedKeySet => exact .inr (.inr ⟨Lapses.expireKeys part _, fun _ => id⟩)
  | expiredKeySet => exact .inr (.inr ⟨Lapses.expireKeys part _, fun _ => id⟩)
  | expired key =>
    refine .inr (.inr ⟨?_, fun _ => id⟩)
    show Lapses clock part (KvStore.expired clock part key).2
    rw [KvStore.expired]
    split
    · exact Lapses.refl part
    · exact Lapses.expireKey part key
  | len => exact .inr (.inr ⟨Lapses.expireKeys part _, fun _ => id⟩)

variable (clock keyOrder)

/-- The world after calls without merges -/
def played (ops : List (ι × Op κ V F T)) : World ι κ V F T :=
  reached clock keyOrder (ops.map fun call => .on call.1 call.2)

/-- The last call that writes a key of a partition stores a value that expires at a time, or never if
    this is zero. -/
def LastSet (ops : List (ι × Op κ V F T)) (id : ι) (key : κ) (value : V) (expires : T) : Prop :=
  ∃ before exp flag after, ops = before ++ (id, .set key value exp flag) :: after ∧
    (∀ call ∈ after, call.1 = id → ¬ call.2.Writes key) ∧
    expires = (expiresAt clock exp (played clock keyOrder before).readings).1

variable {clock keyOrder} {ops : List (ι × Op κ V F T)} {id : ι} {key : κ} {value : V} {expires : T}

theorem played_concat (ops : List (ι × Op κ V F T)) (id : ι) (op : Op κ V F T) :
    played clock keyOrder (ops ++ [(id, op)]) = step clock keyOrder (played clock keyOrder ops) (.on id op) := by
  rw [played, List.map_append, reached, run_append]
  rfl

theorem lastSet_concat {own : ι} {op : Op κ V F T} :
    LastSet clock keyOrder (ops ++ [(own, op)]) id key value expires ↔
      (own = id ∧ ∃ exp flag, op = .set key value exp flag ∧
        expires = (expiresAt clock exp (played clock keyOrder ops).readings).1) ∨
      ((own = id → ¬ op.Writes key) ∧ LastSet clock keyOrder ops id key value expires) := by
  constructor
  · rintro ⟨before, exp, flag, after, same, unwritten, time⟩
    rcases List.eq_nil_or_concat after with rfl | ⟨middle, last, rfl⟩
    · left
      obtain ⟨rfl, one⟩ := List.append_inj' same rfl
      cases one
      exact ⟨rfl, exp, flag, rfl, time⟩
    · right
      rw [List.concat_eq_append, ← List.cons_append, ← List.append_assoc] at same
      obtain ⟨rfl, one⟩ := List.append_inj' same rfl
      cases one
      refine ⟨unwritten (own, op) (by simp), before, exp, flag, middle, rfl, ?_, time⟩
      exact fun call member => unwritten call (by simp [member])
  · rintro (⟨rfl, exp, flag, rfl, time⟩ | ⟨unwritten, before, exp, flag, after, rfl, untouched, time⟩)
    · exact ⟨ops, exp, flag, [], rfl, by simp, time⟩
    · refine ⟨before, exp, flag, after ++ [(own, op)], by simp, ?_, time⟩
      intro call member
      rcases List.mem_append.mp member with member | member
      · exact untouched call member
      · rw [List.mem_singleton.mp member]
        exact unwritten

/-- The valid entries are the last ones stored, and what is missing has expired. -/
structure Tracks (clock : Clock T) (keyOrder : KeyOrder κ) (ops : List (ι × Op κ V F T)) : Prop where
  entry : ∀ id key entry, ((played clock keyOrder ops).partitions id).valid.lookup key = some entry →
    LastSet clock keyOrder ops id key entry.value entry.expires
  stored : ∀ id key value expires, LastSet clock keyOrder ops id key value expires →
    (∃ flag, ((played clock keyOrder ops).partitions id).valid.lookup key =
      some { value := value, expires := expires, flag := flag }) ∨
    (((played clock keyOrder ops).partitions id).valid.lookup key = none ∧
      expires ≠ 0 ∧ ∃ n < (played clock keyOrder ops).readings, expires < clock.reading n)

theorem readings_expiresAt (exp : T) (readings : ℕ) : readings ≤ (expiresAt clock exp readings).2 := by
  rw [expiresAt]
  split
  · exact Nat.le_succ _
  · exact le_refl _

theorem readings_apply (part : Timed κ V F T) (op : Op κ V F T) :
    part.2 ≤ (op.apply clock keyOrder part).2 := by
  have cases := @apply_cases _ _ _ _ _ _ _ _ clock keyOrder part op
  obtain ⟨key, value, exp, flag, -, same⟩ | ⟨key, -, same⟩ | ⟨lapses, -⟩ := cases
  · rw [same]
    exact (readings_expiresAt exp part.2).trans (Nat.le_succ _)
  · rw [same, delete]
    split
    · exact Nat.le_succ _
    · exact le_refl _
  · exact lapses.readings

omit [Zero T] [Add T] in
theorem lookup_delete (part : Timed κ V F T) (key other : κ) :
    (delete clock part key).1.valid.lookup other =
      if other = key then none else part.1.valid.lookup other := by
  rw [delete]
  split
  · by_cases here : other = key
    · subst here
      rw [if_pos rfl]
      exact AList.lookup_erase _ _
    · rw [if_neg here]
      exact AList.lookup_erase_ne here
  · rename_i missing
    by_cases here : other = key
    · rw [if_pos here, here, missing]
    · rw [if_neg here]

theorem Tracks.next (tracks : Tracks clock keyOrder ops) (own : ι) (op : Op κ V F T) :
    Tracks clock keyOrder (ops ++ [(own, op)]) := by
  have cases := @apply_cases _ _ _ _ _ _ _ _ clock keyOrder ((played clock keyOrder ops).timed own) op
  have later : (played clock keyOrder ops).readings ≤
      (op.apply clock keyOrder ((played clock keyOrder ops).timed own)).2 :=
    readings_apply ((played clock keyOrder ops).timed own) op
  constructor
  · intro id key entry found
    rw [played_concat, partitions_step_on] at found
    rw [lastSet_concat]
    by_cases here : id = own
    · subst here
      rw [if_pos rfl] at found
      obtain ⟨name, value, exp, flag, rfl, same⟩ | ⟨name, rfl, same⟩ | ⟨lapses, silent⟩ := cases
      · rw [same] at found
        rcases lookup_insert_eq_some.mp found with ⟨rfl, rfl⟩ | ⟨different, found⟩
        · exact .inl ⟨rfl, exp, flag, rfl, rfl⟩
        · exact .inr ⟨fun _ => different.symm, tracks.entry id key entry found⟩
      · rw [same, lookup_delete] at found
        split at found
        · cases found
        · rename_i different
          exact .inr ⟨fun _ => Ne.symm different, tracks.entry id key entry found⟩
      · rcases lapses.lookup key with same | ⟨gone, -⟩
        · exact .inr ⟨fun _ => silent key, tracks.entry id key entry (same ▸ found)⟩
        · rw [gone] at found
          cases found
    · rw [if_neg here] at found
      exact .inr ⟨fun same => absurd same.symm here, tracks.entry id key entry found⟩
  · intro id key value expires lastSet
    rw [played_concat, partitions_step_on]
    show _ ∨ _ ∧ _ ∧ ∃ n < (op.apply clock keyOrder ((played clock keyOrder ops).timed own)).2, _
    have kept : ∀ {part : Partition κ V F T},
        part.valid.lookup key = ((played clock keyOrder ops).partitions id).valid.lookup key →
        LastSet clock keyOrder ops id key value expires →
        (∃ flag, part.valid.lookup key = some { value := value, expires := expires, flag := flag }) ∨
          (part.valid.lookup key = none ∧ expires ≠ 0 ∧
            ∃ n < (op.apply clock keyOrder ((played clock keyOrder ops).timed own)).2,
              expires < clock.reading n) := by
      intro part same before
      rw [same]
      rcases tracks.stored id key value expires before with found | ⟨gone, limited, n, early, past⟩
      · exact .inl found
      · exact .inr ⟨gone, limited, n, early.trans_le later, past⟩
    by_cases here : id = own
    · subst here
      rw [if_pos rfl]
      rcases lastSet_concat.mp lastSet with ⟨-, exp, flag, rfl, rfl⟩ | ⟨unwritten, before⟩
      · exact .inl ⟨flag, AList.lookup_insert _⟩
      · have silent := unwritten rfl
        obtain ⟨name, value', exp, flag, rfl, same⟩ | ⟨name, rfl, same⟩ | ⟨lapses, -⟩ := cases
        · apply kept _ before
          rw [same]
          exact AList.lookup_insert_ne (Ne.symm silent)
        · apply kept _ before
          rw [same, lookup_delete, if_neg (Ne.symm silent)]
          rfl
        · rcases lapses.lookup key with same | ⟨gone, entry, found, limited, n, early, past⟩
          · exact kept same before
          · right
            rcases tracks.stored id key value expires before with ⟨flag, seen⟩ | ⟨missing, -⟩
            · rw [World.timed, seen] at found
              cases found
              exact ⟨gone, limited, n, early, past⟩
            · rw [World.timed, missing] at found
              cases found
    · rw [if_neg here]
      rcases lastSet_concat.mp lastSet with ⟨same, -⟩ | ⟨-, before⟩
      · exact absurd same.symm here
      · exact kept rfl before

theorem tracks (ops : List (ι × Op κ V F T)) : Tracks clock keyOrder ops := by
  induction ops using List.reverseRecOn with
  | nil =>
    refine ⟨fun id key entry found => ?_, fun id key value expires lastSet => ?_⟩
    · cases found
    · obtain ⟨before, exp, flag, after, same, -⟩ := lastSet
      simp at same
  | append_singleton ops call ih => exact ih.next call.1 call.2

omit [Add T] in
/-- The value of a key that has not expired -/
theorem getValid_eq_some {part : Timed κ V F T} : (getValid clock part key).1 = some value ↔
    ∃ entry, part.1.valid.lookup key = some entry ∧ entry.value = value ∧
      (entry.expires = 0 ∨ ¬ entry.expires < clock.reading part.2) := by
  rw [getValid]
  cases found : part.1.valid.lookup key with
  | none => simp [expireKey, found]
  | some entry =>
    by_cases limited : entry.expires = 0
    · simp [expireKey, found, limited]
    · by_cases past : entry.expires < clock.reading part.2
      · have gone : (expireKey clock part key).1.valid.lookup key = none := by
          rw [expireKey, found]
          simp [limited, past]
        simp [gone, limited, past]
      · have still : (expireKey clock part key).1.valid.lookup key = some entry := by
          rw [expireKey, found]
          simp [limited, past, found]
        simp [still, limited, not_lt.mp past]

/-- In every state that calls reach the containers fit together, and without merges a key has the
    value that was stored last, if it was not deleted since and has not expired. -/
theorem partitions_correct (clock : Clock T) (keyOrder : KeyOrder κ) :
    (∀ (calls : List (Call ι κ V F T)) (id : ι), Sound ((reached clock keyOrder calls).partitions id)) ∧
    ∀ (ops : List (ι × Op κ V F T)) (id : ι) (key : κ) (value : V),
      (getValid clock ((played clock keyOrder ops).timed id) key).1 = some value ↔
        ∃ expires, LastSet clock keyOrder ops id key value expires ∧
          (expires = 0 ∨ ¬ expires < clock.reading (played clock keyOrder ops).readings) := by
  refine ⟨Sound.reached, fun ops id key value => ?_⟩
  rw [getValid_eq_some]
  constructor
  · rintro ⟨entry, found, rfl, current⟩
    exact ⟨entry.expires, (tracks ops).entry id key entry found, current⟩
  · rintro ⟨expires, lastSet, current⟩
    rcases (tracks ops).stored id key value expires lastSet with ⟨flag, found⟩ | ⟨-, limited, n, early, past⟩
    · exact ⟨_, found, rfl, current⟩
    · rcases current with never | current
      · exact absurd never limited
      · exact absurd (past.trans_le (clock.mono early.le)) current

end Taf.Memcached.KvStore
