import Taf.Lib.Text

/-! # Document generators

`KVGenerator` and `DocumentGenerator` of `couchbase_helper/documentgenerator.py`,
reduced to what decides which documents an operation addresses: the index range
and the key of an index in the three key modes (plain, `mix_key_size`, and the
name `random_keys`).  The draws of the seeded generator `self.random` are a
parameter, so every result below holds for every draw. -/

namespace Taf.DocGen

open Taf.Lib

/-- What `self.random` answers after `self.random.seed(seed_hash)`. -/
structure Prng where
  -- `int(self.random.random() * bound)`
  scaled : String → Int → Int
  -- `self.random.randint(low, high)`
  randint : String → Int → Int → Int

structure DocumentGenerator where
  name : String
  start : Int
  itr : Int
  -- The source's `end`.
  stop : Int
  keySize : Int := 8
  mixKeySize : Bool := false
  random : Prng
  -- The 4096 letters drawn in `__init__` for the name `random_keys`.
  randomString : String

def kvNextKey (name : String) (keySize docIndex : Int) : String :=
  name ++ "-" ++ zfill docIndex.natAbs.repr (keySize - name.length - 1)

namespace DocumentGenerator

variable (g : DocumentGenerator)

/-- The key `next_key` builds when the iterator stands at `index`. -/
def keyAt (index : Int) : String :=
  let seedHash := g.name ++ "-" ++ index.natAbs.repr
  if g.name = "random_keys" then
    let offset := g.random.scaled seedHash (g.randomString.length - g.keySize)
    let keyLen := g.keySize - ((toString index).length + 1)
    slice g.randomString offset (keyLen + offset) ++ "-" ++ toString index
  else if g.mixKeySize then
    g.name ++ "-" ++
      zfill index.natAbs.repr (g.random.randint seedHash g.keySize 240 - g.name.length - 1)
  else
    kvNextKey g.name g.keySize index

def hasNext : Bool := g.itr < g.stop

/-- `DocumentGenerator.next_key`: the key of the current index; the iterator moves on. -/
def nextKey : String × DocumentGenerator :=
  (g.keyAt g.itr, { g with itr := g.itr + 1 })

/-- The keys of at most `count` calls of `next_key` behind `has_next`. -/
def takeKeys : Nat → DocumentGenerator → List String
  | 0, _ => []
  | count + 1, g => if g.hasNext then g.nextKey.1 :: takeKeys count g.nextKey.2 else []

def keys : List String := takeKeys (g.stop - g.itr).toNat g

/-! ## The keys of a range -/

@[simp] theorem keyAt_itr (itr index : Int) :
    ({ g with itr := itr } : DocumentGenerator).keyAt index = g.keyAt index := rfl

theorem takeKeys_eq_map (count : Nat) :
    takeKeys count g =
      (List.range (min count (g.stop - g.itr).toNat)).map fun i : Nat => g.keyAt (g.itr + i) := by
  induction count generalizing g with
  | zero => simp [takeKeys]
  | succ count ih =>
    by_cases more : g.itr < g.stop
    · have width : (g.stop - g.itr).toNat = (g.stop - (g.itr + 1)).toNat + 1 := by omega
      simp only [takeKeys, hasNext, more, decide_true, if_true, nextKey, ih, keyAt_itr]
      rw [width, Nat.add_min_add_right, List.range_succ_eq_map, List.map_cons, List.map_map]
      refine List.cons_eq_cons.mpr ⟨by simp, List.map_congr_left fun i _ => ?_⟩
      have shifted : g.itr + 1 + (i : Int) = g.itr + (i.succ : Int) := by omega
      rw [Function.comp_apply, shifted]
    · have empty : (g.stop - g.itr).toNat = 0 := by omega
      simp [takeKeys, hasNext, more, empty]

/-- Draining a generator gives the keys of its indices in order. -/
theorem keys_eq_map :
    g.keys = (List.range (g.stop - g.itr).toNat).map fun i : Nat => g.keyAt (g.itr + i) := by
  rw [keys, takeKeys_eq_map, Nat.min_self]

theorem mem_keys {key : String} :
    key ∈ g.keys ↔ ∃ index, g.itr ≤ index ∧ index < g.stop ∧ g.keyAt index = key := by
  rw [keys_eq_map]
  simp only [List.mem_map, List.mem_range]
  constructor
  · rintro ⟨i, bound, rfl⟩
    exact ⟨g.itr + i, by omega, by omega, rfl⟩
  · rintro ⟨index, low, high, rfl⟩
    have offset : g.itr + ((index - g.itr).toNat : Int) = index := by omega
    exact ⟨(index - g.itr).toNat, by omega, by rw [offset]⟩

/-! ## Different documents have different keys -/

theorem kvNextKey_injective {name : String} {keySize i j : Int}
    (same : kvNextKey name keySize i = kvNextKey name keySize j) : i.natAbs = j.natAbs := by
  simp only [kvNextKey, String.append_right_inj] at same
  exact zfill_repr_injective same

/-- In every key mode and for every draw, two distinct indices have distinct keys. -/
theorem keyAt_injective {i j : Int} (iNonneg : 0 ≤ i) (jNonneg : 0 ≤ j)
    (same : g.keyAt i = g.keyAt j) : i = j := by
  lift i to Nat using iNonneg
  lift j to Nat using jNonneg
  simp only [keyAt] at same
  split_ifs at same with isRandom isMixed
  · -- The index stands behind the last '-' of a random key.
    have lists := congrArg String.toList same
    simp only [String.toList_append, List.append_assoc] at lists
    have tails := suffix_after_separator (minus_notMem_repr i) (minus_notMem_repr j) lists
    exact congrArg _ (Nat.repr_injective (String.toList_inj.mp tails))
  · simp only [String.append_right_inj] at same
    exact congrArg _ (zfill_repr_injective same)
  · exact congrArg _ (kvNextKey_injective same)

theorem keys_nodup (nonneg : 0 ≤ g.itr) : g.keys.Nodup := by
  rw [keys_eq_map]
  refine List.Nodup.map_on (fun i _ j _ same => ?_) List.nodup_range
  have := g.keyAt_injective (by omega) (by omega) same
  omega

end DocumentGenerator

end Taf.DocGen
