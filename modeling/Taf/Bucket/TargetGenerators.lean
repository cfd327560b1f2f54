import Taf.DocGen.GeneratorClasses
import Taf.Bucket.TargetHistory

/-! # The generators of a collection for target vBuckets

`get_doc_generator` gives a generator for targets the number of documents in the place of `end`, and the constructor
turns it into an index again when it has found their keys. -/

namespace Taf.Bucket

open Taf.Lib Taf.DocGen

/-- The vBucket of a key, as `create_key_for_vbucket` computes it -/
def vbucketOf (env : KeyEnv) (vbuckets : ℤ) (docKey : String) : ℤ :=
  Int.land (Int.land (env.crc32 docKey >>> 16) 0x7fff) (vbuckets - 1)

/-- `doc_generator` with targets, as `get_doc_generator` calls it: nothing is randomized.  Without targets it is a
    `DocumentGenerator` that is returned. -/
def newTargetGenerator {V : Type} (args : GeneratorArgs) (env : KeyEnv) (names : List String)
    (kwargs : String → Option (Kwarg V)) (docSize : ℤ) (fuel : ℕ) : Option (TargetGenerator V) :=
  match args.targetVbucket with
  | some (target :: targets) =>
    match created : args.docKeys env (target :: targets) fuel with
    | some docKeys => some ⟨args, env, target :: targets, names, kwargs, false, false, docSize, fuel, docKeys, created⟩
    | none => none
  | _ => none

/-- A generator with so many documents, one for each of its indices, and with keys of the targets only -/
structure LoadsTargets {V : Type} (g : TargetGenerator V) (n : ℕ) (keys : List String) : Prop where
  drained : ∃ fuel, g.iterator.drain fuel g.args.start = some keys
  count : keys.length = n
  -- a key shows the absolute value of its counter only
  distinct : 0 ≤ g.args.start → keys.Nodup
  inTargets : ∀ docKey ∈ keys, (vbucketOf g.env g.args.vbuckets docKey).toNat ∈ g.targets
  defined : ∀ index, g.args.start ≤ index → index < g.stop → (docKeyAt g.docKeys g.args.start index).isSome
  length : g.iterator.length g.args.start = n

variable {env : KeyEnv} {args : GeneratorArgs} {targets : List ℕ} {fuel : ℕ} {docKeys : List String}

/-- What the constructor collects: as many keys as `end` says, all of them in the targets -/
theorem docKeys_spec (created : args.docKeys env targets fuel = some docKeys) :
    docKeys.length = args.stop.toNat ∧ (0 ≤ args.start → docKeys.Nodup) ∧
      ∀ docKey ∈ docKeys, (vbucketOf env args.vbuckets docKey).toNat ∈ targets := by
  rw [GeneratorArgs.docKeys, Option.map_eq_some_iff] at created
  obtain ⟨found, searched, isMap⟩ := created
  obtain ⟨length, ordered, hits⟩ := search_spec searched
  rw [← isMap]
  refine ⟨by rw [List.length_map, length], ?_, ?_⟩
  · intro nonneg
    apply List.Nodup.map_on _ (ordered.imp ne_of_lt)
    intro first inFirst second inSecond same
    have equal := DocumentGenerator.kvNextKey_injective same
    have := (hits first inFirst).1
    have := (hits second inSecond).1
    omega
  · intro docKey member
    obtain ⟨counter, inFound, isKey⟩ := List.mem_map.mp member
    have hit := (hits counter inFound).2
    rw [GeneratorArgs.inTarget, decide_eq_true_iff] at hit
    rw [← isKey]
    exact hit

/-- Going through a generator for targets gives the keys that were collected. -/
theorem target_drain {V : Type} (g : TargetGenerator V) (filled : g.filled = true) :
    g.iterator.drain (g.docKeys.length + 1) g.args.start = some g.docKeys := by
  have general (before rest : List String) (whole : g.docKeys = before ++ rest) :
      g.iterator.drain (rest.length + 1) (g.args.start + before.length) = some rest := by
    induction rest generalizing before with
    | nil =>
      rw [Iterator.drain, if_neg]
      show ¬ decide (g.args.start + (before.length : ℤ) < g.stop) = true
      rw [decide_eq_true_iff, TargetGenerator.stop, whole, List.append_nil]
      exact lt_irrefl _
    | cons docKey rest ih =>
      have later := ih (before ++ [docKey]) (by rw [whole, List.append_assoc, List.singleton_append])
      rw [List.length_append, List.length_singleton] at later
      push_cast at later
      rw [← add_assoc] at later
      have length : (g.docKeys.length : ℤ) = before.length + rest.length + 1 := by
        rw [whole, List.length_append, List.length_cons]
        push_cast
        omega
      have here : docKeyAt g.docKeys g.args.start (g.args.start + before.length) = some docKey := by
        have offset : (g.args.start + (before.length : ℤ) - g.args.start).toNat = before.length := by omega
        rw [docKeyAt, if_neg (by omega), offset, whole]
        simp
      have answer : g.iterator.next (g.args.start + before.length) =
          (.value docKey, g.args.start + before.length + 1) := by
        apply indexed_next_eq
        · apply decide_eq_false
          rw [TargetGenerator.stop]
          omega
        · rw [if_pos filled, here]
      rw [List.length_cons, Iterator.drain, if_pos, answer]
      · exact congrArg (Option.map (docKey :: ·)) later
      · exact decide_eq_true (show g.args.start + (before.length : ℤ) < g.stop by rw [TargetGenerator.stop]; omega)
  have all := general [] g.docKeys rfl
  rw [List.length_nil, Nat.cast_zero, add_zero] at all
  exact all

theorem target_loads {V : Type} (g : TargetGenerator V) (filled : g.filled = true) :
    LoadsTargets g g.args.stop.toNat g.docKeys where
  drained := ⟨_, target_drain g filled⟩
  count := (docKeys_spec g.created).1
  distinct := (docKeys_spec g.created).2.1
  inTargets := (docKeys_spec g.created).2.2
  defined := fun _ low high => docKeyAt_isSome_iff.mpr ⟨low, high⟩
  length := by
    show g.stop - g.args.start = _
    rw [TargetGenerator.stop, (docKeys_spec g.created).1]
    omega

/-- Whatever the state of the collection and the operation, a generator for targets that come up again and again is
    built, and has the documents that were asked for. -/
theorem getDocGenerator_loadsTargets {V : Type} (env : KeyEnv) (c : Collection) (op : DocOp) (n : ℕ) (key : String)
    (targets : List ℕ) (vbuckets : ℤ) (names : List String) (kwargs : String → Option (Kwarg V)) (docSize : ℤ)
    (given : targets ≠ [])
    (often : ∀ counter : ℤ, ∃ later, counter ≤ later ∧
      (vbucketOf env vbuckets (kvNextKey key 8 later)).toNat ∈ targets) :
    let args := { (getDocGenerator op c n key (some targets)).1.args with vbuckets := vbuckets }
    (∃ fuel, (newTargetGenerator args env names kwargs docSize fuel).isSome) ∧
      ∀ fuel g, newTargetGenerator args env names kwargs docSize fuel = some g →
        g.args = args ∧ g.targets = targets ∧ ∃ keys, LoadsTargets g n keys := by
  intro args
  have isArgs : args = ⟨key, op.firstIndex c, n, 8, some targets, vbuckets⟩ := by
    show ({ (getDocGenerator op c n key (some targets)).1.args with vbuckets := vbuckets } : GeneratorArgs) = _
    rw [getDocGenerator_targets]
    rfl
  obtain ⟨target, others, isCons⟩ := List.exists_cons_of_ne_nil given
  have targeted : args.targetVbucket = some (target :: others) := by rw [isArgs, isCons]
  have stop : args.stop.toNat = n := by rw [isArgs]; exact Int.toNat_natCast n
  constructor
  · have hits : ∀ counter : ℤ, ∃ later, counter ≤ later ∧ args.inTarget env (target :: others) later = true := by
      intro counter
      obtain ⟨later, beyond, hit⟩ := often counter
      refine ⟨later, beyond, ?_⟩
      rw [GeneratorArgs.inTarget, isArgs, decide_eq_true_iff, ← isCons]
      exact hit
    obtain ⟨fuel, returned⟩ := exists_search hits args.stop.toNat args.start
    obtain ⟨found, searched⟩ := Option.isSome_iff_exists.mp returned
    refine ⟨fuel, ?_⟩
    rw [newTargetGenerator, targeted]
    dsimp only
    split
    · rfl
    · rename_i failed
      rw [GeneratorArgs.docKeys, searched] at failed
      cases failed
  · intro fuel g built
    rw [newTargetGenerator, targeted] at built
    dsimp only at built
    split at built
    · rename_i docKeys created
      cases built
      have loads := target_loads ⟨args, env, target :: others, names, kwargs, false, false, docSize, fuel, docKeys,
        created⟩ rfl
      rw [stop] at loads
      exact ⟨rfl, isCons.symm, docKeys, loads⟩
    · cases built

/-- Three more documents of a collection that has five, where every key lies in vBucket 0 -/
theorem threeMore_loadsTargets :
    let args := { (getDocGenerator .create ⟨none, 5, 0, "false", false, 0, (0, 5), (0, 0)⟩ 3 "test"
      (some [0])).1.args with vbuckets := 1024 }
    (∃ fuel, (@newTargetGenerator String args GeneratorArgs.constantDraws [] (fun _ => none) 156 fuel).isSome) ∧
      ∀ fuel g, newTargetGenerator args GeneratorArgs.constantDraws [] (fun _ => none) 156 fuel = some g →
        g.args = args ∧ g.targets = [0] ∧ ∃ keys, @LoadsTargets String g 3 keys :=
  getDocGenerator_loadsTargets GeneratorArgs.constantDraws ⟨none, 5, 0, "false", false, 0, (0, 5), (0, 0)⟩ .create 3
    "test" [0] 1024 [] (fun _ => none) 156 (by decide)
    (fun counter => ⟨counter, Int.le_refl _, List.mem_singleton_self 0⟩)

end Taf.Bucket
