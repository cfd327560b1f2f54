import Taf.Lib.Window
import Taf.DocGen.DocumentGenerator

/-! # Generators for target vBuckets

`DocumentGeneratorForTargetVbucket` and `SubdocDocumentGenerator` look for keys in given
vBuckets: a counter runs upwards from `start` until enough keys have been found, and may
run forever.  `doc_generator` and `sub_doc_generator` choose between this search and the
keys of the index range.  The hash function and the draws are parameters. -/

namespace Taf.DocGen

open Taf.Lib

/-- The arguments of `doc_generator` and `sub_doc_generator` that decide about the keys. -/
structure GeneratorArgs where
  key : String
  start : Int
  -- The source's `end`.
  stop : Int
  keySize : Int := 8
  targetVbucket : Option (List Nat) := none
  vbuckets : Int := 1024

/-- What the generators ask of their surroundings. -/
structure KeyEnv where
  -- `zlib.crc32`
  crc32 : String → Int
  random : Prng
  -- The letters drawn in `__init__` for the name `random_keys`.
  randomString : String → String
  -- The draws of `self.random.choice` after seeding.
  choices : String → Nat → { c : Char // c ∈ "ABCDEFGHIJKLMNOPQRSTUVWXYZabcdefghijklmnopqrstuvwxyz0123456789".toList }

/-! ## The search -/

/-- `create_key_for_vbucket`: the counters of the keys that are found, with `left` still wanted. -/
def search (inTarget : Int → Bool) : Nat → Nat → Int → Option (List Int)
  | _, 0, _ => some []
  | 0, _ + 1, _ => none
  | fuel + 1, left + 1, counter =>
    if inTarget counter then (search inTarget fuel left (counter + 1)).map (counter :: ·)
    else search inTarget fuel (left + 1) (counter + 1)

section Search

variable {inTarget : Int → Bool} {fuel left : Nat} {counter : Int}

/-- Where every counter is a hit the search takes one after the other. -/
theorem search_all (hits : ∀ offset : Nat, offset < left → inTarget (counter + offset) = true) :
    search inTarget left left counter = some (window counter left) := by
  induction left generalizing counter with
  | zero => rfl
  | succ left ih =>
    have here : inTarget counter = true := by simpa using hits 0 (by omega)
    have later : ∀ offset : Nat, offset < left → inTarget (counter + 1 + offset) = true := by
      intro offset bound
      have shifted : counter + 1 + (offset : Int) = counter + ((offset + 1 : Nat) : Int) := by omega
      rw [shifted]
      exact hits (offset + 1) (by omega)
    rw [search, if_pos here, ih later, Option.map_some, window_succ]

/-- The search skips what is not a hit. -/
theorem search_first {distance : Nat}
    (misses : ∀ offset : Nat, offset < distance → inTarget (counter + offset) = false)
    (hit : inTarget (counter + distance) = true) :
    search inTarget (distance + 1) 1 counter = some [counter + distance] := by
  induction distance generalizing counter with
  | zero =>
    have here : inTarget counter = true := by simpa using hit
    simp [search, here]
  | succ distance ih =>
    have here : inTarget counter = false := by simpa using misses 0 (by omega)
    have shifted : ∀ offset : Nat, counter + 1 + (offset : Int) = counter + ((offset + 1 : Nat) : Int) := by
      intro offset
      omega
    rw [search, here, if_neg (by simp), ih, shifted]
    · intro offset bound
      rw [shifted]
      exact misses (offset + 1) (by omega)
    · rw [shifted]
      exact hit

/-- Without another hit the search does not come back. -/
theorem search_none (misses : ∀ later, counter ≤ later → inTarget later = false) :
    search inTarget fuel (left + 1) counter = none := by
  induction fuel generalizing counter with
  | zero => rfl
  | succ fuel ih =>
    rw [search, misses counter (Int.le_refl _), if_neg (by simp)]
    apply ih
    intro later bound
    exact misses later (by omega)

/-- Where below a hit there are hits only, a search that comes back has found a range. -/
theorem search_closed {found : List Int}
    (closed : ∀ below hit, 0 ≤ below → below < hit → inTarget hit = true → inTarget below = true)
    (start : 0 ≤ counter) (returned : search inTarget fuel left counter = some found) :
    found = window counter left := by
  induction fuel generalizing left counter found with
  | zero =>
    cases left with
    | zero =>
      cases returned
      rfl
    | succ left => cases returned
  | succ fuel ih =>
    cases left with
    | zero =>
      cases returned
      rfl
    | succ left =>
      cases here : inTarget counter with
      | true =>
        rw [search, if_pos here, Option.map_eq_some_iff] at returned
        obtain ⟨rest, restReturned, rfl⟩ := returned
        rw [ih (by omega) restReturned, window_succ]
      | false =>
        have misses : ∀ later, counter ≤ later → inTarget later = false := by
          intro later bound
          by_contra hit
          have hit : inTarget later = true := by simpa using hit
          by_cases same : later = counter
          · rw [same, here] at hit
            cases hit
          · rw [closed counter later start (by omega) hit] at here
            cases here
        rw [search_none misses] at returned
        cases returned

/-- The search finds hits from the counter on, as many as are wanted and in their order. -/
theorem search_spec {found : List Int} (returned : search inTarget fuel left counter = some found) :
    found.length = left ∧ found.Pairwise (· < ·) ∧ ∀ hit ∈ found, counter ≤ hit ∧ inTarget hit = true := by
  induction fuel generalizing left counter found with
  | zero =>
    cases left with
    | zero =>
      cases returned
      exact ⟨rfl, List.Pairwise.nil, fun hit member => by cases member⟩
    | succ left => cases returned
  | succ fuel ih =>
    cases left with
    | zero =>
      cases returned
      exact ⟨rfl, List.Pairwise.nil, fun hit member => by cases member⟩
    | succ left =>
      rw [search] at returned
      by_cases here : inTarget counter = true
      · rw [if_pos here, Option.map_eq_some_iff] at returned
        obtain ⟨rest, restReturned, rfl⟩ := returned
        obtain ⟨length, ordered, hits⟩ := ih restReturned
        refine ⟨by rw [List.length_cons, length], List.pairwise_cons.mpr ⟨?_, ordered⟩, ?_⟩
        · intro later member
          have := (hits later member).1
          omega
        · intro hit member
          cases List.mem_cons.mp member with
          | inl first => exact ⟨first ▸ Int.le_refl _, first ▸ here⟩
          | inr later => exact ⟨by have := (hits hit later).1; omega, (hits hit later).2⟩
      · rw [if_neg here] at returned
        obtain ⟨length, ordered, hits⟩ := ih returned
        exact ⟨length, ordered, fun hit member => ⟨by have := (hits hit member).1; omega, (hits hit member).2⟩⟩

/-- Where there is always another hit the search comes back. -/
theorem exists_search (often : ∀ from' : Int, ∃ hit, from' ≤ hit ∧ inTarget hit = true) (left : Nat)
    (counter : Int) : ∃ fuel, (search inTarget fuel left counter).isSome := by
  induction left generalizing counter with
  | zero => exact ⟨0, rfl⟩
  | succ left ih =>
    obtain ⟨hit, beyond, isHit⟩ := often counter
    -- by induction on the distance of that hit
    induction distance : (hit - counter).toNat generalizing counter with
    | zero =>
      have here : counter = hit := by omega
      obtain ⟨fuel, returned⟩ := ih (counter + 1)
      refine ⟨fuel + 1, ?_⟩
      rw [search, here, if_pos isHit, ← here, Option.isSome_map]
      exact returned
    | succ distance closer =>
      by_cases here : inTarget counter = true
      · obtain ⟨fuel, returned⟩ := ih (counter + 1)
        refine ⟨fuel + 1, ?_⟩
        rw [search, if_pos here, Option.isSome_map]
        exact returned
      · obtain ⟨fuel, returned⟩ := closer (counter + 1) (by omega) (by omega)
        refine ⟨fuel + 1, ?_⟩
        rw [search, if_neg here]
        exact returned

end Search

/-! ## Going through a generator -/

/-- The keys that `next` gave until `has_next` was false, or until one of them raised. -/
structure Drained where
  keys : List String
  raised : Bool
  deriving DecidableEq

/-- `while has_next(): next()` with `left` indices to go. -/
def drain (keyAt : Int → Option String) : Nat → Int → Drained
  | 0, _ => ⟨[], false⟩
  | left + 1, itr =>
    match keyAt itr with
    | none => ⟨[], true⟩
    | some key => ⟨key :: (drain keyAt left (itr + 1)).keys, (drain keyAt left (itr + 1)).raised⟩

theorem drain_some (keyAt : Int → String) (left : Nat) (itr : Int) :
    drain (fun index => some (keyAt index)) left itr = ⟨(window itr left).map keyAt, false⟩ := by
  induction left generalizing itr with
  | zero => rfl
  | succ left ih => simp only [drain, ih, window_succ, List.map_cons]

/-- `self.doc_keys[itr]`, where the keys that were found are numbered from `start`. -/
def docKeyAt (docKeys : List String) (start itr : Int) : Option String :=
  if itr < start then none else docKeys[(itr - start).toNat]?

theorem drain_docKeyAt (before docKeys : List String) (start : Int) :
    drain (docKeyAt (before ++ docKeys) start) docKeys.length (start + before.length) =
      ⟨docKeys, false⟩ := by
  induction docKeys generalizing before with
  | nil => rfl
  | cons key docKeys ih =>
    have here : docKeyAt (before ++ key :: docKeys) start (start + before.length) = some key := by
      have offset : (start + (before.length : Int) - start).toNat = before.length := by omega
      rw [docKeyAt, if_neg (by omega), offset]
      simp
    have rest := ih (before ++ [key])
    rw [List.append_assoc, List.singleton_append, List.length_append, List.length_singleton] at rest
    have shifted : start + (before.length : Int) + 1 = start + ((before.length + 1 : Nat) : Int) := by
      omega
    simp only [List.length_cons, drain, here, shifted, rest]

/-! ## The two families of generators -/

namespace GeneratorArgs

variable (args : GeneratorArgs) (env : KeyEnv)

/-- The vBucket of the key of a counter is one of the targets. -/
def inTarget (targets : List Nat) (counter : Int) : Bool :=
  (Int.land (Int.land (env.crc32 (kvNextKey args.key args.keySize counter) >>> 16) 0x7fff)
    (args.vbuckets - 1)).toNat ∈ targets

/-- The keys that a constructor with targets collects. -/
def docKeys (targets : List Nat) (fuel : Nat) : Option (List String) :=
  (search (args.inTarget env targets) fuel args.stop.toNat args.start).map
    (·.map (kvNextKey args.key args.keySize))

/-- The generator that `doc_generator` builds without targets. -/
def documentGenerator : DocumentGenerator where
  name := args.key
  start := args.start
  itr := args.start
  stop := args.stop
  keySize := args.keySize
  random := env.random
  randomString := env.randomString args.key

/-- The keys of what `doc_generator` returns; an empty list of targets counts as none. -/
def docGenerator (fuel : Nat) : Option Drained :=
  match args.targetVbucket with
  | some (target :: targets) =>
    (args.docKeys env (target :: targets) fuel).map fun docKeys =>
      drain (docKeyAt docKeys args.start) docKeys.length args.start
  | _ =>
    some (drain (fun itr => some ((args.documentGenerator env).keyAt itr))
      (args.stop - args.start).toNat args.start)

/-- The key of a `SubdocDocumentGenerator` without targets. -/
def subdocKeyAt (itr : Int) : String :=
  if args.key = "random_keys" then
    String.ofList ((List.range 12).map fun draw =>
      (env.choices (args.key ++ "-" ++ toString itr) draw).1)
  else kvNextKey args.key args.keySize itr

/-- The keys of what `sub_doc_generator` returns; `next_key` looks at `doc_keys` unless the
    targets are `None`. -/
def subDocGenerator (fuel : Nat) : Option Drained :=
  match args.targetVbucket with
  | some (target :: targets) =>
    (args.docKeys env (target :: targets) fuel).map fun docKeys =>
      drain (docKeyAt docKeys args.start) docKeys.length args.start
  | some [] => some (drain (docKeyAt [] args.start) (args.stop - args.start).toNat args.start)
  | none =>
    some (drain (fun itr => some (args.subdocKeyAt env itr)) (args.stop - args.start).toNat args.start)

/-! ## Full documents and sub-documents -/

theorem minus_mem_randomKey (isRandom : args.key = "random_keys") (itr : Int) :
    '-' ∈ ((args.documentGenerator env).keyAt itr).toList := by
  simp [DocumentGenerator.keyAt, documentGenerator, isRandom]

theorem minus_notMem_subdocRandomKey (isRandom : args.key = "random_keys") (itr : Int) :
    '-' ∉ (args.subdocKeyAt env itr).toList := by
  rw [subdocKeyAt, if_pos isRandom, String.toList_ofList]
  intro member
  obtain ⟨draw, _, same⟩ := List.mem_map.mp member
  have letter := (env.choices (args.key ++ "-" ++ toString itr) draw).2
  rw [same] at letter
  exact absurd letter (by decide)

theorem randomKey_ne (isRandom : args.key = "random_keys") (itr : Int) :
    (args.documentGenerator env).keyAt itr ≠ args.subdocKeyAt env itr := by
  intro same
  apply args.minus_notMem_subdocRandomKey env isRandom itr
  rw [← same]
  exact args.minus_mem_randomKey env isRandom itr

theorem docGenerator_plain (noTarget : ∀ target targets, args.targetVbucket ≠ some (target :: targets))
    (fuel : Nat) :
    args.docGenerator env fuel = some ⟨(window args.start (args.stop - args.start).toNat).map
      (args.documentGenerator env).keyAt, false⟩ := by
  cases given : args.targetVbucket with
  | none => simp only [docGenerator, given, drain_some]
  | some targets =>
    cases targets with
    | nil => simp only [docGenerator, given, drain_some]
    | cons target targets => exact absurd given (noTarget target targets)

/-- The generators of full documents and of sub-documents give the same keys. -/
def SameKeys : Prop :=
  ∀ fuel, (args.docGenerator env fuel).map Drained.keys =
    (args.subDocGenerator env fuel).map Drained.keys

theorem sameKeys_of_targets {target : Nat} {targets : List Nat}
    (given : args.targetVbucket = some (target :: targets)) : args.SameKeys env := by
  intro fuel
  simp only [docGenerator, subDocGenerator, given]

/-- Two maps over a non-empty window that differ everywhere. -/
theorem map_window_ne {f g : Int → String} (differ : ∀ index, f index ≠ g index) {start stop : Int}
    (range : start < stop) :
    (window start (stop - start).toNat).map f ≠ (window start (stop - start).toNat).map g := by
  intro same
  have count : (stop - start).toNat = (stop - start - 1).toNat + 1 := by omega
  rw [count, window_succ, List.map_cons, List.map_cons, List.cons_eq_cons] at same
  exact differ start same.1

theorem sameKeys_iff :
    args.SameKeys env ↔
      args.stop ≤ args.start ∨ (∃ target targets, args.targetVbucket = some (target :: targets)) ∨
        (args.targetVbucket = none ∧ args.key ≠ "random_keys") := by
  cases given : args.targetVbucket with
  | none =>
    have full := args.docGenerator_plain env (by simp [given])
    have sub : ∀ fuel, args.subDocGenerator env fuel =
        some ⟨(window args.start (args.stop - args.start).toNat).map (args.subdocKeyAt env), false⟩ := by
      intro fuel
      simp only [subDocGenerator, given]
      rw [drain_some]
    simp only [SameKeys, full, sub, Option.map_some, Option.some.injEq, forall_const]
    by_cases isRandom : args.key = "random_keys"
    · by_cases range : args.stop ≤ args.start
      · have empty : (args.stop - args.start).toNat = 0 := by omega
        simp [empty, range]
      · have differ := args.randomKey_ne env isRandom
        refine iff_of_false (map_window_ne differ (by omega)) ?_
        simp [range, isRandom]
    · refine iff_of_true (List.map_congr_left ?_) (.inr (.inr ⟨trivial, isRandom⟩))
      intro index _
      simp [DocumentGenerator.keyAt, documentGenerator, subdocKeyAt, isRandom]
  | some targets =>
    cases targets with
    | cons target targets =>
      exact iff_of_true (args.sameKeys_of_targets env given) (.inr (.inl ⟨target, targets, rfl⟩))
    | nil =>
      have full := args.docGenerator_plain env (by simp [given])
      simp only [SameKeys, full, subDocGenerator, given, Option.map_some, Option.some.injEq,
        forall_const]
      by_cases range : args.stop ≤ args.start
      · have empty : (args.stop - args.start).toNat = 0 := by omega
        simp [empty, range, drain]
      · have count : (args.stop - args.start).toNat = (args.stop - args.start - 1).toNat + 1 := by
          omega
        refine iff_of_false ?_ (by simp [range])
        rw [count, window_succ]
        simp [drain, docKeyAt]

/-- One document under the name `random_keys`. -/
def randomKeysArgs : GeneratorArgs := { key := "random_keys", start := 0, stop := 1 }

def constantDraws : KeyEnv where
  crc32 _ := 0
  random := { scaled := fun _ _ => 0, randint := fun _ low _ => low }
  randomString _ := "AAAAAAAAAAAA"
  choices _ _ := ⟨'A', by decide⟩

/-- The full document is `AAAAAA-0`, the sub-document `AAAAAAAAAAAA`. -/
theorem randomKeys_differ : ¬ ∀ (args : GeneratorArgs) (env : KeyEnv), args.SameKeys env := by
  intro always
  have same := always randomKeysArgs constantDraws 0
  revert same
  decide

end GeneratorArgs

end Taf.DocGen
