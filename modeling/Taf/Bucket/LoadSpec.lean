import Mathlib
import Taf.Bucket.BucketExpansion

/-! # Rewriting the load of a spec

Two places rewrite how many documents a spec asks for.  The exponential load hands half of what
remains to each collection in turn, and `balance_scopes_collections_items` trades scopes and
collections beyond a limit for more items in fewer of them.  Neither keeps every document: the
first drops what is left behind the last collection, the second what an integer division cuts. -/

namespace Taf.Bucket.Expansion

open Taf.Lib

/-! ## The exponential load -/

def itemsOf (collection : Params) : ℕ := (collection.lookup .numItems).getD 0

def ScopeSpec.items (scope : ScopeSpec) : ℕ := total itemsOf scope.givenCollections

/-- The sum of `num_items` over all collections of the bucket -/
def BucketSpec.items (bucket : BucketSpec) : ℕ := total ScopeSpec.items bucket.givenScopes

def ScopeSpec.collectionCount (scope : ScopeSpec) : ℕ := total (fun _ => 1) scope.givenCollections

def BucketSpec.collectionCount (bucket : BucketSpec) : ℕ := total ScopeSpec.collectionCount bucket.givenScopes

/-- A scope as the expansion leaves it: every collection has its number of items. -/
structure ScopeSpec.Complete (scope : ScopeSpec) : Prop where
  collections : scope.collections ≠ none
  items : ∀ name collection, scope.givenCollections.lookup name = some collection → collection.lookup .numItems ≠ none

structure BucketSpec.Complete (bucket : BucketSpec) : Prop where
  scopes : bucket.scopes ≠ none
  each : ∀ name scope, bucket.givenScopes.lookup name = some scope → scope.Complete

/-- The buckets that the expansion hands to the exponential load are complete. -/
theorem MadeFrom.isComplete {names : RandomNames} {params : Params} {given bucket : BucketSpec}
    (made : MadeFrom names params given bucket) : bucket.Complete := by
  obtain ⟨_, _, _, _, made⟩ := made
  rw [expandBucket, bind_eq_ok] at made
  obtain ⟨⟨scopes, last⟩, loop, made⟩ := made
  cases made
  obtain ⟨_, _, _, _, _, _, _, each⟩ := expandScopeSpec_spec loop
  refine ⟨Option.some_ne_none _, ?_⟩
  intro name scope found
  obtain ⟨_, _, _, _, expanded⟩ := each name scope found
  obtain ⟨_, collections, _, rfl, _, _, defaulted⟩ := expandCollectionSpec_spec expanded
  refine ⟨Option.some_ne_none _, ?_⟩
  intro collectionName collection here
  rw [defaulted collectionName collection here, lookup_setMissing]
  exact Option.some_ne_none _

/-- Every bucket that the expansion returns has been loaded from a complete one. -/
theorem loaded_of_expandBucketsSpec {names : RandomNames} {memoryQuota : ℕ} {spec result : BucketsSpec} {drawn : Drawn}
    (returned : expandBucketsSpec names memoryQuota spec drawn = .ok result) :
    ∀ name loaded, result.givenBuckets.lookup name = some loaded →
      ∃ bucket : BucketSpec, bucket.Complete ∧ loadExponentially bucket = .ok loaded := by
  simp only [expandBucketsSpec, bind_eq_ok] at returned
  obtain ⟨params, _, ⟨expanded, middle⟩, loop, ⟨created, last⟩, added, ⟨buckets, _⟩, load, returned⟩ := returned
  cases returned
  intro name loaded found
  have here := traverse_lookup load name
  rw [show buckets.lookup name = some loaded from found] at here
  cases before : created.lookup name with
  | none =>
    rw [before] at here
    cases here
  | some bucket =>
    rw [before] at here
    cases here with
    | some mapped =>
      obtain ⟨_, _, mapped⟩ := mapped
      obtain ⟨loaded', loads, same⟩ := map_eq_ok.mp mapped
      cases same
      exact ⟨bucket, (madeFrom_of_created loop added name bucket before).isComplete, loads⟩

section Placing

theorem placeItems_sum (remaining : ℕ) : (placeItems remaining).1 + (placeItems remaining).2 = remaining := by
  rw [placeItems]
  split
  · exact add_zero remaining
  · dsimp only
    omega

/-- What a collection leaves to the next -/
def passOn (remaining : ℕ) : ℕ := (placeItems remaining).2

theorem passOn_eq (remaining : ℕ) : passOn remaining = if remaining ≤ 1 then 0 else (remaining + 1) / 2 := by
  rw [passOn, placeItems]
  split <;> split <;> dsimp only <;> omega

/-- After one turn more than `rounds` nothing is left of at most `2 ^ rounds` items. -/
theorem iterate_passOn_eq_zero_iff (rounds remaining : ℕ) :
    passOn^[rounds + 1] remaining = 0 ↔ remaining ≤ 2 ^ rounds := by
  induction rounds generalizing remaining with
  | zero =>
    rw [zero_add, Function.iterate_one, passOn_eq, pow_zero]
    split <;> omega
  | succ rounds ih =>
    have positive : 0 < 2 ^ rounds := Nat.two_pow_pos rounds
    rw [Function.iterate_succ_apply]
    refine (ih _).trans ?_
    rw [passOn_eq, pow_succ]
    split <;> omega

variable {scopes scopes' : Scopes} {collections collections' : Collections} {remaining remaining' : ℕ}

/-- The collections of one scope take what they get from the items that remain, each in its turn. -/
theorem setCollectionItems_account
    (returned : setCollectionItems collections remaining = .ok (collections', remaining')) :
    total itemsOf collections' + remaining' = remaining ∧
      remaining' = passOn^[total (fun _ => 1) collections] remaining := by
  constructor
  · refine traverse_account id returned ?_
    intro before _ collection collection' after made
    cases made
    rw [itemsOf, AList.lookup_insert]
    exact placeItems_sum before
  · refine traverse_state returned ?_
    intro before _ collection collection' after made
    cases made
    rfl

theorem setItemsOfScope_account {scope scope' : ScopeSpec}
    (returned : setItemsOfScope remaining scope = .ok (scope', remaining')) :
    scope'.items + remaining' = remaining ∧ remaining' = passOn^[scope.collectionCount] remaining := by
  simp only [setItemsOfScope, bind_eq_ok, required_eq_ok] at returned
  obtain ⟨collections, given, ⟨collections', last⟩, placed, returned⟩ := returned
  cases returned
  rw [ScopeSpec.collectionCount, ScopeSpec.givenCollections, given]
  exact setCollectionItems_account placed

/-- The same for all scopes of a bucket -/
theorem setScopeItems_account (returned : setScopeItems scopes remaining = .ok (scopes', remaining')) :
    total ScopeSpec.items scopes' + remaining' = remaining ∧
      remaining' = passOn^[total ScopeSpec.collectionCount scopes] remaining := by
  constructor
  · refine traverse_account id returned ?_
    intro before _ scope scope' after made
    exact (setItemsOfScope_account made).1
  · refine traverse_state returned ?_
    intro before _ scope scope' after made
    exact (setItemsOfScope_account made).2

/-- The loop at the start finds the sum over all collections. -/
theorem fetchTotalItems_eq (complete : ∀ name scope, scopes.lookup name = some scope → scope.Complete) :
    fetchTotalItems scopes = .ok (total ScopeSpec.items scopes) := by
  have each : ∀ sum name scope, scopes.lookup name = some scope → addScopeItems sum scope = .ok (sum + scope.items) := by
    intro sum name scope here
    have scopeComplete := complete name scope here
    obtain ⟨collections, given⟩ := Option.ne_none_iff_exists'.mp scopeComplete.collections
    have inside : scope.givenCollections = collections := by
      rw [ScopeSpec.givenCollections, given]
      rfl
    have eachItems : ∀ sum name collection, collections.lookup name = some collection →
        addCollectionItems sum collection = .ok (sum + itemsOf collection) := by
      intro sum name collection found
      obtain ⟨items, known⟩ := Option.ne_none_iff_exists'.mp (scopeComplete.items name collection (inside ▸ found))
      rw [addCollectionItems, itemsOf, known]
      rfl
    rw [addScopeItems, given, ScopeSpec.items, inside]
    exact foldlM_total eachItems sum
  rw [fetchTotalItems, foldlM_total each, zero_add]

/-- With complete scopes both loops return. -/
theorem setScopeItems_returns (complete : ∀ name scope, scopes.lookup name = some scope → scope.Complete)
    (remaining : ℕ) : ∃ scopes' remaining', setScopeItems scopes remaining = .ok (scopes', remaining') := by
  refine traverse_returns ?_ remaining
  intro remaining name scope here
  obtain ⟨collections, given⟩ := Option.ne_none_iff_exists'.mp (complete name scope here).collections
  have placed : ∀ remaining (name : String) collection, collections.lookup name = some collection →
      ∃ (collection' : Params) (remaining' : ℕ),
        (.ok (collection.insert .numItems (placeItems remaining).1, (placeItems remaining).2) :
          Except SpecError (Params × ℕ)) = .ok (collection', remaining') := by
    intro remaining _ collection _
    exact ⟨_, _, rfl⟩
  obtain ⟨collections', remaining', returned⟩ := traverse_returns placed remaining
  refine ⟨{ scope with collections := some collections' }, remaining', ?_⟩
  simp only [setItemsOfScope, bind_eq_ok, required_eq_ok]
  exact ⟨collections, given, (collections', remaining'), returned, rfl⟩

/-- The exponential load keeps the sum of the items exactly if they are at most `2 ^ (collections - 1)`. -/
theorem load_keeps_items_iff {bucket : BucketSpec}
    (flagged : bucket.params.lookup .loadCollectionsExponentially = some true) (complete : bucket.Complete)
    (inhabited : 0 < bucket.collectionCount) :
    (∃ bucket', loadExponentially bucket = .ok bucket' ∧ bucket'.items = bucket.items) ↔
      bucket.items ≤ 2 ^ (bucket.collectionCount - 1) := by
  obtain ⟨scopes, given⟩ := Option.ne_none_iff_exists'.mp complete.scopes
  have inside : bucket.givenScopes = scopes := by
    rw [BucketSpec.givenScopes, given]
    rfl
  have scopesComplete := complete.each
  rw [BucketSpec.collectionCount, inside] at inhabited
  rw [inside] at scopesComplete
  obtain ⟨scopes', remaining', placed⟩ := setScopeItems_returns scopesComplete (total ScopeSpec.items scopes)
  obtain ⟨sum, turns⟩ := setScopeItems_account placed
  have loaded : loadExponentially bucket = .ok { bucket with scopes := some scopes' } := by
    have asked : (bucket.params.lookup .loadCollectionsExponentially).getD false = true := by rw [flagged]; rfl
    rw [loadExponentially, if_pos asked]
    simp only [bind_eq_ok, required_eq_ok]
    exact ⟨scopes, given, _, fetchTotalItems_eq scopesComplete, (scopes', remaining'), placed, rfl⟩
  rw [loaded, BucketSpec.collectionCount, BucketSpec.items, inside]
  -- What is missing in the end is what is left behind the last collection.
  obtain ⟨turnsBefore, count⟩ := Nat.exists_eq_add_of_lt inhabited
  rw [zero_add] at count
  rw [count] at turns ⊢
  rw [Nat.add_sub_cancel, ← iterate_passOn_eq_zero_iff, ← turns]
  constructor
  · intro loads
    obtain ⟨bucket', same, kept⟩ := loads
    cases same
    have keptSum : total ScopeSpec.items scopes' = total ScopeSpec.items scopes := kept
    omega
  · intro nothingLeft
    refine ⟨_, rfl, ?_⟩
    change total ScopeSpec.items scopes' = total ScopeSpec.items scopes
    omega

/-- So a flagged bucket that the expansion returns has lost documents exactly if it was to have more. -/
theorem expanded_items_iff {names : RandomNames} {memoryQuota : ℕ} {spec result : BucketsSpec} {drawn : Drawn}
    (returned : expandBucketsSpec names memoryQuota spec drawn = .ok result) {name : String} {loaded : BucketSpec}
    (found : result.givenBuckets.lookup name = some loaded) :
    ∃ bucket : BucketSpec, loadExponentially bucket = .ok loaded ∧
      (bucket.params.lookup .loadCollectionsExponentially = some true → 0 < bucket.collectionCount →
        (loaded.items = bucket.items ↔ bucket.items ≤ 2 ^ (bucket.collectionCount - 1))) := by
  obtain ⟨bucket, complete, loads⟩ := loaded_of_expandBucketsSpec returned name loaded found
  refine ⟨bucket, loads, fun flagged inhabited => ?_⟩
  rw [← load_keeps_items_iff flagged complete inhabited, loads]
  constructor
  · intro kept
    exact ⟨loaded, rfl, kept⟩
  · rintro ⟨bucket', same, kept⟩
    cases same
    exact kept

end Placing

/-! ## `balance_scopes_collections_items` -/

/-- The limit in use: a parameter that is out of range counts as 80. -/
def maxLimits (param : ℤ) : ℕ :=
  if 100 ≤ param ∨ param ≤ 0 then 80 else param.toNat

/-- `factor_list`: the divisors up to the square root, in order -/
def factorList (limit : ℕ) : List ℕ :=
  (List.range' 1 limit.sqrt).filter fun i => limit % i = 0

/-- `get_divisor` -/
def getDivisor (limit : ℕ) : Except SpecError ℕ :=
  match (factorList limit)[(factorList limit).length / 2]? with
  | some factor => .ok factor
  | none => .error .indexError

/-- `int(math.ceil(n))` of an integer goes through a float: 53 binary digits of it are kept, rounded to
    the nearest and a tie to the even last digit. -/
def ceil (n : ℕ) : Except SpecError ℕ :=
  let unit := 2 ^ (n.log2 - 52)
  let digits := n / unit
  let rest := 2 * (n % unit)
  let rounded := if rest < unit ∨ rest = unit ∧ digits % 2 = 0 then digits else digits + 1
  if rounded * unit < 2 ^ 1024 then .ok (rounded * unit) else .error .overflowError

/-- `bucket_spec_check` -/
def bucketSpecCheck (key : SpecKey) (default bucket : Params) : Except SpecError Params :=
  if key ∈ bucket then .ok bucket
  else do
    let value ← required (default.lookup key)
    .ok (bucket.insert key value)

/-- The checks, which are left out where there is no default spec -/
def checkDefaults (default bucket : Params) : Except SpecError Params :=
  if default.keys.isEmpty then .ok bucket
  else do
    let bucket ← bucketSpecCheck .numScopesPerBucket default bucket
    let bucket ← bucketSpecCheck .numItems default bucket
    bucketSpecCheck .numCollectionsPerScope default bucket

/-- The new numbers of scopes, collections and items for a spec beyond the limit -/
def setNewNumbers (limit scopes collections : ℕ) (bucket : Params) : Except SpecError Params := do
  let newCollections ← getDivisor limit
  let newScopes := limit / newCollections
  let items ← required (bucket.lookup .numItems)
  let newItems ← ceil (items * scopes * collections / (newCollections * newScopes))
  .ok (((bucket.insert .numItems newItems).insert .numCollectionsPerScope newCollections).insert
    .numScopesPerBucket newScopes)

/-- `BucketUtils.balance_scopes_collections_items` with the parameter `max_limits` of the test -/
def balanceScopesCollectionsItems (param : ℤ) (default bucket : Params) : Except SpecError Params := do
  let bucket ← checkDefaults default bucket
  let scopes ← required (bucket.lookup .numScopesPerBucket)
  let collections ← required (bucket.lookup .numCollectionsPerScope)
  if maxLimits param < scopes * collections then setNewNumbers (maxLimits param) scopes collections bucket
  else .ok bucket

/-- The values stay below the limit, and beyond it they are replaced without a loss of documents. -/
def LosesNothing (limit scopes collections items : ℕ) (result : Params) : Prop :=
  ∃ scopes' collections' items' : ℕ, result.lookup .numScopesPerBucket = some scopes' ∧
    result.lookup .numCollectionsPerScope = some collections' ∧ result.lookup .numItems = some items' ∧
    if scopes * collections ≤ limit then scopes' = scopes ∧ collections' = collections ∧ items' = items
    else 0 < scopes' ∧ 0 < collections' ∧ 0 < items' ∧ scopes' * collections' ≤ limit ∧
      items * scopes * collections ≤ items' * scopes' * collections'

section Balance

theorem maxLimits_pos (param : ℤ) : 0 < maxLimits param := by
  rw [maxLimits]
  split <;> omega

/-- The middle divisor exists: the list has `1` at least. -/
theorem getDivisor_spec {limit : ℕ} (positive : 0 < limit) :
    ∃ divisor, getDivisor limit = .ok divisor ∧ 0 < divisor ∧ divisor ∣ limit := by
  have inhabited : 1 ∈ factorList limit := by
    have root : 0 < limit.sqrt := Nat.sqrt_pos.mpr positive
    simp only [factorList, List.mem_filter, List.mem_range'_1, Nat.mod_one, decide_true, and_true]
    omega
  have inRange : (factorList limit).length / 2 < (factorList limit).length := by
    have length := List.length_pos_of_mem inhabited
    omega
  have found : (factorList limit)[(factorList limit).length / 2]? =
      some (factorList limit)[(factorList limit).length / 2] := List.getElem?_eq_getElem inRange
  have member : (factorList limit)[(factorList limit).length / 2] ∈ factorList limit := List.getElem_mem inRange
  refine ⟨(factorList limit)[(factorList limit).length / 2], by rw [getDivisor, found], ?_⟩
  simp only [factorList, List.mem_filter, List.mem_range'_1, decide_eq_true_eq] at member
  exact ⟨member.1.1, Nat.dvd_of_mod_eq_zero member.2⟩

/-- Up to 53 binary digits an integer is a float. -/
theorem ceil_of_lt {n : ℕ} (small : n < 2 ^ 53) : ceil n = .ok n := by
  have short : n.log2 - 52 = 0 := by
    by_cases zero : n = 0
    · subst zero
      rfl
    · have digits : n.log2 < 53 := (Nat.log2_lt zero).mpr small
      omega
  have wide : 2 ^ 53 ≤ 2 ^ 1024 := pow_le_pow_right₀ one_le_two (by omega)
  have representable : n < 2 ^ 1024 := small.trans_le wide
  simp only [ceil, short, pow_zero, Nat.div_one, Nat.mod_one, mul_zero, zero_lt_one, true_or, if_true, mul_one,
    if_pos representable]

/-- A quotient that is rounded to a number suffices if it is rounded up, or if there was nothing to round. -/
theorem le_mul_iff {amount limit rounded : ℕ} (positive : 0 < limit) :
    amount ≤ rounded * limit ↔ amount / limit < rounded ∨ amount / limit = rounded ∧ limit ∣ amount := by
  have split := Nat.div_add_mod amount limit
  constructor
  · intro enough
    have atLeast : amount / limit ≤ rounded := Nat.div_le_of_le_mul (by rwa [mul_comm])
    cases atLeast.lt_or_eq with
    | inl less => exact .inl less
    | inr same =>
      refine .inr ⟨same, Nat.dvd_of_mod_eq_zero ?_⟩
      rw [← same, mul_comm] at enough
      omega
  · intro either
    cases either with
    | inl less =>
      have below := (Nat.div_lt_iff_lt_mul positive).mp less
      exact below.le
    | inr same =>
      rw [← same.1, Nat.div_mul_cancel same.2]

variable {key other : SpecKey} {default bucket : Params}

theorem bucketSpecCheck_eq {value : key.Value} (provided : (bucket.lookup key).or (default.lookup key) = some value) :
    bucketSpecCheck key default bucket = .ok (setMissing key value bucket) := by
  rw [bucketSpecCheck, setMissing]
  split
  case isTrue present => rfl
  case isFalse absent =>
    rw [AList.lookup_eq_none.mpr absent, Option.none_or] at provided
    rw [provided]
    rfl

theorem lookup_provided {value : key.Value} (provided : (bucket.lookup key).or (default.lookup key) = some value) :
    (setMissing key value bucket).lookup key = some value := by
  rw [lookup_setMissing]
  cases own : bucket.lookup key with
  | none => rfl
  | some here =>
    rw [own] at provided
    exact provided

/-- The three values are in the spec behind the checks. -/
theorem checkDefaults_spec {scopes collections items : ℕ}
    (scopesProvided : (bucket.lookup .numScopesPerBucket).or (default.lookup .numScopesPerBucket) = some scopes)
    (collectionsProvided :
      (bucket.lookup .numCollectionsPerScope).or (default.lookup .numCollectionsPerScope) = some collections)
    (itemsProvided : (bucket.lookup .numItems).or (default.lookup .numItems) = some items) :
    ∃ filled, checkDefaults default bucket = .ok filled ∧ filled.lookup .numScopesPerBucket = some scopes ∧
      filled.lookup .numCollectionsPerScope = some collections ∧ filled.lookup .numItems = some items := by
  rw [checkDefaults]
  split
  case isTrue noDefault =>
    have nothing : ∀ key, default.lookup key = none := by
      intro key
      rw [AList.lookup_eq_none, AList.mem_keys, List.isEmpty_iff.mp noDefault]
      exact List.not_mem_nil
    rw [nothing, Option.or_none] at scopesProvided collectionsProvided itemsProvided
    exact ⟨bucket, rfl, scopesProvided, collectionsProvided, itemsProvided⟩
  case isFalse =>
    -- Each check fills in one key and leaves the others to the next.
    have itemsLeft : ((setMissing .numScopesPerBucket scopes bucket).lookup .numItems).or (default.lookup .numItems) =
        some items := by
      rw [lookup_setMissing_ne (by simp)]
      exact itemsProvided
    have collectionsLeft : ((setMissing .numItems items
        (setMissing .numScopesPerBucket scopes bucket)).lookup .numCollectionsPerScope).or
          (default.lookup .numCollectionsPerScope) = some collections := by
      rw [lookup_setMissing_ne (by simp), lookup_setMissing_ne (by simp)]
      exact collectionsProvided
    refine ⟨setMissing .numCollectionsPerScope collections (setMissing .numItems items
      (setMissing .numScopesPerBucket scopes bucket)), ?_, ?_, lookup_provided collectionsLeft, ?_⟩
    · simp only [bind_eq_ok]
      exact ⟨_, bucketSpecCheck_eq scopesProvided, _, bucketSpecCheck_eq itemsLeft,
        bucketSpecCheck_eq collectionsLeft⟩
    · rw [lookup_setMissing_ne (by simp), lookup_setMissing_ne (by simp)]
      exact lookup_provided scopesProvided
    · rw [lookup_setMissing_ne (by simp)]
      exact lookup_provided itemsLeft

/-- The new scopes and collections are as many as the limit allows. -/
theorem setNewNumbers_spec {limit items : ℕ} (scopes collections : ℕ) (positive : 0 < limit)
    (hasItems : bucket.lookup .numItems = some items) :
    ∃ newCollections newScopes, 0 < newCollections ∧ 0 < newScopes ∧ newScopes * newCollections = limit ∧
      ∀ result, setNewNumbers limit scopes collections bucket = .ok result ↔
        ∃ newItems, ceil (items * scopes * collections / limit) = .ok newItems ∧
          result = ((bucket.insert .numItems newItems).insert .numCollectionsPerScope newCollections).insert
            .numScopesPerBucket newScopes := by
  obtain ⟨divisor, middle, divisorPositive, divides⟩ := getDivisor_spec positive
  have factors : limit / divisor * divisor = limit := Nat.div_mul_cancel divides
  refine ⟨divisor, limit / divisor, divisorPositive, Nat.div_pos (Nat.le_of_dvd positive divides) divisorPositive,
    factors, ?_⟩
  intro result
  simp only [setNewNumbers, middle, bind_eq_ok, required_eq_ok, hasItems]
  constructor
  · intro ⟨_, isDivisor, _, isItems, newItems, counted, same⟩
    cases isDivisor
    cases isItems
    rw [mul_comm divisor, factors] at counted
    cases same
    exact ⟨newItems, counted, rfl⟩
  · intro ⟨newItems, counted, same⟩
    refine ⟨divisor, rfl, items, rfl, newItems, ?_, same ▸ rfl⟩
    rw [mul_comm divisor, factors]
    exact counted

theorem balanceScopesCollectionsItems_eq (param : ℤ) {filled : Params} {scopes collections : ℕ}
    (checked : checkDefaults default bucket = .ok filled) (hasScopes : filled.lookup .numScopesPerBucket = some scopes)
    (hasCollections : filled.lookup .numCollectionsPerScope = some collections) :
    balanceScopesCollectionsItems param default bucket =
      if maxLimits param < scopes * collections then setNewNumbers (maxLimits param) scopes collections filled
      else .ok filled := by
  rw [balanceScopesCollectionsItems, checked]
  change (required (filled.lookup .numScopesPerBucket) >>= _) = _
  rw [hasScopes]
  change (required (filled.lookup .numCollectionsPerScope) >>= _) = _
  rw [hasCollections]
  rfl

/-- Balancing loses nothing exactly if the limit is kept already, or if the average number of items in the new
    collections is a whole number or is rounded up. -/
theorem balance_loses_nothing_iff (param : ℤ) {scopes collections items : ℕ}
    (scopesProvided : (bucket.lookup .numScopesPerBucket).or (default.lookup .numScopesPerBucket) = some scopes)
    (collectionsProvided :
      (bucket.lookup .numCollectionsPerScope).or (default.lookup .numCollectionsPerScope) = some collections)
    (itemsProvided : (bucket.lookup .numItems).or (default.lookup .numItems) = some items)
    (someScope : 0 < scopes) (someCollection : 0 < collections) (someItem : 0 < items) :
    (∃ result, balanceScopesCollectionsItems param default bucket = .ok result ∧
        LosesNothing (maxLimits param) scopes collections items result) ↔
      scopes * collections ≤ maxLimits param ∨
        ∃ rounded, ceil (items * scopes * collections / maxLimits param) = .ok rounded ∧
          (items * scopes * collections / maxLimits param < rounded ∨
            items * scopes * collections / maxLimits param = rounded ∧
              maxLimits param ∣ items * scopes * collections) := by
  obtain ⟨filled, checked, hasScopes, hasCollections, hasItems⟩ :=
    checkDefaults_spec scopesProvided collectionsProvided itemsProvided
  have positive := maxLimits_pos param
  rw [balanceScopesCollectionsItems_eq param checked hasScopes hasCollections]
  by_cases within : scopes * collections ≤ maxLimits param
  · rw [if_neg (not_lt.mpr within)]
    refine iff_of_true ⟨filled, rfl, scopes, collections, items, hasScopes, hasCollections, hasItems, ?_⟩ (.inl within)
    rw [if_pos within]
    exact ⟨rfl, rfl, rfl⟩
  · obtain ⟨newCollections, newScopes, collectionsPositive, scopesPositive, factors, returns⟩ :=
      setNewNumbers_spec scopes collections positive hasItems
    rw [if_pos (not_le.mp within), or_iff_right within]
    simp only [returns, LosesNothing, if_neg within, ← le_mul_iff positive]
    have amountPositive : 0 < items * scopes * collections := by positivity
    constructor
    · intro ⟨result, ⟨newItems, counted, same⟩, scopes', collections', items', isScopes, isCollections, isItems, kept⟩
      subst same
      rw [AList.lookup_insert] at isScopes
      rw [AList.lookup_insert_ne (by simp), AList.lookup_insert] at isCollections
      rw [AList.lookup_insert_ne (by simp), AList.lookup_insert_ne (by simp), AList.lookup_insert] at isItems
      cases isScopes
      cases isCollections
      cases isItems
      refine ⟨newItems, counted, ?_⟩
      have enough := kept.2.2.2.2
      rwa [mul_assoc newItems, factors] at enough
    · intro ⟨newItems, counted, enough⟩
      refine ⟨_, ⟨newItems, counted, rfl⟩, newScopes, newCollections, newItems, ?_, ?_, ?_, scopesPositive,
        collectionsPositive, ?_, factors.le, ?_⟩
      · rw [AList.lookup_insert]
      · rw [AList.lookup_insert_ne (by simp), AList.lookup_insert]
      · rw [AList.lookup_insert_ne (by simp), AList.lookup_insert_ne (by simp), AList.lookup_insert]
      · exact Nat.pos_of_mul_pos_right (amountPositive.trans_le enough)
      · rwa [mul_assoc newItems, factors]

end Balance

/-- The exponential load keeps the documents of a bucket exactly if they are at most `2 ^ (collections - 1)`,
    and balancing keeps them exactly if the limit is kept already or the quotient loses nothing. -/
theorem rewriting_loses_nothing_iff {bucket : BucketSpec}
    (flagged : bucket.params.lookup .loadCollectionsExponentially = some true) (complete : bucket.Complete)
    (inhabited : 0 < bucket.collectionCount) (param : ℤ) {default spec : Params} {scopes collections items : ℕ}
    (scopesProvided : (spec.lookup .numScopesPerBucket).or (default.lookup .numScopesPerBucket) = some scopes)
    (collectionsProvided :
      (spec.lookup .numCollectionsPerScope).or (default.lookup .numCollectionsPerScope) = some collections)
    (itemsProvided : (spec.lookup .numItems).or (default.lookup .numItems) = some items)
    (someScope : 0 < scopes) (someCollection : 0 < collections) (someItem : 0 < items) :
    ((∃ bucket', loadExponentially bucket = .ok bucket' ∧ bucket'.items = bucket.items) ↔
      bucket.items ≤ 2 ^ (bucket.collectionCount - 1)) ∧
    ((∃ result, balanceScopesCollectionsItems param default spec = .ok result ∧
        LosesNothing (maxLimits param) scopes collections items result) ↔
      scopes * collections ≤ maxLimits param ∨
        ∃ rounded, ceil (items * scopes * collections / maxLimits param) = .ok rounded ∧
          (items * scopes * collections / maxLimits param < rounded ∨
            items * scopes * collections / maxLimits param = rounded ∧
              maxLimits param ∣ items * scopes * collections)) :=
  ⟨load_keeps_items_iff flagged complete inhabited,
    balance_loses_nothing_iff param scopesProvided collectionsProvided itemsProvided someScope someCollection someItem⟩

/-- A flagged bucket with one collection -/
def oneCollection (items : ℕ) : BucketSpec :=
  ⟨.singleton .loadCollectionsExponentially true, some ((∅ : Scopes).insert defaultScope
    ⟨∅, some ((∅ : Collections).insert defaultCollection (.singleton .numItems items))⟩)⟩

theorem complete_oneCollection (items : ℕ) : (oneCollection items).Complete where
  scopes := Option.some_ne_none _
  each scopeName scope found := by
    cases lookup_insert_eq_some.mp found with
    | inl given =>
      rw [given.2]
      refine ⟨Option.some_ne_none _, ?_⟩
      intro name collection here
      cases lookup_insert_eq_some.mp here with
      | inl same =>
        rw [same.2]
        exact Option.some_ne_none items
      | inr impossible => cases impossible.2
    | inr impossible => cases impossible.2

/-- The numbers of a spec that asks for them itself -/
def numbers (scopes collections items : ℕ) : Params :=
  ((AList.singleton .numScopesPerBucket scopes).insert .numCollectionsPerScope collections).insert .numItems items

theorem numbers_provided (scopes collections items : ℕ) :
    ((numbers scopes collections items).lookup .numScopesPerBucket).or ((∅ : Params).lookup .numScopesPerBucket) =
      some scopes ∧
    ((numbers scopes collections items).lookup .numCollectionsPerScope).or
      ((∅ : Params).lookup .numCollectionsPerScope) = some collections ∧
    ((numbers scopes collections items).lookup .numItems).or ((∅ : Params).lookup .numItems) = some items :=
  ⟨rfl, rfl, rfl⟩

/-- One document in one collection, and four in each of ten times ten collections -/
theorem rewriting_loses_nothing_iff_of_hundred_collections :
    (∃ bucket', loadExponentially (oneCollection 1) = .ok bucket' ∧ bucket'.items = (oneCollection 1).items) ∧
    ∃ result, balanceScopesCollectionsItems 80 ∅ (numbers 10 10 4) = .ok result ∧
      LosesNothing (maxLimits 80) 10 10 4 result := by
  have provided := numbers_provided 10 10 4
  have both := rewriting_loses_nothing_iff rfl (complete_oneCollection 1) (by decide) 80 provided.1 provided.2.1
    provided.2.2 (by decide) (by decide) (by decide)
  exact ⟨both.1.mpr (by decide), both.2.mpr (.inr ⟨5, ceil_of_lt (by decide), .inr (by decide)⟩)⟩

/-- Of three documents in one collection one remains, and of 81 documents in as many collections 80 remain. -/
theorem documents_are_lost :
    (¬ ∃ bucket', loadExponentially (oneCollection 3) = .ok bucket' ∧ bucket'.items = (oneCollection 3).items) ∧
    ¬ ∃ result, balanceScopesCollectionsItems 80 ∅ (numbers 9 9 1) = .ok result ∧
      LosesNothing (maxLimits 80) 9 9 1 result := by
  constructor
  · intro kept
    have few := (load_keeps_items_iff rfl (complete_oneCollection 3) (by decide)).mp kept
    exact absurd few (by decide)
  · intro kept
    have provided := numbers_provided 9 9 1
    have limited := (balance_loses_nothing_iff 80 provided.1 provided.2.1 provided.2.2 (by decide) (by decide)
      (by decide)).mp kept
    cases limited with
    | inl within => exact absurd within (by decide)
    | inr whole =>
      obtain ⟨rounded, counted, enough⟩ := whole
      have one : rounded = 1 := Except.ok.inj (counted.symm.trans (ceil_of_lt (by decide)))
      subst one
      exact absurd enough (by decide)

end Taf.Bucket.Expansion
