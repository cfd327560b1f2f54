import Mathlib
import Taf.Bucket.SpecExpansion

/-! # What the expansion makes of a bucket

An expanded level is right if it has as many entries as are requested or given, if each
collection has the number of items of the innermost level that sets one, and if everything that
was given is found again.  The code is compared with this from the inside out: first the
collections of one scope, then the scopes of one bucket. -/

namespace Taf.Bucket.Expansion

open Taf.Lib

/-! ## The promise, level by level -/

/-- The value of the innermost level that sets the parameter -/
def innermost (key : SpecKey) : List Params → Option key.Value
  | [] => none
  | level :: outer => (level.lookup key).or (innermost key outer)

/-- Every value that is given is found again. -/
def Keeps (result given : Params) : Prop :=
  ∀ key value, given.lookup key = some value → result.lookup key = some value

def ScopeSpec.givenCollections (scope : ScopeSpec) : Collections := scope.collections.getD ∅

def BucketSpec.givenScopes (bucket : BucketSpec) : Scopes := bucket.scopes.getD ∅

section Requested

variable (spec : BucketsSpec) (bucket : BucketSpec) (scope : ScopeSpec)

def requestedScopes : ℕ :=
  (innermost .numScopesPerBucket [bucket.params, spec.params]).getD 0

def requestedCollections : ℕ :=
  (innermost .numCollectionsPerScope [scope.params, bucket.params, spec.params]).getD 0

/-- What a collection of the scope gets that does not set its number of items -/
def inheritedItems : ℕ :=
  (innermost .numItems [scope.params, bucket.params, spec.params]).getD 0

/-- The scope has a default collection that nobody asked to remove.  The flag of the scope counts and that
    of the whole spec; one among the params of the bucket is not handed down. -/
def KeepsDefault (scopeName : String) : Prop :=
  scopeName = defaultScope ∧ (innermost .removeDefaultCollection [scope.params, spec.params]).getD false = false

instance (scopeName : String) : Decidable (KeepsDefault spec scope scopeName) := instDecidableAnd

/-- The given collections, including the default one where it is kept -/
def startCollections (scopeName : String) : Collections :=
  if KeepsDefault spec scope scopeName then setMissing defaultCollection ∅ scope.givenCollections
  else scope.givenCollections

end Requested

structure CollectionRight (inherited : ℕ) (given result : Params) : Prop where
  items : result.lookup .numItems = some ((given.lookup .numItems).getD inherited)
  kept : Keeps result given

structure ScopeRight (spec : BucketsSpec) (bucket : BucketSpec) (scopeName : String) (given result : ScopeSpec) :
    Prop where
  kept : Keeps result.params given.params
  count : result.givenCollections.keys.length =
    max (requestedCollections spec bucket given) (startCollections spec given scopeName).keys.length
  present : ∀ name ∈ startCollections spec given scopeName, name ∈ result.givenCollections
  each : ∀ name collection, result.givenCollections.lookup name = some collection →
    CollectionRight (inheritedItems spec bucket given) ((given.givenCollections.lookup name).getD ∅) collection

structure BucketRight (spec : BucketsSpec) (given result : BucketSpec) : Prop where
  kept : Keeps result.params given.params
  count : result.givenScopes.keys.length =
    max (requestedScopes spec given) (withDefaultScope given.givenScopes).keys.length
  present : ∀ name ∈ withDefaultScope given.givenScopes, name ∈ result.givenScopes
  each : ∀ name scope, result.givenScopes.lookup name = some scope →
    ScopeRight spec given name ((given.givenScopes.lookup name).getD .empty) scope

/-- A default collection that is created anew has nothing but the number of items it inherits. -/
def DefaultUnset (spec : BucketsSpec) (bucket : BucketSpec) (scopeName : String) (scope : ScopeSpec) : Prop :=
  KeepsDefault spec scope scopeName → ∀ collection, scope.givenCollections.lookup defaultCollection = some collection →
    Keeps (setMissing .numItems (inheritedItems spec bucket scope) ∅) collection

/-! ## The collections of a scope -/

section CollectionLevel

variable {names : RandomNames} {spec bucket : Params} {scopeName : String} {scope scope' : ScopeSpec}
  {drawn drawn' : Drawn}

/-- What `expand_collection_spec` makes: each collection is the one at the start with its default. -/
theorem expandCollectionSpec_spec
    (returned : expandCollectionSpec names spec bucket scopeName scope drawn = .ok (scope', drawn')) :
    ∃ given collections, scope.collections = some given ∧ scope' = ⟨scope.params, some collections⟩ ∧
      collections.keys.length =
        max ((scope.params.lookup .numCollectionsPerScope).getD ((bucket.lookup .numCollectionsPerScope).getD 0))
          (withDefaultCollection scopeName scope given).keys.length ∧
      (∀ name ∈ withDefaultCollection scopeName scope given, name ∈ collections) ∧
      ∀ name collection, collections.lookup name = some collection →
        collection = setMissing .numItems
          ((scope.params.lookup .numItems).getD ((bucket.lookup .numItems).getD 0))
          (((withDefaultCollection scopeName scope given).lookup name).getD ∅) := by
  simp only [expandCollectionSpec, bind_eq_ok, required_eq_ok] at returned
  obtain ⟨given, isGiven, simple, _, ⟨filled, last⟩, loop, returned⟩ := returned
  cases returned
  have fresh := nextName_fresh names simple .collection
  refine ⟨given, _, isGiven, rfl, ?count, ?present, ?each⟩
  case count =>
    rw [keys_mapValues, fillUp_length fresh loop]
    omega
  case present =>
    intro name member
    rw [AList.mem_keys, keys_mapValues, ← AList.mem_keys]
    exact mem_fillUp fresh loop member
  case each =>
    intro name collection found
    rw [lookup_mapValues, Option.map_eq_some_iff] at found
    obtain ⟨before, found, rfl⟩ := found
    cases fillUp_lookup fresh loop name with
    | inl kept =>
      rw [← kept, found]
      rfl
    | inr added =>
      -- A collection that the loop has added is empty, like one that is not there.
      obtain ⟨absent, value, _, _, here, made⟩ := added
      cases made
      rw [found] at here
      cases here
      rw [absent]
      rfl

theorem expandCollectionSpec_returns {simple : Bool} (hasNames : spec.lookup .useSimpleNames = some simple)
    (complete : scope.collections ≠ none) (drawn : Drawn) :
    ∃ scope' drawn', expandCollectionSpec names spec bucket scopeName scope drawn = .ok (scope', drawn') := by
  obtain ⟨given, isGiven⟩ := Option.ne_none_iff_exists'.mp complete
  have emptyMade : ∀ (_ : String) drawn, ∃ collection drawn',
      (.ok (∅, drawn) : Except SpecError (Params × Drawn)) = .ok (collection, drawn') := fun _ drawn => ⟨∅, drawn, rfl⟩
  obtain ⟨filled, last, loop⟩ := fillUp_returns (nextName names simple .collection) emptyMade
    ((scope.params.lookup .numCollectionsPerScope).getD ((bucket.lookup .numCollectionsPerScope).getD 0) -
      (withDefaultCollection scopeName scope given).keys.length) (withDefaultCollection scopeName scope given) drawn
  simp only [expandCollectionSpec, bind_eq_ok, required_eq_ok]
  exact ⟨_, last, given, isGiven, simple, hasNames, ⟨filled, last⟩, loop, rfl⟩

end CollectionLevel

/-- A collection with its default -/
theorem collectionRight_setMissing (inherited : ℕ) (given : Params) :
    CollectionRight inherited given (setMissing .numItems inherited given) where
  items := lookup_setMissing _ _ _
  kept _ _ here := lookup_setMissing_of_some here

/-- A collection that is created anew is right for a given one that asks for nothing else. -/
theorem collectionRight_of_keeps {inherited : ℕ} {given : Params}
    (keeps : Keeps (setMissing .numItems inherited ∅) given) :
    CollectionRight inherited given (setMissing .numItems inherited ∅) where
  items := by
    cases here : given.lookup .numItems with
    | none => exact lookup_setMissing _ _ _
    | some items => exact keeps .numItems items here
  kept := keeps

/-- The parameters of a bucket behind its defaults -/
structure HandedDown (spec : BucketsSpec) (bucket : BucketSpec) (params : Params) : Prop where
  kept : Keeps params bucket.params
  scopes : params.lookup .numScopesPerBucket = some (requestedScopes spec bucket)
  collections : params.lookup .numCollectionsPerScope =
    some ((innermost .numCollectionsPerScope [bucket.params, spec.params]).getD 0)
  items : params.lookup .numItems = some ((innermost .numItems [bucket.params, spec.params]).getD 0)

/-- The parameters of a scope behind the flag that it gets -/
structure FlagSet (spec : BucketsSpec) (scopeName : String) (scope : ScopeSpec) (params : Params) : Prop where
  kept : Keeps params scope.params
  others : ∀ key, key ≠ .removeDefaultCollection → params.lookup key = scope.params.lookup key
  flag : scopeName = defaultScope → (params.lookup .removeDefaultCollection).getD false =
    (innermost .removeDefaultCollection [scope.params, spec.params]).getD false

section ScopeLevel

variable {names : RandomNames} {spec : BucketsSpec} {bucket : BucketSpec} {specParams params scopeParams : Params}
  {scopeName : String} {scope result : ScopeSpec} {drawn drawn' : Drawn}

/-- The default collection is made exactly where it is kept. -/
theorem withDefaultCollection_eq (flagged : FlagSet spec scopeName scope scopeParams) (given : Collections) :
    withDefaultCollection scopeName ⟨scopeParams, scope.collections⟩ given =
      if KeepsDefault spec scope scopeName then given.insert defaultCollection ∅ else given := by
  rw [withDefaultCollection]
  refine if_congr ?_ rfl rfl
  rw [KeepsDefault]
  exact and_congr_right fun isDefault => by rw [← flagged.flag isDefault]

theorem HandedDown.inheritedItems_eq (handed : HandedDown spec bucket params)
    (flagged : FlagSet spec scopeName scope scopeParams) :
    (scopeParams.lookup .numItems).getD ((params.lookup .numItems).getD 0) = inheritedItems spec bucket scope := by
  rw [flagged.others .numItems (by simp), handed.items]
  simp only [inheritedItems, innermost]
  cases scope.params.lookup .numItems <;> rfl

theorem HandedDown.requestedCollections_eq (handed : HandedDown spec bucket params)
    (flagged : FlagSet spec scopeName scope scopeParams) :
    (scopeParams.lookup .numCollectionsPerScope).getD ((params.lookup .numCollectionsPerScope).getD 0) =
      requestedCollections spec bucket scope := by
  rw [flagged.others .numCollectionsPerScope (by simp), handed.collections]
  simp only [requestedCollections, innermost]
  cases scope.params.lookup .numCollectionsPerScope <;> rfl

/-- A scope is expanded right exactly if no given default collection is lost. -/
theorem scopeRight_iff (handed : HandedDown spec bucket params) (flagged : FlagSet spec scopeName scope scopeParams)
    (returned : expandCollectionSpec names specParams params scopeName ⟨scopeParams, scope.collections⟩ drawn =
      .ok (result, drawn')) :
    ScopeRight spec bucket scopeName scope result ↔ DefaultUnset spec bucket scopeName scope := by
  obtain ⟨given, collections, isGiven, rfl, count, present, each⟩ := expandCollectionSpec_spec returned
  have givenIs : scope.givenCollections = given := by
    rw [ScopeSpec.givenCollections, show scope.collections = some given from isGiven]
    rfl
  rw [withDefaultCollection_eq flagged] at count present each
  rw [handed.requestedCollections_eq flagged] at count
  simp only [handed.inheritedItems_eq flagged] at each
  by_cases keepsDefault : KeepsDefault spec scope scopeName
  · have startIs : startCollections spec scope scopeName = setMissing defaultCollection ∅ given := by
      rw [startCollections, if_pos keepsDefault, givenIs]
    rw [if_pos keepsDefault] at count present each
    constructor
    · intro right _ collection here
      -- The default collection of the result is the new one, and it has all that was given.
      have member : defaultCollection ∈ collections := present _ ((AList.mem_insert given).mpr (.inl rfl))
      obtain ⟨made, found⟩ := Option.isSome_iff_exists.mp (AList.lookup_isSome.mpr member)
      have kept := (right.each defaultCollection made found).kept
      have isNew := each defaultCollection made found
      rw [here, isNew, AList.lookup_insert] at kept
      exact kept
    · intro unset
      refine ⟨flagged.kept, ?count, ?present, ?each⟩
      case count =>
        rw [startIs, ← length_insert_eq_setMissing]
        exact count
      case present =>
        intro name member
        rw [startIs, mem_setMissing] at member
        exact present name ((AList.mem_insert given).mpr member)
      case each =>
        intro name collection found
        rw [each name collection found, givenIs]
        by_cases isDefault : name = defaultCollection
        · subst isDefault
          rw [AList.lookup_insert]
          cases here : given.lookup defaultCollection with
          | none => exact collectionRight_setMissing _ ∅
          | some explicit => exact collectionRight_of_keeps (unset keepsDefault explicit (by rw [givenIs, here]))
        · rw [AList.lookup_insert_ne isDefault]
          exact collectionRight_setMissing _ _
  · have startIs : startCollections spec scope scopeName = given := by
      rw [startCollections, if_neg keepsDefault, givenIs]
    rw [if_neg keepsDefault] at count present each
    refine iff_of_true ⟨flagged.kept, ?_, ?_, ?_⟩ fun keeps => absurd keeps keepsDefault
    · rw [startIs]
      exact count
    · rw [startIs]
      exact present
    · intro name collection found
      rw [each name collection found, givenIs]
      exact collectionRight_setMissing _ _

end ScopeLevel

/-! ## The scopes of a bucket -/

/-- A scope that is not given is one of which nothing is given. -/
theorem lookup_withDefaultScope (scopes : Scopes) (name : String) :
    ((withDefaultScope scopes).lookup name).getD .empty = (scopes.lookup name).getD .empty := by
  rw [withDefaultScope]
  by_cases isDefault : name = defaultScope
  · subst isDefault
    rw [lookup_setMissing]
    rfl
  · rw [lookup_setMissing_ne isDefault]

section BucketLevel

variable {names : RandomNames} {specParams params : Params} {scopes result : Scopes} {drawn drawn' : Drawn}

/-- The parameters with which a scope is expanded: a scope from the start gets the flag of the spec, an added one
    goes without, but it is not the default scope. -/
def FlaggedFrom (defRemove : Bool) (scopes : Scopes) (name : String) (scopeParams : Params) : Prop :=
  scopeParams = setMissing .removeDefaultCollection defRemove ((scopes.lookup name).getD .empty).params ∨
    scopeParams = ∅ ∧ name ≠ defaultScope ∧ scopes.lookup name = none

/-- What `expand_scope_spec` makes: each scope is the given one, expanded. -/
theorem expandScopeSpec_spec (returned : expandScopeSpec names specParams params scopes drawn = .ok (result, drawn')) :
    ∃ defRemove fromSpec, specParams.lookup .removeDefaultCollection = some defRemove ∧
      specParams.lookup .numScopesPerBucket = some fromSpec ∧
      result.keys.length = max ((params.lookup .numScopesPerBucket).getD fromSpec) (withDefaultScope scopes).keys.length ∧
      (∀ name ∈ withDefaultScope scopes, name ∈ result) ∧
      (∀ name scope, scopes.lookup name = some scope → scope.collections ≠ none) ∧
      ∀ name scope', result.lookup name = some scope' → ∃ scopeParams before after,
        FlaggedFrom defRemove scopes name scopeParams ∧
        expandCollectionSpec names specParams params name
          ⟨scopeParams, ((scopes.lookup name).getD .empty).collections⟩ before = .ok (scope', after) := by
  simp only [expandScopeSpec, bind_eq_ok, required_eq_ok] at returned
  obtain ⟨defRemove, hasFlag, fromSpec, hasScopes, ⟨expanded, middle⟩, loop, simple, _, added⟩ := returned
  have fresh := nextName_fresh names simple .scope
  refine ⟨defRemove, fromSpec, hasFlag, hasScopes, ?count, ?present, ?complete, ?each⟩
  case count =>
    rw [fillUp_length fresh added, traverse_keys loop]
    omega
  case present =>
    intro name member
    exact mem_fillUp fresh added ((mem_traverse loop).mpr member)
  case complete =>
    intro name scope here
    have started : (withDefaultScope scopes).lookup name = some scope := lookup_setMissing_of_some here
    have made := traverse_lookup loop name
    rw [started] at made
    generalize expanded.lookup name = after at made
    cases made with
    | some made =>
      obtain ⟨_, _, made⟩ := made
      obtain ⟨given, _, isGiven, _⟩ := expandCollectionSpec_spec made
      exact Option.ne_none_iff_exists'.mpr ⟨given, isGiven⟩
  case each =>
    intro name scope' found
    rw [← lookup_withDefaultScope]
    have made := traverse_lookup loop name
    cases fillUp_lookup fresh added name with
    | inl kept =>
      rw [← kept, found] at made
      generalize started : (withDefaultScope scopes).lookup name = before at made
      cases made with
      | some made =>
        obtain ⟨before, after, made⟩ := made
        refine ⟨_, before, after, .inl ?_, made⟩
        rw [← lookup_withDefaultScope, started]
        rfl
    | inr new =>
      obtain ⟨absent, scope, before, after, here, made⟩ := new
      rw [here] at found
      cases found
      have notThere : name ∉ withDefaultScope scopes := by
        rw [← mem_traverse loop, ← AList.lookup_eq_none]
        exact absent
      have notDefault : name ≠ defaultScope := by
        intro isDefault
        exact notThere (mem_setMissing.mpr (.inl isDefault))
      have notGiven : name ∉ scopes := by
        intro member
        exact notThere (mem_setMissing.mpr (.inr member))
      refine ⟨∅, before, after, .inr ⟨rfl, notDefault, AList.lookup_eq_none.mpr notGiven⟩, ?_⟩
      rw [AList.lookup_eq_none.mpr notThere]
      exact made

/-- With the parameters that it needs and with complete scopes, `expand_scope_spec` returns. -/
theorem expandScopeSpec_returns (hasNames : specParams.lookup .useSimpleNames ≠ none)
    (hasFlag : specParams.lookup .removeDefaultCollection ≠ none)
    (hasScopes : specParams.lookup .numScopesPerBucket ≠ none)
    (complete : ∀ name scope, scopes.lookup name = some scope → scope.collections ≠ none) (drawn : Drawn) :
    ∃ result drawn', expandScopeSpec names specParams params scopes drawn = .ok (result, drawn') := by
  obtain ⟨simple, hasNames⟩ := Option.ne_none_iff_exists'.mp hasNames
  obtain ⟨defRemove, hasFlag⟩ := Option.ne_none_iff_exists'.mp hasFlag
  obtain ⟨fromSpec, hasScopes⟩ := Option.ne_none_iff_exists'.mp hasScopes
  have startComplete : ∀ name scope, (withDefaultScope scopes).lookup name = some scope → scope.collections ≠ none := by
    intro name scope here
    have known := lookup_withDefaultScope scopes name
    rw [here] at known
    cases given : scopes.lookup name with
    | none =>
      rw [given] at known
      cases known
      exact Option.some_ne_none _
    | some other =>
      rw [given] at known
      cases known
      exact complete name _ given
  let flagged (scope : ScopeSpec) : ScopeSpec :=
    { scope with params := setMissing .removeDefaultCollection defRemove scope.params }
  have each : ∀ drawn name scope, (withDefaultScope scopes).lookup name = some scope →
      ∃ scope' drawn', expandCollectionSpec names specParams params name (flagged scope) drawn = .ok (scope', drawn') := by
    intro drawn name scope here
    have stillComplete : (flagged scope).collections ≠ none := startComplete name scope here
    exact expandCollectionSpec_returns hasNames stillComplete drawn
  obtain ⟨expanded, middle, loop⟩ := traverse_returns each drawn
  have eachNew : ∀ name drawn, ∃ scope drawn',
      expandCollectionSpec names specParams params name .empty drawn = .ok (scope, drawn') := by
    intro name drawn
    exact expandCollectionSpec_returns hasNames (Option.some_ne_none _) drawn
  obtain ⟨result, last, added⟩ := fillUp_returns (nextName names simple .scope) eachNew
    ((params.lookup .numScopesPerBucket).getD fromSpec - expanded.keys.length) expanded middle
  refine ⟨result, last, ?_⟩
  simp only [expandScopeSpec, bind_eq_ok, required_eq_ok]
  exact ⟨defRemove, hasFlag, fromSpec, hasScopes, ⟨expanded, middle⟩, loop, simple, hasNames, added⟩

variable {spec : BucketsSpec} {bucket : BucketSpec} {expanded : BucketSpec}

theorem FlaggedFrom.flagSet {defRemove : Bool} {name : String} {scopeParams : Params}
    (hasFlag : spec.params.lookup .removeDefaultCollection = some defRemove)
    (flagged : FlaggedFrom defRemove scopes name scopeParams) :
    FlagSet spec name ((scopes.lookup name).getD .empty) scopeParams := by
  cases flagged with
  | inl given =>
    subst given
    refine ⟨?_, fun key different => lookup_setMissing_ne different _ _, ?_⟩
    · intro key value here
      exact lookup_setMissing_of_some here
    · intro _
      rw [lookup_setMissing]
      simp only [innermost, hasFlag]
      cases (((scopes.lookup name).getD ScopeSpec.empty).params.lookup .removeDefaultCollection) <;> rfl
  | inr added =>
    obtain ⟨rfl, notDefault, absent⟩ := added
    rw [absent]
    exact ⟨fun _ _ here => here, fun _ _ => rfl, fun isDefault => absurd isDefault notDefault⟩

/-- A bucket is expanded right exactly if no given default collection is lost. -/
theorem bucketRight_iff (handed : HandedDown spec bucket params)
    (sameFlag : specParams.lookup .removeDefaultCollection = spec.params.lookup .removeDefaultCollection)
    (returned : expandBucket names specParams params bucket.givenScopes drawn = .ok (expanded, drawn')) :
    BucketRight spec bucket expanded ↔
      ∀ name scope, bucket.givenScopes.lookup name = some scope → DefaultUnset spec bucket name scope := by
  rw [expandBucket, bind_eq_ok] at returned
  obtain ⟨⟨scopes, last⟩, loop, returned⟩ := returned
  cases returned
  obtain ⟨defRemove, fromSpec, hasFlag, _, count, present, _, each⟩ := expandScopeSpec_spec loop
  rw [sameFlag] at hasFlag
  rw [handed.scopes, Option.getD_some] at count
  constructor
  · intro right name scope given
    -- The given scope is among the expanded ones, and there it is right.
    have started : name ∈ withDefaultScope bucket.givenScopes :=
      mem_setMissing.mpr (.inr (AList.lookup_isSome.mp (by rw [given]; rfl)))
    obtain ⟨scope', found⟩ := Option.isSome_iff_exists.mp (AList.lookup_isSome.mpr (present name started))
    obtain ⟨scopeParams, before, after, flagged, made⟩ := each name scope' found
    have scopeRight := right.each name scope' found
    have flagSet := flagged.flagSet hasFlag
    rw [given] at scopeRight flagSet made
    exact (scopeRight_iff handed flagSet made).mp scopeRight
  · intro unset
    refine ⟨handed.kept, count, present, ?_⟩
    intro name scope' found
    obtain ⟨scopeParams, before, after, flagged, made⟩ := each name scope' found
    refine (scopeRight_iff handed (flagged.flagSet hasFlag) made).mpr ?_
    cases given : bucket.givenScopes.lookup name with
    | some scope => exact unset name scope given
    | none =>
      intro _ collection impossible
      cases impossible

end BucketLevel

end Taf.Bucket.Expansion
