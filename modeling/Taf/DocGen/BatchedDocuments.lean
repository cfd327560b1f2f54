import Taf.Lib.Run
import Taf.Lib.Window
import Taf.DocGen.BatchedGenerator

/-! # The documents that come out in batches

Whether a call of `next` or `next_key` returns depends on the arguments of the generator only
(`Works`).  The keys are those of the index range, and with `deep_copy` and without callable
kwargs a document does not depend on the documents made before it; so a batch, and the
batches of a whole range, hold the documents of consecutive indices (`Covers`). -/

namespace Taf.DocGen

open Taf.Lib

variable {σ V : Type}

/-! ## When a call returns -/

namespace DocumentGeneratorArgs

variable (args : DocumentGeneratorArgs σ V)

/-- `randint(key_size, 240)` raises on an empty range. -/
def KeyWorks : Prop :=
  args.name ≠ "random_keys" → args.mixKeySize = true → args.keySize ≤ 240

def FieldWorks (name : String) : Prop :=
  args.kwargs name ≠ some .other ∧
    ∀ items, args.kwargs name = some (.items items) → name ≠ "key" ∧ items ≠ []

def BodyWorks : Prop :=
  args.randomizeDocSize = true → 0 ≤ args.docSize

variable {args} {index : Int} {rng : σ}

theorem makeKey_eq_ok {made : String × σ} (returned : args.makeKey index rng = .ok made) :
    made.1 = args.keyAt index ∧ args.KeyWorks := by
  unfold makeKey at returned
  dsimp only at returned
  by_cases random : args.name = "random_keys"
  · rw [if_pos random] at returned
    cases returned
    exact ⟨(if_pos random).symm, fun other => absurd random other⟩
  · rw [if_neg random] at returned
    by_cases mixed : args.mixKeySize = true
    · rw [if_pos mixed] at returned
      split at returned
      · cases returned
      · cases returned
        exact ⟨((if_neg random).trans (if_pos mixed)).symm, fun _ _ => by omega⟩
    · rw [if_neg mixed] at returned
      cases returned
      exact ⟨((if_neg random).trans (if_neg mixed)).symm, fun _ other => absurd other mixed⟩

theorem makeKey_returns (works : args.KeyWorks) (index : Int) (rng : σ) :
    ∃ made, args.makeKey index rng = .ok made := by
  unfold makeKey
  dsimp only
  split_ifs with random mixed wide
  · exact ⟨_, rfl⟩
  · have narrow := works random mixed
    omega
  · exact ⟨_, rfl⟩
  · exact ⟨_, rfl⟩

theorem fillField_eq_ok {filling filled : Filling σ V} {name : String}
    (returned : args.fillField filling name = .ok filled) :
    filled.template.names = filling.template.names ∧ args.FieldWorks name := by
  unfold fillField at returned
  unfold FieldWorks
  cases given : args.kwargs name with
  | none =>
    rw [given] at returned
    cases returned
    exact ⟨rfl, by simp⟩
  | some kwarg =>
    rw [given] at returned
    cases kwarg with
    | callable =>
      cases returned
      exact ⟨rfl, by simp⟩
    | items items =>
      dsimp only at returned
      split at returned
      · cases returned
      · cases items with
        | nil => cases returned
        | cons first rest =>
          cases returned
          refine ⟨rfl, by simp, ?_⟩
          intro items same
          cases same
          exact ⟨by assumption, by simp⟩
    | other =>
      dsimp only at returned
      split at returned
      · cases returned
      · cases returned

theorem fillField_returns {name : String} (works : args.FieldWorks name) (filling : Filling σ V) :
    ∃ filled, args.fillField filling name = .ok filled := by
  unfold fillField
  cases given : args.kwargs name with
  | none => exact ⟨_, rfl⟩
  | some kwarg =>
    cases kwarg with
    | callable => exact ⟨_, rfl⟩
    | items items =>
      obtain ⟨notKey, notEmpty⟩ := works.2 items given
      cases items with
      | nil => exact absurd rfl notEmpty
      | cons first rest =>
        dsimp only
        rw [if_neg notKey]
        exact ⟨_, rfl⟩
    | other => exact absurd given works.1

theorem fill_eq_ok {filling filled : Filling σ V} (returned : args.fill filling = .ok filled) :
    filled.template.names = filling.template.names ∧
      (args.randomize = true → ∀ name ∈ filling.template.names, args.FieldWorks name) := by
  unfold fill at returned
  split at returned
  · constructor
    · have sameNames (s : Filling σ V) (name : String) (next : Filling σ V)
          (stepped : args.fillField s name = .ok next)
          (same : s.template.names = filling.template.names) :
          next.template.names = filling.template.names :=
        (fillField_eq_ok stepped).1.trans same
      have kept := foldlM_invariant returned sameNames rfl
      exact kept
    · intro _
      exact forall_of_foldlM_ok returned fun s name next stepped => (fillField_eq_ok stepped).2
  · cases returned
    exact ⟨rfl, fun randomize => by contradiction⟩

theorem fill_returns (filling : Filling σ V)
    (works : args.randomize = true → ∀ name ∈ filling.template.names, args.FieldWorks name) :
    ∃ filled, args.fill filling = .ok filled := by
  unfold fill
  split
  · rename_i randomize
    exact foldlM_returns (fun s name member => fillField_returns (works randomize name member) s) _
  · exact ⟨_, rfl⟩

theorem makeBody_eq_ok {body : String} {made : String × σ}
    (returned : args.makeBody body rng = .ok made) : args.BodyWorks := by
  intro randomize
  unfold makeBody at returned
  obtain ⟨sized, sizedOk, -⟩ := bind_eq_ok.mp returned
  unfold sizeBody at sizedOk
  rw [if_pos randomize] at sizedOk
  split at sizedOk
  · cases sizedOk
  · omega

theorem makeBody_returns (works : args.BodyWorks) (body : String) (rng : σ) :
    ∃ made, args.makeBody body rng = .ok made := by
  have sized : ∃ sized, args.sizeBody body rng = .ok sized := by
    unfold sizeBody
    split
    · rename_i randomize
      have size := works randomize
      rw [if_neg (by omega)]
      exact ⟨_, rfl⟩
    · exact ⟨_, rfl⟩
  obtain ⟨sized, sizedOk⟩ := sized
  unfold makeBody
  rw [sizedOk]
  exact ⟨_, rfl⟩

theorem randomizeBody_after (args : DocumentGeneratorArgs σ V) (docSize : Int) (body : String)
    (rng later : σ) :
    args.randomizeBody docSize (args.randomizeBody docSize body rng).1 later =
      args.randomizeBody docSize body later := by
  unfold randomizeBody
  by_cases own : docSize ≠ 0 ∧ args.randomizeValue
  · rw [if_pos own, if_pos own]
  · rw [if_neg own, if_neg own, if_neg own]

/-- A body that was made for one document has no influence on the next: either every document
    makes its own, or none does. -/
theorem makeBody_after {body : String} {made : String × σ}
    (returned : args.makeBody body rng = .ok made) : args.makeBody made.1 = args.makeBody body := by
  funext later
  unfold makeBody at returned ⊢
  unfold sizeBody at returned ⊢
  split at returned
  · rename_i randomize
    rw [if_pos randomize, if_pos randomize]
  · rename_i fixed
    rw [if_neg fixed, if_neg fixed]
    cases returned
    exact congrArg Except.ok (args.randomizeBody_after args.docSize body rng later)

end DocumentGeneratorArgs

namespace DocumentGeneratorState

variable {g : DocumentGeneratorState σ V}

/-- Nothing that `next` does at an index raises. -/
structure Works (g : DocumentGeneratorState σ V) : Prop where
  fields : g.args.randomize = true → ∀ name ∈ g.template.names, g.args.FieldWorks name
  body : g.args.BodyWorks
  key : g.args.KeyWorks

theorem makeValue_eq_ok {made : DocValue V × DocumentGeneratorState σ V}
    (returned : g.makeValue = .ok made) :
    (g.args.KeyWorks → g.Works) ∧ made.2.args = g.args ∧ made.2.itr = g.itr ∧ made.2.stop = g.stop ∧
      made.2.template.names = g.template.names ∧
      (g.args.deepCopy = true → made.2.template = g.template) ∧
      g.args.makeBody made.2.body = g.args.makeBody g.body := by
  unfold makeValue at returned
  obtain ⟨filled, filledOk, returned⟩ := bind_eq_ok.mp returned
  obtain ⟨body, bodyOk, returned⟩ := bind_eq_ok.mp returned
  cases returned
  obtain ⟨sameNames, fields⟩ := DocumentGeneratorArgs.fill_eq_ok filledOk
  have works (key : g.args.KeyWorks) : g.Works :=
    ⟨fields, DocumentGeneratorArgs.makeBody_eq_ok bodyOk, key⟩
  refine ⟨works, rfl, rfl, rfl, ?_, ?_, DocumentGeneratorArgs.makeBody_after bodyOk⟩
  · dsimp only
    split_ifs
    · rfl
    · exact sameNames
    · exact sameNames
  · intro deepCopy
    dsimp only
    rw [if_pos deepCopy]

theorem makeValue_returns (works : g.Works) : ∃ made, g.makeValue = .ok made := by
  obtain ⟨filled, filledOk⟩ := DocumentGeneratorArgs.fill_returns
    ⟨g.template, g.args.random.seed (g.args.seedHash g.itr), g.answers⟩ works.fields
  obtain ⟨body, bodyOk⟩ := DocumentGeneratorArgs.makeBody_returns works.body g.body filled.rng
  unfold makeValue
  rw [filledOk]
  dsimp only [bind, Except.bind]
  rw [bodyOk]
  exact ⟨_, rfl⟩

/-! ## What a call leaves behind -/

/-- A document depends on the index, and on nothing that other documents changed. -/
structure Pure (g : DocumentGeneratorState σ V) : Prop where
  deepCopy : g.args.deepCopy = true
  noCallable : ∀ name, g.args.kwargs name ≠ some .callable

/-- The document that `next` makes at an index, the generator being otherwise as it is. -/
def docAt (g : DocumentGeneratorState σ V) (index : Int) :
    Except GeneratorError (String × DocValue V) := do
  let made ← ({ g with itr := index } : DocumentGeneratorState σ V).makeValue
  let key ← g.args.makeKey index g.rng
  return (key.1, made.1)

/-- `g'` is what `count` calls of `next` or `next_key` can make of `g`. -/
structure Advanced (g : DocumentGeneratorState σ V) (count : Nat) (g' : DocumentGeneratorState σ V) :
    Prop where
  args : g'.args = g.args
  stop : g'.stop = g.stop
  itr : g'.itr = g.itr + count
  names : g'.template.names = g.template.names
  docs : g.Pure → g'.docAt = g.docAt

end DocumentGeneratorState

namespace DocumentGeneratorArgs

variable {args : DocumentGeneratorArgs σ V}

theorem fillField_answers (noCallable : ∀ name, args.kwargs name ≠ some .callable)
    (answers : Nat → V) (filling : Filling σ V) (name : String) :
    args.fillField { filling with answers := answers } name =
      (args.fillField filling name).map fun filled => { filled with answers := answers } := by
  unfold fillField
  cases given : args.kwargs name with
  | none => rfl
  | some kwarg =>
    cases kwarg with
    | callable => exact absurd given (noCallable name)
    | items items =>
      dsimp only
      split
      · rfl
      · cases items with
        | nil => rfl
        | cons first rest => rfl
    | other =>
      dsimp only
      split <;> rfl

/-- Without callables, what they would answer does not matter. -/
theorem fill_answers (noCallable : ∀ name, args.kwargs name ≠ some .callable)
    (answers : Nat → V) (filling : Filling σ V) :
    args.fill { filling with answers := answers } =
      (args.fill filling).map fun filled => { filled with answers := answers } := by
  unfold fill
  split
  · exact foldlM_commute (fillField_answers noCallable answers) filling
  · rfl

theorem makeKey_rng (args : DocumentGeneratorArgs σ V) (index : Int) (rng rng' : σ) :
    (args.makeKey index rng).map Prod.fst = (args.makeKey index rng').map Prod.fst := by
  unfold makeKey
  dsimp only
  split_ifs <;> rfl

end DocumentGeneratorArgs

namespace DocumentGeneratorState

variable {g g' : DocumentGeneratorState σ V}

theorem makeValue_congr (noCallable : ∀ name, g.args.kwargs name ≠ some .callable)
    (sameArgs : g'.args = g.args) (sameItr : g'.itr = g.itr) (sameTemplate : g'.template = g.template)
    (sameBody : g.args.makeBody g'.body = g.args.makeBody g.body) :
    g'.makeValue.map Prod.fst = g.makeValue.map Prod.fst := by
  unfold makeValue
  rw [sameArgs, sameItr, sameTemplate]
  have filled := DocumentGeneratorArgs.fill_answers noCallable g'.answers
    ⟨g.template, g.args.random.seed (g.args.seedHash g.itr), g.answers⟩
  dsimp only at filled
  rw [filled]
  cases g.args.fill ⟨g.template, g.args.random.seed (g.args.seedHash g.itr), g.answers⟩ with
  | error e => rfl
  | ok filled =>
    dsimp only [Except.map, bind, Except.bind]
    rw [sameBody]
    cases g.args.makeBody g.body filled.rng with
    | error e => rfl
    | ok body => rfl

theorem docAt_eq (g : DocumentGeneratorState σ V) (index : Int) :
    g.docAt index = (do
      let value ← ({ g with itr := index } : DocumentGeneratorState σ V).makeValue.map Prod.fst
      let key ← (g.args.makeKey index g.rng).map Prod.fst
      return (key, value)) := by
  unfold docAt
  cases ({ g with itr := index } : DocumentGeneratorState σ V).makeValue with
  | error e => rfl
  | ok made =>
    cases g.args.makeKey index g.rng with
    | error e => rfl
    | ok key => rfl

theorem docAt_congr (noCallable : ∀ name, g.args.kwargs name ≠ some .callable)
    (sameArgs : g'.args = g.args) (sameTemplate : g'.template = g.template)
    (sameBody : g.args.makeBody g'.body = g.args.makeBody g.body) : g'.docAt = g.docAt := by
  funext index
  have sameValue : ({ g' with itr := index } : DocumentGeneratorState σ V).makeValue.map Prod.fst =
      ({ g with itr := index } : DocumentGeneratorState σ V).makeValue.map Prod.fst :=
    makeValue_congr noCallable sameArgs rfl sameTemplate sameBody
  rw [docAt_eq, docAt_eq, sameValue, sameArgs, g.args.makeKey_rng index g'.rng g.rng]

theorem Pure.congr (pure : g.Pure) (sameArgs : g'.args = g.args) : g'.Pure where
  deepCopy := by
    rw [sameArgs]
    exact pure.deepCopy
  noCallable := by
    rw [sameArgs]
    exact pure.noCallable

theorem Advanced.refl (g : DocumentGeneratorState σ V) : g.Advanced 0 g :=
  ⟨rfl, rfl, by simp, rfl, fun _ => rfl⟩

theorem Advanced.trans {g'' : DocumentGeneratorState σ V} {first second : Nat}
    (one : g.Advanced first g') (other : g'.Advanced second g'') :
    g.Advanced (first + second) g'' where
  args := other.args.trans one.args
  stop := other.stop.trans one.stop
  itr := by
    rw [other.itr, one.itr]
    omega
  names := other.names.trans one.names
  docs := by
    intro pure
    exact (other.docs (pure.congr one.args)).trans (one.docs pure)

theorem Works.advanced {count : Nat} (works : g.Works) (advanced : g.Advanced count g') : g'.Works where
  fields := by
    rw [advanced.args, advanced.names]
    exact works.fields
  body := by
    rw [advanced.args]
    exact works.body
  key := by
    rw [advanced.args]
    exact works.key

theorem nextKey_spec (works : g.Works) :
    ∃ g', g.nextKey = .ok (g.args.keyAt g.itr, g') ∧ g.Advanced 1 g' := by
  obtain ⟨made, madeOk⟩ := DocumentGeneratorArgs.makeKey_returns works.key g.itr g.rng
  refine ⟨{ g with itr := g.itr + 1, rng := made.2 }, ?_, rfl, rfl, rfl, rfl, ?_⟩
  · unfold nextKey
    rw [madeOk, ← (DocumentGeneratorArgs.makeKey_eq_ok madeOk).1]
    rfl
  · intro pure
    exact docAt_congr pure.noCallable rfl rfl rfl

theorem next_eq_ok {doc : String × DocValue V} (returned : g.next = .ok (doc, g')) :
    g.Works ∧ g.Advanced 1 g' ∧ doc.1 = g.args.keyAt g.itr ∧ (g.Pure → g.docAt g.itr = .ok doc) := by
  unfold next at returned
  split at returned
  · cases returned
  obtain ⟨made, madeOk, returned⟩ := bind_eq_ok.mp returned
  obtain ⟨keyed, keyedOk, returned⟩ := bind_eq_ok.mp returned
  obtain ⟨key, keyOk, keyed⟩ := bind_eq_ok.mp keyedOk
  cases keyed
  cases returned
  obtain ⟨works, sameArgs, sameItr, sameStop, sameNames, sameTemplate, sameBody⟩ :=
    makeValue_eq_ok madeOk
  rw [sameArgs, sameItr] at keyOk
  obtain ⟨keyAt, keyWorks⟩ := DocumentGeneratorArgs.makeKey_eq_ok keyOk
  refine ⟨works keyWorks, ⟨sameArgs, sameStop, ?_, sameNames, ?_⟩, keyAt, ?_⟩
  · dsimp only
    rw [sameItr]
    rfl
  · intro pure
    exact docAt_congr pure.noCallable sameArgs (sameTemplate pure.deepCopy) sameBody
  · intro pure
    have keys := g.args.makeKey_rng g.itr g.rng made.2.rng
    rw [keyOk] at keys
    rw [docAt_eq, keys]
    have value : ({ g with itr := g.itr } : DocumentGeneratorState σ V).makeValue = .ok made := madeOk
    rw [value]
    rfl

theorem next_returns (works : g.Works) (more : g.itr < g.stop) :
    ∃ doc g', g.next = .ok (doc, g') := by
  obtain ⟨made, madeOk⟩ := makeValue_returns works
  obtain ⟨-, sameArgs, -⟩ := makeValue_eq_ok madeOk
  have keyWorks : made.2.args.KeyWorks := by
    rw [sameArgs]
    exact works.key
  obtain ⟨key, keyOk⟩ := DocumentGeneratorArgs.makeKey_returns keyWorks made.2.itr made.2.rng
  unfold next
  rw [if_neg (by omega), madeOk]
  dsimp only [bind, Except.bind, nextKey]
  rw [keyOk]
  exact ⟨_, _, rfl⟩

/-! ## Going through a range -/

def remaining (g : DocumentGeneratorState σ V) : Nat := (g.stop - g.itr).toNat

theorem hasNext_false (passed : g.hasNext = false) : g.remaining = 0 := by
  have passed : ¬ g.itr < g.stop := of_decide_eq_false passed
  unfold DocumentGeneratorState.remaining
  omega

theorem hasNext_true (more : g.hasNext = true) : 0 < g.remaining := by
  have before : g.itr < g.stop := of_decide_eq_true more
  unfold DocumentGeneratorState.remaining
  omega

theorem Advanced.remaining {count : Nat} (advanced : g.Advanced count g') :
    g'.remaining = g.remaining - count := by
  unfold DocumentGeneratorState.remaining
  rw [advanced.stop, advanced.itr]
  omega

/-- `docs` are the documents of the next `count` indices, as far as they are determined. -/
structure Covers (g : DocumentGeneratorState σ V) (count : Nat)
    (docs : List (String × Option (DocValue V))) : Prop where
  keys : docs.map Prod.fst = (window g.itr count).map g.args.keyAt
  values : g.Pure → docs.map Except.ok =
    (window g.itr count).map fun index =>
      (g.docAt index).map fun doc => (doc.1, some doc.2)

theorem Covers.nil (g : DocumentGeneratorState σ V) : g.Covers 0 [] :=
  ⟨rfl, fun _ => rfl⟩

theorem Covers.append {first second : Nat} {docs docs' : List (String × Option (DocValue V))}
    (one : g.Covers first docs) (advanced : g.Advanced first g') (other : g'.Covers second docs') :
    g.Covers (first + second) (docs ++ docs') where
  keys := by
    rw [List.map_append, one.keys, other.keys, advanced.args, advanced.itr, ← List.map_append,
      window_append]
  values := by
    intro pure
    rw [List.map_append, one.values pure, other.values (pure.congr advanced.args), advanced.docs pure, advanced.itr,
      ← List.map_append, window_append]

theorem Covers.congr {count : Nat} {docs : List (String × Option (DocValue V))}
    (covers : g'.Covers count docs) (sameArgs : g'.args = g.args) (sameItr : g'.itr = g.itr)
    (sameDocs : g.Pure → g'.docAt = g.docAt) : g.Covers count docs where
  keys := by
    rw [covers.keys, sameArgs, sameItr]
  values := by
    intro pure
    rw [covers.values (pure.congr sameArgs), sameDocs pure, sameItr]

/-- One call of `next`. -/
theorem covers_next {doc : String × DocValue V} (returned : g.next = .ok (doc, g')) :
    g.Covers 1 [(doc.1, some doc.2)] := by
  obtain ⟨-, -, key, value⟩ := next_eq_ok returned
  refine ⟨?_, ?_⟩
  · rw [window_one, List.map_singleton, List.map_singleton, key]
  · intro pure
    rw [window_one, List.map_singleton, List.map_singleton, value pure]
    rfl

/-- Without deep copies one call of `next_key` is as good as one of `next`. -/
theorem covers_nextKey {val : Option (DocValue V)} (shallow : g.args.deepCopy = false) :
    g.Covers 1 [(g.args.keyAt g.itr, val)] := by
  refine ⟨?_, ?_⟩
  · rw [window_one, List.map_singleton, List.map_singleton]
  · intro pure
    rw [pure.deepCopy] at shallow
    cases shallow

/-- A batch holds the documents of the next indices, as many as the batch size and the range allow. -/
theorem nextBatch_spec (works : g.Works) (count : Nat) (skipValue : Bool) (val : Option (DocValue V)) :
    ∃ batch g', g.nextBatch count skipValue val = .ok (batch, g') ∧
      g.Advanced (min count g.remaining) g' ∧ g.Covers (min count g.remaining) batch := by
  induction count generalizing g skipValue val with
  | zero =>
    rw [Nat.zero_min]
    exact ⟨[], g, rfl, .refl g, .nil g⟩
  | succ count ih =>
    cases more : g.hasNext with
    | false =>
      rw [hasNext_false more, Nat.min_zero, nextBatch, more]
      exact ⟨[], g, rfl, .refl g, .nil g⟩
    | true =>
      have before : g.itr < g.stop := of_decide_eq_true more
      have width : min (count + 1) g.remaining = 1 + min count (g.remaining - 1) := by
        have some := hasNext_true more
        omega
      rw [width, nextBatch, if_pos more]
      by_cases full : (!skipValue || g.args.deepCopy) = true
      · rw [if_pos full]
        obtain ⟨doc, next, returned⟩ := next_returns works before
        obtain ⟨-, advanced, -⟩ := next_eq_ok returned
        obtain ⟨batch, last, batchOk, later, covers⟩ := ih (works.advanced advanced) true (some doc.2)
        rw [advanced.remaining] at later covers
        refine ⟨(doc.1, some doc.2) :: batch, last, ?_, advanced.trans later,
          (covers_next returned).append advanced covers⟩
        rw [returned]
        dsimp only [bind, Except.bind]
        rw [batchOk]
        rfl
      · rw [if_neg full]
        have shallow : g.args.deepCopy = false := by simp_all
        obtain ⟨next, returned, advanced⟩ := nextKey_spec works
        obtain ⟨batch, last, batchOk, later, covers⟩ := ih (works.advanced advanced) skipValue val
        rw [advanced.remaining] at later covers
        refine ⟨(g.args.keyAt g.itr, val) :: batch, last, ?_, advanced.trans later,
          (covers_nextKey shallow).append advanced covers⟩
        rw [returned]
        dsimp only [bind, Except.bind]
        rw [batchOk]
        rfl

theorem Covers.length {count : Nat} {docs : List (String × Option (DocValue V))}
    (covers : g.Covers count docs) : docs.length = count := by
  have same := congrArg List.length covers.keys
  rwa [List.length_map, List.length_map, length_window] at same

/-- Documents that came out of `next` one by one. -/
theorem drain_covers {calls : Nat} {docs : List (String × DocValue V)}
    (returned : g.drain calls = some docs) :
    g.Covers g.remaining (docs.map fun doc => (doc.1, some doc.2)) ∧ (0 < g.remaining → g.Works) := by
  induction calls generalizing g docs with
  | zero =>
    cases more : g.hasNext with
    | true => simp [drain, more] at returned
    | false =>
      simp only [drain, more, Bool.false_eq_true, if_false, Option.some.injEq] at returned
      rw [hasNext_false more, ← returned]
      exact ⟨.nil g, by omega⟩
  | succ calls ih =>
    cases more : g.hasNext with
    | false =>
      simp only [drain, more, Bool.false_eq_true, if_false, Option.some.injEq] at returned
      rw [hasNext_false more, ← returned]
      exact ⟨.nil g, by omega⟩
    | true =>
      rw [drain, if_pos more] at returned
      cases outcome : g.next with
      | error e =>
        rw [outcome] at returned
        cases returned
      | ok made =>
        rw [outcome] at returned
        obtain ⟨rest, restOk, rfl⟩ := Option.map_eq_some_iff.mp returned
        obtain ⟨works, advanced, -⟩ := next_eq_ok outcome
        have covers := (ih restOk).1
        have width : g.remaining = 1 + made.2.remaining := by
          have some := hasNext_true more
          rw [advanced.remaining]
          omega
        rw [width]
        exact ⟨(covers_next outcome).append advanced covers, fun _ => works⟩

end DocumentGeneratorState

namespace BatchedGenerator

open DocumentGeneratorState

/-- The batches of a generator hold the documents of its range, and none of them is empty. -/
theorem drain_covers {b : BatchedGenerator σ V} (skipValue : Bool)
    (works : 0 < b.docGen.remaining → b.docGen.Works) {calls : Nat}
    (enough : b.docGen.remaining ≤ calls) :
    ∃ batches, b.drain skipValue calls = some batches ∧
      b.docGen.Covers b.docGen.remaining batches.flatten ∧
      ∀ batch ∈ batches, batch ≠ [] ∧ batch.length ≤ b.batchSize := by
  induction calls generalizing b with
  | zero =>
    cases more : b.docGen.hasNext with
    | true =>
      have some := hasNext_true more
      omega
    | false =>
      rw [hasNext_false more]
      exact ⟨[], by simp [drain, more], .nil b.docGen, by simp⟩
  | succ calls ih =>
    cases more : b.docGen.hasNext with
    | false =>
      rw [hasNext_false more]
      exact ⟨[], by simp [drain, more], .nil b.docGen, by simp⟩
    | true =>
      have some := hasNext_true more
      have positive := b.positive
      obtain ⟨batch, next, returned, advanced, covers⟩ :=
        nextBatch_spec (works some) b.batchSize skipValue none
      have left := advanced.remaining
      obtain ⟨batches, drained, later, sizes⟩ := @ih { b with docGen := next }
        (fun _ => (works some).advanced advanced) (by dsimp only; omega)
      have width : b.docGen.remaining =
          min b.batchSize b.docGen.remaining + next.remaining := by omega
      refine ⟨batch :: batches, ?_, ?_, ?_⟩
      · rw [drain, if_pos more, returned]
        dsimp only
        rw [drained]
        rfl
      · rw [width, List.flatten_cons]
        exact covers.append advanced later
      · intro member inBatches
        cases inBatches with
        | head =>
          have size := covers.length
          refine ⟨?_, by omega⟩
          intro empty
          rw [empty, List.length_nil] at size
          omega
        | tail _ inBatches => exact sizes member inBatches

end BatchedGenerator

end Taf.DocGen
