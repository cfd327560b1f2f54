import Taf.DocGen.DocumentGenerator

/-! # Documents in batches

`DocumentGenerator.next` and `BatchedDocumentGenerator` with everything they carry from one
document to the next: the iterator, the state of `self.random`, the body, the template and
the answers of callable kwargs.  A method of `random.Random` is a function of the state, and
`seed` sets the state whatever it was before. -/

namespace Taf.DocGen

open Taf.Lib

/-! ## The parts of a generator -/

/-- `random.Random` with the states `σ`; `choice` picks from a list that has a first element. -/
structure Random (σ V : Type) where
  seed : String → σ
  -- `int(self.random.random() * bound)`
  scaled : σ → Int → Int × σ
  randint : σ → Int → Int → Int × σ
  choice : σ → V → List V → V × σ

inductive Kwarg (V : Type) where
  | callable
  | items (items : List V)
  -- Neither callable nor a sequence.
  | other

/-- A `JsonObject`; `put` on a name it has leaves the order of its names alone. -/
structure Template (V : Type) where
  names : List String
  nodup : names.Nodup
  value : String → V

def Template.put {V : Type} (template : Template V) (name : String) (value : V) : Template V :=
  { template with value := Function.update template.value name value }

inductive DocValue (V : Type) where
  | json (template : Template V)
  -- `String(str(value)).getBytes(StandardCharsets.UTF_8)`
  | bytes (value : DocValue V)
  -- `String(str(value))`
  | string (value : DocValue V)

inductive GeneratorError where
  | stopIteration
  -- `doc_key` is read before it is assigned.
  | unboundLocalError
  | indexError
  | typeError
  | valueError
  | zeroDivisionError
  deriving DecidableEq

/-- What `__init__` leaves fixed. -/
structure DocumentGeneratorArgs (σ V : Type) where
  random : Random σ V
  name : String
  keySize : Int := 8
  mixKeySize : Bool := false
  docSize : Int := 256
  docType : String := "json"
  randomizeDocSize : Bool := false
  randomizeValue : Bool := false
  randomize : Bool := false
  deepCopy : Bool := false
  kwargs : String → Option (Kwarg V) := fun _ => none
  -- The 4096 letters drawn in `__init__`.
  randomString : String := ""
  -- A text as the value of a field.
  text : String → V

structure DocumentGeneratorState (σ V : Type) where
  args : DocumentGeneratorArgs σ V
  start : Int
  itr : Int
  -- The source's `end`.
  stop : Int
  rng : σ
  body : String
  template : Template V
  -- What the callable kwargs are going to answer, in the order of the calls.
  answers : Nat → V

variable {σ V : Type}

namespace DocumentGeneratorArgs

variable (args : DocumentGeneratorArgs σ V)

/-- The generator as far as the keys go: every draw for a key comes right after a `seed`. -/
def view (start stop : Int) : DocumentGenerator where
  name := args.name
  start := start
  itr := start
  stop := stop
  keySize := args.keySize
  mixKeySize := args.mixKeySize
  random :=
    { scaled := fun seedHash bound => (args.random.scaled (args.random.seed seedHash) bound).1
      randint := fun seedHash low high => (args.random.randint (args.random.seed seedHash) low high).1 }
  randomString := args.randomString

def keyAt (index : Int) : String := (args.view index index).keyAt index

def seedHash (index : Int) : String := args.name ++ "-" ++ index.natAbs.repr

/-- The key that `next_key` builds at an index; the plain keys draw nothing. -/
def makeKey (index : Int) (rng : σ) : Except GeneratorError (String × σ) :=
  let seeded := args.random.seed (args.seedHash index)
  if args.name = "random_keys" then
    let offset := args.random.scaled seeded (args.randomString.length - args.keySize)
    let keyLen := args.keySize - ((toString index).length + 1)
    .ok (slice args.randomString offset.1 (keyLen + offset.1) ++ "-" ++ toString index, offset.2)
  else if args.mixKeySize then
    if 240 < args.keySize then .error .valueError
    else
      let width := args.random.randint seeded args.keySize 240
      .ok (args.name ++ "-" ++ zfill index.natAbs.repr (width.1 - args.name.length - 1), width.2)
  else .ok (kvNextKey args.name args.keySize index, rng)

/-! ## One document -/

structure Filling (σ V : Type) where
  template : Template V
  rng : σ
  answers : Nat → V

/-- One round of the loop over `template.getNames()`. -/
def fillField (filling : Filling σ V) (name : String) : Except GeneratorError (Filling σ V) :=
  match args.kwargs name with
  | none => .ok filling
  | some .callable =>
    .ok { filling with
      template := filling.template.put name (filling.answers 0)
      answers := fun call => filling.answers (call + 1) }
  | some (.items items) =>
    if name = "key" then .error .unboundLocalError
    else
      match items with
      | [] => .error .indexError
      | first :: rest =>
        let chosen := args.random.choice filling.rng first rest
        .ok { filling with template := filling.template.put name chosen.1, rng := chosen.2 }
  | some .other => if name = "key" then .error .unboundLocalError else .error .typeError

def fill (filling : Filling σ V) : Except GeneratorError (Filling σ V) :=
  if args.randomize then filling.template.names.foldlM args.fillField filling else .ok filling

/-- The size of the body with the body of that size. -/
def sizeBody (body : String) (rng : σ) : Except GeneratorError (Int × String × σ) :=
  if args.randomizeDocSize then
    if args.docSize < 0 then .error .valueError
    else
      let size := args.random.randint rng 0 args.docSize
      .ok (size.1, String.ofList (List.replicate size.1.toNat 'a'), size.2)
  else .ok (args.docSize, body, rng)

def randomizeBody (docSize : Int) (body : String) (rng : σ) : String × σ :=
  if docSize ≠ 0 ∧ args.randomizeValue then
    let offset := args.random.scaled rng args.randomString.length
    let copies := (docSize.fdiv args.randomString.length + 2).toNat
    let letters := String.join (List.replicate copies args.randomString)
    (slice letters offset.1 (docSize + offset.1), offset.2)
  else (body, rng)

/-- What `next` does with `self.body`. -/
def makeBody (body : String) (rng : σ) : Except GeneratorError (String × σ) := do
  let sized ← args.sizeBody body rng
  return args.randomizeBody sized.1 sized.2.1 sized.2.2

def wrap (template : Template V) : DocValue V :=
  let docType := args.docType.toLower
  let value := DocValue.json template
  let value := if occursIn "binary" docType then .bytes value else value
  if occursIn "string" docType then .string value else value

end DocumentGeneratorArgs

namespace DocumentGeneratorState

variable (g : DocumentGeneratorState σ V)

def hasNext : Bool := g.itr < g.stop

def nextKey : Except GeneratorError (String × DocumentGeneratorState σ V) := do
  let made ← g.args.makeKey g.itr g.rng
  return (made.1, { g with itr := g.itr + 1, rng := made.2 })

/-- The value that `next` makes, and the generator as it calls `next_key`. -/
def makeValue : Except GeneratorError (DocValue V × DocumentGeneratorState σ V) := do
  let filled ← g.args.fill
    { template := g.template, rng := g.args.random.seed (g.args.seedHash g.itr), answers := g.answers }
  let body ← g.args.makeBody g.body filled.rng
  let template :=
    if "body" ∈ filled.template.names then filled.template.put "body" (g.args.text body.1)
    else filled.template
  -- Without `deep_copy` the template that was filled is `self.template` itself.
  return (g.args.wrap template,
    { g with
      rng := body.2
      body := body.1
      answers := filled.answers
      template := if g.args.deepCopy then g.template else template })

def next : Except GeneratorError ((String × DocValue V) × DocumentGeneratorState σ V) :=
  if g.stop ≤ g.itr then .error .stopIteration
  else do
    let made ← g.makeValue
    let keyed ← made.2.nextKey
    return ((keyed.1, made.1), keyed.2)

/-- `next_batch` with `count` documents still to take and the value `val` so far; `none` is the
    empty string it begins with. -/
def nextBatch : Nat → Bool → Option (DocValue V) → DocumentGeneratorState σ V →
    Except GeneratorError (List (String × Option (DocValue V)) × DocumentGeneratorState σ V)
  | 0, _, _, g => .ok ([], g)
  | count + 1, skipValue, val, g =>
    if g.hasNext then
      if !skipValue || g.args.deepCopy then do
        let made ← g.next
        let rest ← nextBatch count true (some made.1.2) made.2
        return ((made.1.1, some made.1.2) :: rest.1, rest.2)
      else do
        let keyed ← g.nextKey
        let rest ← nextBatch count skipValue val keyed.2
        return ((keyed.1, val) :: rest.1, rest.2)
    else .ok ([], g)

/-- `next` until `has_next` is false; nothing when a call raises or the calls do not suffice. -/
def drain : Nat → DocumentGeneratorState σ V → Option (List (String × DocValue V))
  | 0, g => if g.hasNext then none else some []
  | calls + 1, g =>
    if g.hasNext then
      match g.next with
      | .error _ => none
      | .ok made => (drain calls made.2).map (made.1 :: ·)
    else some []

end DocumentGeneratorState

/-- `BatchedDocumentGenerator`: its constructor refuses a batch size that is not positive. -/
structure BatchedGenerator (σ V : Type) where
  docGen : DocumentGeneratorState σ V
  batchSize : Nat
  positive : 0 < batchSize

namespace BatchedGenerator

/-- The constructor; `fresh` is the state of the new `random.Random()`. -/
def new (docGen : DocumentGeneratorState σ V) (batchSize : Int) (fresh : σ) :
    Except GeneratorError (BatchedGenerator σ V) :=
  if positive : 0 < batchSize.toNat then
    .ok ⟨{ docGen with rng := fresh }, batchSize.toNat, positive⟩
  else .error .valueError

/-- `next_batch` until `has_next` is false; nothing when a call raises or the calls do not
    suffice. -/
def drain (skipValue : Bool) : Nat → BatchedGenerator σ V →
    Option (List (List (String × Option (DocValue V))))
  | 0, b => if b.docGen.hasNext then none else some []
  | calls + 1, b =>
    if b.docGen.hasNext then
      match b.docGen.nextBatch b.batchSize skipValue none with
      | .error _ => none
      | .ok made => (drain skipValue calls { b with docGen := made.2 }).map (made.1 :: ·)
    else some []

end BatchedGenerator

end Taf.DocGen
