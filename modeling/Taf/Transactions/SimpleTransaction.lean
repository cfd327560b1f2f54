import Taf.Lib.Interleave
import Taf.Lib.Dict

/-! # Transactions over several collections

`SimpleTransaction.RunTransaction` creates, updates and deletes documents: synchronously by the nested
loops of one lambda, or by reactive transactions, one for each collection and each of the three lists.
Whether a transaction fails for another reason than the documents themselves, what it logs then and
what it leaves, and in which order the reactive operations take turns, is decided by its fate. -/

namespace Taf.SimpleTransaction

open Taf.Lib

/-- A value of a `JsonObject`; only integers are put by this code. -/
inductive Json (α : Type) where
  | int (number : ℕ)
  | other (value : α)

abbrev JsonObject (α : Type) := Finmap fun _ : String => Json α

/-- `content.put("mutated", i)` -/
def putMutated {α : Type} (i : ℕ) (content : JsonObject α) : JsonObject α :=
  content.insert "mutated" (.int i)

abbrev Content (κ α : Type) := κ × String → Option (JsonObject α)

abbrev intMax : ℕ := 2 ^ 31 - 1

/-- The arguments of a call and the content of all collections before it -/
structure Call (κ α : Type) where
  collections : List κ
  createkeys : List (String × JsonObject α)
  updatekeys : List String
  deletekeys : List String
  commit : Bool
  updatecount : ℕ
  content : Content κ α
  absent : ∀ collection ∈ collections, ∀ document ∈ createkeys, content (collection, document.1) = none
  present : ∀ collection ∈ collections, ∀ key ∈ updatekeys ++ deletekeys, (content (collection, key)).isSome
  apart : ∀ key ∈ updatekeys, key ∉ deletekeys
  fresh : ∀ document ∈ createkeys, document.1 ∉ updatekeys ++ deletekeys
  counted : 1 ≤ updatecount
  int : updatecount ≤ intMax

/-- What happens to a transaction: the order of its reactive operations, and whether it fails although
    none of its documents is in the way.  The log of a failed transaction is not empty. -/
structure Fate (κ α : Type) where
  order : List ℕ
  fault : Bool
  logs : List String
  logged : logs ≠ []
  left : Content κ α

/-- The content of the collections, the fates of the transactions to come, and whether one has failed -/
structure Progress (κ α : Type) where
  content : Content κ α
  fates : ℕ → Fate κ α
  failed : Bool

variable {κ α : Type} [DecidableEq κ]

/-- `transaction.run`, `transaction.reactive`: the log entries are those of the exception. -/
def transact (commit : Bool) (lambda : List ℕ → Content κ α → Option (Content κ α)) (state : Progress κ α) :
    Progress κ α × List String :=
  let fate := state.fates 0
  let fates n := state.fates (n + 1)
  match fate.fault, lambda fate.order state.content with
  | false, some staged => (⟨if commit then staged else state.content, fates, state.failed⟩, [])
  | _, _ => (⟨fate.left, fates, true⟩, fate.logs)

/-! ## The synchronous transaction -/

def runAll (actions : List (Actions (κ × String) (JsonObject α))) (content : Content κ α) :
    Option (Content κ α) :=
  actions.foldlM (fun content action => action.run content) content

/-- The document is read again after it was inserted. -/
def insertAndRead (id : κ × String) (document : JsonObject α) : Actions (κ × String) (JsonObject α) :=
  .insert id document (.get id fun _ => .done)

def replaceEach (id : κ × String) (doc2 : JsonObject α) : List ℕ → Actions (κ × String) (JsonObject α)
  | [] => .done
  | i :: counts => .replace id (putMutated i doc2) (replaceEach id doc2 counts)

/-- `for (int i=1; i<=updatecount; i++)` over one document -/
def replaceCounted (updatecount : ℕ) (id : κ × String) : Actions (κ × String) (JsonObject α) :=
  .get id fun doc2 => replaceEach id doc2 (List.range' 1 updatecount)

def getAndRemove (id : κ × String) : Actions (κ × String) (JsonObject α) :=
  .get id fun _ => .remove id .done

namespace Call

variable (call : Call κ α)

def creates : List (Actions (κ × String) (JsonObject α)) :=
  call.collections.flatMap fun bucket =>
    call.createkeys.map fun document => insertAndRead (bucket, document.1) document.2

def updates : List (Actions (κ × String) (JsonObject α)) :=
  call.updatekeys.flatMap fun key =>
    call.collections.map fun bucket => replaceCounted call.updatecount (bucket, key)

def deletes : List (Actions (κ × String) (JsonObject α)) :=
  call.deletekeys.flatMap fun key => call.collections.map fun bucket => getAndRemove (bucket, key)

def lambda (content : Content κ α) : Option (Content κ α) := do
  let content ← runAll call.creates content
  -- Every int is at most the largest one: the loop goes on until the transaction has expired.
  let content ← if call.updates.isEmpty ∨ call.updatecount < intMax then runAll call.updates content else none
  runAll call.deletes content

end Call

/-! ## The reactive transactions -/

def insertOne (collection : κ) (doc : String × JsonObject α) : Actions (κ × String) (JsonObject α) :=
  .insert (collection, doc.1) doc.2 .done

def replaceOne (collection : κ) (d : String) : Actions (κ × String) (JsonObject α) :=
  .get (collection, d) fun d1 => .replace (collection, d) (putMutated 1 d1) .done

def removeOne (collection : κ) (d : String) : Actions (κ × String) (JsonObject α) :=
  .get (collection, d) fun _ => .remove (collection, d) .done

/-- The first mutation is made in serial, all others in parallel. -/
def reactive (firstDoc : Actions (κ × String) (JsonObject α))
    (remainingDocs : List (Actions (κ × String) (JsonObject α))) (order : List ℕ) (content : Content κ α) :
    Option (Content κ α) := do
  let content ← firstDoc.run content
  if remainingDocs.length = 0 then some content else Actions.interleave order remainingDocs content

def multiInsertSingelTransaction (collection : κ) (firstDoc : String × JsonObject α)
    (remainingDocs : List (String × JsonObject α)) (commit : Bool) (state : Progress κ α) :
    Progress κ α × List String :=
  transact commit (reactive (insertOne collection firstDoc) (remainingDocs.map (insertOne collection))) state

def multiUpdateSingelTransaction (collection : κ) (id1 : String) (remainingDocs : List String) (commit : Bool)
    (state : Progress κ α) : Progress κ α × List String :=
  transact commit (reactive (replaceOne collection id1) (remainingDocs.map (replaceOne collection))) state

def multiDeleteSingelTransaction (collection : κ) (id1 : String) (remainingDocs : List String) (commit : Bool)
    (state : Progress κ α) : Progress κ α × List String :=
  transact commit (reactive (removeOne collection id1) (remainingDocs.map (removeOne collection))) state

namespace Call

variable (call : Call κ α)

/-- The loop body over the collections: `res` is assigned by each of the three transactions. -/
def runCollection (state : Progress κ α × List String) (collection : κ) : Progress κ α × List String :=
  let state :=
    match call.createkeys with
    | [] => state
    | firstDoc :: remainingDocs =>
      multiInsertSingelTransaction collection firstDoc remainingDocs call.commit state.1
  let state :=
    match call.updatekeys with
    | [] => state
    | id1 :: remainingDocs => multiUpdateSingelTransaction collection id1 remainingDocs call.commit state.1
  match call.deletekeys with
  | [] => state
  | id1 :: remainingDocs => multiDeleteSingelTransaction collection id1 remainingDocs call.commit state.1

/-- `RunTransaction`: what is left, and the list that is returned -/
def runTransaction (sync : Bool) (fates : ℕ → Fate κ α) : Progress κ α × List String :=
  let start : Progress κ α := ⟨call.content, fates, false⟩
  if sync then transact call.commit (fun _ => call.lambda) start
  else call.collections.foldl call.runCollection (start, [])

/-! ## The two properties -/

/-- Where no operation fails, both modes leave the same content, and without a commit the initial one. -/
def Agrees : Prop := ∀ fates fates',
  (call.runTransaction true fates).1.failed = false → (call.runTransaction false fates').1.failed = false →
    (call.runTransaction true fates).1.content = (call.runTransaction false fates').1.content ∧
      (call.commit = false → (call.runTransaction true fates).1.content = call.content)

/-- A failed transaction shows in the list that is returned. -/
def Reports : Prop := ∀ sync fates,
  (call.runTransaction sync fates).1.failed = true → (call.runTransaction sync fates).2 ≠ []

def created : List (κ × String) :=
  call.collections.flatMap fun collection => call.createkeys.map fun document => (collection, document.1)

def deleted : List (κ × String) :=
  call.deletekeys.flatMap fun key => call.collections.map fun collection => (collection, key)

/-- Nothing is updated for good, or no document more than once, or some operation is bound to fail: the
    loop over the updates does not end, or a document is created or deleted twice. -/
def SameUpdates : Prop :=
  call.commit = false ∨ call.collections = [] ∨ call.updatekeys = [] ∨ call.updatecount = 1 ∨
    call.updatecount = intMax ∨ ¬ call.created.Nodup ∨ ¬ call.deleted.Nodup

/-- The number of lists for which there are transactions -/
def kinds : ℕ := [call.createkeys.isEmpty, call.updatekeys.isEmpty, call.deletekeys.isEmpty].count false

/-- There is one reactive transaction at most, or the last one is bound to fail. -/
def LastReports : Prop :=
  call.collections.length * call.kinds ≤ 1 ∨
    if call.deletekeys ≠ [] then ¬ call.deletekeys.Nodup
    else call.updatekeys = [] ∧ ¬ (call.createkeys.map Prod.fst).Nodup

end Call

end Taf.SimpleTransaction
