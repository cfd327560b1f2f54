import Taf.Lib.Run

/-! # The hooks that make a transaction fail

`MockRunTransaction` of `SimpleTransaction.java` puts one hook into the mock of the transactions, which
is asked with the key of a document whenever the transaction gets to its place.  Without `fail` it should
fail for the document once, with `fail` whenever it is asked. -/

namespace Taf.SimpleTransaction

open Taf.Lib

/-! ## The hooks -/

/-- `Mono.just(1)`, or `Mono.error(new TestFailTransient(null))` -/
inductive Mono where
  | just
  | error
  deriving DecidableEq

/-- A hook is asked with a key, and reads and writes the flag `first`. -/
abbrev Hook := Bool → String → Mono × Bool

/-- The hook for a document as it is meant: both tests stand in braces. -/
def afterStagedInsertComplete (docId : String) (fail : Bool) : Hook := fun first id =>
  if fail then
    if id = docId then (.error, first) else (.just, first)
  else if first ∧ id = docId then (.error, false)
  else (.just, first)

/-- The body that the other hooks share.  The `else` belongs to the test of the key, since there are
    no braces. -/
def unbracedHook (docId : String) (fail : Bool) : Hook := fun first id =>
  if fail then
    if id = docId then (.error, first)
    else if first ∧ id = docId then (.error, false)
    else (.just, first)
  else (.just, first)

def afterStagedReplaceComplete : String → Bool → Hook := unbracedHook

def afterStagedRemoveComplete : String → Bool → Hook := unbracedHook

def afterDocCommitted : String → Bool → Hook := unbracedHook

def afterGetComplete : String → Bool → Hook := unbracedHook

def beforeDocCommitted : String → Bool → Hook := unbracedHook

def beforeStagedInsert : String → Bool → Hook := unbracedHook

def beforeStagedReplace : String → Bool → Hook := unbracedHook

def beforeStagedRemove : String → Bool → Hook := unbracedHook

def beforeDocRemoved : String → Bool → Hook := unbracedHook

def beforeDocRolledBack : String → Bool → Hook := unbracedHook

/-- The places of the document hooks in `TransactionMock` -/
inductive Place where
  | afterStagedInsertComplete
  | afterStagedReplaceComplete
  | afterStagedRemoveComplete
  | afterDocCommitted
  | afterGetComplete
  | beforeDocCommitted
  | beforeStagedInsert
  | beforeStagedReplace
  | beforeStagedRemove
  | beforeDocRemoved
  | beforeDocRolledBack
  deriving DecidableEq

/-- The name that `operation` is compared with -/
def Place.operation : Place → String
  | afterStagedInsertComplete => "afterStagedInsertComplete"
  | afterStagedReplaceComplete => "afterStagedReplaceComplete"
  | afterStagedRemoveComplete => "afterStagedRemoveComplete"
  | afterDocCommitted => "afterDocCommitted"
  | afterGetComplete => "afterGetComplete"
  | beforeDocCommitted => "beforeDocCommitted"
  | beforeStagedInsert => "beforeStagedInsert"
  | beforeStagedReplace => "beforeStagedReplace"
  | beforeStagedRemove => "beforeStagedRemove"
  | beforeDocRemoved => "beforeDocRemoved"
  | beforeDocRolledBack => "beforeDocRolledBack"

/-- The closure of a place -/
def Place.hook : Place → String → Bool → Hook
  | afterStagedInsertComplete => SimpleTransaction.afterStagedInsertComplete
  | afterStagedReplaceComplete => SimpleTransaction.afterStagedReplaceComplete
  | afterStagedRemoveComplete => SimpleTransaction.afterStagedRemoveComplete
  | afterDocCommitted => SimpleTransaction.afterDocCommitted
  | afterGetComplete => SimpleTransaction.afterGetComplete
  | beforeDocCommitted => SimpleTransaction.beforeDocCommitted
  | beforeStagedInsert => SimpleTransaction.beforeStagedInsert
  | beforeStagedReplace => SimpleTransaction.beforeStagedReplace
  | beforeStagedRemove => SimpleTransaction.beforeStagedRemove
  | beforeDocRemoved => SimpleTransaction.beforeDocRemoved
  | beforeDocRolledBack => SimpleTransaction.beforeDocRolledBack

/-- The mock that the transaction runs with; where nothing is put in, a hook lets everything pass. -/
def mockHooks (operation docId : String) (fail : Bool) (place : Place) : Hook :=
  if operation = place.operation then place.hook docId fail else fun first _ => (.just, first)

/-! ## The rule -/

/-- The flag after some calls, from the start -/
def firstAfter (hook : Hook) (calls : List String) : Bool :=
  run (fun first id => (hook first id).2) true calls

/-- What the hook answers to a call after the calls before it -/
def answer (hook : Hook) (before : List String) (id : String) : Mono := (hook (firstAfter hook before) id).1

/-- It fails for the document, without `fail` the first time only, and for no other one. -/
def FollowsRule (hook : Hook) (docId : String) (fail : Bool) (calls : List String) : Prop :=
  ∀ before id after, calls = before ++ id :: after →
    (answer hook before id = .error ↔ id = docId ∧ (fail = true ∨ docId ∉ before))

variable {docId : String} {fail : Bool} {calls : List String}

/-- The flag is cleared by the first call for the document. -/
theorem firstAfter_afterStagedInsertComplete (before : List String) :
    firstAfter (afterStagedInsertComplete docId false) before = true ↔ docId ∉ before := by
  have general : ∀ first, run (fun first id => (afterStagedInsertComplete docId false first id).2) first before = true ↔
      first = true ∧ docId ∉ before := by
    induction before with
    | nil => simp
    | cons id before ih =>
      intro first
      rw [run_cons, ih, List.mem_cons]
      by_cases same : id = docId
      · cases first <;> simp [afterStagedInsertComplete, same]
      · simp [afterStagedInsertComplete, same, Ne.symm same]
  exact (general true).trans (by simp)

theorem afterStagedInsertComplete_follows : FollowsRule (afterStagedInsertComplete docId fail) docId fail calls := by
  intro before id after _
  cases fail with
  | true => by_cases same : id = docId <;> simp [answer, afterStagedInsertComplete, same]
  | false =>
    rw [answer, ← firstAfter_afterStagedInsertComplete]
    generalize firstAfter (afterStagedInsertComplete docId false) before = first
    by_cases same : id = docId <;> cases first <;> simp [afterStagedInsertComplete, same]

theorem unbracedHook_fails_iff (first : Bool) (id : String) :
    (unbracedHook docId fail first id).1 = .error ↔ fail = true ∧ id = docId := by
  cases fail <;> by_cases same : id = docId <;> simp [unbracedHook, same]

/-- Without `fail` nothing ever fails, which is right only if the document is never asked for. -/
theorem unbracedHook_follows_iff :
    FollowsRule (unbracedHook docId fail) docId fail calls ↔ fail = true ∨ docId ∉ calls := by
  constructor
  · intro follows
    cases fail with
    | true => exact .inl rfl
    | false =>
      refine .inr fun asked => ?_
      obtain ⟨before, after, same, earlier⟩ := List.eq_append_cons_of_mem asked
      have fails := (follows before docId after same).mpr ⟨rfl, .inr earlier⟩
      rw [answer, unbracedHook_fails_iff] at fails
      cases fails.1
  · intro either before id after same
    rw [answer, unbracedHook_fails_iff]
    rcases either with rfl | absent
    · simp
    · have other : id ≠ docId := by
        rintro rfl
        exact absent (by simp [same])
      simp [other]

/-- Ten of the eleven hooks do nothing without `fail`. -/
theorem mockHooks_follow_iff (place : Place) (docId : String) (fail : Bool) (calls : List String) :
    FollowsRule (mockHooks place.operation docId fail place) docId fail calls ↔
      place = .afterStagedInsertComplete ∨ fail = true ∨ docId ∉ calls := by
  rw [mockHooks, if_pos rfl]
  cases place with
  | afterStagedInsertComplete => exact iff_of_true afterStagedInsertComplete_follows (.inl rfl)
  | _ => exact unbracedHook_follows_iff.trans (by simp)

/-- A document that is staged for a replacement is never made to fail once. -/
theorem replace_never_fails :
    ¬ FollowsRule (mockHooks "afterStagedReplaceComplete" "d" false .afterStagedReplaceComplete) "d" false ["d"] := by
  intro follows
  have fails := (follows [] "d" [] rfl).mpr ⟨rfl, .inr (by simp)⟩
  exact absurd fails (by decide)

end Taf.SimpleTransaction
