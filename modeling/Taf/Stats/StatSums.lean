import Taf.Stats.StatsWait
import Taf.Lib.PyJson

/-! # The sums that a statistic is compared by

`StatsWaitTask._get_all_stats_and_compare` and `_get_checkpoint_stats_and_compare` go over the servers
until none of them fails, ten or five times.  Each server answers with a dictionary, and its values are
added to one sum that no new pass starts afresh. -/

namespace Taf.Stats

open Taf.Tasks Taf.Lib

/-! ## The answers of a server -/

inductive StatValue where
  | int (value : Int)
  | text (value : String)

/-- What the server adds to the sum of `_get_all_stats_and_compare`: without the statistic there is a
    `KeyError`, and a text that is no number is a `ValueError`. -/
def allStat (stat : String) (answer : Except Raised (AList fun _ : String => String)) : Except Raised Int := do
  let temStat ← answer
  match temStat.lookup stat with
  | none => .error .exception
  | some text =>
    match PyJson.parseInt text with
    | none => .error .exception
    | some value => .ok value

/-- `node_stat_val` over the vBuckets of a server; a text cannot be added. -/
def nodeStatVal (stat : String) (answer : Except Raised (AList fun _ : Int => AList fun _ : String => StatValue)) :
    Except Raised Int := do
  let temStat ← answer
  temStat.entries.foldlM (fun nodeStatVal vb =>
    match vb.2.lookup stat with
    | some (.int value) => .ok (nodeStatVal + value)
    | _ => .error .exception) 0

/-! ## The comparison -/

inductive Comparison where
  | equal | notEqual | lessThan | lessThanEq | greaterThan | greaterThanEq

def Comparison.holds {β : Type} [LinearOrder β] : Comparison → β → β → Bool
  | .equal, a, b => a == b
  | .notEqual, a, b => a != b
  | .lessThan, a, b => a < b
  | .lessThanEq, a, b => a ≤ b
  | .greaterThan, a, b => a > b
  | .greaterThanEq, a, b => a ≥ b

/-- `self.value`; what is neither a number nor a text is compared with the text of the sum somehow. -/
inductive Expected where
  | int (value : Int)
  | text (value : String)
  | other (holds : Comparison → String → Bool)

/-- `_compare(cmp_type, str(stat_result), value)`: the text of a negative sum is not all digits. -/
def Comparison.compare (cmpType : Comparison) (statResult : Int) : Expected → Bool
  | .int value => 0 ≤ statResult && cmpType.holds statResult value
  | .text value => cmpType.holds (toString statResult) value
  | .other holds => holds cmpType (toString statResult)

section

variable (interp : Interpreter) (servers : Nat)

/-- `Ready`: the loop is left with a sum that satisfies the comparison. -/
def stops (answers : Nat → Nat → Except Raised Int) (retry : Nat) (cmpType : Comparison) (value : Expected) : Bool :=
  match statResult interp servers ⟨answers, fun _ => true⟩ retry 0 0 with
  | .error _ => false
  | .ok sum => cmpType.compare sum value

def getAllStatsAndCompare (stat : String)
    (answers : Nat → Nat → Except Raised (AList fun _ : String => String)) : Comparison → Expected → Bool :=
  stops interp servers (fun pass server => allStat stat (answers pass server)) 10

def getCheckpointStatsAndCompare (stat : String)
    (answers : Nat → Nat → Except Raised (AList fun _ : Int => AList fun _ : String => StatValue)) :
    Comparison → Expected → Bool :=
  stops interp servers (fun pass server => nodeStatVal stat (answers pass server)) 5

/-! ## Sums of one pass -/

/-- Where the task is ready, a pass in which every server answers has a sum that satisfies the comparison. -/
def ComparesPass (answers : Nat → Nat → Except Raised Int) (retry : Nat)
    (ready : Comparison → Expected → Bool) : Prop := ∀ cmpType value, ready cmpType value = true →
  ∃ pass sum, completePass interp servers ⟨answers, fun _ => true⟩ retry 0 = some (pass, sum) ∧
    cmpType.compare sum value = true

/-- A pass raises something that `except Exception` does not match. -/
def escapes (answers : Nat → Nat → Except Raised Int) : Nat → Nat → Bool
  | 0, _ => false
  | retry + 1, pass =>
    match passSum (answers pass) (List.range servers) 0 with
    | (_, none) => false
    | (_, some raised) => if interp.exceptException raised then escapes answers retry (pass + 1) else true

/-- An exception gets out, or some pass is complete and the aborted ones add up to nothing. -/
def CleanPasses (answers : Nat → Nat → Except Raised Int) (retry : Nat) : Prop :=
  escapes interp servers answers retry 0 = true ∨
    ((completePass interp servers ⟨answers, fun _ => true⟩ retry 0).isSome ∧
      leftover interp servers ⟨answers, fun _ => true⟩ retry 0 = 0)

variable {interp servers}

theorem escapes_iff {answers : Nat → Nat → Except Raised Int} {retry pass : Nat} {sum : Int} :
    escapes interp servers answers retry pass = true ↔
      ∃ raised, statResult interp servers ⟨answers, fun _ => true⟩ retry pass sum = .error raised := by
  induction retry generalizing pass sum with
  | zero => simp [escapes, statResult]
  | succ retry ih =>
    have shift := passSum_eq_add (answers pass) (List.range servers) sum
    rw [escapes, statResult]
    simp only [shift]
    rcases passSum (answers pass) (List.range servers) 0 with ⟨part, _ | raised⟩
    · simp
    · by_cases caught : interp.exceptException raised = true
      · simp only [caught, if_true]
        exact ih
      · simp [caught]

/-- Different sums are told apart by some comparison. -/
theorem exists_compare {sum other : Int} (apart : sum ≠ other) :
    ∃ value, Comparison.equal.compare sum value = true ∧ Comparison.equal.compare other value = false := by
  refine ⟨.text (toString sum), ?_, ?_⟩
  · simp [Comparison.compare, Comparison.holds]
  · simp [Comparison.compare, Comparison.holds, Ne.symm apart]

theorem comparesPass_iff (answers : Nat → Nat → Except Raised Int) (retry : Nat) :
    ComparesPass interp servers answers retry (stops interp servers answers retry) ↔
      CleanPasses interp servers answers retry := by
  have raises := @escapes_iff interp servers answers retry 0 0
  rw [ComparesPass, CleanPasses, raises]
  simp only [stops]
  cases left : statResult interp servers ⟨answers, fun _ => true⟩ retry 0 0 with
  | error raised => simp
  | ok result =>
    have parts := statResult_eq_ok left
    cases complete : completePass interp servers ⟨answers, fun _ => true⟩ retry 0 with
    | none =>
      -- No sum is one of a pass, but the task is ready for what the aborted ones have added up to.
      refine iff_of_false ?_ (by simp)
      intro fine
      obtain ⟨_, _, none, _⟩ := fine .equal (.text (toString result)) (by simp [Comparison.compare, Comparison.holds])
      cases none
    | some found =>
      obtain ⟨pass, sum⟩ := found
      rw [complete] at parts
      have shifted : result = leftover interp servers ⟨answers, fun _ => true⟩ retry 0 + sum := by
        simpa using parts
      constructor
      · intro fine
        refine Or.inr ⟨rfl, ?_⟩
        by_contra more
        obtain ⟨value, ready, unequal⟩ := @exists_compare result sum (by omega)
        obtain ⟨_, _, same, satisfied⟩ := fine .equal value ready
        obtain ⟨rfl, rfl⟩ := Prod.mk.inj (Option.some_inj.mp same)
        rw [unequal] at satisfied
        cases satisfied
      · intro clean cmpType value ready
        rcases clean with ⟨_, impossible⟩ | ⟨_, nothing⟩
        · cases impossible
        · obtain rfl : result = sum := by omega
          exact ⟨pass, result, rfl, ready⟩

/-- Both functions compare sums of single passes exactly if what aborted passes have answered adds up to
    nothing and some pass is complete, or an exception gets out. -/
theorem stat_sums_iff (interp : Interpreter) (servers : Nat) (stat : String)
    (all : Nat → Nat → Except Raised (AList fun _ : String => String))
    (checkpoint : Nat → Nat → Except Raised (AList fun _ : Int => AList fun _ : String => StatValue)) :
    (ComparesPass interp servers (fun pass server => allStat stat (all pass server)) 10
        (getAllStatsAndCompare interp servers stat all) ↔
      CleanPasses interp servers (fun pass server => allStat stat (all pass server)) 10) ∧
    (ComparesPass interp servers (fun pass server => nodeStatVal stat (checkpoint pass server)) 5
        (getCheckpointStatsAndCompare interp servers stat checkpoint) ↔
      CleanPasses interp servers (fun pass server => nodeStatVal stat (checkpoint pass server)) 5) :=
  ⟨comparesPass_iff _ 10, comparesPass_iff _ 5⟩

/-- The second of two servers fails in the first pass. -/
def oneAbort (pass server : Nat) : Except Raised (AList fun _ : String => String) :=
  if pass = 0 ∧ server = 1 then .error .exception else .ok ((∅ : AList _).insert "curr_items_tot" "50")

theorem oneAbort_counted_twice : ¬ ComparesPass ⟨true⟩ 2
    (fun pass server => allStat "curr_items_tot" (oneAbort pass server)) 10
    (getAllStatsAndCompare ⟨true⟩ 2 "curr_items_tot" oneAbort) := by
  rw [getAllStatsAndCompare, comparesPass_iff]
  intro clean
  rcases clean with caught | ⟨_, nothing⟩
  · exact absurd caught (by decide)
  · exact absurd nothing (by decide)

end

end Taf.Stats
