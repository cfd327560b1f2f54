import Taf.Tasks.Task

/-! # Waiting for a bucket statistic

`StatsWaitTask` polls the sum of a statistic over the nodes of a bucket until it has
the expected value or the timeout is over.  A poll goes over the nodes again when one
of them fails, up to ten times, but it does not start its sum afresh: what the failed
passes have added stays in it.  After ten failed passes the sum of their parts is
compared all the same. -/

namespace Taf.Stats

open Taf.Tasks

/-- What the nodes answer in a poll, by pass and node: the statistic or an exception. -/
structure Poll where
  answers : Nat → Nat → Except Raised Int
  -- The pass is over before the timeout.
  inTime : Nat → Bool

/-- A wait.  `polls` are those that start before the timeout (each of them takes at least
    a five second sleep, so there are finitely many), `late` says whether the clock is past the
    timeout when it is read again behind the loop, after so many polls. -/
structure Wait where
  polls : List Poll
  late : Nat → Bool

section

variable (interp : Interpreter) (servers : Nat)

/-- One pass over the nodes: the sum so far, and the exception that cut it short. -/
def passSum (answers : Nat → Except Raised Int) : List Nat → Int → Int × Option Raised
  | [], sum => (sum, none)
  | server :: rest, sum =>
    match answers server with
    | .ok value => passSum answers rest (sum + value)
    | .error raised => (sum, some raised)

/-- The `while retry > 0` loop of `_get_all_stats_and_compare`: `stat_result` when it is left, or the
    exception that `except Exception` does not match. -/
def statResult (poll : Poll) : Nat → Nat → Int → Except Raised Int
  | 0, _, sum => .ok sum
  | retry + 1, pass, sum =>
    match passSum (poll.answers pass) (List.range servers) sum with
    | (sum, none) => .ok sum
    | (sum, some raised) =>
      -- `set_exception` is behind `if retry > 0: continue`, so it is never reached
      if interp.exceptException raised then statResult poll retry (pass + 1) sum
      else .error raised

/-- `_compare('==', str(stat_result), value)`: a negative sum is not all digits. -/
def compare (value sum : Int) : Bool := 0 ≤ sum && sum == value

inductive PollEnd where
  | raised
  | ready
  | notReady
  deriving DecidableEq

def pollEnd (value : Int) (poll : Poll) : PollEnd :=
  match statResult interp servers poll 10 0 0 with
  | .error _ => .raised
  | .ok sum => if compare value sum then .ready else .notReady

/-- The end of a task behind its loop: past the timeout it raises, ready or not. -/
def afterLoop (late : Bool) : TaskEnd := if late then .raised else .returned

/-- `StatsWaitTask.call` after `done` polls. -/
def callFrom (value : Int) (late : Nat → Bool) : Nat → List Poll → TaskEnd
  | done, [] => afterLoop (late done)
  | done, poll :: polls =>
    match pollEnd interp servers value poll with
    | .raised => .raised
    | .ready => afterLoop (late (done + 1))
    | .notReady => callFrom value late (done + 1) polls

def StatsWaitTask.call (value : Int) (wait : Wait) : TaskEnd :=
  callFrom interp servers value wait.late 0 wait.polls

/-! ## What a wait has seen -/

/-- The polls that are made: the last one is ready or raises, or the time is over. -/
def madePolls (value : Int) : List Poll → List Poll
  | [] => []
  | poll :: polls =>
    if pollEnd interp servers value poll = .notReady then poll :: madePolls value polls
    else [poll]

/-- The pass of a poll in which no node fails, with its own sum, if the poll gets to one. -/
def completePass (poll : Poll) : Nat → Nat → Option (Nat × Int)
  | 0, _ => none
  | retry + 1, pass =>
    match passSum (poll.answers pass) (List.range servers) 0 with
    | (sum, none) => some (pass, sum)
    | (_, some raised) =>
      if interp.exceptException raised then completePass poll retry (pass + 1) else none

/-- What the failed passes of a poll add to its sum. -/
def leftover (poll : Poll) : Nat → Nat → Int
  | 0, _ => 0
  | retry + 1, pass =>
    match passSum (poll.answers pass) (List.range servers) 0 with
    | (_, none) => 0
    | (sum, some raised) =>
      if interp.exceptException raised then sum + leftover poll retry (pass + 1) else sum

/-- Within the timeout, a pass over all nodes gives the sum. -/
def Gives (poll : Poll) (sum : Int) : Prop :=
  ∃ pass, completePass interp servers poll 10 0 = some (pass, sum) ∧ poll.inTime pass = true

/-- At some moment of the wait the nodes have the expected sum. -/
def Seen (value : Int) (wait : Wait) : Prop :=
  ∃ poll ∈ madePolls interp servers value wait.polls, Gives interp servers poll value

end

section

variable {interp : Interpreter} {servers : Nat}

theorem passSum_eq_add (answers : Nat → Except Raised Int) (nodes : List Nat) (sum : Int) :
    passSum answers nodes sum =
      (sum + (passSum answers nodes 0).1, (passSum answers nodes 0).2) := by
  induction nodes generalizing sum with
  | nil => simp [passSum]
  | cons server nodes ih =>
    simp only [passSum]
    cases answers server with
    | error raised => simp
    | ok value =>
      simp only [Int.zero_add]
      rw [ih (sum + value), ih value, Int.add_assoc]

/-- The sum that a poll compares: the complete pass, and all that failed before it. -/
theorem statResult_eq_ok {poll : Poll} {retry pass : Nat} {sum result : Int}
    (compared : statResult interp servers poll retry pass sum = .ok result) :
    result = sum + leftover interp servers poll retry pass +
      ((completePass interp servers poll retry pass).map Prod.snd).getD 0 := by
  induction retry generalizing pass sum with
  | zero =>
    cases compared
    simp [leftover, completePass]
  | succ retry ih =>
    unfold statResult at compared
    rw [passSum_eq_add] at compared
    unfold leftover completePass
    rcases passed : passSum (poll.answers pass) (List.range servers) 0 with ⟨part, _ | raised⟩
    · simp only [passed, Except.ok.injEq] at compared
      simp [← compared]
    · simp only [passed] at compared ⊢
      split_ifs at compared ⊢ with caught
      rw [ih compared]
      omega

end

end Taf.Stats
