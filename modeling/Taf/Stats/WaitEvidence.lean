import Taf.Lib.Waiting
import Taf.Stats.StatsWait

/-! # What the answers of the nodes make of a wait

A pass over the nodes is answered by all of them, or cut short by the first one that raises.  A poll is
some passes that are cut short, ten at most, and then one that all nodes answer or an exception that
`except Exception` lets through.  The sum that it compares has the items of all of them.  So a wait may
end on a sum that the nodes never had, and it may pass by the one they had. -/

namespace Taf.Stats

open Taf.Lib Taf.Tasks

section

variable (interp : Interpreter) (servers : Nat)

/-! ## The passes of a poll -/

/-- The answers of the nodes in a pass -/
def Poll.nodes (poll : Poll) (pass : Nat) : List (Except Raised Int) :=
  (List.range servers).map (poll.answers pass)

/-- A node raises, and those before it have answered. -/
def Stops (poll : Poll) (pass : Nat) (items : List Int) (raised : Raised) : Prop :=
  ∃ rest, poll.nodes servers pass = items.map .ok ++ .error raised :: rest

/-- A pass is cut short by an exception that is caught. -/
def Cut (poll : Poll) (pass : Nat) (items : List Int) : Prop :=
  ∃ raised, Stops servers poll pass items raised ∧ interp.exceptException raised = true

/-- The passes from one on are cut short, with these items. -/
def Cuts (poll : Poll) (pass : Nat) (cuts : List (List Int)) : Prop :=
  List.Forall₂ (Cut interp servers poll) (List.range' pass cuts.length) cuts

/-- All ten passes are cut short. -/
def Exhausted (poll : Poll) (cuts : List (List Int)) : Prop :=
  cuts.length = 10 ∧ Cuts interp servers poll 0 cuts

/-- All nodes answer in the pass behind those that are cut short. -/
def Answered (poll : Poll) (cuts : List (List Int)) (items : List Int) : Prop :=
  cuts.length < 10 ∧ Cuts interp servers poll 0 cuts ∧ poll.nodes servers cuts.length = items.map .ok

/-- Behind the passes that are cut short, a node raises what is not caught. -/
def Breaks (poll : Poll) : Prop :=
  ∃ cuts items raised, cuts.length < 10 ∧ Cuts interp servers poll 0 cuts ∧
    Stops servers poll cuts.length items raised ∧ interp.exceptException raised = false

/-! ## What a poll makes of its passes -/

/-- The items of all passes of a poll have the sum. -/
def AddsUp (poll : Poll) (sum : Int) : Prop :=
  (∃ cuts, Exhausted interp servers poll cuts ∧ cuts.flatten.sum = sum) ∨
    ∃ cuts items, Answered interp servers poll cuts items ∧ cuts.flatten.sum + items.sum = sum

/-- A sum is compared as text and has to be all digits. -/
def GoesOn (value : Int) (poll : Poll) : Prop :=
  ∃ sum, AddsUp interp servers poll sum ∧ (value < 0 ∨ sum ≠ value)

/-- In a poll that goes on, the nodes have the value, and the passes cut short hide it. -/
def Hides (value : Int) (poll : Poll) : Prop :=
  ∃ cuts items, Answered interp servers poll cuts items ∧ items.sum = value ∧
    poll.inTime cuts.length = true

/-- The value comes about only by what the passes cut short have left, or too late. -/
def Deceives (value : Int) (poll : Poll) : Prop :=
  0 ≤ value ∧
    ((∃ cuts, Exhausted interp servers poll cuts ∧ cuts.flatten.sum = value) ∨
      ∃ cuts items, Answered interp servers poll cuts items ∧ cuts.flatten.sum + items.sum = value ∧
        (cuts.flatten.sum ≠ 0 ∨ poll.inTime cuts.length = false))

/-! ## What a wait makes of its polls -/

/-- The polls go on, and the clock is past the timeout behind them or behind the one with the value, or
    one lets an exception out. -/
def Expires (value : Int) (wait : Wait) : Prop :=
  StopsAt (GoesOn interp servers value) (fun done => wait.late done = true)
    (fun done poll => Breaks interp servers poll ∨
      (0 ≤ value ∧ AddsUp interp servers poll value ∧ wait.late (done + 1) = true)) wait.polls

/-- The polls go on and hide nothing, until the time is over or a poll deceives or lets an exception out. -/
def Misled (value : Int) (wait : Wait) : Prop :=
  StopsAt (fun poll => GoesOn interp servers value poll ∧ ¬ Hides interp servers value poll) (fun _ => True)
    (fun _ poll => Breaks interp servers poll ∨ Deceives interp servers value poll) wait.polls

end

section

variable {interp : Interpreter} {servers : Nat} {poll : Poll} {pass : Nat} {items : List Int}
  {cuts : List (List Int)} {value : Int}

/-! ## One pass -/

theorem passSum_answered {answers : Nat → Except Raised Int} {nodes : List Nat}
    (answered : nodes.map answers = items.map .ok) (sum : Int) :
    passSum answers nodes sum = (sum + items.sum, none) := by
  induction items generalizing nodes sum with
  | nil =>
    rw [List.map_nil, List.map_eq_nil_iff] at answered
    simp [answered, passSum]
  | cons item items ih =>
    obtain ⟨node, nodes, rfl, first, rest⟩ := List.map_eq_cons_iff.mp answered
    rw [passSum, first]
    simp only
    rw [ih rest, List.sum_cons, Int.add_assoc]

theorem passSum_stopped {answers : Nat → Except Raised Int} {nodes : List Nat} {raised : Raised}
    {rest : List (Except Raised Int)}
    (stopped : nodes.map answers = items.map .ok ++ .error raised :: rest) (sum : Int) :
    passSum answers nodes sum = (sum + items.sum, some raised) := by
  induction items generalizing nodes sum with
  | nil =>
    obtain ⟨node, nodes, rfl, first, -⟩ := List.map_eq_cons_iff.mp stopped
    simp [passSum, first]
  | cons item items ih =>
    obtain ⟨node, nodes, rfl, first, rest⟩ := List.map_eq_cons_iff.mp stopped
    rw [passSum, first]
    simp only
    rw [ih rest, List.sum_cons, Int.add_assoc]

/-- The nodes answer, or one of them is the first to raise. -/
theorem answered_or_stops (answers : List (Except Raised Int)) :
    (∃ items : List Int, answers = items.map .ok) ∨
      ∃ (items : List Int) (raised : Raised) (rest : List (Except Raised Int)),
        answers = items.map .ok ++ .error raised :: rest := by
  induction answers with
  | nil => exact .inl ⟨[], rfl⟩
  | cons answer answers ih =>
    cases answer with
    | error raised => exact .inr ⟨[], raised, answers, rfl⟩
    | ok item =>
      obtain ⟨items, rfl⟩ | ⟨items, raised, rest, rfl⟩ := ih
      · exact .inl ⟨item :: items, rfl⟩
      · exact .inr ⟨item :: items, raised, rest, rfl⟩

theorem cuts_cons : Cuts interp servers poll pass (items :: cuts) ↔
    Cut interp servers poll pass items ∧ Cuts interp servers poll (pass + 1) cuts := by
  rw [Cuts, List.length_cons, List.range'_succ, List.forall₂_cons]
  rfl

/-! ## The course of a poll -/

/-- What is cut short leaves its items in the sum. -/
theorem statResult_cuts (all : Cuts interp servers poll pass cuts) (retry : Nat) (sum : Int) :
    statResult interp servers poll (cuts.length + retry) pass sum =
      statResult interp servers poll retry (pass + cuts.length) (sum + cuts.flatten.sum) := by
  induction cuts generalizing pass sum with
  | nil => simp
  | cons items cuts ih =>
    obtain ⟨⟨raised, ⟨rest, stopped⟩, caught⟩, all⟩ := cuts_cons.mp all
    rw [List.length_cons, Nat.add_right_comm, statResult, passSum_stopped stopped]
    simp only [caught, if_true]
    rw [ih all, List.flatten_cons, List.sum_append, Int.add_assoc, Nat.add_assoc, Nat.add_comm 1]

theorem completePass_cuts (all : Cuts interp servers poll pass cuts) (retry : Nat) :
    completePass interp servers poll (cuts.length + retry) pass =
      completePass interp servers poll retry (pass + cuts.length) := by
  induction cuts generalizing pass with
  | nil => simp
  | cons items cuts ih =>
    obtain ⟨⟨raised, ⟨rest, stopped⟩, caught⟩, all⟩ := cuts_cons.mp all
    rw [List.length_cons, Nat.add_right_comm, completePass, passSum_stopped stopped]
    simp only [caught, if_true]
    rw [ih all, Nat.add_assoc, Nat.add_comm 1]

theorem exists_cuts (interp : Interpreter) (servers : Nat) (poll : Poll) (retry pass : Nat) :
    ∃ cuts, Cuts interp servers poll pass cuts ∧
      (cuts.length = retry ∨ (cuts.length < retry ∧
        ((∃ items : List Int, poll.nodes servers (pass + cuts.length) = items.map .ok) ∨
          ∃ items raised, Stops servers poll (pass + cuts.length) items raised ∧
            interp.exceptException raised = false))) := by
  induction retry generalizing pass with
  | zero => exact ⟨[], .nil, .inl rfl⟩
  | succ retry ih =>
    obtain ⟨items, answered⟩ | ⟨items, raised, rest, stopped⟩ :=
      answered_or_stops (poll.nodes servers pass)
    · exact ⟨[], .nil, .inr ⟨Nat.succ_pos retry, .inl ⟨items, answered⟩⟩⟩
    · cases caught : interp.exceptException raised with
      | false => exact ⟨[], .nil, .inr ⟨Nat.succ_pos retry, .inr ⟨items, raised, ⟨rest, stopped⟩, caught⟩⟩⟩
      | true =>
        obtain ⟨cuts, all, ending⟩ := ih (pass + 1)
        refine ⟨items :: cuts, cuts_cons.mpr ⟨⟨raised, ⟨rest, stopped⟩, caught⟩, all⟩, ?_⟩
        rw [List.length_cons, Nat.add_left_inj, Nat.add_lt_add_iff_right]
        rw [Nat.add_assoc, Nat.add_comm 1] at ending
        exact ending

/-- A poll uses up its passes, gets one answered, or breaks off. -/
theorem poll_cases (interp : Interpreter) (servers : Nat) (poll : Poll) :
    (∃ cuts, Exhausted interp servers poll cuts) ∨ (∃ cuts items, Answered interp servers poll cuts items) ∨
      Breaks interp servers poll := by
  obtain ⟨cuts, all, used | ⟨fewer, ending⟩⟩ := exists_cuts interp servers poll 10 0
  · exact .inl ⟨cuts, used, all⟩
  · rw [Nat.zero_add] at ending
    obtain ⟨items, answered⟩ | ⟨items, raised, stopped, escapes⟩ := ending
    · exact .inr (.inl ⟨cuts, items, fewer, all, answered⟩)
    · exact .inr (.inr ⟨cuts, items, raised, fewer, all, stopped, escapes⟩)

/-- Ten retries, seen from behind the passes that are cut short -/
theorem retries_left (fewer : cuts.length < 10) : ∃ retry, 10 = cuts.length + (retry + 1) := by
  obtain ⟨retry, left⟩ := Nat.exists_eq_add_of_lt fewer
  exact ⟨retry, by rw [left, Nat.add_assoc]⟩

theorem Exhausted.course (exhausted : Exhausted interp servers poll cuts) :
    statResult interp servers poll 10 0 0 = .ok cuts.flatten.sum ∧
      completePass interp servers poll 10 0 = none := by
  obtain ⟨used, all⟩ := exhausted
  have course := statResult_cuts all 0 0
  have complete := completePass_cuts all 0
  rw [Nat.add_zero, used] at course complete
  rw [course, complete]
  simp [statResult, completePass]

theorem Answered.course (answered : Answered interp servers poll cuts items) :
    statResult interp servers poll 10 0 0 = .ok (cuts.flatten.sum + items.sum) ∧
      completePass interp servers poll 10 0 = some (cuts.length, items.sum) := by
  obtain ⟨fewer, all, nodes⟩ := answered
  obtain ⟨retry, left⟩ := retries_left fewer
  rw [left, statResult_cuts all, completePass_cuts all, statResult, completePass, Nat.zero_add,
    passSum_answered nodes, passSum_answered nodes]
  simp

theorem Breaks.course (breaks : Breaks interp servers poll) :
    (∃ raised, statResult interp servers poll 10 0 0 = .error raised) ∧
      completePass interp servers poll 10 0 = none := by
  obtain ⟨cuts, items, raised, fewer, all, ⟨rest, stopped⟩, escapes⟩ := breaks
  obtain ⟨retry, left⟩ := retries_left fewer
  rw [left, statResult_cuts all, completePass_cuts all, statResult, completePass, Nat.zero_add,
    passSum_stopped stopped, passSum_stopped stopped]
  simp [escapes]

theorem AddsUp.compared {sum : Int} (adds : AddsUp interp servers poll sum) :
    statResult interp servers poll 10 0 0 = .ok sum := by
  obtain ⟨cuts, exhausted, rfl⟩ | ⟨cuts, items, answered, rfl⟩ := adds
  · exact exhausted.course.1
  · exact answered.course.1

theorem breaks_or_addsUp (interp : Interpreter) (servers : Nat) (poll : Poll) :
    Breaks interp servers poll ∨ ∃ sum, AddsUp interp servers poll sum := by
  obtain ⟨cuts, exhausted⟩ | ⟨cuts, items, answered⟩ | breaks := poll_cases interp servers poll
  · exact .inr ⟨_, .inl ⟨cuts, exhausted, rfl⟩⟩
  · exact .inr ⟨_, .inr ⟨cuts, items, answered, rfl⟩⟩
  · exact .inl breaks

/-! ## The end of a poll -/

theorem AddsUp.pollEnd {sum : Int} (adds : AddsUp interp servers poll sum) :
    pollEnd interp servers value poll = if 0 ≤ value ∧ sum = value then .ready else .notReady := by
  have same : (0 ≤ sum ∧ sum = value) ↔ (0 ≤ value ∧ sum = value) :=
    and_congr_left fun equal => by rw [equal]
  simp only [Stats.pollEnd, adds.compared, compare, Bool.and_eq_true, decide_eq_true_eq, beq_iff_eq, same]

theorem pollEnd_eq_raised_iff : pollEnd interp servers value poll = .raised ↔ Breaks interp servers poll := by
  constructor
  · intro ended
    obtain breaks | ⟨sum, adds⟩ := breaks_or_addsUp interp servers poll
    · exact breaks
    · rw [adds.pollEnd] at ended
      split_ifs at ended
  · intro breaks
    obtain ⟨raised, out⟩ := breaks.course.1
    rw [pollEnd, out]

theorem pollEnd_eq_ready_iff : pollEnd interp servers value poll = .ready ↔
    0 ≤ value ∧ AddsUp interp servers poll value := by
  constructor
  · intro ended
    obtain breaks | ⟨sum, adds⟩ := breaks_or_addsUp interp servers poll
    · rw [pollEnd_eq_raised_iff.mpr breaks] at ended
      cases ended
    · rw [adds.pollEnd] at ended
      split_ifs at ended with equal
      exact ⟨equal.1, equal.2 ▸ adds⟩
  · rintro ⟨natural, adds⟩
    rw [adds.pollEnd, if_pos ⟨natural, rfl⟩]

theorem pollEnd_eq_notReady_iff : pollEnd interp servers value poll = .notReady ↔
    GoesOn interp servers value poll := by
  have differs {sum : Int} : ¬(0 ≤ value ∧ sum = value) ↔ value < 0 ∨ sum ≠ value := by
    rw [not_and_or, not_le]
  constructor
  · intro ended
    obtain breaks | ⟨sum, adds⟩ := breaks_or_addsUp interp servers poll
    · rw [pollEnd_eq_raised_iff.mpr breaks] at ended
      cases ended
    · rw [adds.pollEnd] at ended
      split_ifs at ended with equal
      exact ⟨sum, adds, differs.mp equal⟩
  · rintro ⟨sum, adds, other⟩
    rw [adds.pollEnd, if_neg (differs.mpr other)]

/-! ## The sums that a poll gives -/

theorem gives_iff_hides : Gives interp servers poll value ↔ Hides interp servers value poll := by
  constructor
  · rintro ⟨pass, complete, inTime⟩
    obtain ⟨cuts, exhausted⟩ | ⟨cuts, items, answered⟩ | breaks := poll_cases interp servers poll
    · rw [exhausted.course.2] at complete
      cases complete
    · rw [answered.course.2] at complete
      cases complete
      exact ⟨cuts, items, answered, rfl, inTime⟩
    · rw [breaks.course.2] at complete
      cases complete
  · rintro ⟨cuts, items, answered, rfl, inTime⟩
    exact ⟨cuts.length, answered.course.2, inTime⟩

theorem not_gives_of_breaks (breaks : Breaks interp servers poll) : ¬ Gives interp servers poll value := by
  rintro ⟨pass, complete, -⟩
  rw [breaks.course.2] at complete
  cases complete

/-- A ready poll deceives exactly if its own pass does not have the value in time. -/
theorem deceives_iff_of_ready (natural : 0 ≤ value) (adds : AddsUp interp servers poll value) :
    Deceives interp servers value poll ↔ ¬ Gives interp servers poll value := by
  constructor
  · rintro ⟨-, ⟨cuts, exhausted, -⟩ | ⟨cuts, items, answered, sum, left⟩⟩ ⟨pass, complete, inTime⟩
    · rw [exhausted.course.2] at complete
      cases complete
    · rw [answered.course.2] at complete
      cases complete
      obtain more | late := left
      · omega
      · rw [late] at inTime
        cases inTime
  · intro silent
    refine ⟨natural, ?_⟩
    obtain ⟨cuts, exhausted, sum⟩ | ⟨cuts, items, answered, sum⟩ := adds
    · exact .inl ⟨cuts, exhausted, sum⟩
    · refine .inr ⟨cuts, items, answered, sum, ?_⟩
      by_contra fresh
      rw [not_or, not_not, Bool.not_eq_false] at fresh
      exact silent ⟨cuts.length, by rw [answered.course.2, ← sum, fresh.1, Int.zero_add], fresh.2⟩

/-! ## The end of a wait -/

theorem callFrom_eq_raised_iff {late : Nat → Bool} {polls : List Poll} {done : Nat} :
    callFrom interp servers value late done polls = .raised ↔
      StopsAt (GoesOn interp servers value) (fun more => late (done + more) = true)
        (fun more poll => Breaks interp servers poll ∨
          (0 ≤ value ∧ AddsUp interp servers poll value ∧ late (done + more + 1) = true)) polls := by
  induction polls generalizing done with
  | nil => simp [callFrom, afterLoop, stopsAt_nil]
  | cons poll polls ih =>
    rw [callFrom, stopsAt_cons]
    cases ended : pollEnd interp servers value poll with
    | raised =>
      simp [pollEnd_eq_raised_iff.mp ended]
    | ready =>
      have calm : ¬ Breaks interp servers poll := by
        rw [← @pollEnd_eq_raised_iff _ _ _ value, ended]
        exact nofun
      have stays : ¬ GoesOn interp servers value poll := by
        rw [← pollEnd_eq_notReady_iff, ended]
        exact nofun
      obtain ⟨natural, adds⟩ := pollEnd_eq_ready_iff.mp ended
      simp [calm, stays, natural, adds, afterLoop]
    | notReady =>
      have calm : ¬ Breaks interp servers poll := by
        rw [← @pollEnd_eq_raised_iff _ _ _ value, ended]
        exact nofun
      have unready : ¬(0 ≤ value ∧ AddsUp interp servers poll value) := by
        rw [← pollEnd_eq_ready_iff, ended]
        exact nofun
      have apart : ¬(0 ≤ value ∧ AddsUp interp servers poll value ∧ late (done + 0 + 1) = true) :=
        fun both => unready ⟨both.1, both.2.1⟩
      simp only [ih, calm, apart, pollEnd_eq_notReady_iff.mp ended, false_or, true_and, Nat.add_right_comm done 1]
      rfl

theorem expires_iff (wait : Wait) :
    Expires interp servers value wait ↔ StatsWaitTask.call interp servers value wait = .raised := by
  rw [StatsWaitTask.call, callFrom_eq_raised_iff]
  simp only [Nat.zero_add]
  rfl

theorem callFrom_ne_cancelled {late : Nat → Bool} {polls : List Poll} {done : Nat} :
    callFrom interp servers value late done polls ≠ .cancelled := by
  induction polls generalizing done with
  | nil =>
    unfold callFrom afterLoop
    split_ifs <;> simp
  | cons poll polls ih =>
    unfold callFrom
    cases pollEnd interp servers value poll with
    | raised => simp
    | ready =>
      unfold afterLoop
      simp only
      split_ifs <;> simp
    | notReady => exact ih

/-- Waiting for the task raises the Java exception of its future exactly if the wait expires. -/
theorem getTaskResult_call (interp : Interpreter) (servers : Nat) (value : Int) (wait : Wait) :
    (Expires interp servers value wait ∧
        getTaskResult (StatsWaitTask.call interp servers value wait) = .error .java) ∨
      (¬ Expires interp servers value wait ∧
        getTaskResult (StatsWaitTask.call interp servers value wait) = .ok ()) := by
  rw [expires_iff]
  cases ended : StatsWaitTask.call interp servers value wait with
  | returned => exact .inr ⟨nofun, rfl⟩
  | raised => exact .inl ⟨rfl, rfl⟩
  | cancelled => exact absurd ended callFrom_ne_cancelled

/-- The nodes have shown the sum in a poll that is made exactly if the wait is not misled. -/
theorem seen_iff_not_misled {wait : Wait} :
    Seen interp servers value wait ↔ ¬ Misled interp servers value wait := by
  unfold Seen Misled
  generalize wait.polls = polls
  induction polls with
  | nil => simp [madePolls, stopsAt_nil]
  | cons poll polls ih =>
    rw [stopsAt_cons, madePolls]
    obtain breaks | ⟨sum, adds⟩ := breaks_or_addsUp interp servers poll
    · rw [pollEnd_eq_raised_iff.mpr breaks]
      simp [breaks, not_gives_of_breaks breaks]
    · have calm : ¬ Breaks interp servers poll := by
        rw [← @pollEnd_eq_raised_iff _ _ _ value, adds.pollEnd]
        split_ifs <;> exact nofun
      by_cases ready : 0 ≤ value ∧ sum = value
      · obtain ⟨natural, rfl⟩ := ready
        have stays : ¬ GoesOn interp servers sum poll := by
          rw [← pollEnd_eq_notReady_iff, adds.pollEnd, if_pos ⟨natural, rfl⟩]
          exact nofun
        have ended : pollEnd interp servers sum poll = .ready := by rw [adds.pollEnd, if_pos ⟨natural, rfl⟩]
        rw [ended]
        simp [calm, stays, deceives_iff_of_ready natural adds]
      · have ended : pollEnd interp servers value poll = .notReady := by rw [adds.pollEnd, if_neg ready]
        have honest : ¬ Deceives interp servers value poll := by
          rintro ⟨natural, ⟨cuts, exhausted, same⟩ | ⟨cuts, items, answered, same, -⟩⟩
          · exact nomatch ended.symm.trans (pollEnd_eq_ready_iff.mpr ⟨natural, .inl ⟨cuts, exhausted, same⟩⟩)
          · exact nomatch ended.symm.trans (pollEnd_eq_ready_iff.mpr ⟨natural, .inr ⟨cuts, items, answered, same⟩⟩)
        simp only [ended, if_true, List.mem_cons, exists_eq_or_imp, calm, honest, false_or,
          pollEnd_eq_notReady_iff.mp ended, true_and]
        rw [ih, gives_iff_hides, not_and_or, not_not]

end

end Taf.Stats
