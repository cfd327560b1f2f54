import Mathlib

/-! # Monitoring an active task

`MonitorActiveTask.call` finds a task by type and target in the list of the server, and `check` polls
the list until the task has reached a progress or is no longer listed.  It compares whole entries, their
progress included. -/

namespace Taf.MonitorActiveTask

/-- `self.type` and what it looks for: an indexer has no target key. -/
inductive Kind where
  | indexer | bucketCompaction | viewCompaction
  deriving DecidableEq

def Kind.text : Kind → String
  | .indexer => "indexer"
  | .bucketCompaction => "bucket_compaction"
  | .viewCompaction => "view_compaction"

/-- An entry of the list: the target is that of the type, `details` are all other fields. -/
structure ActiveTask (τ π δ : Type) where
  type : String
  target : τ
  progress : π
  details : δ
  deriving DecidableEq

variable {τ π δ : Type} [DecidableEq τ] [LinearOrder π] [DecidableEq δ]

structure Args (τ π : Type) where
  kind : Kind
  targetValue : τ
  waitProgress : π
  numIterations : ℕ
  waitTask : Bool

/-- The polls that have been made, and what `check` keeps from one to the next -/
structure State (π : Type) where
  polls : ℕ
  currentProgress : π
  currentIter : ℕ
  result : Bool

namespace Args

variable (args : Args τ π)

/-- The test of `call` for an entry -/
def isWanted (task : ActiveTask τ π δ) : Bool :=
  task.type = args.kind.text ∧ (args.kind = .indexer ∨ task.target = args.targetValue)

/-- The loop of `call`: the last entry that fits is kept, and whether some entry was done already. -/
def find (tasks : List (ActiveTask τ π δ)) : Option (ActiveTask τ π δ) × Bool :=
  tasks.foldl (fun found task =>
    if args.isWanted task then (some task, found.2 || args.waitProgress ≤ task.progress) else found) (none, false)

/-- The loop of `check` over a list; `again` is the call of itself. -/
def visit (self : ActiveTask τ π δ) (again : State π → Option (State π)) :
    List (ActiveTask τ π δ) → State π → Option (State π)
  | [], state => some state
  | task :: tasks, state =>
    if task = self then
      if task.progress ≥ args.waitProgress then some { state with result := true }
      else if task.progress > state.currentProgress then do
        let state ← again { state with currentProgress := task.progress, currentIter := 0 }
        visit self again tasks state
      else if task.progress = state.currentProgress then
        if state.currentIter < args.numIterations then do
          let state ← again { state with currentIter := state.currentIter + 1 }
          visit self again tasks state
        else some { state with result := false }
      else some { state with result := false }
    else visit self again tasks state

/-- `check`, with so many polls at most; `none` is a check that has not ended by then. -/
def check (self : ActiveTask τ π δ) (lists : ℕ → List (ActiveTask τ π δ)) : ℕ → State π → Option (State π)
  | 0, _ => none
  | fuel + 1, state =>
    let tasks := lists state.polls
    let state := { state with polls := state.polls + 1 }
    if self ∈ tasks then args.visit self (check self lists fuel) tasks state
    else some { state with result := true }

/-- `call`: the result in the end -/
def call (lists : ℕ → List (ActiveTask τ π δ)) (fuel : ℕ) : Option Bool :=
  match args.find (lists 0) with
  | (none, _) => some true
  | (some task, done) =>
    if args.waitTask then (args.check task lists fuel ⟨1, task.progress, 0, done⟩).map State.result
    else some true

end Args

/-- A task that is monitored: the list of `call` has its entry, and no list has more than one entry with
    its type and target. -/
structure Monitoring (τ π δ : Type) [DecidableEq τ] [LinearOrder π] [DecidableEq δ] where
  args : Args τ π
  lists : ℕ → List (ActiveTask τ π δ)
  task : ActiveTask τ π δ
  found : (args.find (lists 0)).1 = some task
  alone : ∀ n, ((lists n).filter fun other => other.type = task.type ∧ other.target = task.target).length ≤ 1

namespace Monitoring

variable (m : Monitoring τ π δ)

/-- The entry of the task in a list -/
def entry (n : ℕ) : Option (ActiveTask τ π δ) :=
  (m.lists n).find? fun other => other.type = m.task.type ∧ other.target = m.task.target

/-- The state in which `call` leaves the task to `check` -/
def start : State π := ⟨1, m.task.progress, 0, (m.args.find (m.lists 0)).2⟩

def runCheck (fuel : ℕ) : Option (State π) := m.args.check m.task m.lists fuel m.start

/-- `call` leaves a task that it has found to `check`, if it is to wait for it. -/
theorem call_eq (fuel : ℕ) : m.args.call m.lists fuel =
    if m.args.waitTask then (m.runCheck fuel).map State.result else some true := by
  have found := m.found
  rcases first : m.args.find (m.lists 0) with ⟨task, done⟩
  rw [first] at found
  simp only [Args.call, runCheck, start, first, show task = some m.task from found]

/-! ## The documented rule -/

/-- The task has reached the progress in this list, or is not listed. -/
def Over (n : ℕ) : Prop := ∀ entry, m.entry n = some entry → m.args.waitProgress ≤ entry.progress

/-- The progress in this list is less than the one before. -/
def Backwards (n : ℕ) : Prop :=
  ∃ before now, m.entry n = some before ∧ m.entry (n + 1) = some now ∧ now.progress < before.progress

/-- The progress in this list is that of so many lists before. -/
def Stalled (n : ℕ) : Prop := m.args.numIterations < n ∧ ∃ now, m.entry n = some now ∧
  ∀ k ≤ m.args.numIterations + 1, ∃ before, m.entry (n - k) = some before ∧ before.progress = now.progress

/-- `check` ends with `True` only if the task is over in some list so far, and with `False` if, before that,
    its progress went backwards or stayed unchanged for more than `num_iterations` polls. -/
def FollowsRule : Prop :=
  (∀ fuel last, m.runCheck fuel = some last → last.result = true → ∃ n < last.polls, m.Over n) ∧
    ∀ n, (∀ k ≤ n + 1, ¬ m.Over k) → m.Backwards n ∨ m.Stalled (n + 1) →
      ∃ fuel last, m.runCheck fuel = some last ∧ last.result = false

/-- The task has reached the progress when it is found, or the first of the next `num_iterations + 1` lists
    that has another entry for it than `call` has found shows that it is over. -/
def OverWhenChanged : Prop := m.Over 0 ∨ ∀ n ≤ m.args.numIterations,
  (∀ k ≤ n, m.entry k = some m.task) → m.entry (n + 1) = some m.task ∨ m.Over (n + 1)

/-! ## The entries of the task -/

variable {m}

theorem mem_lists_iff (n : ℕ) : m.task ∈ m.lists n ↔ m.entry n = some m.task := by
  have wanted : ∀ other, m.entry n = some other →
      other ∈ (m.lists n).filter fun other => other.type = m.task.type ∧ other.target = m.task.target := by
    intro other found
    rw [entry] at found
    have fits := @List.find?_some _ _ _ _ found
    exact List.mem_filter.mpr ⟨List.mem_of_find?_eq_some found, fits⟩
  constructor
  · intro member
    have own : m.task ∈ (m.lists n).filter fun other => other.type = m.task.type ∧ other.target = m.task.target :=
      List.mem_filter.mpr ⟨member, by simp⟩
    cases found : m.entry n with
    | none => exact absurd (List.find?_eq_none.mp found m.task member) (by simp)
    | some other =>
      have alone := m.alone n
      obtain ⟨first, single⟩ := List.length_eq_one_iff.mp
        (Nat.le_antisymm alone (List.length_pos_of_mem own))
      have listed := wanted other found
      rw [single, List.mem_singleton] at own listed
      rw [own, listed]
  · intro found
    exact List.mem_of_find?_eq_some found

/-- The task that `call` has found is in its list. -/
theorem entry_zero : m.entry 0 = some m.task := by
  rw [← mem_lists_iff]
  have general (tasks : List (ActiveTask τ π δ)) (found : Option (ActiveTask τ π δ) × Bool) (task : ActiveTask τ π δ)
      (ended : (tasks.foldl (fun found task => if m.args.isWanted task then
        (some task, found.2 || m.args.waitProgress ≤ task.progress) else found) found).1 = some task) :
      task ∈ tasks ∨ found.1 = some task := by
    induction tasks generalizing found with
    | nil => exact Or.inr ended
    | cons first tasks ih =>
      rcases ih _ ended with later | now
      · exact Or.inl (List.mem_cons_of_mem first later)
      · beta_reduce at now
        by_cases wanted : m.args.isWanted first
        · rw [if_pos wanted] at now
          exact Or.inl (by simp [Option.some_inj.mp now])
        · rw [if_neg wanted] at now
          exact Or.inr now
  exact (general _ (none, false) m.task m.found).resolve_right (by simp)

theorem exists_split {n : ℕ} (member : m.task ∈ m.lists n) :
    ∃ before after, m.lists n = before ++ m.task :: after ∧ m.task ∉ before ∧ m.task ∉ after := by
  obtain ⟨before, after, split⟩ := List.append_of_mem member
  have alone := m.alone n
  rw [split, List.filter_append, List.filter_cons_of_pos (by simp), List.length_append, List.length_cons] at alone
  have none (rest : List (ActiveTask τ π δ))
      (empty : (rest.filter fun other => other.type = m.task.type ∧ other.target = m.task.target).length = 0) :
      m.task ∉ rest := by
    intro inside
    have own : m.task ∈ rest.filter fun other => other.type = m.task.type ∧ other.target = m.task.target :=
      List.mem_filter.mpr ⟨inside, by simp⟩
    rw [List.length_eq_zero_iff.mp empty] at own
    cases own
  exact ⟨before, after, split, none before (by omega), none after (by omega)⟩

/-! ## One poll -/

theorem visit_absent {again : State π → Option (State π)} {tasks : List (ActiveTask τ π δ)}
    (absent : m.task ∉ tasks) (state : State π) : m.args.visit m.task again tasks state = some state := by
  induction tasks with
  | nil => rfl
  | cons task tasks ih =>
    rw [List.mem_cons, not_or] at absent
    rw [Args.visit, if_neg (Ne.symm absent.1), ih absent.2]

/-- The loop over a list gets to the entry of the task, and finds no other one after it. -/
theorem exists_visit {n : ℕ} (member : m.task ∈ m.lists n) : ∃ after, m.task ∉ after ∧
    ∀ (again : State π → Option (State π)) state,
      m.args.visit m.task again (m.lists n) state = m.args.visit m.task again (m.task :: after) state := by
  obtain ⟨before, after, split, first, rest⟩ := exists_split member
  refine ⟨after, rest, fun again state => ?_⟩
  rw [split]
  clear split
  induction before with
  | nil => rfl
  | cons task before ih =>
    rw [List.mem_cons, not_or] at first
    rw [List.cons_append, Args.visit, if_neg (Ne.symm first.1), ih first.2]

/-- An entry that is unchanged counts as a stall: nothing else of `check` is ever reached. -/
theorem visit_unchanged {again : State π → Option (State π)} {n : ℕ} (member : m.task ∈ m.lists n)
    (below : m.task.progress < m.args.waitProgress) {state : State π}
    (current : state.currentProgress = m.task.progress) :
    m.args.visit m.task again (m.lists n) state =
      if state.currentIter < m.args.numIterations then again { state with currentIter := state.currentIter + 1 }
      else some { state with result := false } := by
  obtain ⟨after, rest, visited⟩ := exists_visit member
  rw [visited, Args.visit, if_pos rfl, if_neg (not_le.mpr below), if_neg (by rw [current]; exact lt_irrefl _),
    if_pos current.symm]
  split
  · cases again { state with currentIter := state.currentIter + 1 } with
    | none => rfl
    | some next => exact visit_absent rest next
  · rfl

/-! ## The whole check -/

/-- The state after so many polls with an unchanged entry -/
def waiting (m : Monitoring τ π δ) (n : ℕ) : State π := ⟨n + 1, m.task.progress, n, m.start.result⟩

theorem check_changed {n fuel : ℕ} (changed : m.entry (n + 1) ≠ some m.task) :
    m.args.check m.task m.lists (fuel + 1) (m.waiting n) =
      some { m.waiting n with polls := n + 2, result := true } := by
  have absent : m.task ∉ m.lists (n + 1) := fun member => changed ((mem_lists_iff (n + 1)).mp member)
  rw [Args.check]
  exact if_neg absent

theorem check_unchanged {n fuel : ℕ} (below : m.task.progress < m.args.waitProgress)
    (unchanged : m.entry (n + 1) = some m.task) : m.args.check m.task m.lists (fuel + 1) (m.waiting n) =
      if n < m.args.numIterations then m.args.check m.task m.lists fuel (m.waiting (n + 1))
      else some { m.waiting n with polls := n + 2, result := false } := by
  have member : m.task ∈ m.lists (n + 1) := (mem_lists_iff (n + 1)).mpr unchanged
  rw [Args.check]
  show (if m.task ∈ m.lists (n + 1) then _ else _) = _
  rw [if_pos member]
  exact visit_unchanged member below rfl

/-- From a state of waiting on, the check fails when no list of the next ones differs, and passes at the
    first that does. -/
theorem check_cases (below : m.task.progress < m.args.waitProgress) (fuel : ℕ) {n : ℕ}
    (small : n ≤ m.args.numIterations) {last : State π}
    (ended : m.args.check m.task m.lists fuel (m.waiting n) = some last) :
    (last.result = false ∧ ∀ k, n < k → k ≤ m.args.numIterations + 1 → m.entry k = some m.task) ∨
      ∃ d, n ≤ d ∧ d ≤ m.args.numIterations ∧ (∀ k, n < k → k ≤ d → m.entry k = some m.task) ∧
        m.entry (d + 1) ≠ some m.task ∧ last.result = true ∧ last.polls = d + 2 := by
  induction fuel generalizing n with
  | zero => cases ended
  | succ fuel ih =>
    by_cases unchanged : m.entry (n + 1) = some m.task
    · rw [check_unchanged below unchanged] at ended
      have here {k : ℕ} (later : n < k) (rest : n + 1 < k → m.entry k = some m.task) :
          m.entry k = some m.task := by
        by_cases next : k = n + 1
        · rw [next, unchanged]
        · exact rest (by omega)
      by_cases more : n < m.args.numIterations
      · rw [if_pos more] at ended
        cases ih more ended with
        | inl failed => exact Or.inl ⟨failed.1, fun k later upTo => here later fun far => failed.2 k far upTo⟩
        | inr passed =>
          obtain ⟨d, far, within, same, changed, result⟩ := passed
          exact Or.inr ⟨d, by omega, within, fun k later upTo => here later fun far => same k far upTo,
            changed, result⟩
      · rw [if_neg more, Option.some_inj] at ended
        rw [← ended]
        exact Or.inl ⟨rfl, fun k later upTo => here later fun far => by omega⟩
    · rw [check_changed unchanged, Option.some_inj] at ended
      rw [← ended]
      exact Or.inr ⟨n, le_refl n, small, fun k later upTo => by omega, unchanged, rfl, rfl⟩

/-- The check ends after `num_iterations + 1` polls at the latest. -/
theorem exists_check (below : m.task.progress < m.args.waitProgress) {n : ℕ} (small : n ≤ m.args.numIterations) :
    ∃ fuel last, m.args.check m.task m.lists fuel (m.waiting n) = some last := by
  -- by induction on the polls that are left
  induction left : m.args.numIterations - n generalizing n with
  | zero =>
    by_cases unchanged : m.entry (n + 1) = some m.task
    · exact ⟨1, _, (check_unchanged below unchanged).trans (if_neg (by omega))⟩
    · exact ⟨1, _, check_changed unchanged⟩
  | succ left' ih =>
    by_cases unchanged : m.entry (n + 1) = some m.task
    · obtain ⟨fuel, last, ended⟩ := ih (show n + 1 ≤ m.args.numIterations by omega) (by omega)
      exact ⟨fuel + 1, last, ((check_unchanged below unchanged).trans (if_pos (by omega))).trans ended⟩
    · exact ⟨1, _, check_changed unchanged⟩

/-! ## When the rule is followed -/

theorem over_of_reached (reached : m.args.waitProgress ≤ m.task.progress) : m.Over 0 := by
  intro entry listed
  rw [entry_zero, Option.some_inj] at listed
  rw [← listed]
  exact reached

theorem not_over_of_unchanged {n : ℕ} (below : m.task.progress < m.args.waitProgress)
    (unchanged : m.entry n = some m.task) : ¬ m.Over n := by
  intro done
  exact not_le.mpr below (done m.task unchanged)

/-- A task that is found with its progress reached is over, and the check ends with the first poll. -/
theorem polls_of_reached (reached : m.args.waitProgress ≤ m.task.progress) {fuel : ℕ} {last : State π}
    (ended : m.runCheck fuel = some last) : last.polls = 2 := by
  cases fuel with
  | zero => cases ended
  | succ fuel =>
    rw [runCheck, Args.check] at ended
    by_cases member : m.task ∈ m.lists 1
    · obtain ⟨after, _, visited⟩ := exists_visit member
      have result := (visited _ _).symm.trans ((if_pos member).symm.trans ended)
      rw [Args.visit, if_pos rfl, if_pos reached, Option.some_inj] at result
      rw [← result]
      rfl
    · have result := (if_neg member).symm.trans ended
      rw [← Option.some_inj.mp result]
      rfl

theorem followsRule_of_reached (reached : m.args.waitProgress ≤ m.task.progress) : m.FollowsRule := by
  constructor
  · intro fuel last ended _
    exact ⟨0, by rw [polls_of_reached reached ended]; exact Nat.two_pos, over_of_reached reached⟩
  · intro n notOver
    exact absurd (over_of_reached reached) (notOver 0 (Nat.zero_le _))

/-- With an unchanged entry the progress neither goes backwards nor stalls too soon. -/
theorem not_backwards {n : ℕ} (before : m.entry n = some m.task) (now : m.entry (n + 1) = some m.task) :
    ¬ m.Backwards n := by
  intro backwards
  obtain ⟨first, second, isFirst, isSecond, less⟩ := backwards
  rw [before, Option.some_inj] at isFirst
  rw [now, Option.some_inj] at isSecond
  rw [← isFirst, ← isSecond] at less
  exact lt_irrefl _ less

/-- The first list with another entry is the one that `check` ends with. -/
theorem followsRule_of_unchanged_until {d : ℕ} (within : d ≤ m.args.numIterations)
    (same : ∀ k ≤ d, m.entry k = some m.task) (done : m.Over (d + 1))
    (polls : ∀ fuel last, m.runCheck fuel = some last → last.polls = d + 2) : m.FollowsRule := by
  constructor
  · intro fuel last ended _
    exact ⟨d + 1, by rw [polls fuel last ended]; exact Nat.lt_succ_self _, done⟩
  · intro n notOver wrong
    have early : n + 1 ≤ d := by
      by_contra late
      exact notOver (d + 1) (by omega) done
    cases wrong with
    | inl backwards => exact absurd backwards (not_backwards (same n (by omega)) (same (n + 1) early))
    | inr stalled => exact absurd stalled.1 (by omega)

/-- Only one list is the first with another entry. -/
theorem eq_of_first_change {d d' : ℕ} (same : ∀ k, 0 < k → k ≤ d → m.entry k = some m.task)
    (changed : m.entry (d + 1) ≠ some m.task) (same' : ∀ k, 0 < k → k ≤ d' → m.entry k = some m.task)
    (changed' : m.entry (d' + 1) ≠ some m.task) : d = d' := by
  by_contra other
  cases Nat.lt_or_gt_of_ne other with
  | inl less => exact changed (same' (d + 1) (Nat.succ_pos d) less)
  | inr more => exact changed' (same (d' + 1) (Nat.succ_pos d') more)

theorem overWhenChanged_of_follows (below : m.task.progress < m.args.waitProgress) (follows : m.FollowsRule) :
    m.OverWhenChanged := by
  apply Or.inr
  intro n within same
  by_contra neither
  rw [not_or] at neither
  obtain ⟨fuel, last, ended⟩ := exists_check below (Nat.zero_le m.args.numIterations)
  cases check_cases below fuel (Nat.zero_le _) ended with
  | inl failed => exact neither.1 (failed.2 (n + 1) (Nat.succ_pos n) (by omega))
  | inr passed =>
    obtain ⟨d, _, _, upTo, changed, result, polls⟩ := passed
    obtain ⟨k, early, done⟩ := follows.1 fuel last ended result
    -- no list before that of `n` is one of a task that is over
    have first := eq_of_first_change upTo changed (fun k _ small => same k small) neither.1
    by_cases final : k = n + 1
    · exact neither.2 (final ▸ done)
    · exact not_over_of_unchanged below (same k (by omega)) done

theorem follows_of_overWhenChanged (below : m.task.progress < m.args.waitProgress) (condition : m.OverWhenChanged) :
    m.FollowsRule := by
  have changes := condition.resolve_left (not_over_of_unchanged below entry_zero)
  obtain ⟨fuel, last, ended⟩ := exists_check below (Nat.zero_le m.args.numIterations)
  cases check_cases below fuel (Nat.zero_le _) ended with
  | inl failed =>
    constructor
    · intro fuel' last' ended' result
      cases check_cases below fuel' (Nat.zero_le _) ended' with
      | inl failed' => rw [failed'.1] at result; cases result
      | inr passed =>
        obtain ⟨d, _, within, _, changed, _⟩ := passed
        exact absurd (failed.2 (d + 1) (Nat.succ_pos d) (by omega)) changed
    · intro n _ _
      exact ⟨fuel, last, ended, failed.1⟩
  | inr passed =>
    obtain ⟨d, _, within, upTo, changed, _⟩ := passed
    have same : ∀ k ≤ d, m.entry k = some m.task := by
      intro k small
      cases k with
      | zero => exact entry_zero
      | succ k => exact upTo (k + 1) (Nat.succ_pos k) small
    have done := (changes d within same).resolve_left changed
    apply followsRule_of_unchanged_until within same done
    intro fuel' last' ended'
    cases check_cases below fuel' (Nat.zero_le _) ended' with
    | inl failed => exact absurd (failed.2 (d + 1) (Nat.succ_pos d) (by omega)) changed
    | inr passed' =>
      obtain ⟨d', _, _, upTo', changed', _, polls⟩ := passed'
      rw [polls, eq_of_first_change upTo' changed' upTo changed]

/-- `check` follows the documented rule exactly if the entry first changes to one of a task that is over: an entry
    with any other progress is not the one it looks for, and it takes the task for completed. -/
theorem followsRule_iff_overWhenChanged (m : Monitoring τ π δ) : m.FollowsRule ↔ m.OverWhenChanged := by
  cases le_or_gt m.args.waitProgress m.task.progress with
  | inl reached => exact iff_of_true (followsRule_of_reached reached) (Or.inl (over_of_reached reached))
  | inr below => exact ⟨overWhenChanged_of_follows below, follows_of_overWhenChanged below⟩

/-- A compaction that has got from 10 to 20 percent, and goes on -/
def advancing : Monitoring String ℕ Unit where
  args := ⟨.bucketCompaction, "default", 100, 100, true⟩
  lists := fun n => [⟨"bucket_compaction", "default", if n = 0 then 10 else 20, ()⟩]
  task := ⟨"bucket_compaction", "default", 10, ()⟩
  found := by decide
  alone := fun _ => List.length_filter_le _ _

theorem advancing_entry (n : ℕ) :
    advancing.entry n = some ⟨"bucket_compaction", "default", if n = 0 then 10 else 20, ()⟩ := by
  simp [entry, advancing]

/-- Its check passes with the first poll, although no list is one of a task that is over. -/
theorem progress_taken_for_end : ¬ advancing.FollowsRule := by
  intro follows
  obtain ⟨n, _, done⟩ := follows.1 1 _ rfl rfl
  have reached : 100 ≤ if n = 0 then 10 else 20 := done _ (advancing_entry n)
  split at reached <;> omega

end Monitoring

end Taf.MonitorActiveTask
