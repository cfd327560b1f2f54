import Taf.Loader.WorkLoadGenerate

/-! # Clients that a loader task takes from the pool and gives back

Every round of the main loop takes a client and gives it back, also on the way out after
a failed comparison.  The retry of failed mutations takes one client and gives it back
behind the loop over the results of one kind of operation, once for every kind. -/

namespace Taf.Loader

open Taf.Lib

/-! ## Retrying -/

inductive SdkException where
  | timeout
  | serverOutOfMemory
  | documentExists
  | documentNotFound
  | other
  deriving DecidableEq

/-- The `catch` clauses behind a label of the `switch`. -/
def caught (label : OpType) : SdkException → Bool
  | .timeout => true
  | .serverOutOfMemory => true
  | .documentExists => label != .delete
  | .documentNotFound => label == .delete
  | .other => false

/-- The labels that are gone through: no `case` ends with a `break`. -/
def switchLabels : OpType → List OpType
  | .create => [.create, .update, .delete]
  | .update => [.update, .delete]
  | .delete => [.delete]
  | .expiry => []
  | .read => []

/-- One result: whether it was removed from its list and whether no attempt ran into a timeout or
    a full server; `none` is an exception that is not caught. -/
def retryResult (labels : List OpType) (attempt : OpType → Option SdkException) :
    Option (Bool × Bool) :=
  labels.foldlM (fun (removed, fine) label =>
    match attempt label with
    | none => some (true, fine)
    | some e =>
      if caught label e then
        some (removed, fine && e != .timeout && e != .serverOutOfMemory)
      else none) (false, true)

/-- `for (Result r: optype.getValue())` with `left` results to go.  Behind a removal the iterator
    of the `ArrayList` ends if exactly one element was left, and throws otherwise. -/
def retryResults (labels : List OpType) (attempts : Nat → OpType → Option SdkException) :
    Nat → Nat → Option Bool
  | 0, _ => some true
  | left + 1, index =>
    match retryResult labels (attempts index) with
    | none => none
    | some (true, fine) => if left = 1 then some fine else none
    | some (false, fine) => (retryResults labels attempts left (index + 1)).map (fine && ·)

/-! ## The whole run -/

/-- What a task meets from its start to its end. -/
structure Environment where
  rounds : Nat → Round
  -- The order in which the hash map lists its keys.
  entryOrder : List OpType
  isOrder : entryOrder.Perm [.create, .update, .expiry, .delete]
  -- The attempt that is made for the result at an index, by kind and label.
  attempts : OpType → Nat → OpType → Option SdkException

inductive RunEnd where
  | returned
  | threw
  deriving DecidableEq

structure RunResult where
  ended : RunEnd
  result : Bool
  events : List PoolEvent
  deriving DecidableEq

namespace Environment

variable (env : Environment)

/-- The retry of one kind gets to its end; `some` is the verdict. -/
def retryKind (st : RunState) (op : OpType) : Option Bool :=
  retryResults (switchLabels op) (env.attempts op) (st.failedMutations op) 0

def entrySet (st : RunState) : List OpType :=
  env.entryOrder.filter fun op => 0 < st.failedMutations op

def retryEntries (st : RunState) : List OpType → Bool → List PoolEvent → RunResult
  | [], result, events => ⟨.returned, result, events⟩
  | op :: ops, result, events =>
    match env.retryKind st op with
    | none => ⟨.threw, result, events⟩
    | some fine => retryEntries st ops (result && fine) (events ++ [.release])

/-- `run` behind its main loop. -/
def afterLoop (retryTimes : Int32) : LoopEnd × RunState → RunResult
  | (.validationFailed, st) => ⟨.returned, false, st.events⟩
  | (.threw, st) => ⟨.threw, false, st.events⟩
  | (.left, st) =>
    if retryTimes > 0 ∧ env.entrySet st ≠ [] then
      env.retryEntries st (env.entrySet st) true (st.events ++ [.acquire])
    else ⟨.returned, true, st.events⟩

def run (ws : WorkLoadSettings) (trackFailures : Bool) (retryTimes : Int32) (fuel : Nat) :
    Option RunResult :=
  (mainLoop ws trackFailures env.rounds fuel 0 (.start ws)).map (env.afterLoop retryTimes)

end Environment

/-! ## Counting -/

/-- At no point more clients were given back than taken. -/
def NeverExceeds (events : List PoolEvent) : Prop :=
  ∀ before after, events = before ++ after → before.count .release ≤ before.count .acquire

structure RunResult.Balanced (r : RunResult) : Prop where
  neverExceeds : NeverExceeds r.events
  atReturn : r.ended = .returned → r.events.count .release = r.events.count .acquire

theorem neverExceeds_concat (events : List PoolEvent) (event : PoolEvent) :
    NeverExceeds (events ++ [event]) ↔
      NeverExceeds events ∧
        (events ++ [event]).count .release ≤ (events ++ [event]).count .acquire := by
  constructor
  · intro never
    refine ⟨?_, never (events ++ [event]) [] (List.append_nil _).symm⟩
    intro before after split
    exact never before (after ++ [event]) (by rw [split, List.append_assoc])
  · intro ⟨never, whole⟩ before after split
    by_cases last : after = []
    · rw [last, List.append_nil] at split
      rw [← split]
      exact whole
    · obtain ⟨rest, final, rfl⟩ := (List.eq_nil_or_concat after).resolve_left last
      rw [List.concat_eq_append, ← List.append_assoc] at split
      exact never before rest (List.append_inj' split rfl).1

theorem neverExceeds_nil : NeverExceeds [] := by
  intro before after split
  rw [(List.append_eq_nil_iff.mp split.symm).1]
  simp

/-- All clients that were taken have been given back. -/
structure Settled (events : List PoolEvent) : Prop where
  never : NeverExceeds events
  even : events.count .release = events.count .acquire

theorem Settled.acquire {events : List PoolEvent} (settled : Settled events) :
    NeverExceeds (events ++ [.acquire]) := by
  rw [neverExceeds_concat]
  simp [settled.never, settled.even]

theorem Settled.round {events : List PoolEvent} (settled : Settled events) :
    Settled (events ++ [.acquire] ++ [.release]) where
  never := by
    rw [neverExceeds_concat]
    simp [settled.acquire, settled.even]
  even := by simp [settled.even]

/-- A client is taken, and given back `released` times. -/
theorem Settled.neverExceeds_iff {events : List PoolEvent} (settled : Settled events)
    (released : Nat) :
    NeverExceeds (events ++ [.acquire] ++ List.replicate released .release) ↔ released ≤ 1 := by
  induction released with
  | zero =>
    rw [List.replicate_zero, List.append_nil]
    simp [settled.acquire]
  | succ released ih =>
    rw [List.replicate_succ', ← List.append_assoc, neverExceeds_concat, ih]
    simp [List.count_append, List.count_replicate, settled.even]
    omega

/-! ## The main loop -/

/-- The loop ends with all its clients given back, unless it is left by an exception. -/
theorem mainLoop_events {ws : WorkLoadSettings} {trackFailures : Bool} {rounds : Nat → Round}
    {fuel n : Nat} {st : RunState} {ended : LoopEnd × RunState} (settled : Settled st.events)
    (returned : mainLoop ws trackFailures rounds fuel n st = some ended) :
    NeverExceeds ended.2.events ∧ (ended.1 ≠ .threw → Settled ended.2.events) := by
  induction fuel generalizing n st with
  | zero => cases returned
  | succ fuel ih =>
    by_cases stopped : (rounds n).stop = true
    · rw [mainLoop_stop stopped] at returned
      cases returned
      exact ⟨settled.never, fun _ => settled⟩
    cases passed : opOrder.foldlM (runOp ws trackFailures (rounds n)) (st.event .acquire) with
    | error aborted =>
      rw [mainLoop_error stopped passed] at returned
      cases returned
      obtain ⟨_, kind, events⟩ | ⟨_, kind, events⟩ := round_aborted passed
      · rw [events, kind]
        exact ⟨settled.acquire, by simp⟩
      · rw [events]
        exact ⟨settled.round.never, fun _ => settled.round⟩
    | ok done =>
      have events : done.events = st.events ++ [.acquire] := round_events passed
      have afterRound : Settled (done.event .release).events := by
        rw [RunState.event_events, events]
        exact settled.round
      rw [mainLoop_ok stopped passed] at returned
      split at returned
      · cases returned
        exact ⟨afterRound.never, fun _ => afterRound⟩
      split at returned
      · refine ih ?_ returned
        exact afterRound
      · refine ih ?_ returned
        exact afterRound

/-! ## The retry -/

namespace Environment

variable {env : Environment} {st : RunState}

/-- The client is given back once for every kind up to the first one that throws. -/
theorem retryEntries_events (ops : List OpType) (result : Bool) (events : List PoolEvent) :
    (env.retryEntries st ops result events).events =
        events ++ List.replicate (ops.takeWhile fun op => (env.retryKind st op).isSome).length
          .release ∧
      ((env.retryEntries st ops result events).ended = .returned →
        ops.takeWhile (fun op => (env.retryKind st op).isSome) = ops) := by
  induction ops generalizing result events with
  | nil => simp [retryEntries]
  | cons op ops ih =>
    cases outcome : env.retryKind st op with
    | none => simp [retryEntries, outcome]
    | some fine =>
      obtain ⟨trace, all⟩ := ih (result && fine) (events ++ [.release])
      have kept : (op :: ops).takeWhile (fun op => (env.retryKind st op).isSome) =
          op :: ops.takeWhile fun op => (env.retryKind st op).isSome := by
        simp [outcome]
      simp only [retryEntries, outcome, kept, List.length_cons]
      refine ⟨?_, ?_⟩
      · rw [trace, List.append_assoc, List.replicate_succ, List.singleton_append]
      · intro returned
        rw [all returned]

/-- The retry goes through at least two kinds. -/
def RetriesTwoKinds (env : Environment) (retryTimes : Int32) (ended : LoopEnd × RunState) : Prop :=
  ended.1 = .left ∧ retryTimes > 0 ∧ ∃ first second rest,
    env.entrySet ended.2 = first :: second :: rest ∧
      (env.retryKind ended.2 first).isSome ∧ (env.retryKind ended.2 second).isSome

/-- A prefix of kinds that come to their end, cut at two. -/
theorem takeWhile_length_le_one {α : Type*} {p : α → Bool} {kinds : List α} :
    (kinds.takeWhile p).length ≤ 1 ↔
      ¬ ∃ first second rest, kinds = first :: second :: rest ∧ p first ∧ p second := by
  match kinds with
  | [] => simp
  | [only] => cases holds : p only <;> simp [holds]
  | first :: second :: rest =>
    cases firstHolds : p first <;> cases secondHolds : p second <;> simp [firstHolds, secondHolds]

theorem afterLoop_balanced {retryTimes : Int32} {ended : LoopEnd × RunState}
    (never : NeverExceeds ended.2.events) (settled : ended.1 ≠ .threw → Settled ended.2.events) :
    (env.afterLoop retryTimes ended).Balanced ↔ ¬ env.RetriesTwoKinds retryTimes ended := by
  obtain ⟨kind, st⟩ := ended
  cases kind with
  | validationFailed =>
    have settled := settled (by simp)
    exact iff_of_true ⟨never, fun _ => settled.even⟩ (by simp [RetriesTwoKinds])
  | threw => exact iff_of_true ⟨never, by simp [afterLoop]⟩ (by simp [RetriesTwoKinds])
  | left =>
    have settled := settled (by simp)
    by_cases retries : retryTimes > 0 ∧ env.entrySet st ≠ []
    · have entered : env.afterLoop retryTimes (.left, st) =
          env.retryEntries st (env.entrySet st) true (st.events ++ [.acquire]) := if_pos retries
      obtain ⟨trace, all⟩ :=
        @retryEntries_events env st (env.entrySet st) true (st.events ++ [.acquire])
      have bounded := settled.neverExceeds_iff
        ((env.entrySet st).takeWhile fun op => (env.retryKind st op).isSome).length
      have few : ((env.entrySet st).takeWhile fun op => (env.retryKind st op).isSome).length ≤ 1 ↔
          ¬ env.RetriesTwoKinds retryTimes (.left, st) := by
        rw [takeWhile_length_le_one]
        simp [RetriesTwoKinds, retries.1]
      rw [entered, ← few]
      constructor
      · intro balanced
        exact bounded.mp (trace ▸ balanced.neverExceeds)
      · intro one
        refine ⟨trace ▸ bounded.mpr one, ?_⟩
        intro returned
        have some : 0 < (env.entrySet st).length := List.length_pos_iff.mpr retries.2
        rw [all returned] at one trace
        have exactlyOne : (env.entrySet st).length = 1 := by omega
        rw [trace, exactlyOne]
        simp [settled.even]
    · have skipped : env.afterLoop retryTimes (.left, st) = ⟨.returned, true, st.events⟩ :=
        if_neg retries
      rw [skipped]
      refine iff_of_true ⟨never, fun _ => settled.even⟩ ?_
      intro ⟨_, positive, first, second, rest, entries, _⟩
      exact retries ⟨positive, by rw [entries]; simp⟩

/-- A run is balanced exactly if its retry does not come to the end of a second kind. -/
theorem run_balanced_iff {ws : WorkLoadSettings} {trackFailures : Bool} {retryTimes : Int32}
    {fuel : Nat} {ended : LoopEnd × RunState}
    (looped : mainLoop ws trackFailures env.rounds fuel 0 (.start ws) = some ended) :
    ∃ r, env.run ws trackFailures retryTimes fuel = some r ∧
      (r.Balanced ↔ ¬ env.RetriesTwoKinds retryTimes ended) := by
  obtain ⟨never, settled⟩ := mainLoop_events ⟨neverExceeds_nil, rfl⟩ looped
  refine ⟨env.afterLoop retryTimes ended, ?_, afterLoop_balanced never settled⟩
  rw [run, looped, Option.map_some]

/-- One create and one update fail in the first round, and every retry runs into a timeout. -/
def twoFailures : Environment where
  rounds n := if n = 0 then { failures := fun _ => 1 } else {}
  entryOrder := [.create, .update, .expiry, .delete]
  isOrder := List.Perm.refl _
  attempts := fun _ _ _ => some .timeout

/-- Two creates and two updates, all in one batch. -/
def mixedLoad : WorkLoadSettings :=
  { workers := 1
    ops := 4
    percent := fun op => if op = .create ∨ op = .update then 50 else 0
    dr := { e := fun op => if op = .create ∨ op = .update then 2 else 0 } }

theorem twoFailures_balanced_iff : ∃ ended,
    mainLoop mixedLoad true twoFailures.rounds 2 0 (.start mixedLoad) = some ended ∧
      ∃ r, twoFailures.run mixedLoad true 1 2 = some r ∧
        (r.Balanced ↔ ¬ twoFailures.RetriesTwoKinds 1 ended) := by
  have ends : (mainLoop mixedLoad true twoFailures.rounds 2 0 (.start mixedLoad)).isSome := by
    decide
  obtain ⟨ended, looped⟩ := Option.isSome_iff_exists.mp ends
  exact ⟨ended, looped, run_balanced_iff looped⟩

theorem twoFailures_run : twoFailures.run mixedLoad true 1 2 =
    some ⟨.returned, false,
      [.acquire, .release, .acquire, .release, .acquire, .release, .release]⟩ := by
  decide

/-- The retry of the create and of the update both give back the one client that was taken. -/
theorem twoFailures_not_balanced :
    ¬ ∀ (env : Environment) (ws : WorkLoadSettings) (trackFailures : Bool) (retryTimes : Int32)
      (fuel : Nat) (r : RunResult), env.run ws trackFailures retryTimes fuel = some r →
        r.Balanced := by
  intro always
  have balanced := always _ _ _ _ _ _ twoFailures_run
  exact absurd (balanced.atReturn rfl) (by decide)

end Environment

end Taf.Loader
