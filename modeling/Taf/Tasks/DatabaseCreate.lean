import Taf.Lib.Run
import Taf.Tasks.Task

/-! # The creation of a serverless database

`DatabaseCreateTask.call` creates the database, generates its keys and waits for its SRV record.  The retries of
the keys are counted in the wrong direction, so that only a success ends them. -/

namespace Taf.Tasks.DatabaseCreate

open Taf.Lib Taf.Tasks

structure SrvRecord where
  target : String
  port : ℕ
  deriving DecidableEq

/-- The fields of `TestInputServer` that are set -/
structure Server where
  ip : String
  memcachedPort : ℕ
  restUsername : String
  restPassword : String
  port : String
  deriving DecidableEq

/-- The task, with what its requests give -/
structure DatabaseCreateTask where
  -- The name of the database
  createServerlessDatabase : Except Raised String
  isDatabaseReady : Except Raised String
  isProdEnv : Bool
  dataplaneId : Except Raised String
  -- By the number of the attempt
  generateKeys : ℕ → Except Raised (String × String)
  allowMyIp : ℕ → Except Raised Unit
  nebulaEndpoint : Except Raised String
  -- The records of the lookups, in their order; `None` has none.
  lookup : ℕ → Except Raised (List SrvRecord)
  -- `random.choice`
  choice : List SrvRecord → SrvRecord
  -- The nebula object, the DAPI and the servers of the bucket
  updateNebula : Server → Except Raised Unit

/-- How `call` is left, and how often it has tried -/
structure CallEnd where
  result : Bool
  server : Option Server
  keyAttempts : ℕ
  lookups : ℕ
  -- What the `except Exception` has not caught
  escaped : Bool
  deriving DecidableEq

namespace DatabaseCreateTask

variable (interp : Interpreter) (task : DatabaseCreateTask)

/-- Up to the check of the state: the state and the dataplane -/
def create : Except Raised (String × String) := do
  let _ ← task.createServerlessDatabase
  let state ← task.isDatabaseReady
  let dpId ← if task.isProdEnv then pure "production_env" else task.dataplaneId
  pure (state, dpId)

def attempt (k : ℕ) : Except Raised (String × String) := do
  let keys ← task.generateKeys k
  task.allowMyIp k
  pure keys

/-- The retries of the keys, with `count` and the attempts made, for some rounds; `none` is out of rounds. -/
def keysLoop : ℕ → ℤ → ℕ → Option (Except Raised (String × String) × ℕ)
  | 0, _, _ => none
  | fuel + 1, count, made =>
    if count > 0 then
      match task.attempt made with
      | .ok keys => some (.ok keys, made + 1)
      | .error e =>
        -- `count -= -1`
        if interp.exceptException e then keysLoop fuel (count - -1) (made + 1) else some (.error e, made + 1)
    -- RBAC role creation failed
    else some (.error .exception, made)

/-- The lookups with `count` left, and those made; no records if all of them fail -/
def lookupLoop : ℕ → ℕ → Except Raised (Option (List SrvRecord)) × ℕ
  | 0, made => (.ok none, made)
  | count + 1, made =>
    match task.lookup made with
    | .error e => (.error e, made + 1)
    | .ok records => if records ≠ [] then (.ok (some records), made + 1) else lookupLoop count (made + 1)

def serverOf (keys : String × String) (record : SrvRecord) : Server where
  ip := String.ofList (record.target.toList.rdropWhile (· = '.'))
  memcachedPort := record.port
  restUsername := keys.1
  restPassword := keys.2
  port := "18091"

/-- An exception, with `result` still true if it is not caught -/
def raises (e : Raised) (server : Option Server) (keyAttempts lookups : ℕ) : CallEnd where
  result := !interp.exceptException e
  server := server
  keyAttempts := keyAttempts
  lookups := lookups
  escaped := !interp.exceptException e

/-- The part behind the keys -/
def resolve (keys : String × String) (keyAttempts : ℕ) : CallEnd :=
  match task.nebulaEndpoint with
  | .error e => raises interp e none keyAttempts 0
  | .ok _ =>
    match task.lookupLoop 1200 0 with
    | (.error e, lookups) => raises interp e none keyAttempts lookups
    | (.ok none, lookups) => ⟨false, none, keyAttempts, lookups, false⟩
    | (.ok (some records), lookups) =>
      let server := serverOf keys (task.choice records)
      match task.updateNebula server with
      | .error e => raises interp e (some server) keyAttempts lookups
      | .ok _ => ⟨true, some server, keyAttempts, lookups, false⟩

def call (fuel : ℕ) : Option CallEnd :=
  match task.create with
  | .error e => some (raises interp e none 0 0)
  | .ok (state, _) =>
    if state ≠ "healthy" then some ⟨false, none, 0, 0, false⟩
    else
      match task.keysLoop interp fuel 20 0 with
      | none => none
      | some (.error e, attempts) => some (raises interp e none attempts 0)
      | some (.ok keys, attempts) => some (task.resolve interp keys attempts)

/-! ## What the task should do -/

/-- The state was healthy, the keys were generated, and an SRV record was found. -/
structure Evidence (ended : CallEnd) : Prop where
  healthy : ∃ dpId, task.create = .ok ("healthy", dpId)
  keys : ∃ k < ended.keyAttempts, ∃ keys, task.attempt k = .ok keys
  found : ∃ k < ended.lookups, ∃ records, task.lookup k = .ok records ∧ records ≠ []

/-- It ends after at most 20 attempts and 1200 lookups, and with the result `True` on the evidence only. -/
def Right : Prop :=
  ∃ enough ended, (∀ fuel ≥ enough, task.call interp fuel = some ended) ∧ ended.keyAttempts ≤ 20 ∧
    ended.lookups ≤ 1200 ∧ (ended.result = true → task.Evidence ended)

/-- It ends in `except Exception` if it is raised. -/
def Caught {α : Type} (outcome : Except Raised α) : Prop := ∀ e, outcome = .error e → interp.exceptException e = true

/-- An attempt that is made again -/
def Retried (k : ℕ) : Prop := ∃ e, task.attempt k = .error e ∧ interp.exceptException e = true

/-- Nothing escapes before an SRV record is found; and if the database is healthy, one of the first 20 attempts at
    the keys succeeds. -/
def Succeeds : Prop :=
  Caught interp task.create ∧ ∀ dpId, task.create = .ok ("healthy", dpId) →
    (∃ k < 20, (∀ earlier < k, task.Retried interp earlier) ∧ ∃ keys, task.attempt k = .ok keys) ∧
      Caught interp task.nebulaEndpoint ∧
      ∀ endpoint, task.nebulaEndpoint = .ok endpoint →
        ∀ k < 1200, (∀ earlier < k, task.lookup earlier = .ok []) → Caught interp (task.lookup k)

end DatabaseCreateTask

section

variable {interp : Interpreter} {task : DatabaseCreateTask}

/-! ## The keys -/

/-- The loop ends with the first attempt that is not made again. -/
theorem keysLoop_ends {fuel made attempts : ℕ} {count : ℤ} {outcome : Except Raised (String × String)}
    (positive : 0 < count) (ended : task.keysLoop interp fuel count made = some (outcome, attempts)) :
    ∃ k, attempts = made + k + 1 ∧ (∀ earlier < k, task.Retried interp (made + earlier)) ∧
      task.attempt (made + k) = outcome ∧ ¬ task.Retried interp (made + k) := by
  induction fuel generalizing count made with
  | zero => cases ended
  | succ fuel ih =>
    rw [DatabaseCreateTask.keysLoop, if_pos positive] at ended
    cases here : task.attempt made with
    | ok keys =>
      simp only [here, Option.some.injEq, Prod.mk.injEq] at ended
      exact ⟨0, ended.2.symm, by simp, here.trans ended.1, by simp [DatabaseCreateTask.Retried, here]⟩
    | error e =>
      simp only [here] at ended
      split_ifs at ended with caught
      · obtain ⟨k, count, earlier, last, stops⟩ := ih (by omega) ended
        have shift : made + (k + 1) = made + 1 + k := by omega
        refine ⟨k + 1, by omega, ?_, by rw [shift, last], by rw [shift]; exact stops⟩
        intro i before
        cases i with
        | zero => exact ⟨e, here, caught⟩
        | succ i =>
          have retried := earlier i (Nat.lt_of_succ_lt_succ before)
          rwa [Nat.add_assoc, Nat.add_comm 1] at retried
      · simp only [Option.some.injEq, Prod.mk.injEq] at ended
        exact ⟨0, ended.2.symm, by simp, here.trans ended.1, by simp [DatabaseCreateTask.Retried, here, caught]⟩

/-- A success ends it, whatever the count is by then. -/
theorem keysLoop_of_attempt {k fuel made : ℕ} {count : ℤ} {keys : String × String} (positive : 0 < count)
    (earlier : ∀ i < k, task.Retried interp (made + i)) (last : task.attempt (made + k) = .ok keys) (enough : k < fuel) :
    task.keysLoop interp fuel count made = some (.ok keys, made + k + 1) := by
  induction k generalizing count made fuel with
  | zero =>
    obtain ⟨fuel, rfl⟩ := Nat.exists_eq_succ_of_ne_zero (by omega : fuel ≠ 0)
    rw [Nat.add_zero] at last
    rw [DatabaseCreateTask.keysLoop, if_pos positive, last]
  | succ k ih =>
    obtain ⟨fuel, rfl⟩ := Nat.exists_eq_succ_of_ne_zero (by omega : fuel ≠ 0)
    obtain ⟨e, failed, caught⟩ := earlier 0 k.succ_pos
    rw [Nat.add_zero] at failed
    rw [DatabaseCreateTask.keysLoop, if_pos positive, failed]
    have shift : ∀ i, made + 1 + i = made + (i + 1) := by
      intro i
      omega
    simp only [caught, if_true]
    rw [ih (by omega) (fun i before => by rw [shift]; exact earlier (i + 1) (Nat.succ_lt_succ before))
      (by rw [shift]; exact last) (by omega), shift]

/-! ## The lookups -/

theorem lookupLoop_made (task : DatabaseCreateTask) (count made : ℕ) : (task.lookupLoop count made).2 ≤ made + count := by
  induction count generalizing made with
  | zero => exact le_rfl
  | succ count ih =>
    rw [DatabaseCreateTask.lookupLoop]
    cases task.lookup made with
    | error e => simp
    | ok records =>
      dsimp only
      split_ifs
      · simp
      · have rest := ih (made + 1)
        omega

theorem lookupLoop_found {count made : ℕ} {records : List SrvRecord}
    (found : (task.lookupLoop count made).1 = .ok (some records)) :
    ∃ k < (task.lookupLoop count made).2, task.lookup k = .ok records ∧ records ≠ [] := by
  induction count generalizing made with
  | zero => cases found
  | succ count ih =>
    rw [DatabaseCreateTask.lookupLoop] at found ⊢
    cases here : task.lookup made with
    | error e => simp [here] at found
    | ok others =>
      simp only [here] at found ⊢
      split_ifs at found ⊢ with some
      · cases found
        exact ⟨made, Nat.lt_succ_self made, here, some⟩
      · exact ih found

theorem lookupLoop_raises_iff {count made lookups : ℕ} {e : Raised} :
    task.lookupLoop count made = (.error e, lookups) ↔
      ∃ k < count, (∀ earlier < k, task.lookup (made + earlier) = .ok []) ∧ task.lookup (made + k) = .error e ∧
        lookups = made + k + 1 := by
  induction count generalizing made with
  | zero => simp [DatabaseCreateTask.lookupLoop]
  | succ count ih =>
    rw [DatabaseCreateTask.lookupLoop, Nat.exists_lt_succ_left]
    simp only [Nat.forall_lt_succ_left, Nat.not_lt_zero, Nat.add_zero]
    cases here : task.lookup made with
    | error other => simp [eq_comm]
    | ok records =>
      by_cases some : records = []
      · simp [some, ih, Nat.add_assoc, Nat.add_comm 1]
      · simp [some]

/-- The lookups raise nothing that escapes exactly if none does that is made. -/
theorem lookups_caught_iff : DatabaseCreateTask.Caught interp (task.lookupLoop 1200 0).1 ↔
    ∀ k < 1200, (∀ earlier < k, task.lookup earlier = .ok []) → DatabaseCreateTask.Caught interp (task.lookup k) := by
  constructor
  · intro caught k inTime earlier e raised
    have raises : task.lookupLoop 1200 0 = (.error e, 0 + k + 1) :=
      lookupLoop_raises_iff.mpr ⟨k, inTime, by simpa using earlier, by simpa using raised, rfl⟩
    exact caught e (by rw [raises])
  · intro caught e raised
    obtain ⟨k, inTime, earlier, raises, _⟩ := lookupLoop_raises_iff.mp (Prod.ext raised rfl)
    simp only [Nat.zero_add] at earlier raises
    exact caught k inTime earlier e raises

/-! ## The call -/

section

variable {e : Raised} {server : Option Server} {keyAttempts lookups : ℕ}

@[simp] theorem raises_result :
    (DatabaseCreateTask.raises interp e server keyAttempts lookups).result = !interp.exceptException e := rfl

@[simp] theorem raises_keyAttempts :
    (DatabaseCreateTask.raises interp e server keyAttempts lookups).keyAttempts = keyAttempts := rfl

@[simp] theorem raises_lookups :
    (DatabaseCreateTask.raises interp e server keyAttempts lookups).lookups = lookups := rfl

end

/-- Without a lookup there is no evidence. -/
theorem not_evidence_of_no_lookup {e : Raised} {attempts : ℕ} :
    ¬ task.Evidence (DatabaseCreateTask.raises interp e none attempts 0) := by
  intro evidence
  obtain ⟨i, before, _⟩ := evidence.found
  exact Nat.not_lt_zero i before

/-- The lookups before the one that raises have found nothing. -/
theorem notFound_of_lookup_raises {e : Raised} {lookups : ℕ} (looked : task.lookupLoop 1200 0 = (.error e, lookups))
    {ended : CallEnd} (made : ended.lookups = lookups) : ¬ task.Evidence ended := by
  intro evidence
  obtain ⟨last, _, earlier, raises, count⟩ := lookupLoop_raises_iff.mp looked
  obtain ⟨i, before, records, found, some⟩ := evidence.found
  simp only [Nat.zero_add] at earlier raises count
  have inTime : i < last + 1 := by rwa [made, count] at before
  cases Nat.lt_succ_iff_lt_or_eq.mp inTime with
  | inl less =>
    rw [earlier i less] at found
    cases found
    exact some rfl
  | inr same =>
    rw [same, raises] at found
    cases found

/-- What follows the keys is right exactly if nothing escapes before a record is found. -/
theorem resolve_right_iff {dpId : String} (created : task.create = .ok ("healthy", dpId)) {k : ℕ} {keys : String × String}
    (generated : task.attempt k = .ok keys) :
    ((task.resolve interp keys (k + 1)).result = true → task.Evidence (task.resolve interp keys (k + 1))) ↔
      DatabaseCreateTask.Caught interp task.nebulaEndpoint ∧
      ∀ endpoint, task.nebulaEndpoint = .ok endpoint →
        ∀ k < 1200, (∀ earlier < k, task.lookup earlier = .ok []) →
          DatabaseCreateTask.Caught interp (task.lookup k) := by
  simp only [← lookups_caught_iff]
  unfold DatabaseCreateTask.resolve
  cases task.nebulaEndpoint with
  | error e =>
    have noLookup : ¬ task.Evidence (DatabaseCreateTask.raises interp e none (k + 1) 0) := not_evidence_of_no_lookup
    simp [noLookup, DatabaseCreateTask.Caught]
  | ok endpoint =>
    have nothingEscapes : DatabaseCreateTask.Caught interp (.ok endpoint : Except Raised String) := by
      intro e impossible
      cases impossible
    rw [and_iff_right nothingEscapes]
    simp only [Except.ok.injEq, forall_eq']
    cases looked : task.lookupLoop 1200 0 with
    | mk outcome lookups =>
      cases outcome with
      | error e =>
        have notFound : ¬ task.Evidence (DatabaseCreateTask.raises interp e none (k + 1) lookups) :=
          notFound_of_lookup_raises looked rfl
        simp [notFound, DatabaseCreateTask.Caught]
      | ok records =>
        refine iff_of_true ?_ (fun e impossible => by cases impossible)
        cases records with
        | none => simp
        | some records =>
          obtain ⟨i, before, found⟩ := lookupLoop_found (congrArg Prod.fst looked)
          rw [looked] at before
          have evidence : ∀ ended : CallEnd, ended.keyAttempts = k + 1 → ended.lookups = lookups → task.Evidence ended := by
            intro ended attempts made
            exact ⟨⟨dpId, created⟩, ⟨k, by omega, keys, generated⟩, ⟨i, by omega, records, found⟩⟩
          intro _
          dsimp only
          cases task.updateNebula (DatabaseCreateTask.serverOf keys (task.choice records)) with
          | error e => exact evidence _ rfl rfl
          | ok _ => exact evidence _ rfl rfl

/-- The number of the attempts is the one given, and there are at most 1200 lookups. -/
theorem resolve_tries {keys : String × String} {attempts : ℕ} :
    (task.resolve interp keys attempts).keyAttempts = attempts ∧ (task.resolve interp keys attempts).lookups ≤ 1200 := by
  have made := lookupLoop_made task 1200 0
  unfold DatabaseCreateTask.resolve
  cases task.nebulaEndpoint with
  | error e => simp
  | ok endpoint =>
    cases looked : task.lookupLoop 1200 0 with
    | mk outcome lookups =>
      rw [looked, Nat.zero_add] at made
      cases outcome with
      | error e => exact ⟨rfl, made⟩
      | ok records =>
        cases records with
        | none => exact ⟨rfl, made⟩
        | some records =>
          dsimp only
          cases task.updateNebula (DatabaseCreateTask.serverOf keys (task.choice records)) with
          | error e => exact ⟨rfl, made⟩
          | ok _ => exact ⟨rfl, made⟩

/-- A call that ends without an attempt is right exactly if its result is false. -/
theorem right_of_noAttempt {ended : CallEnd} (called : ∀ fuel, task.call interp fuel = some ended)
    (noAttempt : ended.keyAttempts = 0) (noLookup : ended.lookups = 0) :
    task.Right interp ↔ ended.result = false := by
  constructor
  · intro ⟨enough, other, ends, _, _, evidence⟩
    cases (called enough).symm.trans (ends enough le_rfl)
    by_contra success
    obtain ⟨k, before, _⟩ := (evidence (by simpa using success)).keys
    omega
  · intro failed
    refine ⟨0, ended, fun fuel _ => called fuel, by omega, by omega, fun success => ?_⟩
    rw [failed] at success
    cases success

theorem call_of_healthy {dpId : String} (created : task.create = .ok ("healthy", dpId)) (fuel : ℕ) :
    task.call interp fuel =
      match task.keysLoop interp fuel 20 0 with
      | none => none
      | some (.error e, attempts) => some (DatabaseCreateTask.raises interp e none attempts 0)
      | some (.ok keys, attempts) => some (task.resolve interp keys attempts) := by
  simp [DatabaseCreateTask.call, created]

/-- For a database that is healthy the attempts have to end in time with a success. -/
theorem right_of_healthy {dpId : String} (created : task.create = .ok ("healthy", dpId)) :
    task.Right interp ↔
      (∃ k < 20, (∀ earlier < k, task.Retried interp earlier) ∧ ∃ keys, task.attempt k = .ok keys) ∧
        DatabaseCreateTask.Caught interp task.nebulaEndpoint ∧
        ∀ endpoint, task.nebulaEndpoint = .ok endpoint →
          ∀ k < 1200, (∀ earlier < k, task.lookup earlier = .ok []) →
            DatabaseCreateTask.Caught interp (task.lookup k) := by
  constructor
  · intro ⟨enough, ended, ends, fewAttempts, _, evidence⟩
    have here := (call_of_healthy created enough).symm.trans (ends enough le_rfl)
    cases looped : task.keysLoop interp enough 20 0 with
    | none => simp [looped] at here
    | some pair =>
      obtain ⟨outcome, attempts⟩ := pair
      obtain ⟨k, made, earlier, last, stops⟩ := keysLoop_ends (by norm_num) looped
      simp only [Nat.zero_add] at made earlier last stops
      subst made
      cases outcome with
      | error e =>
        simp only [looped, Option.some.injEq] at here
        subst here
        have escapes : interp.exceptException e = false := by
          by_contra caught
          exact stops ⟨e, last, by simpa using caught⟩
        exact absurd (evidence (by simp [escapes])) not_evidence_of_no_lookup
      | ok keys =>
        simp only [looped, Option.some.injEq] at here
        subst here
        rw [resolve_tries.1] at fewAttempts
        exact ⟨⟨k, by omega, earlier, keys, last⟩, (resolve_right_iff created last).mp evidence⟩
  · intro ⟨⟨k, few, earlier, keys, generated⟩, nothingEscapes⟩
    refine ⟨k + 1, task.resolve interp keys (k + 1), ?_, ?_, resolve_tries.2,
      (resolve_right_iff created generated).mpr nothingEscapes⟩
    · intro fuel enough
      have looped : task.keysLoop interp fuel 20 0 = some (.ok keys, 0 + k + 1) :=
        keysLoop_of_attempt (by norm_num) (by simpa using earlier) (by simpa using generated) enough
      rw [call_of_healthy created, looped, Nat.zero_add]
    · rw [resolve_tries.1]
      omega

end

/-- The task is right exactly if one of the first 20 attempts succeeds where there are attempts, and nothing that is
    not caught is raised before the record is found. -/
theorem create_right_iff (interp : Interpreter) (task : DatabaseCreateTask) : task.Right interp ↔ task.Succeeds interp := by
  unfold DatabaseCreateTask.Succeeds
  cases created : task.create with
  | error e =>
    have called : ∀ fuel, task.call interp fuel = some (DatabaseCreateTask.raises interp e none 0 0) := by
      intro fuel
      simp [DatabaseCreateTask.call, created]
    rw [right_of_noAttempt called rfl rfl]
    simp [DatabaseCreateTask.Caught]
  | ok pair =>
    obtain ⟨state, dpId⟩ := pair
    have caught : DatabaseCreateTask.Caught interp (.ok (state, dpId) : Except Raised (String × String)) := by
      intro e impossible
      cases impossible
    rw [and_iff_right caught]
    by_cases healthy : state = "healthy"
    · subst healthy
      rw [right_of_healthy created]
      simp
    · have called : ∀ fuel, task.call interp fuel = some ⟨false, none, 0, 0, false⟩ := by
        intro fuel
        simp [DatabaseCreateTask.call, created, healthy]
      rw [right_of_noAttempt called rfl rfl]
      simp [healthy]

/-- Keys that can never be generated keep the task for ever. -/
theorem keys_never_generated :
    let task : DatabaseCreateTask :=
      ⟨.ok "db", .ok "healthy", false, .ok "dp", fun _ => .error .exception, fun _ => .ok (), .ok "srv", fun _ => .ok [],
        fun _ => ⟨"", 0⟩, fun _ => .ok ()⟩
    ∀ interp, ¬ task.Right interp := by
  intro task interp right
  obtain ⟨⟨k, _, _, keys, generated⟩, _⟩ := (right_of_healthy rfl).mp right
  cases generated

end Taf.Tasks.DatabaseCreate
