import Taf.Lib.Dict
import Taf.Lib.Polling
import Taf.Tasks.Task

/-! # Waiting for a bucket to be ready

`_wait_warmup_completed` and `wait_for_vbuckets_ready_state` of `bucket_ready_functions.py`.  The first one
waits for one server after the other, with one deadline and one flag for all of them; the second one asks
every vBucket for its state, round after round, and forgets a vBucket that has left its state.  What the
clock shows and what the servers answer are parameters of a call. -/

namespace Taf.Stats.ReadinessWaits

open Taf.Lib Taf.Tasks

/-- Why a call has not returned -/
inductive Unfinished where
  | waiting
  | raised (e : Raised)
  deriving DecidableEq

/-! ## `_wait_warmup_completed` -/

inductive BucketType where
  | membase
  | memcached
  | ephemeral
  deriving DecidableEq

/-- One turn of the loop of a server: what the clock shows at its test and what `all_stats` gives;
`none` stands for an exception, which is caught. -/
structure Turn where
  now : ℚ
  stats : Option (AList fun _ : String => String)

structure Server where
  -- `Cbstats(server)`
  cbstats : Except Raised Unit
  turns : ℕ → Turn

/-- The answer for which the loop waits -/
def Turn.Complete (turn : Turn) : Prop :=
  (turn.stats.bind fun result => result.lookup "ep_warmup_thread") = some "complete"

instance (turn : Turn) : Decidable turn.Complete :=
  inferInstanceAs (Decidable (_ = _))

section

variable (start waitTime : ℚ)

def Turn.InTime (turn : Turn) : Prop := turn.now - start < waitTime

instance (turn : Turn) : Decidable (turn.InTime start waitTime) :=
  inferInstanceAs (Decidable (_ < _))

/-- The loop of one server is left with its `warmed_up`. -/
def warmupStep (_ : Unit) (turn : Turn) : Except Bool Unit :=
  if turn.InTime start waitTime then
    if turn.Complete then .error true else .ok ()
  else .error false

/-- The loop of a server after `n` turns -/
def warmup (server : Server) (n : ℕ) : Except Bool Unit :=
  afterPolls (warmupStep start waitTime) server.turns () n

/-- The loop over the servers, with at most `n` turns for each of them -/
def warmupAll (n : ℕ) : List Server → Bool → Except Unfinished Bool
  | [], warmedUp => .ok warmedUp
  | server :: servers, _ =>
    match server.cbstats with
    | .error e => .error (.raised e)
    | .ok () =>
      match warmup start waitTime server n with
      | .ok () => .error .waiting
      | .error warmedUp => warmupAll n servers warmedUp

/-- `_wait_warmup_completed(bucket, servers, wait_time)` -/
def waitWarmupCompleted (bucketType : BucketType) (servers bucketServers : List Server) (n : ℕ) :
    Except Unfinished Bool :=
  if bucketType ≠ .membase then .ok true
  else
    let servers := if servers = [] then bucketServers else servers
    warmupAll start waitTime n servers false

/-- The turn is one that the call makes. -/
def Made (server : Server) (k : ℕ) : Prop := warmup start waitTime server k = .ok ()

/-- The server has said during the call that its warm-up is complete. -/
def Reported (server : Server) : Prop :=
  ∃ k, Made start waitTime server k ∧ (server.turns k).InTime start waitTime ∧ (server.turns k).Complete

/-- Time is not given back: behind a reading of the call that is past the deadline stands none that is not. -/
def DeadlineStays (servers : List Server) : Prop :=
  servers.Pairwise fun earlier later => ∀ k l, Made start waitTime earlier k → Made start waitTime later l →
    (later.turns l).InTime start waitTime → (earlier.turns k).InTime start waitTime

end

/-! ## `wait_for_vbuckets_ready_state` -/

inductive VbState where
  | active
  | replica
  | pending
  | dead
  deriving DecidableEq

/-- `VB_STATE_NAMES`, as the four bytes that the server sends -/
def VbState.body : VbState → List ℕ
  | .active => [0, 0, 0, 1]
  | .replica => [0, 0, 0, 2]
  | .pending => [0, 0, 0, 3]
  | .dead => [0, 0, 0, 4]

/-- `c.find(byte)` -/
def find (c : List ℕ) (byte : ℕ) : ℤ :=
  if byte ∈ c then c.idxOf byte else -1

/-- An answer to `client.get_vbucket_state(i)` -/
inductive StateAnswer where
  | state (s : VbState)
  | memcachedError
  -- `EOFError`, with what `client.reconnect()` does
  | eof (reconnect : Except Raised Unit)
  | raised (e : Raised)

/-- One round of the loop -/
structure Round where
  now : ℚ
  -- The client of a server: connected, authenticated, with the bucket selected, and closed in the end
  client : String → Except Raised Unit
  answer : ℕ → StateAnswer

/-- What one answer does to the keys of `ready_vbuckets` -/
def updateReady (answer : ℕ → StateAnswer) (ready : Finset ℕ) (i : ℕ) : Except Raised (Finset ℕ) :=
  match answer i with
  | .state s =>
    if find s.body 1 > 0 ∨ find s.body 2 > 0 then .ok (insert i ready) else .ok (ready.erase i)
  | .memcachedError => .ok ready
  | .eof (.ok ()) => .ok ready
  | .eof (.error e) => .error e
  | .raised e => .error e

section

variable (dicts : KeyOrder String) (vbucketMap : ℕ → String) (endTime : ℚ) (vbucketCount : ℕ)

/-- `server_dict`: the vBuckets of each server of the map -/
def serverDict : List (String × List ℕ) :=
  (dicts.order ((List.range vbucketCount).map vbucketMap).dedup).map fun ipPort =>
    (ipPort, (List.range vbucketCount).filter fun i => vbucketMap i = ipPort)

def askServer (round : Round) (ready : Finset ℕ) (entry : String × List ℕ) : Except Raised (Finset ℕ) := do
  round.client entry.1
  entry.2.foldlM (updateReady round.answer) ready

/-- A round that is not made returns. -/
def readyStep (ready : Finset ℕ) (round : Round) : Except (Except Raised Bool) (Finset ℕ) :=
  if round.now < endTime ∧ ready.card < vbucketCount then
    match (serverDict dicts vbucketMap vbucketCount).foldlM (askServer round) ready with
    | .ok ready => .ok ready
    | .error e => .error (.error e)
  else .error (.ok (ready.card = vbucketCount))

/-- `wait_for_vbuckets_ready_state` after `n` rounds -/
def waitForVbucketsReadyState (rounds : ℕ → Round) (n : ℕ) : Except (Except Raised Bool) (Finset ℕ) :=
  afterPolls (readyStep dicts vbucketMap endTime vbucketCount) rounds ∅ n

end

/-- The last state of a vBucket that the first `n` rounds have obtained -/
def lastState (rounds : ℕ → Round) (i : ℕ) : ℕ → Option VbState
  | 0 => none
  | n + 1 =>
    match (rounds n).answer i with
    | .state s => some s
    | _ => lastState rounds i n

/-! ## No server is hidden by a later one -/

section

variable {start waitTime : ℚ} {server : Server} {servers : List Server} {n : ℕ}

/-- How the loop of a server is left -/
theorem warmup_ends {warmedUp : Bool} (left : warmup start waitTime server n = .error warmedUp) :
    if warmedUp then Reported start waitTime server
    else ∃ k, Made start waitTime server k ∧ ¬ (server.turns k).InTime start waitTime := by
  obtain ⟨k, -, _, made, ends⟩ := afterPolls_ends_iff.mp left
  rw [warmupStep] at ends
  split_ifs at ends with inTime complete
  · cases ends
    exact ⟨k, made, inTime, complete⟩
  · cases ends
    exact ⟨k, made, inTime⟩

theorem warmupAll_cons {warmedUp verdict : Bool} :
    warmupAll start waitTime n (server :: servers) warmedUp = .ok verdict ↔ server.cbstats = .ok () ∧
      ∃ own, warmup start waitTime server n = .error own ∧
        warmupAll start waitTime n servers own = .ok verdict := by
  rw [warmupAll]
  cases server.cbstats with
  | error e => simp
  | ok _ => cases warmup start waitTime server n <;> simp

/-- The flag that comes out is that of the last server. -/
theorem warmupAll_last {warmedUp : Bool} (nonempty : servers ≠ [])
    (returned : warmupAll start waitTime n servers warmedUp = .ok true) :
    ∃ last ∈ servers, Reported start waitTime last := by
  induction servers generalizing warmedUp with
  | nil => exact absurd rfl nonempty
  | cons server servers ih =>
    obtain ⟨-, own, left, later⟩ := warmupAll_cons.mp returned
    by_cases more : servers = []
    · subst more
      cases later
      exact ⟨server, List.mem_cons_self, warmup_ends left⟩
    · obtain ⟨last, member, reported⟩ := ih more later
      exact ⟨last, List.mem_cons_of_mem server member, reported⟩

theorem warmupAll_reported {warmedUp : Bool} (stays : DeadlineStays start waitTime servers)
    (returned : warmupAll start waitTime n servers warmedUp = .ok true) :
    ∀ server ∈ servers, Reported start waitTime server := by
  induction servers generalizing warmedUp with
  | nil => simp
  | cons server servers ih =>
    obtain ⟨-, own, left, later⟩ := warmupAll_cons.mp returned
    obtain ⟨before, stays⟩ := List.pairwise_cons.mp stays
    refine List.forall_mem_cons.mpr ⟨?_, ih stays later⟩
    cases own with
    | true => exact warmup_ends left
    | false =>
      -- The server has run into the deadline, and the last one has reported in time.
      obtain ⟨k, made, late⟩ := warmup_ends left
      have more : servers ≠ [] := by
        intro none
        subst none
        cases later
      obtain ⟨last, member, l, madeLater, inTime, -⟩ := warmupAll_last more later
      exact absurd (before last member k l made madeLater inTime) late

end

/-! ## A vBucket counts as ready by its last state -/

theorem find_body (s : VbState) : (find s.body 1 > 0 ∨ find s.body 2 > 0) ↔ s = .active ∨ s = .replica := by
  cases s <;> decide

def Ready (state : Option VbState) : Prop := state = some .active ∨ state = some .replica

instance (state : Option VbState) : Decidable (Ready state) :=
  inferInstanceAs (Decidable (_ ∨ _))

/-- The state of a vBucket behind one more answer -/
def nextState (answer : StateAnswer) (state : Option VbState) : Option VbState :=
  match answer with
  | .state s => some s
  | _ => state

theorem nextState_idem (answer : StateAnswer) (state : Option VbState) :
    nextState answer (nextState answer state) = nextState answer state := by
  cases answer <;> rfl

/-- The set holds the vBuckets whose last state is a ready one. -/
def Tracks (ready : Finset ℕ) (seen : ℕ → Option VbState) : Prop :=
  ∀ j, j ∈ ready ↔ Ready (seen j)

section

variable {answer : ℕ → StateAnswer} {ready next : Finset ℕ} {seen : ℕ → Option VbState}

/-- The error paths leave the set and the last state as they were. -/
theorem updateReady_tracks {i : ℕ} (tracks : Tracks ready seen) (updated : updateReady answer ready i = .ok next) :
    Tracks next (Function.update seen i (nextState (answer i) (seen i))) := by
  rw [updateReady] at updated
  cases found : answer i with
  | state s =>
    simp only [found, find_body] at updated
    intro j
    obtain rfl | other := eq_or_ne j i
    · rw [Function.update_self, nextState]
      split_ifs at updated with isReady
      · cases updated
        simpa [Ready] using isReady
      · cases updated
        simpa [Ready] using isReady
    · rw [Function.update_of_ne other, ← tracks j]
      split_ifs at updated
      · cases updated
        simp [other]
      · cases updated
        simp [other]
  | memcachedError =>
    simp only [found] at updated
    cases updated
    have kept : nextState .memcachedError (seen i) = seen i := rfl
    rwa [kept, Function.update_eq_self]
  | eof reconnect =>
    cases reconnect with
    | ok _ =>
      simp only [found] at updated
      cases updated
      have kept : nextState (.eof (.ok ())) (seen i) = seen i := rfl
      rwa [kept, Function.update_eq_self]
    | error e => simp [found] at updated
  | raised e => simp [found] at updated

theorem askAll_tracks {asked : List ℕ} (tracks : Tracks ready seen)
    (updated : asked.foldlM (updateReady answer) ready = .ok next) :
    Tracks next fun j => if j ∈ asked then nextState (answer j) (seen j) else seen j := by
  induction asked generalizing ready seen with
  | nil =>
    cases updated
    simpa using tracks
  | cons i asked ih =>
    rw [List.foldlM_cons, bind_eq_ok] at updated
    obtain ⟨middle, first, updated⟩ := updated
    have later := ih (updateReady_tracks tracks first) updated
    intro j
    rw [later j]
    obtain rfl | other := eq_or_ne j i
    · simp [nextState_idem]
    · simp [other]

/-- The servers of a round are asked one after the other for their vBuckets. -/
theorem askServers_eq {round : Round} {entries : List (String × List ℕ)}
    (asked : entries.foldlM (askServer round) ready = .ok next) :
    (entries.flatMap Prod.snd).foldlM (updateReady round.answer) ready = .ok next := by
  induction entries generalizing ready with
  | nil => exact asked
  | cons entry entries ih =>
    rw [List.foldlM_cons, bind_eq_ok] at asked
    obtain ⟨middle, first, asked⟩ := asked
    rw [askServer, bind_eq_ok] at first
    obtain ⟨_, -, own⟩ := first
    rw [List.flatMap_cons, List.foldlM_append, bind_eq_ok]
    exact ⟨middle, own, ih asked⟩

end

section

variable {dicts : KeyOrder String} {vbucketMap : ℕ → String} {endTime : ℚ} {vbucketCount : ℕ}
  {rounds : ℕ → Round} {n : ℕ} {ready : Finset ℕ}

/-- Every vBucket belongs to the server that the map gives for it. -/
theorem mem_serverDict {i : ℕ} :
    i ∈ (serverDict dicts vbucketMap vbucketCount).flatMap Prod.snd ↔ i < vbucketCount := by
  rw [serverDict, List.flatMap_map, List.mem_flatMap]
  simp only [mem_order, List.mem_dedup, List.mem_filter, List.mem_range, decide_eq_true_eq]
  constructor
  · intro found
    obtain ⟨_, -, bound, -⟩ := found
    exact bound
  · intro bound
    exact ⟨vbucketMap i, List.mem_map_of_mem (List.mem_range.mpr bound), bound, rfl⟩

/-- Behind each round the dictionary holds the vBuckets whose last state is active or replica. -/
theorem readyVbuckets_track
    (going : waitForVbucketsReadyState dicts vbucketMap endTime vbucketCount rounds n = .ok ready) :
    Tracks ready fun i => if i < vbucketCount then lastState rounds i n else none := by
  refine afterPolls_invariant (fun n ready =>
    Tracks ready fun i => if i < vbucketCount then lastState rounds i n else none) ?_ ?_ going
  · simp [Tracks, Ready, lastState]
  · intro n ready next tracks taken
    rw [readyStep] at taken
    split_ifs at taken
    split at taken
    · next asked =>
      cases taken
      have tracked := askAll_tracks tracks (askServers_eq asked)
      intro i
      rw [tracked i]
      simp only [mem_serverDict]
      by_cases known : i < vbucketCount
      · simp only [known, if_true]
        rfl
      · simp only [known, if_false]
    · cases taken

/-- The dictionary never holds more than the vBuckets of the bucket, so a full one holds them all. -/
theorem all_ready_of_card
    (going : waitForVbucketsReadyState dicts vbucketMap endTime vbucketCount rounds n = .ok ready)
    (full : ready.card = vbucketCount) : ∀ i < vbucketCount, Ready (lastState rounds i n) := by
  have tracks := readyVbuckets_track going
  have within : ready ⊆ Finset.range vbucketCount := by
    intro i member
    by_contra unknown
    rw [Finset.mem_range] at unknown
    have isReady := (tracks i).mp member
    simp [unknown, Ready] at isReady
  have all : ready = Finset.range vbucketCount :=
    Finset.eq_of_subset_of_card_le within (by rw [Finset.card_range, full])
  intro i known
  have isReady := (tracks i).mp (by rw [all, Finset.mem_range]; exact known)
  simpa [known] using isReady

end

/-! ## Both waits -/

/-- What the two waits promise where they return `True`.  A call with `vbucketCount` vBuckets makes `k` rounds
before its loop ends. -/
theorem readinessWaits_sound (start waitTime : ℚ) (servers bucketServers : List Server) (n : ℕ)
    (dicts : KeyOrder String) (vbucketMap : ℕ → String) (endTime : ℚ) (vbucketCount : ℕ)
    (rounds : ℕ → Round) :
    (servers ≠ [] → DeadlineStays start waitTime servers →
        waitWarmupCompleted start waitTime .membase servers bucketServers n = .ok true →
          ∀ server ∈ servers, Reported start waitTime server) ∧
      (waitForVbucketsReadyState dicts vbucketMap endTime vbucketCount rounds n = .error (.ok true) →
        ∃ k < n,
          (∃ ready, waitForVbucketsReadyState dicts vbucketMap endTime vbucketCount rounds k = .ok ready) ∧
          waitForVbucketsReadyState dicts vbucketMap endTime vbucketCount rounds (k + 1) = .error (.ok true) ∧
          ∀ i < vbucketCount, Ready (lastState rounds i k)) := by
  constructor
  · intro nonempty stays returned
    rw [waitWarmupCompleted, if_neg (by simp), if_neg nonempty] at returned
    exact warmupAll_reported stays returned
  · intro returned
    obtain ⟨k, made, ready, going, ends⟩ := afterPolls_ends_iff.mp returned
    refine ⟨k, made, ⟨ready, going⟩, (afterPolls_succ going).trans ends, ?_⟩
    rw [readyStep] at ends
    split_ifs at ends
    · split at ends <;> cases ends
    · have full : ready.card = vbucketCount := by simpa using ends
      exact all_ready_of_card going full

/-- A server whose warm-up is complete whenever it is asked -/
def warmServer (now : ℚ) : Server where
  cbstats := .ok ()
  turns := fun _ => ⟨now, some ((∅ : AList fun _ : String => String).insert "ep_warmup_thread" "complete")⟩

/-- A server that is asked for the first time when the deadline of 300 seconds is over -/
def lateServer : Server where
  cbstats := .ok ()
  turns := fun _ => ⟨400, none⟩

theorem warmup_warmServer {now : ℚ} {n : ℕ} (inTime : now < 300) (asked : 1 ≤ n) :
    warmup 0 300 (warmServer now) n = .error true := by
  refine afterPolls_ended ?_ asked
  have soon : ((warmServer now).turns 0).InTime 0 300 := by simpa [Turn.InTime, warmServer] using inTime
  have complete : ((warmServer now).turns 0).Complete := AList.lookup_insert _
  simp only [afterPolls, warmupStep, soon, complete, if_true]

/-- The clock is set back between two servers: the second one hides that the first has never reported. -/
theorem late_server_hidden :
    ¬ ∀ (start waitTime : ℚ) (servers bucketServers : List Server) (n : ℕ), servers ≠ [] →
      waitWarmupCompleted start waitTime .membase servers bucketServers n = .ok true →
        ∀ server ∈ servers, Reported start waitTime server := by
  intro sound
  have late : ∀ k, ¬ (lateServer.turns k).InTime 0 300 := fun k => by norm_num [Turn.InTime, lateServer]
  have left : warmup 0 300 lateServer 1 = .error false := by simp only [warmup, afterPolls, warmupStep, late, if_false]
  have returned : waitWarmupCompleted 0 300 .membase [lateServer, warmServer 1] [] 1 = .ok true := by
    rw [waitWarmupCompleted, if_neg (by simp), if_neg (by simp)]
    exact warmupAll_cons.mpr ⟨rfl, false, left,
      warmupAll_cons.mpr ⟨rfl, true, warmup_warmServer (by norm_num) (by decide), rfl⟩⟩
  obtain ⟨k, -, inTime, -⟩ := sound 0 300 _ [] 1 (by simp) returned lateServer (by simp)
  exact late k inTime

/-- A round in which both vBuckets of a server are ready -/
def readyRound : Round where
  now := 0
  client := fun _ => .ok ()
  answer := fun i => .state (if i = 0 then .active else .replica)

/-- Two servers that are warm, and two vBuckets that are active and replica in the first round -/
theorem readinessWaits_sound_small :
    (∀ server ∈ [warmServer 1, warmServer 2], Reported 0 300 server) ∧
      ∃ k < 2, ∀ i < 2, Ready (lastState (fun _ => readyRound) i k) := by
  have sound := readinessWaits_sound 0 300 [warmServer 1, warmServer 2] [] 2 ⟨id, fun _ => .rfl⟩
    (fun _ => "10.1.1.1:11210") 300 2 fun _ => readyRound
  have stays : DeadlineStays 0 300 [warmServer 1, warmServer 2] := by
    simp [DeadlineStays, Turn.InTime, warmServer]
  have returned : waitWarmupCompleted 0 300 .membase [warmServer 1, warmServer 2] [] 2 = .ok true := by
    rw [waitWarmupCompleted, if_neg (by simp), if_neg (by simp)]
    exact warmupAll_cons.mpr ⟨rfl, true, warmup_warmServer (by norm_num) (by decide),
      warmupAll_cons.mpr ⟨rfl, true, warmup_warmServer (by norm_num) (by decide), rfl⟩⟩
  obtain ⟨k, made, -, -, isReady⟩ := sound.2 (by decide)
  exact ⟨sound.1 (by simp) stays returned, k, made, isReady⟩

end Taf.Stats.ReadinessWaits
