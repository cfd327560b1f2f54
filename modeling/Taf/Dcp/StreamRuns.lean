import Taf.Dcp.Operations

/-! # Runs of a stream

`DcpStream` of `lib/dcp_bin_client.py` over the generator that `DcpClient.stream_req` gives it.  A
generator is the sequence of what it yields, with nothing from the position on where it is exhausted.
The responses are the dictionaries of `formated_response`; the `arrival_time` that `run` puts into each of
them is left out. -/

namespace Taf.Dcp.Connection

open Taf.Lib

/-! ## The generator -/

/-- What the generator yields at each turn, a response or `None`; nothing stands for `StopIteration`. -/
abbrev Generator := ℕ → Option (Option Response)

/-- The number under a key of a response -/
def intField (name : String) (response : Response) : Option ℕ :=
  match response.lookup name with
  | some (.int number) => some number
  | _ => none

def isEnd (response : Response) : Bool := intField "opcode" response = some cmdStreamEnd

def dataOpcodes : List ℕ := [cmdMutation, cmdDeletion, cmdExpiration]

def isData (response : Response) : Bool :=
  match intField "opcode" response with
  | some opcode => opcode ∈ dataOpcodes
  | none => false

/-- `__generator(response)`: the response to the request, and then what is taken from the queue or received,
    up to the end of the stream -/
def streamGenerator (response : Option Response) (received : ℕ → Option Response) : Generator
  | 0 => some response
  | i + 1 => if ∃ j < i, (received j).any isEnd then none else some (received i)

/-! ## `DcpStream` -/

inductive StreamRaised where
  | stopIteration
  | keyError (name : String)
  | wrongVbucket
  | withoutSeqno (vbucket : ℕ) (response : Response)
  | outOfOrder (vbucket : ℕ) (response : Response)
  | stoppedReceiving (vbucket : ℕ)
  | noResponse

/-- The attributes that change, and the number of turns of the generator so far -/
structure DcpStream where
  vbucket : ℕ
  position : ℕ
  lastBySeqno : ℕ
  mutationCount : ℕ
  ended : Bool

/-- `DcpStream.__init__` takes the first response for itself. -/
def DcpStream.init (generator : Generator) (vbucket : ℕ) : Except StreamRaised DcpStream :=
  match generator 0 with
  | none => .error .stopIteration
  | some none => .error .noResponse
  | some (some _) => .ok ⟨vbucket, 1, 0, 0, false⟩

/-- The branch for a mutation, a deletion or an expiration -/
def DcpStream.count (stream : DcpStream) (response : Response) : Except StreamRaised DcpStream :=
  match intField "vbucket" response with
  | none => .error (.keyError "vbucket")
  | some vbucket =>
    if vbucket ≠ stream.vbucket then .error .wrongVbucket
    else
      match intField "by_seqno" response with
      | none => .error (.withoutSeqno vbucket response)
      | some bySeqno =>
        if bySeqno ≤ stream.lastBySeqno then .error (.outOfOrder vbucket response)
        else .ok { stream with lastBySeqno := bySeqno, mutationCount := stream.mutationCount + 1 }

/-- `if response:` and what is below it; an empty dictionary is false. -/
def DcpStream.accept (stream : DcpStream) (response : Response) : Except StreamRaised DcpStream :=
  if response.entries.isEmpty then .ok stream
  else
    match intField "opcode" response with
    | none => .error (.keyError "opcode")
    | some opcode =>
      let counted := if opcode ∈ dataOpcodes then stream.count response else .ok stream
      counted.map fun stream => if opcode = cmdStreamEnd then { stream with ended := true } else stream

section Run

variable (generator : Generator)

def DcpStream.nextResponse (stream : DcpStream) : Except StreamRaised (Option Response × DcpStream) :=
  if stream.ended then .ok (none, stream)
  else
    match generator stream.position with
    | none => .error .stopIteration
    | some none => .ok (none, { stream with position := stream.position + 1 })
    | some (some response) => do
      let stream ← DcpStream.accept { stream with position := stream.position + 1 } response
      pure (some response, stream)

/-- The loop of `run`, as far as the fuel goes: the responses and the stream that it leaves. -/
def DcpStream.runLoop (toSeqno : ℤ) : ℕ → ℤ → DcpStream → Option (Except StreamRaised (List Response × DcpStream))
  | 0, _, _ => none
  | fuel + 1, retries, stream =>
    if stream.ended then some (.ok ([], stream))
    else
      match stream.nextResponse generator with
      -- The `except` around the loop; the generator is not asked again.
      | .error .stopIteration => some (.ok ([], { stream with ended := true }))
      | .error error => some (.error error)
      | .ok (none, stream) =>
        if 0 < retries - 1 then stream.runLoop toSeqno fuel (retries - 1)
        else some (.error (.stoppedReceiving stream.vbucket))
      | .ok (some response, stream) =>
        if intField "status" response = some 0xff ∨ toSeqno ≤ stream.lastBySeqno then
          some (.ok ([response], stream))
        else
          (stream.runLoop toSeqno fuel retries).map fun result =>
            result.map fun returned => (response :: returned.1, returned.2)

/-- A call of `run` that returns -/
structure Call where
  toSeqno : ℤ
  retries : ℤ
  responses : List Response

def Returns (stream : DcpStream) (call : Call) (next : DcpStream) : Prop :=
  ∃ fuel, stream.runLoop generator call.toSeqno fuel call.retries = some (.ok (call.responses, next))

/-- Consecutive calls of `run`, all of which return -/
inductive Calls : DcpStream → List Call → DcpStream → Prop
  | nil (stream : DcpStream) : Calls stream [] stream
  | cons {stream next last : DcpStream} {call : Call} {calls : List Call} (returned : Returns generator stream call next)
      (rest : Calls next calls last) : Calls stream (call :: calls) last

end Run

/-! ## What the responses say -/

/-- The sequence number of a data message -/
def dataSeqno (response : Response) : Option ℕ := if isData response then intField "by_seqno" response else none

def seqnoAfter (last : ℕ) (response : Response) : ℕ := (dataSeqno response).getD last

/-- A run to `toSeqno` ends with this response, `last` being the sequence number behind it. -/
def Stops (toSeqno : ℤ) (last : ℕ) (response : Response) : Prop :=
  toSeqno ≤ last ∨ isEnd response ∨ intField "status" response = some 0xff

/-- The responses that the generator yields from one position up to another -/
def yielded (generator : Generator) (first last : ℕ) : List Response :=
  (List.range' first (last - first)).filterMap fun i => (generator i).join

/-- Every data message has a higher sequence number than those before it. -/
def Ordered : ℕ → List Response → Prop
  | _, [] => True
  | last, response :: responses =>
    (∀ bySeqno ∈ dataSeqno response, last < bySeqno) ∧ Ordered (seqnoAfter last response) responses

/-- A call stops at the first response that it has to stop at, unless the stream has ended or the generator is
    exhausted before there is one. -/
structure StopsAtFirst (generator : Generator) (toSeqno : ℤ) (stream : DcpStream) (responses : List Response)
    (next : DcpStream) : Prop where
  noLater : ∀ front response rest, responses = front ++ response :: rest →
    Stops toSeqno ((front ++ [response]).foldl seqnoAfter stream.lastBySeqno) response → rest = []
  noSooner : stream.ended ∧ responses = [] ∨
    (∃ front response, responses = front ++ [response] ∧
      Stops toSeqno ((front ++ [response]).foldl seqnoAfter stream.lastBySeqno) response) ∨
    generator next.position = none

/-! ## One response -/

/-- What an accepted response does to the stream -/
structure DcpStream.Accepts (stream : DcpStream) (response : Response) (next : DcpStream) : Prop where
  position : next.position = stream.position
  lastBySeqno : next.lastBySeqno = seqnoAfter stream.lastBySeqno response
  mutationCount : next.mutationCount = stream.mutationCount + if isData response then 1 else 0
  ended : next.ended = (stream.ended || isEnd response)
  ordered : ∀ bySeqno ∈ dataSeqno response, stream.lastBySeqno < bySeqno
  numbered : isData response → (dataSeqno response).isSome

theorem intField_of_isEmpty {response : Response} (empty : response.entries.isEmpty) (name : String) :
    intField name response = none := by
  have absent : response.lookup name = none := by
    rw [AList.lookup, List.isEmpty_iff.mp empty]
    rfl
  rw [intField, absent]

theorem DcpStream.count_spec {stream next : DcpStream} {response : Response} (data : isData response)
    (counted : stream.count response = .ok next) : next.position = stream.position ∧
      next.lastBySeqno = seqnoAfter stream.lastBySeqno response ∧ next.mutationCount = stream.mutationCount + 1 ∧
      next.ended = stream.ended ∧ (∀ bySeqno ∈ dataSeqno response, stream.lastBySeqno < bySeqno) ∧
      (dataSeqno response).isSome := by
  rw [count] at counted
  -- The vBucket, the number and the order of the numbers are asserted before anything is counted.
  split at counted
  · cases counted
  · split at counted
    · cases counted
    · split at counted
      · cases counted
      · rename_i bySeqno isSeqno
        have seqno : dataSeqno response = some bySeqno := by rw [dataSeqno, if_pos data, isSeqno]
        split at counted
        · cases counted
        · cases counted
          simp [seqnoAfter, seqno]
          omega

theorem DcpStream.accepts_of_ok {stream next : DcpStream} {response : Response}
    (accepted : stream.accept response = .ok next) : stream.Accepts response next := by
  rw [accept] at accepted
  split at accepted
  case isTrue empty =>
    have absent := intField_of_isEmpty empty
    cases accepted
    constructor <;> simp [seqnoAfter, dataSeqno, isData, isEnd, absent]
  case isFalse =>
    split at accepted
    · cases accepted
    · rename_i opcode isOpcode
      obtain ⟨counted, step, rfl⟩ := map_eq_ok.mp accepted
      -- The opcode decides everything: a data message is no end, and only data messages are counted.
      have isEnd_iff : isEnd response = decide (opcode = cmdStreamEnd) := by simp [isEnd, isOpcode]
      have isData_iff : isData response = decide (opcode ∈ dataOpcodes) := by simp [isData, isOpcode]
      split at step
      case isTrue data =>
        have noEnd : opcode ≠ cmdStreamEnd := by
          rintro rfl
          exact absurd data (by decide)
        rw [if_neg noEnd]
        obtain ⟨position, lastBySeqno, mutationCount, ended, ordered, numbered⟩ :=
          count_spec (by simpa [isData_iff] using data) step
        refine ⟨position, lastBySeqno, ?_, ?_, ordered, fun _ => numbered⟩
        · rw [mutationCount, isData_iff, if_pos (decide_eq_true data)]
        · rw [ended, isEnd_iff, decide_eq_false noEnd, Bool.or_false]
      case isFalse other =>
        cases step
        have noData : isData response = false := by rw [isData_iff, decide_eq_false other]
        by_cases ends : opcode = cmdStreamEnd
        · rw [if_pos ends]
          constructor <;> simp [seqnoAfter, dataSeqno, noData, isEnd_iff, ends]
        · rw [if_neg ends]
          constructor <;> simp [seqnoAfter, dataSeqno, noData, isEnd_iff, ends]

/-! ## One call -/

section Run

variable {generator : Generator} {toSeqno : ℤ} {stream next : DcpStream} {response : Response}
  {responses : List Response}

/-- What `next_response` does on a stream that has not ended: the generator is exhausted, has received
    nothing, or has a response, which is accepted or raises. -/
theorem nextResponse_cases (active : stream.ended = false) :
    (generator stream.position = none ∧ stream.nextResponse generator = .error .stopIteration) ∨
    (generator stream.position = some none ∧
      stream.nextResponse generator = .ok (none, { stream with position := stream.position + 1 })) ∨
    ∃ response, generator stream.position = some (some response) ∧ stream.nextResponse generator =
      (DcpStream.accept { stream with position := stream.position + 1 } response).map fun next =>
        (some response, next) := by
  rw [DcpStream.nextResponse, if_neg (by simp [active])]
  cases generator stream.position with
  | none => exact .inl ⟨rfl, rfl⟩
  | some turn =>
    cases turn with
    | none => exact .inr (.inl ⟨rfl, rfl⟩)
    | some response => exact .inr (.inr ⟨response, rfl, rfl⟩)

theorem nextResponse_none (active : stream.ended = false)
    (read : stream.nextResponse generator = .ok (none, next)) :
    generator stream.position = some none ∧ next = { stream with position := stream.position + 1 } := by
  obtain ⟨_, raises⟩ | ⟨turn, returns⟩ | ⟨response, _, accepts⟩ := @nextResponse_cases generator stream active
  · rw [raises] at read
    cases read
  · rw [returns] at read
    cases read
    exact ⟨turn, rfl⟩
  · rw [accepts] at read
    obtain ⟨_, _, impossible⟩ := map_eq_ok.mp read
    cases impossible

theorem nextResponse_some (active : stream.ended = false)
    (read : stream.nextResponse generator = .ok (some response, next)) :
    generator stream.position = some (some response) ∧
      DcpStream.Accepts { stream with position := stream.position + 1 } response next := by
  obtain ⟨_, raises⟩ | ⟨_, returns⟩ | ⟨found, turn, accepts⟩ := @nextResponse_cases generator stream active
  · rw [raises] at read
    cases read
  · rw [returns] at read
    cases read
  · rw [accepts] at read
    obtain ⟨accepting, accepted, same⟩ := map_eq_ok.mp read
    cases same
    exact ⟨turn, DcpStream.accepts_of_ok accepted⟩

theorem count_ne_stopIteration : stream.count response ≠ .error .stopIteration := by
  intro raised
  rw [DcpStream.count] at raised
  split at raised
  · cases raised
  · split at raised
    · cases raised
    · split at raised
      · cases raised
      · split at raised <;> cases raised

theorem accept_ne_stopIteration : stream.accept response ≠ .error .stopIteration := by
  intro raised
  rw [DcpStream.accept] at raised
  split at raised
  · cases raised
  · split at raised
    · cases raised
    · have counting := map_eq_error.mp raised
      split at counting
      · exact count_ne_stopIteration counting
      · cases counting

theorem nextResponse_stopIteration (active : stream.ended = false)
    (read : stream.nextResponse generator = .error .stopIteration) : generator stream.position = none := by
  obtain ⟨exhausted, _⟩ | ⟨_, returns⟩ | ⟨found, _, accepts⟩ := @nextResponse_cases generator stream active
  · exact exhausted
  · rw [returns] at read
    cases read
  · rw [accepts] at read
    exact absurd (map_eq_error.mp read) accept_ne_stopIteration

/-- What a call that returns leaves -/
structure Ran (generator : Generator) (toSeqno : ℤ) (stream : DcpStream) (responses : List Response)
    (next : DcpStream) : Prop where
  forward : stream.position ≤ next.position
  yields : responses = yielded generator stream.position next.position
  lastBySeqno : next.lastBySeqno = responses.foldl seqnoAfter stream.lastBySeqno
  mutationCount : next.mutationCount = stream.mutationCount + responses.countP isData
  ordered : Ordered stream.lastBySeqno responses
  numbered : ∀ response ∈ responses, isData response → (dataSeqno response).isSome
  stays : stream.ended → responses = [] ∧ next = stream
  ends : ∀ response ∈ responses, isEnd response → next.ended
  stops : StopsAtFirst generator toSeqno stream responses next

theorem yielded_self (generator : Generator) (position : ℕ) : yielded generator position position = [] := by
  simp [yielded]

theorem yielded_head {first last : ℕ} (before : first < last) :
    yielded generator first last = (generator first).join.toList ++ yielded generator (first + 1) last := by
  have length : last - first = (last - (first + 1)) + 1 := by omega
  rw [yielded, length, List.range'_succ, List.filterMap_cons, yielded]
  cases (generator first).join <;> simp

/-- A turn without a response moves on and changes nothing else. -/
theorem Ran.none_first (active : stream.ended = false) (turn : generator stream.position = some none)
    (ran : Ran generator toSeqno { stream with position := stream.position + 1 } responses next) :
    Ran generator toSeqno stream responses next where
  forward := Nat.le_of_succ_le ran.forward
  yields := by
    rw [yielded_head (Nat.lt_of_succ_le ran.forward), turn]
    exact ran.yields
  lastBySeqno := ran.lastBySeqno
  mutationCount := ran.mutationCount
  ordered := ran.ordered
  numbered := ran.numbered
  stays := fun ended => by simp [active] at ended
  ends := ran.ends
  stops := ⟨ran.stops.noLater, ran.stops.noSooner⟩

theorem Ran.some_first {before : DcpStream} (active : stream.ended = false)
    (turn : generator stream.position = some (some response))
    (accepts : DcpStream.Accepts { stream with position := stream.position + 1 } response before)
    (goesOn : ¬ (intField "status" response = some 0xff ∨ toSeqno ≤ before.lastBySeqno))
    (ran : Ran generator toSeqno before responses next) :
    Ran generator toSeqno stream (response :: responses) next := by
  have forward : stream.position < next.position := by
    have later := ran.forward
    rw [accepts.position] at later
    exact later
  have after : before.lastBySeqno = seqnoAfter stream.lastBySeqno response := accepts.lastBySeqno
  have onlyEnd : Stops toSeqno (seqnoAfter stream.lastBySeqno response) response ↔ isEnd response := by
    rw [← after, Stops]
    tauto
  have isEnded : isEnd response → before.ended := by
    intro ends
    rw [accepts.ended, ends, Bool.or_true]
  exact {
    forward := forward.le
    yields := by
      rw [yielded_head forward, turn, ran.yields, accepts.position]
      rfl
    lastBySeqno := by rw [ran.lastBySeqno, after, List.foldl_cons]
    mutationCount := by
      rw [ran.mutationCount, accepts.mutationCount, List.countP_cons, Nat.add_assoc, Nat.add_comm (responses.countP _)]
    ordered := ⟨accepts.ordered, after ▸ ran.ordered⟩
    numbered := List.forall_mem_cons.mpr ⟨accepts.numbered, ran.numbered⟩
    stays := fun ended => by simp [active] at ended
    ends := by
      intro other member ends
      cases List.mem_cons.mp member with
      | inl same =>
        subst same
        rw [(ran.stays (isEnded ends)).2]
        exact isEnded ends
      | inr inside => exact ran.ends other inside ends
    stops := {
      noLater := by
        intro front last rest split stops
        cases front with
        | nil =>
          -- The call went on behind the response, so it stops only as the end of the stream.
          obtain ⟨rfl, rfl⟩ := List.cons.inj split
          exact (ran.stays (isEnded (onlyEnd.mp stops))).1
        | cons first front =>
          obtain ⟨rfl, behind⟩ := List.cons.inj split
          rw [List.cons_append, List.foldl_cons, ← after] at stops
          exact ran.stops.noLater front last rest behind stops
      noSooner := by
        rcases ran.stops.noSooner with ⟨ended, empty⟩ | ⟨front, last, split, stops⟩ | exhausted
        · have ends : isEnd response := by simpa [accepts.ended, active] using ended
          exact .inr (.inl ⟨[], response, by rw [empty]; rfl, onlyEnd.mpr ends⟩)
        · refine .inr (.inl ⟨response :: front, last, by rw [split]; rfl, ?_⟩)
          rw [List.cons_append, List.foldl_cons, ← after]
          exact stops
        · exact .inr (.inr exhausted) } }

theorem Ran.some_last (active : stream.ended = false) (turn : generator stream.position = some (some response))
    (accepts : DcpStream.Accepts { stream with position := stream.position + 1 } response next)
    (ends : intField "status" response = some 0xff ∨ toSeqno ≤ next.lastBySeqno) :
    Ran generator toSeqno stream [response] next := by
  have after : next.lastBySeqno = seqnoAfter stream.lastBySeqno response := accepts.lastBySeqno
  have stops : Stops toSeqno (seqnoAfter stream.lastBySeqno response) response := by
    rw [← after, Stops]
    tauto
  have position : next.position = stream.position + 1 := accepts.position
  exact {
    forward := by omega
    yields := by
      rw [position, yielded_head (Nat.lt_succ_self _), turn, yielded_self]
      rfl
    lastBySeqno := after
    mutationCount := by rw [accepts.mutationCount, List.countP_singleton]
    ordered := ⟨accepts.ordered, trivial⟩
    numbered := List.forall_mem_singleton.mpr accepts.numbered
    stays := fun ended => by simp [active] at ended
    ends := by
      intro other member ends
      rw [List.mem_singleton.mp member] at ends
      rw [accepts.ended, ends, Bool.or_true]
    stops := {
      noLater := by
        intro front last rest split _
        cases front with
        | nil => exact (List.cons.inj split).2.symm
        | cons first front => cases front <;> cases (List.cons.inj split).2
      noSooner := .inr (.inl ⟨[], response, rfl, stops⟩) } }

theorem Ran.nothing (stopped : stream.ended ∨ generator stream.position = none) (same : stream.ended → next = stream)
    (position : next.position = stream.position) (last : next.lastBySeqno = stream.lastBySeqno)
    (count : next.mutationCount = stream.mutationCount) : Ran generator toSeqno stream [] next where
  forward := position.ge
  yields := by rw [position, yielded_self]
  lastBySeqno := last
  mutationCount := count
  ordered := trivial
  numbered := fun _ member => absurd member List.not_mem_nil
  stays := fun ended => ⟨rfl, same ended⟩
  ends := fun _ member => absurd member List.not_mem_nil
  stops := {
    noLater := fun front _ _ split => by cases front <;> cases split
    noSooner := by
      rw [position]
      exact stopped.elim (fun ended => .inl ⟨ended, rfl⟩) fun exhausted => .inr (.inr exhausted) }

theorem ran_of_runLoop {fuel : ℕ} {retries : ℤ}
    (returned : stream.runLoop generator toSeqno fuel retries = some (.ok (responses, next))) :
    Ran generator toSeqno stream responses next := by
  -- A turn of the loop changes the stream, what is left of the retries and the responses still to come.
  induction fuel generalizing retries stream responses with
  | zero => cases returned
  | succ fuel ih =>
    rw [DcpStream.runLoop] at returned
    split at returned
    case isTrue ended =>
      cases returned
      exact .nothing (.inl ended) (fun _ => rfl) rfl rfl rfl
    case isFalse active =>
      have active : stream.ended = false := by simpa using active
      split at returned
      case h_1 read =>
        cases returned
        exact .nothing (.inr (nextResponse_stopIteration active read)) (fun ended => by simp [active] at ended) rfl rfl rfl
      case h_2 => cases returned
      case h_3 after read =>
        split at returned
        · obtain ⟨turn, rfl⟩ := nextResponse_none active read
          exact .none_first active turn (ih returned)
        · cases returned
      case h_4 response after read =>
        obtain ⟨turn, accepts⟩ := nextResponse_some active read
        split at returned
        case isTrue ends =>
          cases returned
          exact .some_last active turn accepts ends
        case isFalse goesOn =>
          obtain ⟨result, recursion, mapped⟩ := Option.map_eq_some_iff.mp returned
          obtain ⟨⟨rest, last⟩, rfl, same⟩ := map_eq_ok.mp mapped
          cases same
          exact .some_first active turn accepts goesOn (ih recursion)

end Run

/-! ## All calls -/

theorem yielded_append {generator : Generator} {first middle last : ℕ} (before : first ≤ middle) (after : middle ≤ last) :
    yielded generator first middle ++ yielded generator middle last = yielded generator first last := by
  rw [yielded, yielded, yielded, ← List.filterMap_append]
  have split := @List.range'_append_1 first (middle - first) (last - middle)
  rw [show first + (middle - first) = middle by omega,
    show middle - first + (last - middle) = last - first by omega] at split
  rw [split]

theorem ordered_append {last : ℕ} {front rest : List Response} :
    Ordered last (front ++ rest) ↔ Ordered last front ∧ Ordered (front.foldl seqnoAfter last) rest := by
  induction front generalizing last with
  | nil => simp [Ordered]
  | cons response front ih => simp only [List.cons_append, Ordered, ih, List.foldl_cons, and_assoc]

theorem Ordered.pairwise {last : ℕ} {responses : List Response} (ordered : Ordered last responses) :
    (last :: responses.filterMap dataSeqno).Pairwise (· < ·) := by
  induction responses generalizing last with
  | nil => simp
  | cons response responses ih =>
    obtain ⟨above, ordered⟩ := ordered
    have rest := ih ordered
    cases seqno : dataSeqno response with
    | none =>
      rw [List.filterMap_cons_none seqno]
      simpa [seqnoAfter, seqno] using rest
    | some bySeqno =>
      have rest : (bySeqno :: responses.filterMap dataSeqno).Pairwise (· < ·) := by
        simpa [seqnoAfter, seqno] using rest
      have less : last < bySeqno := above bySeqno seqno
      rw [List.filterMap_cons_some seqno, List.pairwise_cons]
      refine ⟨List.forall_mem_cons.mpr ⟨less, fun other member => ?_⟩, rest⟩
      exact less.trans (List.rel_of_pairwise_cons rest member)

section Calls

variable {generator : Generator} {stream last : DcpStream} {calls : List Call}

/-- The responses of all the calls -/
def returnedBy (calls : List Call) : List Response := calls.flatMap Call.responses

theorem Returns.ran {next : DcpStream} {call : Call} (returned : Returns generator stream call next) :
    Ran generator call.toSeqno stream call.responses next := by
  obtain ⟨fuel, returned⟩ := returned
  exact ran_of_runLoop returned

/-- What consecutive calls leave -/
structure RanAll (generator : Generator) (stream : DcpStream) (responses : List Response) (last : DcpStream) : Prop where
  forward : stream.position ≤ last.position
  yields : responses = yielded generator stream.position last.position
  mutationCount : last.mutationCount = stream.mutationCount + responses.countP isData
  ordered : Ordered stream.lastBySeqno responses
  numbered : ∀ response ∈ responses, isData response → (dataSeqno response).isSome

theorem Calls.ranAll (returned : Calls generator stream calls last) :
    RanAll generator stream (returnedBy calls) last := by
  induction returned with
  | nil stream =>
    exact ⟨le_rfl, (yielded_self _ _).symm, rfl, trivial, fun _ member => absurd member List.not_mem_nil⟩
  | @cons stream next last call calls returned rest ih =>
    have ran := returned.ran
    have responses : returnedBy (call :: calls) = call.responses ++ returnedBy calls := List.flatMap_cons
    rw [responses]
    exact {
      forward := ran.forward.trans ih.forward
      yields := by rw [← yielded_append ran.forward ih.forward, ← ran.yields, ← ih.yields]
      mutationCount := by rw [ih.mutationCount, ran.mutationCount, List.countP_append, Nat.add_assoc]
      -- A call starts from the number that the one before it has left.
      ordered := ordered_append.mpr ⟨ran.ordered, ran.lastBySeqno ▸ ih.ordered⟩
      numbered := List.forall_mem_append.mpr ⟨ran.numbered, ih.numbered⟩ }

theorem Calls.split {before after : List Call} {call : Call}
    (returned : Calls generator stream (before ++ call :: after) last) : ∃ reached next,
      Calls generator stream before reached ∧ Returns generator reached call next ∧ Calls generator next after last := by
  induction before generalizing stream with
  | nil =>
    cases returned with
    | cons here rest => exact ⟨stream, _, .nil stream, here, rest⟩
  | cons first before ih =>
    cases returned with
    | cons here rest =>
      obtain ⟨reached, next, front, middle, back⟩ := ih rest
      exact ⟨reached, next, .cons here front, middle, back⟩

/-- A stream that has ended returns nothing any more. -/
theorem Calls.of_ended (returned : Calls generator stream calls last) (ended : stream.ended) :
    ∀ call ∈ calls, call.responses = [] := by
  induction returned with
  | nil => exact fun _ member => absurd member List.not_mem_nil
  | @cons stream next last call calls returned rest ih =>
    obtain ⟨nothing, rfl⟩ := returned.ran.stays ended
    exact List.forall_mem_cons.mpr ⟨nothing, ih ended⟩

theorem Calls.stays (returned : Calls generator stream calls last) (ended : stream.ended) : last.ended := by
  induction returned with
  | nil => exact ended
  | cons returned rest ih =>
    rw [(returned.ran.stays ended).2] at ih
    exact ih ended

theorem Calls.ends (returned : Calls generator stream calls last) :
    ∀ response ∈ returnedBy calls, isEnd response → last.ended := by
  intro response member ends
  obtain ⟨call, inside, isHere⟩ := List.mem_flatMap.mp member
  obtain ⟨before, after, rfl⟩ := List.append_of_mem inside
  obtain ⟨reached, next, front, middle, back⟩ := returned.split
  exact back.stays (middle.ran.ends response isHere ends)

/-- The generator of `stream_req` is never asked behind its end: the stream has seen the end by then. -/
theorem ended_of_exhausted {vbucket : ℕ} {response : Option Response} {received : ℕ → Option Response}
    (opened : DcpStream.init (streamGenerator response received) vbucket = .ok stream)
    (returned : Calls (streamGenerator response received) stream calls last)
    (exhausted : streamGenerator response received last.position = none) : last.ended := by
  have start : stream.position = 1 := by
    rw [DcpStream.init] at opened
    split at opened <;> cases opened
    rfl
  have all := returned.ranAll
  have forward := all.forward
  cases position : last.position with
  | zero => omega
  | succ i =>
    rw [position, streamGenerator] at exhausted
    split at exhausted
    case isFalse => cases exhausted
    case isTrue isEnded =>
      -- The first end that was received has been yielded.
      obtain ⟨before, isFirst⟩ := Nat.find_spec isEnded
      have minimal : ¬ ∃ k < Nat.find isEnded, (received k).any isEnd :=
        fun ⟨k, earlier, found⟩ => Nat.find_min isEnded earlier ⟨earlier.trans before, found⟩
      cases isFinal : received (Nat.find isEnded) with
      | none =>
        rw [isFinal] at isFirst
        cases isFirst
      | some final =>
        rw [isFinal] at isFirst
        have turn : streamGenerator response received (Nat.find isEnded + 1) = some (some final) := by
          rw [streamGenerator, if_neg minimal, isFinal]
        refine returned.ends final ?_ isFirst
        rw [all.yields, yielded, start, position]
        refine List.mem_filterMap.mpr ⟨Nat.find isEnded + 1, ?_, by rw [turn]; rfl⟩
        exact List.mem_range'_1.mpr (by omega)

/-- Calls that return hand out what the generator yields behind its first response, in order and each response
    once; the sequence numbers increase, the data messages are counted, each call stops at the first response
    it has to stop at, and behind the end of the stream nothing is returned. -/
theorem runs_exact {vbucket : ℕ} (opened : DcpStream.init generator vbucket = .ok stream)
    (returned : Calls generator stream calls last) :
    returnedBy calls = yielded generator 1 last.position ∧
    ((returnedBy calls).filterMap dataSeqno).Pairwise (· < ·) ∧
    (∀ response ∈ returnedBy calls, isData response → (dataSeqno response).isSome) ∧
    last.mutationCount = (returnedBy calls).countP isData ∧
    ∀ before call after, calls = before ++ call :: after →
      (∃ reached next, Calls generator stream before reached ∧ Calls generator next after last ∧
        StopsAtFirst generator call.toSeqno reached call.responses next) ∧
      ((∃ response ∈ call.responses, isEnd response) → ∀ later ∈ after, later.responses = []) := by
  have start : stream = ⟨vbucket, 1, 0, 0, false⟩ := by
    rw [DcpStream.init] at opened
    split at opened <;> cases opened
    rfl
  have all := returned.ranAll
  have count := all.mutationCount
  have increasing := all.ordered.pairwise
  rw [start, Nat.zero_add] at count
  refine ⟨by rw [all.yields, start], (List.pairwise_cons.mp increasing).2, all.numbered, count, ?_⟩
  rintro before call after rfl
  obtain ⟨reached, next, front, middle, back⟩ := returned.split
  refine ⟨⟨reached, next, front, back, middle.ran.stops⟩, ?_⟩
  intro ⟨response, member, ends⟩
  exact back.of_ended (middle.ran.ends response member ends)

end Calls

/-! ## Two runs of a short stream -/

def requestAccepted : Response := assignAll [("opcode", .int cmdStreamReq), ("status", .int 0)] ∅

def shortMutation (bySeqno : ℕ) : Response :=
  assignAll [("vbucket", .int 3), ("opcode", .int cmdMutation), ("by_seqno", .int bySeqno)] ∅

def endOfStream : Response := assignAll [("vbucket", .int 3), ("opcode", .int cmdStreamEnd), ("flags", .int 0)] ∅

/-- Two mutations with a missed receive between them, and then the end -/
def shortStream : ℕ → Option Response
  | 0 => some (shortMutation 1)
  | 1 => none
  | 2 => some (shortMutation 2)
  | _ => some endOfStream

def shortGenerator : Generator := streamGenerator (some requestAccepted) shortStream

theorem shortStream_calls : Calls shortGenerator ⟨3, 1, 0, 0, false⟩
    [⟨1, 20, [shortMutation 1]⟩, ⟨100, 20, [shortMutation 2, endOfStream]⟩, ⟨100, 20, []⟩] ⟨3, 5, 2, 2, true⟩ := by
  exact .cons ⟨2, rfl⟩ (.cons ⟨5, rfl⟩ (.cons ⟨1, rfl⟩ (.nil _)))

theorem shortStream_exact :
    [shortMutation 1, shortMutation 2, endOfStream] = yielded shortGenerator 1 5 ∧
      ([1, 2] : List ℕ).Pairwise (· < ·) := by
  have opened : DcpStream.init shortGenerator 3 = .ok ⟨3, 1, 0, 0, false⟩ := rfl
  obtain ⟨yields, increasing, _⟩ := runs_exact opened shortStream_calls
  exact ⟨yields, increasing⟩

end Taf.Dcp.Connection
