import Mathlib
import Taf.Dcp.ManifestTracking

/-! # The DCP traffic loop

`process_dcp_traffic` and `handleMutation` of `couchbase_utils/dcp_utils/dcp_ready_functions.py` over
`DcpStream.next_response` of `lib/dcp_bin_client.py`.  One pass of the loop asks every stream that
is not complete for a response; a stream that is complete is taken up again as long as it has
retries left. -/

namespace Taf.Dcp

open Taf.Lib

inductive TrafficError where
  | assertionError
  | structError
  | typeError
  deriving DecidableEq

inductive DataOpcode where
  | mutation
  | deletion
  | expiration
  deriving DecidableEq

/-- `DCP_Opcode_Dictionary` -/
def DataOpcode.name : DataOpcode → String
  | .mutation => "CMD_MUTATION"
  | .deletion => "CMD_DELETION"
  | .expiration => "CMD_EXPIRATION"

structure DataMessage where
  opcode : DataOpcode
  vbucket : Nat
  bySeqno : Nat
  streamId : Option Nat
  key : String
  collectionId : Nat
  value : String
  xattrs : Option (List (String × String))

inductive Response where
  | data (message : DataMessage)
  | marker (snapStartSeqno snapEndSeqno : Nat)
  | systemEvent (event : SystemEvent)
  | streamEnd (flags : Nat)
  | other (opcode : Nat)

def dataMessage? : Option Response → Option DataMessage
  | some (.data message) => some message
  | _ => none

/-- What a stream answers: finitely many responses, of which `none` is a timeout, and then the end
    of the stream (with its flags) or timeouts for ever. -/
structure Feed where
  vbucket : Nat
  responses : List (Option Response)
  ends : Option Nat
  continues : ∀ response ∈ responses, ∀ flags, response ≠ some (.streamEnd flags)
  vbuckets : ∀ message ∈ responses.filterMap dataMessage?, message.vbucket = vbucket
  ordered : (0 :: (responses.filterMap dataMessage?).map DataMessage.bySeqno).Pairwise (· < ·)
  unpacks : ∀ event, some (.systemEvent event) ∈ responses → ∀ tracker,
    ∃ next, handleSystemEvent tracker event = .ok next

def Feed.response (feed : Feed) (i : Nat) : Option Response :=
  feed.responses[i]?.getD (feed.ends.map .streamEnd)

def Feed.messages (feed : Feed) : List DataMessage := feed.responses.filterMap dataMessage?

structure TrafficOptions where
  vbRetry : Nat
  keys : Bool
  docs : Bool
  xattrs : Bool
  streamReqInfo : Bool
  failoverLogging : Bool

/-- An entry of `streams` with the state of its `DcpStream` -/
structure VbStream where
  feed : Feed
  position : Nat
  lastBySeqno : Nat
  mutationCount : Nat
  ended : Bool
  complete : Bool
  timedOut : Nat
  streamOpen : Bool
  manifest : DcpManifest
  snapStart : Nat
  snapEnd : Nat

def VbStream.new (options : TrafficOptions) (feed : Feed) : VbStream :=
  ⟨feed, 0, 0, 0, false, false, options.vbRetry, true, .initial, 0, 0⟩

def VbStream.nextResponse (vb : VbStream) : Except TrafficError (Option Response × VbStream) :=
  if vb.ended then .ok (none, vb)
  else
    let response := vb.feed.response vb.position
    let stream := { vb with position := vb.position + 1 }
    match response with
    | some (.data message) =>
      if message.vbucket = vb.feed.vbucket ∧ vb.lastBySeqno < message.bySeqno then
        .ok (response,
          { stream with lastBySeqno := message.bySeqno, mutationCount := vb.mutationCount + 1 })
      else .error .assertionError
    | some (.streamEnd _) => .ok (response, { stream with ended := true })
    | _ => .ok (response, stream)

/-- The text for the extended attributes; joining a list to a string raises. -/
def xattrsText (options : TrafficOptions) (response : DataMessage) : Except TrafficError String :=
  if options.xattrs then
    match response.xattrs with
    | some _ => .error .typeError
    | none => .ok " XATTRS: - "
  else .ok ""

def keyText (response : DataMessage) : String :=
  "KEY:" ++ response.key ++ " from collection:" ++ toString response.collectionId ++ ", vb:" ++
    toString response.vbucket ++ " sid:" ++ response.streamId.elim "None" toString ++ " "

/-- With nothing to print it returns `None`, which its caller cannot unpack. -/
def handleMutation (options : TrafficOptions) (response : DataMessage) :
    Except TrafficError (Nat × String) := do
  let keys := if options.keys then keyText response else ""
  let body := if options.docs then "BODY:" ++ response.value else ""
  let xattrs ← xattrsText options response
  let outputString := keys ++ body ++ xattrs
  if outputString ≠ "" then .ok (response.bySeqno, response.opcode.name ++ " -> " ++ outputString)
  else .error .typeError

/-- An entry of the output with the stream it is from, and whether it is for a data message -/
structure OutputLine where
  stream : Nat
  data : Bool
  text : String
  deriving DecidableEq

/-- What the streams share: the counter, the output, the log and the close requests sent -/
structure Traffic (L : Type) where
  activeStreams : Int
  outputString : List OutputLine
  log : L
  closeRequests : List Nat

section Loop

-- `push_sequence_no` and `upsert_sequence_no` of the log
variable {L : Type} (push : L → Nat → L) (upsert : L → Nat → Nat → L) (options : TrafficOptions)

/-- The first part of the body: the last component is set by the `continue`. -/
def firstTier (index : Nat) (traffic : Traffic L) (vb : VbStream) :
    Except TrafficError (Traffic L × VbStream × Bool) :=
  if vb.complete ∨ vb.ended then .ok (traffic, vb, false)
  else do
    let read ← vb.nextResponse
    let vb := read.2
    match read.1 with
    | none =>
      .ok ({ traffic with
          activeStreams := traffic.activeStreams - 1, log := push traffic.log vb.feed.vbucket },
        { vb with complete := true }, true)
    | some (.data message) =>
      let handled ← handleMutation options message
      .ok ({ traffic with
          outputString := traffic.outputString ++ [⟨index, true, handled.2⟩]
          log := if options.failoverLogging then upsert traffic.log message.vbucket message.bySeqno
            else traffic.log },
        { vb with timedOut := options.vbRetry }, false)
    | some (.marker snapStartSeqno snapEndSeqno) =>
      .ok (traffic, { vb with snapStart := snapStartSeqno, snapEnd := snapEndSeqno }, false)
    | some (.systemEvent event) =>
      match handleSystemEvent ⟨[], vb.manifest⟩ event with
      | .error _ => .error .structError
      | .ok tracker =>
        .ok ({ traffic with
            outputString := traffic.outputString ++ tracker.outputString.map (OutputLine.mk index false) },
          { vb with manifest := tracker.manifest }, false)
    | some (.streamEnd _) =>
      .ok ({ traffic with
          activeStreams := traffic.activeStreams - 1, log := push traffic.log vb.feed.vbucket },
        { vb with complete := true }, false)
    | some (.other _) => .ok (traffic, vb, false)

def secondTier (traffic : Traffic L) (vb : VbStream) : Except TrafficError (Traffic L × VbStream) :=
  if vb.complete then
    if 0 < vb.timedOut then
      .ok ({ traffic with activeStreams := traffic.activeStreams + 1 },
        { vb with complete := false, timedOut := vb.timedOut - 1 })
    else if vb.streamOpen then
      if options.streamReqInfo then .error .typeError
      else
        .ok ({ traffic with closeRequests := traffic.closeRequests ++ [vb.feed.vbucket] },
          { vb with streamOpen := false })
    else .ok (traffic, vb)
  else .ok (traffic, vb)

def visit (index : Nat) (traffic : Traffic L) (vb : VbStream) :
    Except TrafficError (Traffic L × VbStream) := do
  let first ← firstTier push upsert options index traffic vb
  if first.2.2 then .ok (first.1, first.2.1) else secondTier options first.1 first.2.1

/-- The `for` loop, from the stream with the given index on -/
def pass (index : Nat) (traffic : Traffic L) : List VbStream →
    Except TrafficError (Traffic L × List VbStream)
  | [] => .ok (traffic, [])
  | vb :: streams => do
    let visited ← visit push upsert options index traffic vb
    let rest ← pass (index + 1) visited.1 streams
    .ok (rest.1, visited.2 :: rest.2)

/-- The `while` loop, of which at most `fuel` passes are made; `none` stands for a run that is not
    over by then. -/
def processDcpTraffic (fuel : Nat) (traffic : Traffic L) (streams : List VbStream) :
    Option (Except TrafficError (Traffic L × List VbStream)) :=
  if 0 < traffic.activeStreams then
    match fuel with
    | 0 => none
    | fuel + 1 =>
      match pass push upsert options 0 traffic streams with
      | .error e => some (.error e)
      | .ok next => processDcpTraffic fuel next.1 next.2
  else some (.ok (traffic, streams))

end Loop

/-! ## When a stream is read

A pass reads one response of a stream, and a pass after a timeout only takes the stream up again.
Nothing of this depends on the other streams. -/

namespace Feed

/-- The timeouts among the first responses -/
def timeouts (feed : Feed) : Nat → Nat
  | 0 => 0
  | i + 1 =>
    match feed.response i with
    | none => feed.timeouts i + 1
    | some _ => feed.timeouts i

/-- The timeouts among the first responses that come after the last data message of them -/
def spent (feed : Feed) : Nat → Nat
  | 0 => 0
  | i + 1 =>
    match feed.response i with
    | none => feed.spent i + 1
    | some (.data _) => 0
    | some _ => feed.spent i

/-- The pass in which a response is read -/
def slot (feed : Feed) (i : Nat) : Nat := i + 1 + feed.timeouts i

def IsEnd (feed : Feed) (i : Nat) : Prop := ∃ flags, feed.response i = some (.streamEnd flags)

/-- A timeout or the end of the stream that finds no retries left -/
def GivesUp (feed : Feed) (retry i : Nat) : Prop :=
  retry ≤ feed.spent i ∧ (feed.response i = none ∨ feed.IsEnd i)

/-- No response before this one is the last that is read. -/
def Reads (feed : Feed) (retry i : Nat) : Prop :=
  ∀ j < i, ¬ feed.GivesUp retry j ∧ ¬ feed.IsEnd j

/-- The stream is complete after the given number of passes: the last of them read a timeout, or it
    was given up in one of them. -/
def Quiet (feed : Feed) (retry passes : Nat) : Prop :=
  (∃ i, feed.Reads retry i ∧ feed.response i = none ∧ feed.slot i = passes) ∨
    ∃ i, feed.Reads retry i ∧ feed.GivesUp retry i ∧ feed.slot i ≤ passes

/-- The stream is closed in one of the passes: in the one that reads its end, or in the one after
    the last timeout. -/
def ClosedBy (feed : Feed) (retry passes : Nat) : Prop :=
  ∃ i, feed.Reads retry i ∧ feed.GivesUp retry i ∧
    (feed.slot i < passes ∨ (feed.slot i = passes ∧ feed.response i ≠ none))

/-- All the data messages are read in the given number of passes. -/
def Delivered (feed : Feed) (retry passes : Nat) : Prop :=
  ∀ i message, feed.response i = some (.data message) → feed.Reads retry i ∧ feed.slot i ≤ passes

end Feed

/-- The passes after which all the streams are complete for the first time: everything has been
    read by then, and nothing that was printed raises. -/
structure Settles (options : TrafficOptions) (feeds : List Feed) (passes : Nat) : Prop where
  quiet : ∀ feed ∈ feeds, feed.Quiet options.vbRetry passes
  first : ∀ k < passes, ∃ feed ∈ feeds, ¬ feed.Quiet options.vbRetry k
  delivered : ∀ feed ∈ feeds, feed.Delivered options.vbRetry passes
  printable : options.xattrs = true → ∀ feed ∈ feeds, ∀ message ∈ feed.messages, message.xattrs = none
  unannounced : options.streamReqInfo = true → ∀ feed ∈ feeds, ¬ feed.ClosedBy options.vbRetry passes

/-! ## What the loop is for -/

def incomplete (streams : List VbStream) : Nat := streams.countP fun vb => !vb.complete

/-- The texts of the output for the data messages of a stream -/
def linesOf (index : Nat) (outputString : List OutputLine) : List String :=
  (outputString.filter fun line => line.stream = index ∧ line.data).map OutputLine.text

section Property

variable {L : Type} (push : L → Nat → L) (upsert : L → Nat → Nat → L) (options : TrafficOptions)

def startTraffic (log : L) (feeds : List Feed) : Traffic L := ⟨feeds.length, [], log, []⟩

def startStreams (feeds : List Feed) : List VbStream := feeds.map (VbStream.new options)

/-- The states in which the condition of the `while` loop is tested -/
inductive Head (log : L) (feeds : List Feed) : Traffic L → List VbStream → Prop where
  | first : Head log feeds (startTraffic log feeds) (startStreams options feeds)
  | next {traffic : Traffic L} {streams : List VbStream} {after : Traffic L × List VbStream} :
      Head log feeds traffic streams → 0 < traffic.activeStreams →
      pass push upsert options 0 traffic streams = .ok after → Head log feeds after.1 after.2

/-- At every head of the two loops the counter is the number of streams that are not complete. -/
def Counted (log : L) (feeds : List Feed) : Prop :=
  ∀ traffic streams, Head push upsert options log feeds traffic streams →
    ∀ before after, streams = before ++ after →
      ∀ visited, pass push upsert options 0 traffic before = .ok visited →
        visited.1.activeStreams = incomplete visited.2 + incomplete after

/-- The loop returns, and the output has one line for every data message of every stream, in the
    order of the stream. -/
def Returns (log : L) (feeds : List Feed) : Prop :=
  ∃ fuel traffic streams,
    processDcpTraffic push upsert options fuel (startTraffic log feeds) (startStreams options feeds) =
        some (.ok (traffic, streams)) ∧
      ∀ index feed, feeds[index]? = some feed →
        List.Forall₂ (fun message line => handleMutation options message = .ok (message.bySeqno, line))
          feed.messages (linesOf index traffic.outputString)

end Property

/-! ## The responses of a feed -/

section Feeds

variable {feed : Feed} {retry i j : Nat}

theorem response_of_lt (inside : i < feed.responses.length) :
    feed.response i = feed.responses[i] := by
  rw [Feed.response, List.getElem?_eq_getElem inside, Option.getD_some]

theorem response_of_ge (outside : feed.responses.length ≤ i) :
    feed.response i = feed.ends.map .streamEnd := by
  rw [Feed.response, List.getElem?_eq_none outside, Option.getD_none]

theorem lt_length_of_data {message : DataMessage} (data : feed.response i = some (.data message)) :
    i < feed.responses.length := by
  by_contra outside
  rw [response_of_ge (Nat.not_lt.mp outside)] at data
  cases ends : feed.ends with
  | none => rw [ends] at data; cases data
  | some flags => rw [ends] at data; cases data

theorem mem_responses_of_event {event : SystemEvent}
    (found : feed.response i = some (.systemEvent event)) :
    some (.systemEvent event) ∈ feed.responses := by
  have inside : i < feed.responses.length := by
    by_contra outside
    rw [response_of_ge (Nat.not_lt.mp outside)] at found
    cases ends : feed.ends with
    | none => rw [ends] at found; cases found
    | some flags => rw [ends] at found; cases found
  rw [response_of_lt inside] at found
  rw [← found]
  exact List.getElem_mem inside

theorem mem_messages_of_data {message : DataMessage} (data : feed.response i = some (.data message)) :
    message ∈ feed.messages := by
  have inside := lt_length_of_data data
  rw [response_of_lt inside] at data
  exact List.mem_filterMap.mpr ⟨_, List.getElem_mem inside, by rw [data]; rfl⟩

theorem seqno_pos {message : DataMessage} (data : feed.response i = some (.data message)) :
    0 < message.bySeqno :=
  (List.pairwise_cons.mp feed.ordered).1 _ (List.mem_map_of_mem (mem_messages_of_data data))

theorem seqno_lt {message later : DataMessage} (before : i < j)
    (data : feed.response i = some (.data message)) (dataLater : feed.response j = some (.data later)) :
    message.bySeqno < later.bySeqno := by
  have ordered := (List.pairwise_cons.mp feed.ordered).2
  rw [List.pairwise_map, List.pairwise_filterMap, List.pairwise_iff_getElem] at ordered
  have inside := lt_length_of_data data
  have insideLater := lt_length_of_data dataLater
  rw [response_of_lt inside] at data
  rw [response_of_lt insideLater] at dataLater
  exact ordered i j inside insideLater before message (by rw [data]; rfl) later (by rw [dataLater]; rfl)

/-- The data messages among the first responses -/
def Feed.messagesRead (feed : Feed) (i : Nat) : List DataMessage :=
  (feed.responses.take i).filterMap dataMessage?

theorem messagesRead_succ (feed : Feed) (i : Nat) :
    feed.messagesRead (i + 1) = feed.messagesRead i ++ (dataMessage? (feed.response i)).toList := by
  rw [Feed.messagesRead, List.take_add_one, List.filterMap_append, ← Feed.messagesRead]
  by_cases inside : i < feed.responses.length
  · rw [response_of_lt inside, List.getElem?_eq_getElem inside]
    cases found : dataMessage? feed.responses[i] <;> simp [found]
  · have outside := Nat.not_lt.mp inside
    rw [response_of_ge outside, List.getElem?_eq_none outside]
    cases feed.ends <;> rfl

theorem slot_lt (less : i < j) : feed.slot i < feed.slot j := by
  have mono : ∀ j, i ≤ j → feed.timeouts i ≤ feed.timeouts j := by
    intro j less
    induction j, less using Nat.le_induction with
    | base => exact Nat.le_refl _
    | succ j _ ih =>
      rw [Feed.timeouts]
      split <;> omega
  have := mono j (Nat.le_of_lt less)
  rw [Feed.slot, Feed.slot]
  omega

/-- The pass after a timeout reads nothing. -/
theorem slot_after_timeout (timeout : feed.response i = none) (less : i < j) :
    feed.slot i + 2 ≤ feed.slot j := by
  have next : feed.slot (i + 1) = feed.slot i + 2 := by
    rw [Feed.slot, Feed.slot, Feed.timeouts, timeout]
    simp only
    omega
  rw [← next]
  by_cases later : i + 1 < j
  · exact Nat.le_of_lt (slot_lt later)
  · have same : j = i + 1 := by omega
    rw [same]

theorem slot_succ_of_some {response : Response} (found : feed.response i = some response) :
    feed.slot (i + 1) = feed.slot i + 1 := by
  rw [Feed.slot, Feed.slot, Feed.timeouts, found]
  simp only
  omega

theorem Feed.Reads.succ (reads : feed.Reads retry i) (goesOn : ¬ feed.GivesUp retry i)
    (notEnd : ¬ feed.IsEnd i) : feed.Reads retry (i + 1) := by
  intro j less
  rcases Nat.lt_succ_iff_lt_or_eq.mp less with before | rfl
  · exact reads j before
  · exact ⟨goesOn, notEnd⟩

/-- A stream is given up at one response only. -/
theorem givesUp_unique (reads : feed.Reads retry i) (givesUp : feed.GivesUp retry i)
    (reads' : feed.Reads retry j) (stops : feed.GivesUp retry j ∨ feed.IsEnd j) : i = j := by
  rcases Nat.lt_trichotomy i j with less | same | more
  · exact absurd givesUp (reads' i less).1
  · exact same
  · cases stops with
    | inl givesUp' => exact absurd givesUp' (reads j more).1
    | inr isEnd => exact absurd isEnd (reads j more).2

end Feeds

end Taf.Dcp
