import Mathlib
import Taf.Dcp.Traffic

/-! # One visit to a stream

A stream is waiting for its next response, paused after a timeout, closed, or hung: it ended while
it had retries left.  A visit of the traffic loop takes it from one phase to the next. -/

namespace Taf.Dcp

/-! ## The phases of a stream -/

/-- The next pass reads the response at the position of the stream. -/
structure Due (options : TrafficOptions) (k : Nat) (vb : VbStream) : Prop where
  reads : vb.feed.Reads options.vbRetry vb.position
  slot : vb.feed.slot vb.position = k + 1
  incomplete : vb.complete = false
  live : vb.ended = false
  left : vb.timedOut = options.vbRetry - vb.feed.spent vb.position
  opened : vb.streamOpen = true

/-- Where a stream is after `k` passes -/
inductive Phase (options : TrafficOptions) (k : Nat) (vb : VbStream) : Prop where
  | reading (due : Due options k vb)
  | paused (i : Nat) (position : vb.position = i + 1) (reads : vb.feed.Reads options.vbRetry i)
      (timeout : vb.feed.response i = none) (retries : vb.feed.spent i < options.vbRetry)
      (due : vb.feed.slot i = k) (complete : vb.complete = true) (live : vb.ended = false)
      (left : vb.timedOut = options.vbRetry - vb.feed.spent i) (opened : vb.streamOpen = true)
  | closed (i : Nat) (position : vb.position = i + 1) (reads : vb.feed.Reads options.vbRetry i)
      (givesUp : vb.feed.GivesUp options.vbRetry i) (past : vb.feed.slot i ≤ k)
      (complete : vb.complete = true) (left : vb.timedOut = 0)
      (opened : vb.streamOpen = true → vb.feed.response i = none ∧ vb.feed.slot i = k)
      (silent : options.streamReqInfo = true → vb.streamOpen = true)
  | hung (i : Nat) (position : vb.position = i + 1) (reads : vb.feed.Reads options.vbRetry i)
      (isEnd : vb.feed.IsEnd i) (retries : vb.feed.spent i < options.vbRetry)
      (past : vb.feed.slot i ≤ k) (incomplete : vb.complete = false) (ended : vb.ended = true)

section Phases

variable {options : TrafficOptions} {k : Nat} {vb : VbStream}

theorem Feed.Reads.of_le {feed : Feed} {retry i j : Nat} (reads : feed.Reads retry j) (le : i ≤ j) :
    feed.Reads retry i :=
  fun before less => reads before (Nat.lt_of_lt_of_le less le)

theorem Phase.complete_iff (phase : Phase options k vb) :
    vb.complete = true ↔ vb.feed.Quiet options.vbRetry k := by
  cases phase with
  | reading due =>
    refine iff_of_false (by rw [due.incomplete]; simp) ?_
    intro quiet
    have next := due.slot
    have earlier : ∀ i, vb.feed.slot i ≤ k → i < vb.position := by
      intro i past
      by_contra notLess
      have := Nat.lt_or_eq_of_le (Nat.not_lt.mp notLess)
      cases this with
      | inl later =>
        have := @slot_lt vb.feed _ _ later
        omega
      | inr same => rw [same] at next; omega
    cases quiet with
    | inl timeout =>
      obtain ⟨i, _, none, slot⟩ := timeout
      have := slot_after_timeout none (earlier i (by omega))
      omega
    | inr givenUp =>
      obtain ⟨i, _, givesUp, past⟩ := givenUp
      exact (due.reads i (earlier i past)).1 givesUp
  | paused i position reads timeout retries due complete live left opened =>
    exact iff_of_true complete (.inl ⟨i, reads, timeout, due⟩)
  | closed i position reads givesUp past complete left opened silent =>
    exact iff_of_true complete (.inr ⟨i, reads, givesUp, past⟩)
  | hung i position reads isEnd retries past incomplete ended =>
    refine iff_of_false (by rw [incomplete]; simp) ?_
    intro quiet
    cases quiet with
    | inl timeout =>
      obtain ⟨j, readsJ, none, slot⟩ := timeout
      rcases Nat.lt_trichotomy j i with less | same | more
      · have := @slot_lt vb.feed _ _ less
        omega
      · obtain ⟨flags, ended⟩ := isEnd
        rw [← same, none] at ended
        cases ended
      · exact (readsJ i more).2 isEnd
    | inr givenUp =>
      obtain ⟨j, readsJ, givesUp, _⟩ := givenUp
      have same := givesUp_unique readsJ givesUp reads (.inr isEnd)
      rw [same] at givesUp
      exact absurd givesUp.1 (Nat.not_le.mpr retries)

/-- What a stream has read was due by now. -/
theorem Phase.read_before (phase : Phase options k vb) {j : Nat} (before : j < vb.position) :
    vb.feed.Reads options.vbRetry j ∧ vb.feed.slot j ≤ k := by
  have upTo : ∀ i, vb.position = i + 1 → vb.feed.Reads options.vbRetry i → vb.feed.slot i ≤ k →
      vb.feed.Reads options.vbRetry j ∧ vb.feed.slot j ≤ k := by
    intro i position reads past
    have le : j ≤ i := by omega
    refine ⟨reads.of_le le, ?_⟩
    cases Nat.lt_or_eq_of_le le with
    | inl less =>
      have := @slot_lt vb.feed _ _ less
      omega
    | inr same => rwa [same]
  cases phase with
  | reading due =>
    have earlier := @slot_lt vb.feed _ _ before
    have next := due.slot
    exact ⟨due.reads.of_le (Nat.le_of_lt before), by omega⟩
  | paused i position reads timeout retries due complete live left opened =>
    exact upTo i position reads (Nat.le_of_eq due)
  | closed i position reads givesUp past complete left opened silent => exact upTo i position reads past
  | hung i position reads isEnd retries past incomplete ended => exact upTo i position reads past

/-- What was due by now has been read. -/
theorem Phase.before_of_read (phase : Phase options k vb) {j : Nat}
    (reads : vb.feed.Reads options.vbRetry j) (past : vb.feed.slot j ≤ k) : j < vb.position := by
  by_contra notLess
  have later := Nat.not_lt.mp notLess
  cases phase with
  | reading due =>
    have next := due.slot
    cases Nat.lt_or_eq_of_le later with
    | inl less =>
      have := @slot_lt vb.feed _ _ less
      omega
    | inr same => rw [same] at next; omega
  | paused i position readsI timeout retries due complete live left opened =>
    have := @slot_lt vb.feed _ _ (show i < j by omega)
    omega
  | closed i position readsI givesUp pastI complete left opened silent =>
    exact (reads i (by omega)).1 givesUp
  | hung i position readsI isEnd retries pastI incomplete ended =>
    exact (reads i (by omega)).2 isEnd

theorem Phase.not_closedBy (phase : Phase options k vb) (announced : options.streamReqInfo = true) :
    ¬ vb.feed.ClosedBy options.vbRetry k := by
  intro closedBy
  obtain ⟨i, reads, givesUp, past⟩ := closedBy
  have due : vb.feed.slot i ≤ k := by
    cases past with
    | inl less => exact Nat.le_of_lt less
    | inr same => exact Nat.le_of_eq same.1
  have before := phase.before_of_read reads due
  cases phase with
  | reading due => exact (due.reads i before).1 givesUp
  | paused j position readsJ timeout retries due complete live left opened =>
    cases Nat.lt_or_eq_of_le (show i ≤ j by omega) with
    | inl less => exact (readsJ i less).1 givesUp
    | inr same =>
      rw [same] at givesUp
      exact absurd givesUp.1 (Nat.not_le.mpr retries)
  | closed j position readsJ givesUpJ pastJ complete left opened silent =>
    have same := givesUp_unique reads givesUp readsJ (.inl givesUpJ)
    obtain ⟨timeout, now⟩ := opened (silent announced)
    rw [← same] at timeout now
    cases past with
    | inl less => omega
    | inr here => exact here.2 timeout
  | hung j position readsJ isEnd retries pastJ incomplete ended =>
    have same := givesUp_unique reads givesUp readsJ (.inr isEnd)
    rw [same] at givesUp
    exact absurd givesUp.1 (Nat.not_le.mpr retries)

end Phases

/-! ## One visit -/

/-- What is still to be read has a higher sequence number than what has been read. -/
def Fresh (vb : VbStream) : Prop :=
  ∀ j message, vb.position ≤ j → vb.feed.response j = some (.data message) →
    vb.lastBySeqno < message.bySeqno

/-- The output has the lines of the data messages that were read. -/
def Printed {L : Type} (options : TrafficOptions) (index : Nat) (traffic : Traffic L) (vb : VbStream) :
    Prop :=
  List.Forall₂ (fun message line => handleMutation options message = .ok (message.bySeqno, line))
    (vb.feed.messagesRead vb.position) (linesOf index traffic.outputString)

/-- A visit to the stream can raise by the given pass. -/
def Trouble (options : TrafficOptions) (feed : Feed) (k : Nat) : Prop :=
  (options.xattrs = true ∧ ∃ message ∈ feed.messages, message.xattrs ≠ none) ∨
    (options.streamReqInfo = true ∧ feed.ClosedBy options.vbRetry k)

theorem handleMutation_cases {options : TrafficOptions} (keysOn : options.keys = true)
    (message : DataMessage) :
    (∃ line, handleMutation options message = .ok (message.bySeqno, line)) ∨
      ((∃ e, handleMutation options message = .error e) ∧ options.xattrs = true ∧
        message.xattrs ≠ none) := by
  have nonempty : ∀ body xattrs : String, keyText message ++ body ++ xattrs ≠ "" := by
    intro body xattrs empty
    have lengths := congrArg String.length empty
    simp [keyText, String.length_append] at lengths
  have handled : handleMutation options message = xattrsText options message >>= fun xattrs =>
      .ok (message.bySeqno, message.opcode.name ++ " -> " ++
        (keyText message ++ (if options.docs then "BODY:" ++ message.value else "") ++ xattrs)) := by
    rw [handleMutation, if_pos keysOn]
    exact congrArg _ (funext fun xattrs => if_pos (nonempty _ xattrs))
  rw [handled, xattrsText]
  by_cases shown : options.xattrs = true
  · rw [if_pos shown]
    cases found : message.xattrs with
    | none => exact .inl ⟨_, rfl⟩
    | some xattrs => exact .inr ⟨⟨_, rfl⟩, shown, by simp⟩
  · rw [if_neg shown]
    exact .inl ⟨_, rfl⟩

theorem xattrs_eq_none_of_handled {options : TrafficOptions} (shown : options.xattrs = true)
    {message : DataMessage} {handled : Nat × String}
    (returned : handleMutation options message = .ok handled) : message.xattrs = none := by
  rw [handleMutation, xattrsText, if_pos shown] at returned
  cases found : message.xattrs with
  | none => rfl
  | some xattrs =>
    rw [found] at returned
    cases returned

section Visit

variable {L : Type} {push : L → Nat → L} {upsert : L → Nat → Nat → L} {options : TrafficOptions}
  {k index : Nat} {traffic : Traffic L} {vb : VbStream}

theorem linesOf_append (index : Nat) (before after : List OutputLine) :
    linesOf index (before ++ after) = linesOf index before ++ linesOf index after := by
  rw [linesOf, List.filter_append, List.map_append]
  rfl

/-- What a visit leaves: the stream in its next phase, and the counter and the output changed by
    what it did. -/
structure Visited (options : TrafficOptions) (index k : Nat) (traffic : Traffic L) (vb : VbStream)
    (next : Traffic L × VbStream) : Prop where
  feed : next.2.feed = vb.feed
  phase : Phase options (k + 1) next.2
  fresh : Fresh next.2
  counted : next.1.activeStreams + incomplete [vb] = traffic.activeStreams + incomplete [next.2]
  printed : Printed options index traffic vb → Printed options index next.1 next.2
  others : ∀ other, other ≠ index → linesOf other next.1.outputString =
    linesOf other traffic.outputString

/-- A visit that reads nothing and prints nothing -/
theorem visited_of_still (active : Int) (requests : List Nat) (timedOut : Nat)
    (complete streamOpen : Bool) (fresh : Fresh vb)
    (phase : Phase options (k + 1)
      { vb with complete := complete, timedOut := timedOut, streamOpen := streamOpen })
    (counted : active + incomplete [vb] = traffic.activeStreams +
      incomplete [{ vb with complete := complete, timedOut := timedOut, streamOpen := streamOpen }]) :
    Visited options index k traffic vb
      ({ traffic with activeStreams := active, closeRequests := requests },
        { vb with complete := complete, timedOut := timedOut, streamOpen := streamOpen }) where
  feed := rfl
  phase := phase
  fresh := fresh
  counted := counted
  printed := fun printed => printed
  others := fun _ _ => rfl

theorem firstTier_resting (resting : vb.complete = true ∨ vb.ended = true) :
    firstTier push upsert options index traffic vb = .ok (traffic, vb, false) :=
  if_pos resting

theorem visit_resting (resting : vb.complete = true ∨ vb.ended = true) :
    visit push upsert options index traffic vb = secondTier options traffic vb := by
  rw [visit, firstTier_resting resting]
  rfl

theorem secondTier_incomplete (unfinished : vb.complete = false) :
    secondTier options traffic vb = .ok (traffic, vb) := by
  rw [secondTier, unfinished]
  rfl

theorem secondTier_retry (complete : vb.complete = true) (left : 0 < vb.timedOut) :
    secondTier options traffic vb =
      .ok ({ traffic with activeStreams := traffic.activeStreams + 1 },
        { vb with complete := false, timedOut := vb.timedOut - 1 }) := by
  rw [secondTier, if_pos complete, if_pos left]

theorem secondTier_announced (complete : vb.complete = true) (spent : vb.timedOut = 0)
    (stillOpen : vb.streamOpen = true) (announced : options.streamReqInfo = true) :
    secondTier options traffic vb = .error .typeError := by
  have noneLeft : ¬ 0 < vb.timedOut := by omega
  rw [secondTier, if_pos complete, if_neg noneLeft, if_pos stillOpen, if_pos announced]

theorem secondTier_close (complete : vb.complete = true) (spent : vb.timedOut = 0)
    (stillOpen : vb.streamOpen = true) (unannounced : ¬ options.streamReqInfo = true) :
    secondTier options traffic vb =
      .ok ({ traffic with closeRequests := traffic.closeRequests ++ [vb.feed.vbucket] },
        { vb with streamOpen := false }) := by
  have noneLeft : ¬ 0 < vb.timedOut := by omega
  rw [secondTier, if_pos complete, if_neg noneLeft, if_pos stillOpen, if_neg unannounced]

theorem secondTier_shut (complete : vb.complete = true) (spent : vb.timedOut = 0)
    (shut : ¬ vb.streamOpen = true) : secondTier options traffic vb = .ok (traffic, vb) := by
  have noneLeft : ¬ 0 < vb.timedOut := by omega
  rw [secondTier, if_pos complete, if_neg noneLeft, if_neg shut]

theorem visit_paused (fresh : Fresh vb) {i : Nat} (position : vb.position = i + 1)
    (reads : vb.feed.Reads options.vbRetry i) (timeout : vb.feed.response i = none)
    (retries : vb.feed.spent i < options.vbRetry) (due : vb.feed.slot i = k)
    (complete : vb.complete = true) (live : vb.ended = false)
    (left : vb.timedOut = options.vbRetry - vb.feed.spent i) (opened : vb.streamOpen = true) :
    ∃ next, visit push upsert options index traffic vb = .ok next ∧
      Visited options index k traffic vb next := by
  have some : 0 < vb.timedOut := by omega
  have goesOn : ¬ vb.feed.GivesUp options.vbRetry i := fun givesUp =>
    absurd givesUp.1 (Nat.not_le.mpr retries)
  have notEnd : ¬ vb.feed.IsEnd i := by
    intro isEnd
    obtain ⟨flags, ended⟩ := isEnd
    rw [timeout] at ended
    cases ended
  have nextSlot : vb.feed.slot (i + 1) = k + 2 := by
    rw [Feed.slot, Feed.timeouts, timeout, ← due, Feed.slot]
    simp only
    omega
  have nextSpent : vb.feed.spent (i + 1) = vb.feed.spent i + 1 := by
    rw [Feed.spent, timeout]
  refine ⟨_, by rw [visit_resting (.inl complete), secondTier_retry complete some], ?_⟩
  apply visited_of_still _ traffic.closeRequests _ _ vb.streamOpen fresh
  · apply Phase.reading
    constructor
    case reads =>
      rw [position]
      exact reads.succ goesOn notEnd
    case slot =>
      rw [position]
      exact nextSlot
    case incomplete => rfl
    case live => exact live
    case left =>
      show vb.timedOut - 1 = _
      rw [position, nextSpent, left]
      omega
    case opened => exact opened
  · simp [incomplete, complete]

theorem visit_closed (fresh : Fresh vb) {i : Nat} (position : vb.position = i + 1)
    (reads : vb.feed.Reads options.vbRetry i) (givesUp : vb.feed.GivesUp options.vbRetry i)
    (past : vb.feed.slot i ≤ k) (complete : vb.complete = true) (left : vb.timedOut = 0)
    (opened : vb.streamOpen = true → vb.feed.response i = none ∧ vb.feed.slot i = k)
    (silent : options.streamReqInfo = true → vb.streamOpen = true) :
    (∃ next, visit push upsert options index traffic vb = .ok next ∧
        Visited options index k traffic vb next) ∨
      ((∃ e, visit push upsert options index traffic vb = .error e) ∧
        Trouble options vb.feed (k + 1)) := by
  have stays : ∀ requests streamOpen, (streamOpen = true → False) →
      (options.streamReqInfo = true → False) →
      Visited options index k traffic vb
        ({ traffic with closeRequests := requests }, { vb with streamOpen := streamOpen }) := by
    intro requests streamOpen shut unannounced
    apply visited_of_still traffic.activeStreams requests vb.timedOut vb.complete streamOpen fresh
    · exact .closed i position reads givesUp (Nat.le_succ_of_le past) complete left
        (fun still => (shut still).elim) (fun announced => (unannounced announced).elim)
    · rfl
  rw [visit_resting (.inl complete)]
  by_cases stillOpen : vb.streamOpen = true
  · by_cases announced : options.streamReqInfo = true
    · obtain ⟨_, now⟩ := opened stillOpen
      exact .inr ⟨⟨_, secondTier_announced complete left stillOpen announced⟩,
        .inr ⟨announced, i, reads, givesUp, .inl (by omega)⟩⟩
    · exact .inl ⟨_, secondTier_close complete left stillOpen announced,
        stays _ false (by simp) announced⟩
  · exact .inl ⟨_, secondTier_shut complete left stillOpen,
      stays traffic.closeRequests vb.streamOpen stillOpen
        fun announced => stillOpen (silent announced)⟩

theorem visit_hung (fresh : Fresh vb) {i : Nat} (position : vb.position = i + 1)
    (reads : vb.feed.Reads options.vbRetry i) (isEnd : vb.feed.IsEnd i)
    (retries : vb.feed.spent i < options.vbRetry) (past : vb.feed.slot i ≤ k)
    (incomplete : vb.complete = false) (ended : vb.ended = true) :
    ∃ next, visit push upsert options index traffic vb = .ok next ∧
      Visited options index k traffic vb next := by
  refine ⟨_, by rw [visit_resting (.inr ended), secondTier_incomplete incomplete], ?_⟩
  apply visited_of_still traffic.activeStreams traffic.closeRequests vb.timedOut vb.complete
    vb.streamOpen fresh
  · exact .hung i position reads isEnd retries (Nat.le_succ_of_le past) incomplete ended
  · rfl

/-! ### A visit that reads -/

/-- The stream after its response at the position is read -/
def VbStream.advance (vb : VbStream) : VbStream := { vb with position := vb.position + 1 }

theorem fresh_advance (fresh : Fresh vb) : Fresh vb.advance :=
  fun j message later => fresh j message (Nat.le_of_succ_le later)

theorem printed_advance_plain {outputString : List OutputLine} {log : L} {active : Int} {requests : List Nat}
    (plain : dataMessage? (vb.feed.response vb.position) = none) (silent : linesOf index outputString = [])
    (printed : Printed options index traffic vb) :
    Printed options index ⟨active, traffic.outputString ++ outputString, log, requests⟩ vb.advance := by
  rw [Printed, linesOf_append, silent, List.append_nil]
  show List.Forall₂ _ (vb.feed.messagesRead (vb.position + 1)) _
  rw [messagesRead_succ, plain, Option.toList_none, List.append_nil]
  exact printed

theorem linesOf_events (index other : Nat) (texts : List String) :
    linesOf other (texts.map (OutputLine.mk index false)) = [] := by
  simp [linesOf]

/-- The rest of a visit that has read a response -/
def respond (push : L → Nat → L) (upsert : L → Nat → Nat → L) (options : TrafficOptions) (index : Nat)
    (traffic : Traffic L) (stream : VbStream) (response : Option Response) :
    Except TrafficError (Traffic L × VbStream) :=
  match response with
  | none =>
    .ok ({ traffic with
        activeStreams := traffic.activeStreams - 1, log := push traffic.log stream.feed.vbucket },
      { stream with complete := true })
  | some (.data message) =>
    handleMutation options message >>= fun handled =>
      secondTier options { traffic with
        outputString := traffic.outputString ++ [⟨index, true, handled.2⟩]
        log := if options.failoverLogging then upsert traffic.log message.vbucket message.bySeqno
          else traffic.log } { stream with timedOut := options.vbRetry }
  | some (.marker snapStartSeqno snapEndSeqno) =>
    secondTier options traffic { stream with snapStart := snapStartSeqno, snapEnd := snapEndSeqno }
  | some (.systemEvent event) =>
    match handleSystemEvent ⟨[], stream.manifest⟩ event with
    | .error _ => .error .structError
    | .ok tracker =>
      secondTier options { traffic with
          outputString := traffic.outputString ++
            tracker.outputString.map (OutputLine.mk index false) }
        { stream with manifest := tracker.manifest }
  | some (.streamEnd _) =>
    secondTier options { traffic with
        activeStreams := traffic.activeStreams - 1, log := push traffic.log stream.feed.vbucket }
      { stream with complete := true }
  | some (.other _) => secondTier options traffic stream

theorem visit_read {response : Option Response} {stream : VbStream} (unfinished : vb.complete = false)
    (live : vb.ended = false) (next : vb.nextResponse = .ok (response, stream)) :
    visit push upsert options index traffic vb =
      respond push upsert options index traffic stream response := by
  have notResting : ¬ (vb.complete = true ∨ vb.ended = true) := by
    rw [unfinished, live]
    simp
  rw [visit, firstTier, if_neg notResting, next]
  cases response with
  | none => rfl
  | some response =>
    cases response with
    | data message =>
      show (handleMutation options message >>= _) >>= _ = handleMutation options message >>= _
      cases handleMutation options message <;> rfl
    | systemEvent event =>
      simp only [respond, bind, Except.bind]
      cases handleSystemEvent ⟨[], stream.manifest⟩ event <;> rfl
    | marker snapStartSeqno snapEndSeqno => rfl
    | streamEnd flags => rfl
    | other opcode => rfl

/-- A response that is neither data nor the end nor a timeout: the stream goes on. -/
theorem visited_plain {response : Response} {texts : List String} {manifest : DcpManifest}
    {snapStart snapEnd : Nat} (fresh : Fresh vb) (due : Due options k vb)
    (found : vb.feed.response vb.position = some response)
    (plain : dataMessage? (some response) = none) (notEnd : ¬ vb.feed.IsEnd vb.position)
    (spent : vb.feed.spent (vb.position + 1) = vb.feed.spent vb.position) :
    Visited options index k traffic vb
      ({ traffic with
          outputString := traffic.outputString ++ texts.map (OutputLine.mk index false) },
        { vb.advance with manifest := manifest, snapStart := snapStart, snapEnd := snapEnd }) where
  feed := rfl
  phase := by
    have goesOn : ¬ vb.feed.GivesUp options.vbRetry vb.position := by
      intro givesUp
      cases givesUp.2 with
      | inl timeout => rw [found] at timeout; cases timeout
      | inr isEnd => exact notEnd isEnd
    refine .reading ⟨due.reads.succ goesOn notEnd, ?_, due.incomplete, due.live, ?_, due.opened⟩
    · show vb.feed.slot (vb.position + 1) = k + 1 + 1
      rw [slot_succ_of_some found, due.slot]
    · show vb.timedOut = options.vbRetry - vb.feed.spent (vb.position + 1)
      rw [spent, due.left]
  fresh := fresh_advance fresh
  counted := by simp [incomplete, VbStream.advance]
  printed := by
    apply printed_advance_plain
    · rw [found]
      exact plain
    · exact linesOf_events index index texts
  others := by
    intro other _
    rw [linesOf_append, linesOf_events, List.append_nil]

theorem nextResponse_plain (live : vb.ended = false)
    (plain : dataMessage? (vb.feed.response vb.position) = none) (notEnd : ¬ vb.feed.IsEnd vb.position) :
    vb.nextResponse = .ok (vb.feed.response vb.position, vb.advance) := by
  have running : ¬ vb.ended = true := by rw [live]; simp
  rw [VbStream.nextResponse, if_neg running]
  cases found : vb.feed.response vb.position with
  | none => rfl
  | some response =>
    rw [found] at plain
    cases response with
    | data message => cases plain
    | streamEnd flags => exact absurd ⟨flags, found⟩ notEnd
    | marker snapStart snapEnd => rfl
    | systemEvent event => rfl
    | other opcode => rfl

theorem nextResponse_end (live : vb.ended = false) {flags : Nat}
    (found : vb.feed.response vb.position = some (.streamEnd flags)) :
    vb.nextResponse = .ok (some (.streamEnd flags), { vb.advance with ended := true }) := by
  have running : ¬ vb.ended = true := by rw [live]; simp
  rw [VbStream.nextResponse, if_neg running, found]
  rfl

theorem nextResponse_data (live : vb.ended = false) (fresh : Fresh vb) {message : DataMessage}
    (found : vb.feed.response vb.position = some (.data message)) :
    vb.nextResponse = .ok (some (.data message),
      { vb.advance with
        lastBySeqno := message.bySeqno, mutationCount := vb.mutationCount + 1 }) := by
  have running : ¬ vb.ended = true := by rw [live]; simp
  have asserted : message.vbucket = vb.feed.vbucket ∧ vb.lastBySeqno < message.bySeqno :=
    ⟨vb.feed.vbuckets message (mem_messages_of_data found),
      fresh vb.position message (Nat.le_refl _) found⟩
  rw [VbStream.nextResponse, if_neg running, found]
  exact if_pos asserted

theorem visit_data (keysOn : options.keys = true) (fresh : Fresh vb) (due : Due options k vb)
    {message : DataMessage} (found : vb.feed.response vb.position = some (.data message)) :
    (∃ next, visit push upsert options index traffic vb = .ok next ∧
        Visited options index k traffic vb next) ∨
      ((∃ e, visit push upsert options index traffic vb = .error e) ∧
        Trouble options vb.feed (k + 1)) := by
  have read := nextResponse_data due.live fresh found
  rw [visit_read due.incomplete due.live read, respond]
  rcases handleMutation_cases keysOn message with ⟨line, handled⟩ | ⟨⟨e, raised⟩, shown, xattrs⟩
  · refine .inl ⟨_, by rw [handled]; exact secondTier_incomplete due.incomplete, ?_⟩
    have notEnd : ¬ vb.feed.IsEnd vb.position := by
      intro isEnd
      obtain ⟨flags, ended⟩ := isEnd
      rw [found] at ended
      cases ended
    have goesOn : ¬ vb.feed.GivesUp options.vbRetry vb.position := by
      intro givesUp
      cases givesUp.2 with
      | inl timeout => rw [found] at timeout; cases timeout
      | inr isEnd => exact notEnd isEnd
    constructor
    case feed => rfl
    case phase =>
      refine .reading ⟨due.reads.succ goesOn notEnd, ?_, due.incomplete, due.live, ?_, due.opened⟩
      · show vb.feed.slot (vb.position + 1) = k + 1 + 1
        rw [slot_succ_of_some found, due.slot]
      · show options.vbRetry = options.vbRetry - vb.feed.spent (vb.position + 1)
        rw [Feed.spent, found]
        rfl
    case fresh => exact fun j later after found' => seqno_lt (Nat.lt_of_succ_le after) found found'
    case counted => rfl
    case printed =>
      intro printed
      show List.Forall₂ _ (vb.feed.messagesRead (vb.position + 1)) _
      rw [messagesRead_succ, found, linesOf_append]
      have this : linesOf index [⟨index, true, line⟩] = [line] := by simp [linesOf]
      rw [this]
      exact List.rel_append printed (.cons handled .nil)
    case others =>
      intro other different
      have none : linesOf other [⟨index, true, line⟩] = [] := by simp [linesOf, different.symm]
      rw [linesOf_append, none, List.append_nil]
  · rw [raised]
    exact .inr ⟨⟨e, rfl⟩, .inl ⟨shown, message, mem_messages_of_data found, xattrs⟩⟩

theorem visit_timeout (fresh : Fresh vb) (due : Due options k vb)
    (found : vb.feed.response vb.position = none) :
    ∃ next, visit push upsert options index traffic vb = .ok next ∧
      Visited options index k traffic vb next := by
  have notEnd : ¬ vb.feed.IsEnd vb.position := by
    intro isEnd
    obtain ⟨flags, ended⟩ := isEnd
    rw [found] at ended
    cases ended
  have read := nextResponse_plain due.live (by rw [found]; rfl) notEnd
  refine ⟨_, by rw [visit_read due.incomplete due.live read, found, respond], ?_⟩
  constructor
  case feed => rfl
  case phase =>
    by_cases retries : vb.feed.spent vb.position < options.vbRetry
    · exact .paused vb.position rfl due.reads found retries due.slot rfl due.live due.left due.opened
    · have spent := Nat.not_lt.mp retries
      have none : vb.timedOut = 0 := by rw [due.left]; omega
      exact .closed vb.position rfl due.reads ⟨spent, .inl found⟩ (Nat.le_of_eq due.slot) rfl none
        (fun _ => ⟨found, due.slot⟩) (fun _ => due.opened)
  case fresh => exact fresh_advance fresh
  case counted =>
    simp only [incomplete, List.countP_singleton, due.incomplete]
    simp
  case printed =>
    intro printed
    have plain := @printed_advance_plain L options index traffic vb [] (push traffic.log vb.feed.vbucket)
      (traffic.activeStreams - 1) traffic.closeRequests (by rw [found]; rfl) rfl printed
    rw [List.append_nil] at plain
    exact plain
  case others => exact fun _ _ => rfl

theorem visit_end (fresh : Fresh vb) (due : Due options k vb) {flags : Nat}
    (found : vb.feed.response vb.position = some (.streamEnd flags)) :
    (∃ next, visit push upsert options index traffic vb = .ok next ∧
        Visited options index k traffic vb next) ∨
      ((∃ e, visit push upsert options index traffic vb = .error e) ∧
        Trouble options vb.feed (k + 1)) := by
  have isEnd : vb.feed.IsEnd vb.position := ⟨flags, found⟩
  have visited : ∀ (active : Int) requests complete timedOut streamOpen,
      Phase options (k + 1) { vb.advance with
        ended := true, complete := complete, timedOut := timedOut, streamOpen := streamOpen } →
      active + 1 = traffic.activeStreams + (if complete then 0 else 1) →
      Visited options index k traffic vb
        (⟨active, traffic.outputString, push traffic.log vb.feed.vbucket, requests⟩,
          { vb.advance with
            ended := true, complete := complete, timedOut := timedOut, streamOpen := streamOpen }) := by
    intro active requests complete timedOut streamOpen phase counted
    refine ⟨rfl, phase, fresh_advance fresh, ?_, ?_, fun _ _ => rfl⟩
    · simp only [incomplete, List.countP_singleton, due.incomplete]
      cases complete with
      | true => simpa using counted
      | false => simpa using counted
    · intro printed
      have plain := @printed_advance_plain L options index traffic vb []
        (push traffic.log vb.feed.vbucket) active requests (by rw [found]; rfl) rfl printed
      rw [List.append_nil] at plain
      exact plain
  rw [visit_read due.incomplete due.live (nextResponse_end due.live found), respond]
  by_cases retries : vb.feed.spent vb.position < options.vbRetry
  · have left : 0 < vb.timedOut := by rw [due.left]; omega
    refine .inl ⟨_, secondTier_retry rfl left, visited _ _ false _ vb.streamOpen ?_ (by simp)⟩
    exact .hung vb.position rfl due.reads isEnd retries (Nat.le_of_eq due.slot) rfl rfl
  · have spent := Nat.not_lt.mp retries
    have none : vb.timedOut = 0 := by rw [due.left]; omega
    have givesUp : vb.feed.GivesUp options.vbRetry vb.position := ⟨spent, .inr isEnd⟩
    by_cases announced : options.streamReqInfo = true
    · exact .inr ⟨⟨_, secondTier_announced rfl none due.opened announced⟩, .inr ⟨announced, vb.position,
        due.reads, givesUp, .inr ⟨due.slot, by rw [found]; simp⟩⟩⟩
    · refine .inl ⟨_, secondTier_close rfl none due.opened announced,
        visited _ _ true vb.timedOut false ?_ (by simp)⟩
      exact .closed vb.position rfl due.reads givesUp (Nat.le_of_eq due.slot) rfl none
        (fun shut => by cases shut) (fun shown => absurd shown announced)

/-- Every visit takes the stream to its next phase or raises for a known reason. -/
theorem visit_outcome (keysOn : options.keys = true) (phase : Phase options k vb) (fresh : Fresh vb) :
    (∃ next, visit push upsert options index traffic vb = .ok next ∧
        Visited options index k traffic vb next) ∨
      ((∃ e, visit push upsert options index traffic vb = .error e) ∧
        Trouble options vb.feed (k + 1)) := by
  cases phase with
  | paused i position reads timeout retries due complete live left opened =>
    exact .inl (visit_paused fresh position reads timeout retries due complete live left opened)
  | closed i position reads givesUp past complete left opened silent =>
    exact visit_closed fresh position reads givesUp past complete left opened silent
  | hung i position reads isEnd retries past incomplete ended =>
    exact .inl (visit_hung fresh position reads isEnd retries past incomplete ended)
  | reading due =>
    cases found : vb.feed.response vb.position with
    | none => exact .inl (visit_timeout fresh due found)
    | some response =>
      have plainEnd : (∀ flags, response ≠ .streamEnd flags) → ¬ vb.feed.IsEnd vb.position := by
        intro different isEnd
        obtain ⟨flags, ended⟩ := isEnd
        rw [found] at ended
        exact different flags (Option.some.inj ended)
      cases response with
      | data message => exact visit_data keysOn fresh due found
      | streamEnd flags => exact visit_end fresh due found
      | marker snapStart snapEnd =>
        have notEnd := plainEnd (by simp)
        have read := nextResponse_plain due.live (by rw [found]; rfl) notEnd
        have visited := @visited_plain L options k index traffic vb _ [] vb.manifest snapStart snapEnd
          fresh due found rfl notEnd (by rw [Feed.spent, found])
        rw [List.map_nil, List.append_nil] at visited
        refine .inl ⟨_, ?_, visited⟩
        rw [visit_read due.incomplete due.live read, found]
        exact secondTier_incomplete due.incomplete
      | systemEvent event =>
        have notEnd := plainEnd (by simp)
        have read := nextResponse_plain due.live (by rw [found]; rfl) notEnd
        obtain ⟨tracker, handled⟩ :=
          vb.feed.unpacks event (mem_responses_of_event found) ⟨[], vb.manifest⟩
        refine .inl ⟨_, ?_, @visited_plain L options k index traffic vb _ tracker.outputString
          tracker.manifest vb.snapStart vb.snapEnd fresh due found rfl notEnd
          (by rw [Feed.spent, found])⟩
        rw [visit_read due.incomplete due.live read, found, respond]
        show (match handleSystemEvent ⟨[], vb.manifest⟩ event with
          | Except.error _ => Except.error TrafficError.structError
          | Except.ok tracker => _) = _
        rw [handled]
        exact secondTier_incomplete due.incomplete
      | other opcode =>
        have notEnd := plainEnd (by simp)
        have read := nextResponse_plain due.live (by rw [found]; rfl) notEnd
        have visited := @visited_plain L options k index traffic vb _ [] vb.manifest vb.snapStart
          vb.snapEnd fresh due found rfl notEnd (by rw [Feed.spent, found])
        rw [List.map_nil, List.append_nil] at visited
        refine .inl ⟨_, ?_, visited⟩
        rw [visit_read due.incomplete due.live read, found]
        exact secondTier_incomplete due.incomplete

end Visit

end Taf.Dcp
