import Mathlib
import Taf.Dcp.TrafficPhases
import Taf.Lib.Run

/-! # The traffic loop over all the streams

The streams do not influence each other, so that a pass takes each of them to its next phase.  The
loop ends in the first pass after which all of them are complete at the same time. -/

namespace Taf.Dcp

/-! ## One pass -/

section Pass

variable {L : Type} {push : L → Nat → L} {upsert : L → Nat → Nat → L} {options : TrafficOptions}
  {k index : Nat} {traffic : Traffic L} {streams : List VbStream}

/-- The streams are where they are after `k` passes, and what they have read is printed. -/
structure Carried (options : TrafficOptions) (index k : Nat) (traffic : Traffic L)
    (streams : List VbStream) : Prop where
  phases : ∀ vb ∈ streams, Phase options k vb ∧ Fresh vb
  printed : ∀ n vb, streams[n]? = some vb → Printed options (index + n) traffic vb

/-- What a pass leaves -/
structure Passed (options : TrafficOptions) (index k : Nat) (traffic : Traffic L)
    (streams : List VbStream) (next : Traffic L × List VbStream) : Prop where
  carried : Carried options index (k + 1) next.1 next.2
  feeds : next.2.map VbStream.feed = streams.map VbStream.feed
  counted : next.1.activeStreams + incomplete streams = traffic.activeStreams + incomplete next.2
  others : ∀ other < index, linesOf other next.1.outputString = linesOf other traffic.outputString

theorem incomplete_cons (vb : VbStream) (streams : List VbStream) :
    incomplete (vb :: streams) = incomplete [vb] + incomplete streams := by
  rw [incomplete, ← List.singleton_append, List.countP_append]
  rfl

theorem pass_outcome (keysOn : options.keys = true) (carried : Carried options index k traffic streams) :
    (∃ next, pass push upsert options index traffic streams = .ok next ∧
        Passed options index k traffic streams next) ∨
      ((∃ e, pass push upsert options index traffic streams = .error e) ∧
        ∃ vb ∈ streams, Trouble options vb.feed (k + 1)) := by
  induction streams generalizing index traffic with
  | nil =>
    refine .inl ⟨_, rfl, ⟨?_, ?_⟩, rfl, rfl, fun _ _ => rfl⟩
    · simp
    · simp
  | cons vb streams ih =>
    obtain ⟨phase, fresh⟩ := carried.phases vb List.mem_cons_self
    rcases @visit_outcome L push upsert options k index traffic vb keysOn phase fresh with
      ⟨first, visited, done⟩ | ⟨⟨e, raised⟩, trouble⟩
    · have restCarried : Carried options (index + 1) k first.1 streams := by
        constructor
        · exact fun later member => carried.phases later (List.mem_cons_of_mem _ member)
        · intro n later found
          have before := carried.printed (n + 1) later (by simpa using found)
          rw [Printed, done.others _ (by omega), show index + 1 + n = index + (n + 1) by omega]
          exact before
      rcases ih restCarried with ⟨rest, passed, restDone⟩ | ⟨⟨e, raised⟩, later, member, trouble⟩
      · refine .inl ⟨(rest.1, first.2 :: rest.2), ?_, ⟨?_, ?_⟩, ?_, ?_, ?_⟩
        · rw [pass, visited]
          show (pass push upsert options (index + 1) first.1 streams >>= _) = _
          rw [passed]
          rfl
        · intro visitedVb member
          cases member with
          | head => exact ⟨done.phase, done.fresh⟩
          | tail _ member => exact restDone.carried.phases visitedVb member
        · intro n visitedVb found
          cases n with
          | zero =>
            cases found
            have here := done.printed (carried.printed 0 vb rfl)
            rw [Printed, Nat.add_zero, restDone.others index (Nat.lt_succ_self index)]
            exact here
          | succ n =>
            have there := restDone.carried.printed n visitedVb (by simpa using found)
            rw [show index + 1 + n = index + (n + 1) by omega] at there
            exact there
        · rw [List.map_cons, List.map_cons, restDone.feeds, done.feed]
        · have here := done.counted
          have there := restDone.counted
          rw [incomplete_cons vb, incomplete_cons first.2]
          push_cast
          linarith
        · intro other less
          rw [restDone.others other (by omega), done.others other (by omega)]
      · refine .inr ⟨⟨e, ?_⟩, later, List.mem_cons_of_mem _ member, trouble⟩
        rw [pass, visited]
        show (pass push upsert options (index + 1) first.1 streams >>= _) = _
        rw [raised]
        rfl
    · refine .inr ⟨⟨e, ?_⟩, vb, List.mem_cons_self, trouble⟩
      rw [pass, raised]
      rfl

theorem Carried.of_prefix {before after : List VbStream}
    (carried : Carried options index k traffic (before ++ after)) :
    Carried options index k traffic before where
  phases := fun vb member => carried.phases vb (List.mem_append_left after member)
  printed := by
    intro n vb found
    apply carried.printed n vb
    have inside : n < before.length := by
      by_contra outside
      rw [List.getElem?_eq_none (Nat.not_lt.mp outside)] at found
      cases found
    rw [List.getElem?_append_left inside]
    exact found

end Pass

/-! ## The whole loop -/

section Loop

variable {L : Type} {push : L → Nat → L} {upsert : L → Nat → Nat → L} {options : TrafficOptions}
  {log : L} {feeds : List Feed} {traffic : Traffic L} {streams : List VbStream} {k : Nat}

/-- A head of the `while` loop after `k` passes -/
structure HeadState (options : TrafficOptions) (feeds : List Feed) (k : Nat) (traffic : Traffic L)
    (streams : List VbStream) : Prop where
  carried : Carried options 0 k traffic streams
  feeds : streams.map VbStream.feed = feeds
  counted : traffic.activeStreams = incomplete streams

theorem headState_start (options : TrafficOptions) (log : L) (feeds : List Feed) :
    HeadState options feeds 0 (startTraffic log feeds) (startStreams options feeds) where
  carried := by
    constructor
    · intro vb member
      obtain ⟨feed, _, rfl⟩ := List.mem_map.mp member
      refine ⟨.reading ⟨?_, rfl, rfl, rfl, rfl, rfl⟩, fun j message _ found => seqno_pos found⟩
      intro j less
      cases less
    · intro n vb found
      obtain ⟨feed, _, rfl⟩ := List.mem_map.mp (List.mem_of_getElem? found)
      exact .nil
  feeds := by
    rw [startStreams, List.map_map]
    exact List.map_id feeds
  counted := by
    have all : incomplete (startStreams options feeds) = feeds.length := by
      rw [incomplete, startStreams, List.countP_map]
      exact List.countP_eq_length.mpr fun _ _ => rfl
    rw [all]
    rfl

theorem HeadState.next (keysOn : options.keys = true) (head : HeadState options feeds k traffic streams)
    {after : Traffic L × List VbStream}
    (passed : pass push upsert options 0 traffic streams = .ok after) :
    HeadState options feeds (k + 1) after.1 after.2 := by
  rcases @pass_outcome L push upsert options k 0 traffic streams keysOn head.carried with
    ⟨next, passed', done⟩ | ⟨⟨e, raised⟩, _⟩
  · rw [passed] at passed'
    cases passed'
    have counted := done.counted
    rw [head.counted] at counted
    exact ⟨done.carried, done.feeds.trans head.feeds, by omega⟩
  · rw [passed] at raised
    cases raised

theorem head_state (keysOn : options.keys = true)
    (head : Head push upsert options log feeds traffic streams) :
    ∃ k, HeadState options feeds k traffic streams := by
  induction head with
  | first => exact ⟨0, headState_start options log feeds⟩
  | next _ _ passed ih =>
    obtain ⟨k, before⟩ := ih
    exact ⟨k + 1, before.next keysOn passed⟩

/-- The counter is right whatever the streams answer. -/
theorem counted (keysOn : options.keys = true) (log : L) (feeds : List Feed) :
    Counted push upsert options log feeds := by
  intro traffic streams head before after split visited passed
  obtain ⟨k, state⟩ := head_state keysOn head
  subst split
  rcases @pass_outcome L push upsert options k 0 traffic before keysOn state.carried.of_prefix with
    ⟨next, passed', done⟩ | ⟨⟨e, raised⟩, _⟩
  · rw [passed] at passed'
    cases passed'
    have counted := done.counted
    have whole := state.counted
    rw [incomplete, List.countP_append, ← incomplete, ← incomplete] at whole
    push_cast at whole
    linarith
  · rw [passed] at raised
    cases raised

/-- All the streams are complete exactly if all of them are quiet. -/
theorem HeadState.active_pos_iff (head : HeadState options feeds k traffic streams) :
    0 < traffic.activeStreams ↔ ∃ feed ∈ feeds, ¬ feed.Quiet options.vbRetry k := by
  rw [head.counted, Int.natCast_pos, incomplete, List.countP_pos_iff, ← head.feeds]
  constructor
  · intro unfinishedOne
    obtain ⟨vb, member, unfinished⟩ := unfinishedOne
    refine ⟨vb.feed, List.mem_map_of_mem member, ?_⟩
    rw [← (head.carried.phases vb member).1.complete_iff]
    simpa using unfinished
  · intro unquietOne
    obtain ⟨feed, member, unquiet⟩ := unquietOne
    obtain ⟨vb, found, rfl⟩ := List.mem_map.mp member
    refine ⟨vb, found, ?_⟩
    rw [← (head.carried.phases vb found).1.complete_iff] at unquiet
    simpa using unquiet

theorem messages_eq_append (feed : Feed) (position : Nat) :
    feed.messages = feed.messagesRead position ++
      (feed.responses.drop position).filterMap dataMessage? := by
  rw [Feed.messages, Feed.messagesRead, ← List.filterMap_append, List.take_append_drop]

/-- Everything has been read exactly if no data message comes after the position. -/
theorem messagesRead_length_eq_iff (feed : Feed) (position : Nat) :
    (feed.messagesRead position).length = feed.messages.length ↔
      ∀ i message, feed.response i = some (.data message) → i < position := by
  have whole : (feed.messagesRead position).length = feed.messages.length ↔
      (feed.responses.drop position).filterMap dataMessage? = [] := by
    rw [messages_eq_append feed position, List.length_append, ← List.length_eq_zero_iff]
    omega
  rw [whole, List.filterMap_eq_nil_iff]
  constructor
  · intro none i message data
    by_contra notLess
    have inside := lt_length_of_data data
    have member : feed.responses[i] ∈ feed.responses.drop position := by
      rw [List.mem_drop_iff_getElem]
      refine ⟨i - position, by omega, ?_⟩
      congr 1
      omega
    have isNone := none _ member
    rw [← response_of_lt inside, data] at isNone
    cases isNone
  · intro before response member
    rw [List.mem_drop_iff_getElem] at member
    obtain ⟨offset, inside, rfl⟩ := member
    cases found : dataMessage? feed.responses[position + offset] with
    | none => rfl
    | some message =>
      have data : feed.response (position + offset) = some (.data message) := by
        rw [response_of_lt (by omega)]
        revert found
        generalize feed.responses[position + offset] = response
        intro found
        match response, found with
        | some (.data _), found =>
          cases found
          rfl
      exact absurd (before _ message data) (by omega)

theorem Feed.ClosedBy.mono {feed : Feed} {retry early late : Nat} (closed : feed.ClosedBy retry early)
    (le : early ≤ late) : feed.ClosedBy retry late := by
  obtain ⟨i, reads, givesUp, past⟩ := closed
  refine ⟨i, reads, givesUp, ?_⟩
  cases past with
  | inl less => exact .inl (Nat.lt_of_lt_of_le less le)
  | inr here =>
    cases Nat.lt_or_eq_of_le le with
    | inl less => exact .inl (by omega)
    | inr same => exact .inr ⟨by omega, here.2⟩

/-- A pass before the streams settle does not raise. -/
theorem Settles.no_trouble {passes : Nat} (settles : Settles options feeds passes)
    (early : k + 1 ≤ passes) {feed : Feed} (member : feed ∈ feeds) :
    ¬ Trouble options feed (k + 1) := by
  intro trouble
  rcases trouble with ⟨shown, message, found, xattrs⟩ | ⟨announced, closed⟩
  · exact xattrs (settles.printable shown feed member message found)
  · exact settles.unannounced announced feed member (closed.mono early)

theorem process_of_settles (keysOn : options.keys = true) {passes : Nat}
    (settles : Settles options feeds passes) (le : k ≤ passes)
    (head : HeadState options feeds k traffic streams) :
    ∃ traffic' streams', processDcpTraffic push upsert options (passes - k) traffic streams =
        some (.ok (traffic', streams')) ∧
      HeadState options feeds passes traffic' streams' := by
  -- By induction on the passes that are left: each of them finds a stream that is not complete.
  induction left : passes - k generalizing k traffic streams with
  | zero =>
    have same : k = passes := by omega
    subst same
    have stopped : ¬ 0 < traffic.activeStreams := by
      rw [head.active_pos_iff]
      intro ⟨feed, member, unquiet⟩
      exact unquiet (settles.quiet feed member)
    exact ⟨traffic, streams, by rw [processDcpTraffic, if_neg stopped], head⟩
  | succ left ih =>
    have active : 0 < traffic.activeStreams :=
      head.active_pos_iff.mpr (settles.first k (by omega))
    rcases @pass_outcome L push upsert options k 0 traffic streams keysOn head.carried with
      ⟨next, passed, _⟩ | ⟨_, vb, member, trouble⟩
    · obtain ⟨traffic', streams', ran, final⟩ := ih (by omega) (head.next keysOn passed) (by omega)
      refine ⟨traffic', streams', ?_, final⟩
      rw [processDcpTraffic, if_pos active, passed]
      exact ran
    · have known : vb.feed ∈ feeds := by
        rw [← head.feeds]
        exact List.mem_map_of_mem member
      exact absurd trouble (settles.no_trouble (by omega) known)

theorem settled_of_process (keysOn : options.keys = true) {fuel : Nat} {traffic' : Traffic L}
    {streams' : List VbStream} (head : HeadState options feeds k traffic streams)
    (ran : processDcpTraffic push upsert options fuel traffic streams =
      some (.ok (traffic', streams'))) :
    ∃ passes, k ≤ passes ∧ HeadState options feeds passes traffic' streams' ∧
      ¬ 0 < traffic'.activeStreams ∧
      ∀ earlier, k ≤ earlier → earlier < passes →
        ∃ feed ∈ feeds, ¬ feed.Quiet options.vbRetry earlier := by
  induction fuel generalizing k traffic streams with
  | zero =>
    by_cases active : 0 < traffic.activeStreams
    · rw [processDcpTraffic, if_pos active] at ran
      cases ran
    · rw [processDcpTraffic, if_neg active] at ran
      cases ran
      exact ⟨k, Nat.le_refl k, head, active, fun _ _ _ => by omega⟩
  | succ fuel ih =>
    by_cases active : 0 < traffic.activeStreams
    · rw [processDcpTraffic, if_pos active] at ran
      cases passed : pass push upsert options 0 traffic streams with
      | error e =>
        rw [passed] at ran
        cases ran
      | ok next =>
        rw [passed] at ran
        obtain ⟨passes, le, final, stopped, before⟩ := ih (head.next keysOn passed) ran
        refine ⟨passes, by omega, final, stopped, ?_⟩
        intro earlier since less
        cases Nat.lt_or_eq_of_le since with
        | inl later => exact before earlier later less
        | inr same => exact same ▸ head.active_pos_iff.mp active
    · rw [processDcpTraffic, if_neg active] at ran
      cases ran
      exact ⟨k, Nat.le_refl k, head, active, fun _ _ _ => by omega⟩

theorem HeadState.stream_of_feed (head : HeadState options feeds k traffic streams) {index : Nat}
    {feed : Feed} (found : feeds[index]? = some feed) :
    ∃ vb ∈ streams, vb.feed = feed ∧ Phase options k vb ∧ Printed options index traffic vb := by
  rw [← head.feeds, List.getElem?_map, Option.map_eq_some_iff] at found
  obtain ⟨vb, place, same⟩ := found
  have member := List.mem_of_getElem? place
  have printed := head.carried.printed index vb place
  rw [Nat.zero_add] at printed
  exact ⟨vb, member, same, (head.carried.phases vb member).1, printed⟩

/-- With the keys printed, the loop counts its streams and returns with a line for every data
    message, exactly if all the streams are complete after some pass and everything was read in the
    first such pass or before it. -/
theorem processDcpTraffic_iff (keysOn : options.keys = true) (log : L) (feeds : List Feed) :
    (Counted push upsert options log feeds ∧ Returns push upsert options log feeds) ↔
      ∃ passes, Settles options feeds passes := by
  rw [and_iff_right (counted keysOn log feeds)]
  have start := headState_start options log feeds
  constructor
  · intro ⟨fuel, traffic, streams, ran, lines⟩
    obtain ⟨passes, _, head, stopped, before⟩ := settled_of_process keysOn start ran
    have quiet : ∀ feed ∈ feeds, feed.Quiet options.vbRetry passes := by
      intro feed member
      by_contra unquiet
      exact stopped (head.active_pos_iff.mpr ⟨feed, member, unquiet⟩)
    have streamsOf : ∀ feed ∈ feeds, ∃ index vb, feeds[index]? = some feed ∧ vb.feed = feed ∧
        Phase options passes vb ∧ Printed options index traffic vb := by
      intro feed member
      obtain ⟨index, found⟩ := List.mem_iff_getElem?.mp member
      obtain ⟨vb, _, same, phase, printed⟩ := head.stream_of_feed found
      exact ⟨index, vb, found, same, phase, printed⟩
    refine ⟨passes, quiet, fun k less => before k (Nat.zero_le k) less, ?_, ?_, ?_⟩
    · intro feed member i message data
      obtain ⟨index, vb, found, rfl, phase, printed⟩ := streamsOf feed member
      have lengths : (vb.feed.messagesRead vb.position).length = vb.feed.messages.length :=
        printed.length_eq.trans (lines index vb.feed found).length_eq.symm
      exact phase.read_before ((messagesRead_length_eq_iff vb.feed vb.position).mp lengths i message data)
    · intro shown feed member message found
      obtain ⟨index, _, place, _⟩ := streamsOf feed member
      obtain ⟨line, _, handled⟩ := Lib.exists_of_forall₂_mem (lines index feed place) found
      exact xattrs_eq_none_of_handled shown handled
    · intro announced feed member
      obtain ⟨_, vb, _, rfl, phase, _⟩ := streamsOf feed member
      exact phase.not_closedBy announced
  · intro ⟨passes, settles⟩
    obtain ⟨traffic, streams, ran, head⟩ := process_of_settles keysOn settles (Nat.zero_le passes) start
    refine ⟨passes - 0, traffic, streams, ran, ?_⟩
    intro index feed found
    obtain ⟨vb, _, rfl, phase, printed⟩ := head.stream_of_feed found
    have delivered := settles.delivered vb.feed (List.mem_of_getElem? found)
    have lengths : (vb.feed.messagesRead vb.position).length = vb.feed.messages.length := by
      rw [messagesRead_length_eq_iff]
      intro i message data
      obtain ⟨reads, past⟩ := delivered i message data
      exact phase.before_of_read reads past
    have whole : vb.feed.messagesRead vb.position = vb.feed.messages := by
      rw [messages_eq_append vb.feed vb.position] at lengths ⊢
      have none : (vb.feed.responses.drop vb.position).filterMap dataMessage? = [] := by
        rw [List.length_append] at lengths
        exact List.length_eq_zero_iff.mp (by omega)
      rw [none, List.append_nil]
    rw [← whole]
    exact printed

end Loop

/-! ## A stream that ends and one that falls silent -/

/-- A stream that ends without a timeout, and with retries left, is never complete. -/
theorem not_quiet_of_ends {feed : Feed} {retry flags : Nat} (ends : feed.ends = some flags)
    (answers : none ∉ feed.responses) (retries : 0 < retry) (k : Nat) : ¬ feed.Quiet retry k := by
  have answered : ∀ i, feed.response i ≠ none := by
    intro i
    by_cases inside : i < feed.responses.length
    · rw [response_of_lt inside]
      exact fun timeout => answers (timeout ▸ List.getElem_mem inside)
    · rw [response_of_ge (Nat.not_lt.mp inside), ends]
      simp
  have unspent : ∀ i, feed.spent i = 0 := by
    intro i
    induction i with
    | zero => rfl
    | succ i ih =>
      rw [Feed.spent]
      cases found : feed.response i with
      | none => exact absurd found (answered i)
      | some response => cases response <;> first | rfl | exact ih
  intro quiet
  cases quiet with
  | inl timeout =>
    obtain ⟨i, _, found, _⟩ := timeout
    exact answered i found
  | inr givenUp =>
    obtain ⟨i, _, givesUp, _⟩ := givenUp
    have spent := givesUp.1
    rw [unspent i] at spent
    omega

def sampleMessage : DataMessage := ⟨.mutation, 3, 1, none, "k", 0, "v", none⟩

def sampleFeed (ends : Option Nat) : Feed where
  vbucket := 3
  responses := [some (.data sampleMessage)]
  ends := ends
  continues := by simp
  vbuckets := by simp [dataMessage?, sampleMessage]
  ordered := by simp [dataMessage?, sampleMessage]
  unpacks := by simp

def defaultOptions : TrafficOptions := ⟨10, true, false, false, false, false⟩

/-- One mutation and then silence: the loop returns in the pass of the first timeout. -/
theorem processDcpTraffic_silence :
    Returns (fun log _ => log) (fun log _ _ => log) defaultOptions () [sampleFeed none] := by
  have data : (sampleFeed none).response 0 = some (.data sampleMessage) := rfl
  have noEnd : ∀ i, ¬ (sampleFeed none).IsEnd i := by
    intro i isEnd
    obtain ⟨flags, ended⟩ := isEnd
    cases i with
    | zero => cases ended
    | succ i => cases ended
  have notUp : ¬ (sampleFeed none).GivesUp 10 0 := by
    intro givesUp
    cases givesUp.2 with
    | inl timeout => cases timeout
    | inr isEnd => exact noEnd 0 isEnd
  have reads : (sampleFeed none).Reads 10 1 := by
    intro j less
    have zero : j = 0 := by omega
    subst zero
    exact ⟨notUp, noEnd 0⟩
  have settles : Settles defaultOptions [sampleFeed none] 2 := by
    constructor
    case quiet =>
      intro feed member
      rw [List.mem_singleton.mp member]
      exact .inl ⟨1, reads, rfl, rfl⟩
    case first =>
      intro k less
      refine ⟨sampleFeed none, List.mem_singleton_self _, ?_⟩
      have second : ∀ i, (sampleFeed none).slot i ≤ k → i = 0 := by
        intro i past
        rw [Feed.slot] at past
        omega
      intro quiet
      cases quiet with
      | inl timeout =>
        obtain ⟨i, _, found, due⟩ := timeout
        rw [second i (Nat.le_of_eq due)] at found
        cases found
      | inr givenUp =>
        obtain ⟨i, _, givesUp, past⟩ := givenUp
        rw [second i past] at givesUp
        exact notUp givesUp
    case delivered =>
      intro feed member i message found
      rw [List.mem_singleton.mp member] at found ⊢
      have inside := lt_length_of_data found
      have zero : i = 0 := Nat.lt_one_iff.mp inside
      subst zero
      exact ⟨fun j less => absurd less (Nat.not_lt_zero j), by decide⟩
    case printable => simp [defaultOptions]
    case unannounced => simp [defaultOptions]
  exact ((processDcpTraffic_iff rfl () [sampleFeed none]).mpr ⟨2, settles⟩).2

/-- One mutation and then the end of the stream: with the default number of retries the loop never
    returns. -/
theorem processDcpTraffic_hangs :
    ¬ Returns (fun log _ => log) (fun log _ _ => log) defaultOptions () [sampleFeed (some 0)] := by
  intro ⟨fuel, traffic, streams, ran, _⟩
  obtain ⟨passes, _, head, stopped, _⟩ :=
    settled_of_process rfl (headState_start defaultOptions () [sampleFeed (some 0)]) ran
  refine stopped (head.active_pos_iff.mpr ⟨_, List.mem_singleton_self _, ?_⟩)
  exact @not_quiet_of_ends (sampleFeed (some 0)) 10 0 rfl (by simp [sampleFeed]) (by omega) passes

end Taf.Dcp
