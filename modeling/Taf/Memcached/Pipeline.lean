import Mathlib
import Taf.Lib.Dict
import Taf.Memcached.Requests

/-! # Pipelined operations

`getMulti` and `setMulti` of `lib/mc_bin_client.py`: quiet requests for all the keys, one NOOP as a
fence for every vbucket that was used, and then one loop per fence over the responses.  The
connection is the list of the responses that have not been read. -/

namespace Taf.Memcached

open Taf.Lib

/-! ## Responses -/

inductive ErrorText where
  | body (rv : Bytes)
  | mapped (name desc : String) (rv : Bytes)
  deriving DecidableEq

inductive Raised where
  | memcachedError (status : Nat) (msg : ErrorText)
  | python (error : PyError)
  deriving DecidableEq

/-- `self.error_map['errors']`, the name and the description of a status -/
abbrev ErrorMap := Nat → Option (String × String)

/-- `_handleKeyedResponse` on a message.  A status that the map does not know is looked up as the
    body of the message, which is no mapping that `**` could unpack. -/
def handleKeyedResponse (errorMap : Option ErrorMap) (expected : Option Nat) (received : Received) :
    Except Raised Received :=
  if ∀ mine ∈ expected, received.opaqueNumber = mine then
    if received.errcode ≠ 0 then
      match errorMap with
      | none => .error (.memcachedError received.errcode (.body received.body))
      | some errors =>
        match errors received.errcode with
        | none => .error (.python .typeError)
        | some (name, desc) =>
          .error (.memcachedError received.errcode (.mapped name desc received.body))
    else .ok received
  else .error (.python (.assertionError ("expected opaque " ++ hexText expected ++ ", got " ++
    String.ofList (Nat.toDigits 16 received.opaqueNumber))))
where
  hexText : Option Nat → String
    | some mine => String.ofList (Nat.toDigits 16 mine)
    | none => ""

/-- `opaque, cas, data` -/
def handleSingleResponse (errorMap : Option ErrorMap) (expected : Option Nat) (received : Received) :
    Except Raised (Nat × Nat × Bytes) :=
  (handleKeyedResponse errorMap expected received).map fun received =>
    (received.opaqueNumber, received.cas, received.body)

/-- `__parseGet`: flags, cas and value -/
def parseGet (parts : Nat × Nat × Bytes) : Except Raised (Nat × Nat × Bytes) :=
  if parts.2.2.length < 4 then .error (.python .structError)
  else .ok (beNat (parts.2.2.take 4), parts.2.1, parts.2.2.drop 4)

/-! ## Sending -/

section Send

variable {ι : Type} (python : Python) (vbucket : Int) (keyOf : ι → PyText)
  (send : Client → Nat → ι → Except PyError PyText)

/-- The loop over the items: the packets that were handed to the socket, and the client and the
    vbuckets at its end. -/
def sendQuiet (client : Client) (k : Nat) : List ι → List PyText × Except PyError (Client × List Nat)
  | [] => ([], .ok (client, []))
  | item :: items =>
    match setVbucket python client (keyOf item) vbucket with
    | .error e => ([], .error e)
    | .ok client =>
      match send client k item with
      | .error e => ([], .error e)
      | .ok packet =>
        let rest := sendQuiet client (k + 1) items
        (packet :: rest.1, rest.2.map fun ended => (ended.1, client.vbucketId :: ended.2))

/-- The loop over the set of vbuckets -/
def sendFences (terminal : Nat) (client : Client) : List Nat → List PyText × Except PyError Client
  | [] => ([], .ok client)
  | vb :: vbs =>
    match sendCmd python { client with vbucketId := vb } 10 (.str python "") (.str python "") terminal
      (some (.str python "")) (some 0) none none with
    | .error e => ([], .error e)
    | .ok packet =>
      let rest := sendFences terminal { client with vbucketId := vb } vbs
      (packet :: rest.1, rest.2)

end Send

/-- The order in which a set of numbers is iterated -/
structure SetOrder where
  order : List Nat → List Nat
  perm : ∀ numbers, (order numbers).Perm numbers.dedup

/-! ## Reading -/

/-- The loops of the second half: `body` handles one response and says whether it was the fence. -/
def readUntilFences {σ : Type} (body : σ → Received → Except Raised (σ × Bool)) :
    List Nat → σ → List Received → Except Raised σ × List Received
  | [], s, queue => (.ok s, queue)
  | _ :: _, _, [] => (.error (.python (.eofError "Got empty data (remote died?).")), [])
  | vb :: vbs, s, received :: queue =>
    match body s received with
    | .error e => (.error e, queue)
    | .ok (s, true) => readUntilFences body vbs s queue
    | .ok (s, false) => readUntilFences body (vb :: vbs) s queue

/-- What a pipelined operation leaves: the packets it sent, the responses to them that it did not
    read, and what it returned or raised. -/
structure Multi (σ : Type) where
  sent : List PyText
  unread : List Received
  result : Except Raised σ

/-! ## The server -/

structure Failure where
  status : Nat
  body : Bytes
  nonzero : status ≠ 0

/-- What the server does with a quiet request -/
inductive Outcome (α : Type) where
  | silent
  | success (reply : α)
  | failure (error : Failure)

/-- The response with the opaque of its request -/
def Outcome.responses {α : Type} (cmd : Nat) (reply : α → Nat × Nat × Bytes) (opaqueNumber : Nat) :
    Outcome α → List Received
  | .silent => []
  | .success value =>
    let parts := reply value
    [⟨cmd, 0, opaqueNumber, parts.1, 0, parts.2.1, 0, parts.2.2⟩]
  | .failure error => [⟨cmd, error.status, opaqueNumber, 0, 0, 0, 0, error.body⟩]

/-- The responses to the requests, which are numbered from `first` on -/
def answers {α : Type} (cmd : Nat) (reply : α → Nat × Nat × Bytes) (first : Nat) :
    List (Outcome α) → List Received
  | [] => []
  | outcome :: outcomes =>
    outcome.responses cmd reply first ++ answers cmd reply (first + 1) outcomes

def noopResponse (terminal : Nat) : Received := ⟨10, 0, terminal, 0, 0, 0, 0, []⟩

/-! ## The two operations -/

section Operations

variable {ι α σ : Type}

/-- What the two operations have in common: `answersTo` is what the server answers to the first
    requests of the given number. -/
def pipelined (python : Python) (client : Client) (setOrder : SetOrder) (vbucket : Int)
    (keyOf : ι → PyText) (send : Client → Nat → ι → Except PyError PyText)
    (answersTo : Nat → List Received) (body : σ → Received → Except Raised (σ × Bool)) (start : σ)
    (items : List ι) : Multi σ :=
  let terminal := items.length + 10
  let quiet := sendQuiet python vbucket keyOf send client 0 items
  match quiet.2 with
  | .error e => ⟨quiet.1, answersTo quiet.1.length, .error (.python e)⟩
  | .ok ended =>
    let vbs := setOrder.order ended.2
    let fences := sendFences python terminal ended.1 vbs
    let queue := answersTo items.length ++ List.replicate fences.1.length (noopResponse terminal)
    match fences.2 with
    | .error e => ⟨quiet.1 ++ fences.1, queue, .error (.python e)⟩
    | .ok _ =>
      let read := readUntilFences body vbs start queue
      ⟨quiet.1 ++ fences.1, read.2, read.1⟩

/-- The key under which a text is in a dictionary: in Python 2 an ASCII unicode string is equal to
    the byte string. -/
def dictKey : Python → PyText → PyText
  | .two, .unicode content => if AsciiChars content then .bytes (utf8 content) else .unicode content
  | _, text => text

abbrev GetReply := UInt32 × UInt64 × Bytes

/-- The cas, the length of the extras and the body of a response to a get -/
def getReply (reply : GetReply) : Nat × Nat × Bytes :=
  (reply.2.1.toNat, 4, beBytes 4 reply.1.toNat ++ reply.2.2)

def getBody (python : Python) (errorMap : Option ErrorMap) (keys : List PyText)
    (rv : AList fun _ : PyText => Nat × Nat × Bytes) (received : Received) :
    Except Raised ((AList fun _ : PyText => Nat × Nat × Bytes) × Bool) := do
  let parts ← handleSingleResponse errorMap none received
  if parts.1 ≠ keys.length + 10 then
    match keys[parts.1]? with
    | none => .error (.python .keyError)
    | some key =>
      let parsed ← parseGet parts
      .ok (rv.insert (dictKey python key) parsed, false)
  else .ok (rv, true)

/-- The quiet get with the opaque `k` -/
def sendGetq (python : Python) (names : Option String × Option CollectionRef) (client : Client)
    (k : Nat) (request : PyText × Outcome GetReply) : Except PyError PyText :=
  sendCmd python client 9 request.1 (.str python "") k (some (.str python "")) (some 0) names.1 names.2

/-- `getMulti` of keys, each with what the server does with its request -/
def getMulti (python : Python) (client : Client) (setOrder : SetOrder) (errorMap : Option ErrorMap)
    (target : Target) (requests : List (PyText × Outcome GetReply)) :
    Multi (AList fun _ : PyText => Nat × Nat × Bytes) :=
  pipelined python client setOrder target.vbucket Prod.fst
    (sendGetq python (client.collectionName target.scope target.collection))
    (fun count => answers 9 getReply 0 ((requests.take count).map Prod.snd))
    (getBody python errorMap (requests.map Prod.fst)) ∅ requests

def setBody (errorMap : Option ErrorMap) (terminal : Nat) (failed : List Raised) (received : Received) :
    Except Raised (List Raised × Bool) :=
  match handleSingleResponse errorMap none received with
  | .ok parts => .ok (failed, parts.1 = terminal)
  | .error (.memcachedError status msg) => .ok (failed ++ [.memcachedError status msg], false)
  | .error e => .error e

structure SetItem where
  key : PyText
  value : PyText
  outcome : Outcome UInt64

/-- The quiet set with the opaque `k` -/
def sendSetq (python : Python) (extra : PyText) (names : Option String × Option CollectionRef)
    (client : Client) (k : Nat) (item : SetItem) : Except PyError PyText :=
  sendCmd python client 0x11 item.key item.value k (some extra) (some 0) names.1 names.2

/-- `setMulti` of items, each with what the server does with its request -/
def setMulti (python : Python) (client : Client) (setOrder : SetOrder) (errorMap : Option ErrorMap)
    (exp flags : UInt32) (target : Target) (items : List SetItem) : Multi (List Raised) :=
  match packExtras [4, 4] [flags.toNat, exp.toNat] with
  | .error e => ⟨[], [], .error (.python e)⟩
  | .ok extra =>
    pipelined python client setOrder target.vbucket SetItem.key
      (sendSetq python extra (client.collectionName target.scope target.collection))
      (fun count => answers 0x11 (fun cas => (cas.toNat, 0, [])) 0
        ((items.take count).map SetItem.outcome))
      (setBody errorMap (items.length + 10)) [] items

end Operations

/-! ## What is sent -/

section Sending

variable {ι σ : Type} {python : Python} {client : Client} {vbucket : Int} {keyOf : ι → PyText}
  {send : Client → Nat → ι → Except PyError PyText}

/-- The request of the item with the opaque `k` reaches the socket. -/
def Sendable (python : Python) (client : Client) (vbucket : Int) (keyOf : ι → PyText)
    (send : Client → Nat → ι → Except PyError PyText) (k : Nat) (item : ι) : Prop :=
  ∃ addressed packet, setVbucket python client (keyOf item) vbucket = .ok addressed ∧
    send addressed k item = .ok packet

/-- All the requests and the fences reach the socket. -/
def Sends (python : Python) (client : Client) (vbucket : Int) (keyOf : ι → PyText)
    (send : Client → Nat → ι → Except PyError PyText) (items : List ι) : Prop :=
  (∀ k item, items[k]? = some item → Sendable python client vbucket keyOf send k item) ∧
    items.length + 10 < 2 ^ 32

theorem setVbucket_addressed {key : PyText} {addressed : Client}
    (set : setVbucket python client key vbucket = .ok addressed) :
    addressed = { client with vbucketId := addressed.vbucketId } := by
  rw [setVbucket] at set
  split at set
  · obtain ⟨encoded, _, made⟩ := bind_eq_ok.mp set
    cases made
    rfl
  · cases set
    rfl

theorem forall_getElem?_cons {P : Nat → ι → Prop} {k : Nat} {item : ι} {items : List ι} :
    (∀ j other, (item :: items)[j]? = some other → P (k + j) other) ↔
      P k item ∧ ∀ j other, items[j]? = some other → P (k + 1 + j) other := by
  constructor
  · intro every
    refine ⟨every 0 item rfl, fun j other found => ?_⟩
    have later := every (j + 1) other (by simpa using found)
    rwa [show k + (j + 1) = k + 1 + j by omega] at later
  · intro ⟨here, later⟩ j other found
    cases j with
    | zero =>
      cases found
      exact here
    | succ j =>
      rw [show k + (j + 1) = k + 1 + j by omega]
      exact later j other (by simpa using found)

theorem sendQuiet_ok {k : Nat} {items : List ι}
    (narrow : ∀ client k item packet, send client k item = .ok packet → client.vbucketId < 2 ^ 16)
    (every : ∀ j item, items[j]? = some item →
      Sendable python client vbucket keyOf send (k + j) item) :
    ∃ packets ended, sendQuiet python vbucket keyOf send client k items = (packets, .ok ended) ∧
      packets.length = items.length ∧ ended.2.length = items.length ∧
      ∀ vb ∈ ended.2, vb < 2 ^ 16 := by
  induction items generalizing client k with
  | nil => exact ⟨[], _, rfl, rfl, rfl, by simp⟩
  | cons item items ih =>
    obtain ⟨⟨addressed, packet, set, sent⟩, later⟩ := forall_getElem?_cons.mp every
    have same := setVbucket_addressed set
    have laterSendable : ∀ j other, items[j]? = some other →
        Sendable python addressed vbucket keyOf send (k + 1 + j) other := by
      intro j other found
      rw [same]
      exact later j other found
    obtain ⟨packets, ended, rest, count, vbs, small⟩ := ih laterSendable
    refine ⟨packet :: packets, (ended.1, addressed.vbucketId :: ended.2), ?_, by simp [count],
      by simp [vbs], ?_⟩
    · rw [sendQuiet, set]
      simp only [sent, rest]
      rfl
    · intro vb member
      cases member with
      | head => exact narrow addressed k item packet sent
      | tail _ member => exact small vb member

theorem sendQuiet_error {k : Nat} {items : List ι}
    (notEvery : ¬ ∀ j item, items[j]? = some item →
      Sendable python client vbucket keyOf send (k + j) item) :
    ∃ packets e, sendQuiet python vbucket keyOf send client k items = (packets, .error e) ∧
      packets.length < items.length ∧
      (∀ j item, j < packets.length → items[j]? = some item →
        Sendable python client vbucket keyOf send (k + j) item) ∧
      ∀ item, items[packets.length]? = some item →
        ¬ Sendable python client vbucket keyOf send (k + packets.length) item := by
  induction items generalizing client k with
  | nil => exact absurd (by simp) notEvery
  | cons item items ih =>
    by_cases here : Sendable python client vbucket keyOf send k item
    · obtain ⟨addressed, packet, set, sent⟩ := here
      have same := setVbucket_addressed set
      have notLater : ¬ ∀ j other, items[j]? = some other →
          Sendable python addressed vbucket keyOf send (k + 1 + j) other := by
        intro later
        rw [same] at later
        exact notEvery (forall_getElem?_cons.mpr ⟨⟨addressed, packet, set, sent⟩, later⟩)
      obtain ⟨packets, e, rest, short, before, stopped⟩ := ih notLater
      rw [same] at before stopped
      refine ⟨packet :: packets, e, ?_, by simpa using short, ?_, ?_⟩
      · rw [sendQuiet, set]
        simp only [sent, rest]
        rfl
      · intro j other less found
        cases j with
        | zero =>
          cases found
          exact ⟨addressed, packet, set, sent⟩
        | succ j =>
          rw [show k + (j + 1) = k + 1 + j by omega]
          exact before j other (by simpa using less) (by simpa using found)
      · intro other found
        rw [List.length_cons, show k + (packets.length + 1) = k + 1 + packets.length by omega]
        exact stopped other (by simpa using found)
    · have raised : ∃ e, sendQuiet python vbucket keyOf send client k (item :: items) = ([], .error e) := by
        rw [sendQuiet]
        cases set : setVbucket python client (keyOf item) vbucket with
        | error e => exact ⟨e, rfl⟩
        | ok addressed =>
          cases sent : send addressed k item with
          | error e => exact ⟨e, by simp only [sent]⟩
          | ok packet => exact absurd ⟨addressed, packet, set, sent⟩ here
      obtain ⟨e, raised⟩ := raised
      refine ⟨[], e, raised, by simp, by simp, ?_⟩
      intro other found
      cases found
      exact here

theorem encodes_empty (python : Python) : (PyText.str python "").Encodes python := by
  cases python with
  | two => exact .inr (show AsciiBytes [] by simp [AsciiBytes])
  | three => exact .inl rfl

theorem len_empty (python : Python) : (PyText.str python "").len = 0 := by
  cases python <;> rfl

/-- A fence is sent exactly if its opaque fits the header. -/
theorem sendFence_iff {vb terminal : Nat} (narrow : vb < 2 ^ 16) :
    (∃ packet, sendCmd python { client with vbucketId := vb } 10 (.str python "") (.str python "")
      terminal (some (.str python "")) (some 0) none none = .ok packet) ↔ terminal < 2 ^ 32 := by
  have fits : ∀ message : Message, message.cmd = 10 → message.opaqueNumber = terminal →
      message.vbucketId = vb → message.val = .str python "" →
      message.extendedMetaData = .str python "" → message.extraHeaderLength = none →
      (Fits pktFmt (headerFields message (.str python "") (.str python "") 0) ↔ terminal < 2 ^ 32) := by
    intro message cmd number id val extended length
    simp only [Fits, pktFmt, headerFields, reqMagicByte, cmd, number, id, val, extended, length,
      len_empty, Option.getD_none, List.forall₂_cons, List.Forall₂.nil, and_true]
    omega
  simp only [sendCmd, sendMsg_eq_ok]
  constructor
  · intro built
    obtain ⟨packet, key, extraHeader, cas, prefixed, extra, number, fitting, _⟩ := built
    cases prefixed
    cases extra
    cases number
    exact (fits _ rfl rfl rfl rfl rfl rfl).mp fitting
  · intro small
    exact ⟨_, _, _, _, rfl, rfl, rfl, (fits _ rfl rfl rfl rfl rfl rfl).mpr small, encodes_empty python,
      encodes_empty python, encodes_empty python, encodes_empty python, rfl⟩

theorem sendFences_ok {terminal : Nat} {vbs : List Nat} (narrow : ∀ vb ∈ vbs, vb < 2 ^ 16)
    (small : terminal < 2 ^ 32) :
    ∃ packets ended, sendFences python terminal client vbs = (packets, .ok ended) ∧
      packets.length = vbs.length := by
  induction vbs generalizing client with
  | nil => exact ⟨[], client, rfl, rfl⟩
  | cons vb vbs ih =>
    obtain ⟨packet, sent⟩ := (@sendFence_iff python client vb terminal
      (narrow vb List.mem_cons_self)).mpr small
    obtain ⟨packets, ended, rest, count⟩ := @ih { client with vbucketId := vb }
      (fun later member => narrow later (List.mem_cons_of_mem _ member))
    refine ⟨packet :: packets, ended, ?_, by simp [count]⟩
    rw [sendFences, sent]
    simp only [rest]

theorem sendFences_error {terminal vb : Nat} (vbs : List Nat) (narrow : vb < 2 ^ 16)
    (large : ¬ terminal < 2 ^ 32) :
    ∃ e, sendFences python terminal client (vb :: vbs) = ([], .error e) := by
  rw [sendFences]
  cases sent : sendCmd python { client with vbucketId := vb } 10 (.str python "") (.str python "")
      terminal (some (.str python "")) (some 0) none none with
  | error e => exact ⟨e, rfl⟩
  | ok packet => exact absurd ((sendFence_iff narrow).mp ⟨packet, sent⟩) large

theorem order_ne_nil (setOrder : SetOrder) {vbs : List Nat} : setOrder.order vbs = [] ↔ vbs = [] := by
  rw [← List.length_eq_zero_iff, (setOrder.perm vbs).length_eq, List.length_eq_zero_iff,
    List.dedup_eq_nil]

theorem mem_order {setOrder : SetOrder} {vbs : List Nat} {vb : Nat} :
    vb ∈ setOrder.order vbs ↔ vb ∈ vbs := by
  rw [(setOrder.perm vbs).mem_iff, List.mem_dedup]

variable {setOrder : SetOrder} {answersTo : Nat → List Received} {start : σ}
  {body : σ → Received → Except Raised (σ × Bool)} {items : List ι}

/-- Everything is sent: the operation is the loops over the responses. -/
theorem pipelined_sent
    (narrow : ∀ client k item packet, send client k item = .ok packet → client.vbucketId < 2 ^ 16)
    (sends : Sends python client vbucket keyOf send items) :
    ∃ vbs, (vbs = [] ↔ items = []) ∧
      let call := pipelined python client setOrder vbucket keyOf send answersTo body start items
      (call.result, call.unread) = readUntilFences body vbs start
        (answersTo items.length ++ List.replicate vbs.length (noopResponse (items.length + 10))) := by
  obtain ⟨packets, ended, quiet, count, length, small⟩ :=
    @sendQuiet_ok ι python client vbucket keyOf send 0 items narrow (by simpa using sends.1)
  obtain ⟨fences, last, fenced, fenceCount⟩ :=
    @sendFences_ok python ended.1 (items.length + 10) (setOrder.order ended.2)
      (fun vb member => small vb (mem_order.mp member)) sends.2
  refine ⟨setOrder.order ended.2, ?_, ?_⟩
  · rw [order_ne_nil, ← List.length_eq_zero_iff, length, List.length_eq_zero_iff]
  · simp only [pipelined, quiet, fenced, fenceCount]

/-- Not everything is sent: the operation raises, and the responses to what it sent are unread. -/
theorem pipelined_unsent
    (narrow : ∀ client k item packet, send client k item = .ok packet → client.vbucketId < 2 ^ 16)
    (unsent : ¬ Sends python client vbucket keyOf send items) :
    ∃ count, count ≤ items.length ∧
      (∀ k item, k < count → items[k]? = some item →
        Sendable python client vbucket keyOf send k item) ∧
      (∀ item, items[count]? = some item → ¬ Sendable python client vbucket keyOf send count item) ∧
      let call := pipelined python client setOrder vbucket keyOf send answersTo body start items
      call.unread = answersTo count ∧ ∃ e, call.result = .error e := by
  by_cases every : ∀ k item, items[k]? = some item → Sendable python client vbucket keyOf send k item
  · have large : ¬ items.length + 10 < 2 ^ 32 := fun small => unsent ⟨every, small⟩
    obtain ⟨packets, ended, quiet, count, length, small⟩ :=
      @sendQuiet_ok ι python client vbucket keyOf send 0 items narrow (by simpa using every)
    have nonempty : setOrder.order ended.2 ≠ [] := by
      rw [Ne, order_ne_nil, ← List.length_eq_zero_iff, length]
      omega
    obtain ⟨vb, vbs, vbsEq⟩ := List.exists_cons_of_ne_nil nonempty
    have narrowVb : vb < 2 ^ 16 := by
      apply small vb
      rw [← @mem_order setOrder, vbsEq]
      exact List.mem_cons_self
    obtain ⟨e, fenced⟩ := @sendFences_error python ended.1 (items.length + 10) vb vbs narrowVb large
    refine ⟨items.length, Nat.le_refl _, fun k item _ found => every k item found, by simp, ?_⟩
    simp only [pipelined, quiet, vbsEq, fenced]
    exact ⟨List.append_nil _, _, rfl⟩
  · obtain ⟨packets, e, quiet, short, before, stopped⟩ :=
      @sendQuiet_error ι python client vbucket keyOf send 0 items (by simpa using every)
    refine ⟨packets.length, Nat.le_of_lt short, by simpa using before, by simpa using stopped, ?_⟩
    simp only [pipelined, quiet]
    exact ⟨trivial, _, rfl⟩

end Sending

/-! ## What is read -/

section Reading

variable {σ : Type} {body : σ → Received → Except Raised (σ × Bool)} {terminal : Nat}

/-- Only the fences are left: each of them ends one loop. -/
theorem readUntilFences_fences (fence : ∀ s, body s (noopResponse terminal) = .ok (s, true))
    (vbs : List Nat) (s : σ) :
    readUntilFences body vbs s (List.replicate vbs.length (noopResponse terminal)) = (.ok s, []) := by
  induction vbs with
  | nil => rfl
  | cons vb vbs ih =>
    rw [List.length_cons, List.replicate_succ, readUntilFences, fence]
    exact ih

/-- The number of requests answered in front of the fences: nothing is unread exactly if they are
    all silent. -/
theorem answers_eq_nil {α : Type} {cmd first : Nat} {reply : α → Nat × Nat × Bytes}
    {outcomes : List (Outcome α)} :
    answers cmd reply first outcomes = [] ↔ ∀ outcome ∈ outcomes, outcome = .silent := by
  induction outcomes generalizing first with
  | nil => simp [answers]
  | cons outcome outcomes ih =>
    rw [answers, List.append_eq_nil_iff, ih, List.forall_mem_cons]
    cases outcome <;> simp [Outcome.responses]

variable {ι α : Type} {cmd : Nat} {reply : α → Nat × Nat × Bytes} {outcome : ι → Outcome α}
  {step : σ → ι → σ}

/-- The responses to an item, if there are any, are taken by the body, which goes on. -/
def Takes (body : σ → Received → Except Raised (σ × Bool)) (cmd : Nat)
    (reply : α → Nat × Nat × Bytes) (outcome : ι → Outcome α) (step : σ → ι → σ) (k : Nat) (item : ι) :
    Prop :=
  ∀ s, ((outcome item).responses cmd reply k = [] ∧ step s item = s) ∨
    ∃ received, (outcome item).responses cmd reply k = [received] ∧
      body s received = .ok (step s item, false)

/-- The response to an item makes the body raise. -/
def Refuses (body : σ → Received → Except Raised (σ × Bool)) (cmd : Nat)
    (reply : α → Nat × Nat × Bytes) (outcome : ι → Outcome α) (k : Nat) (item : ι) : Prop :=
  ∀ s, ∃ received e, (outcome item).responses cmd reply k = [received] ∧ body s received = .error e

theorem Takes.read {k vb : Nat} {vbs : List Nat} {item : ι}
    (takes : Takes body cmd reply outcome step k item) (s : σ) (queue : List Received) :
    readUntilFences body (vb :: vbs) s ((outcome item).responses cmd reply k ++ queue) =
      readUntilFences body (vb :: vbs) (step s item) queue := by
  rcases takes s with ⟨none, same⟩ | ⟨received, one, handled⟩
  · rw [none, same, List.nil_append]
  · rw [one, List.singleton_append, readUntilFences, handled]

theorem Refuses.read {k vb : Nat} {vbs : List Nat} {item : ι}
    (refuses : Refuses body cmd reply outcome k item) (s : σ) (queue : List Received) :
    (readUntilFences body (vb :: vbs) s ((outcome item).responses cmd reply k ++ queue)).2 = queue := by
  obtain ⟨received, e, one, raised⟩ := refuses s
  rw [one, List.singleton_append, readUntilFences, raised]

/-- Where every response is taken, the loop comes to the fences. -/
theorem read_answers {k vb : Nat} {vbs : List Nat} {items : List ι} {fences : List Received}
    (takes : ∀ j item, items[j]? = some item → Takes body cmd reply outcome step (k + j) item) (s : σ) :
    readUntilFences body (vb :: vbs) s (answers cmd reply k (items.map outcome) ++ fences) =
      readUntilFences body (vb :: vbs) (items.foldl step s) fences := by
  induction items generalizing k s with
  | nil => rfl
  | cons item items ih =>
    obtain ⟨here, later⟩ := forall_getElem?_cons.mp takes
    rw [List.map_cons, answers, List.append_assoc, here.read, List.foldl_cons]
    exact ih later (step s item)

/-- A response that is refused leaves the fences behind it. -/
theorem read_answers_refused {k vb : Nat} {vbs : List Nat} {items : List ι} {fences : List Received}
    (fenced : fences ≠ []) {fine : ι → Prop}
    (takes : ∀ j item, items[j]? = some item → fine item →
      Takes body cmd reply outcome step (k + j) item)
    (refuses : ∀ j item, items[j]? = some item → ¬ fine item →
      Refuses body cmd reply outcome (k + j) item)
    (failing : ¬ ∀ item ∈ items, fine item) (s : σ) :
    (readUntilFences body (vb :: vbs) s (answers cmd reply k (items.map outcome) ++ fences)).2 ≠ [] := by
  induction items generalizing k s with
  | nil => simp at failing
  | cons item items ih =>
    obtain ⟨hereTakes, laterTakes⟩ := (@forall_getElem?_cons ι
      (fun n other => fine other → Takes body cmd reply outcome step n other) k item items).mp takes
    obtain ⟨hereRefuses, laterRefuses⟩ := (@forall_getElem?_cons ι
      (fun n other => ¬ fine other → Refuses body cmd reply outcome n other) k item items).mp refuses
    rw [List.map_cons, answers, List.append_assoc]
    by_cases here : fine item
    · rw [(hereTakes here).read]
      refine ih laterTakes laterRefuses (fun later => failing ?_) (step s item)
      exact List.forall_mem_cons.mpr ⟨here, later⟩
    · rw [(hereRefuses here).read]
      exact List.append_ne_nil_of_right_ne_nil _ fenced

end Reading

/-- An operation that sends everything leaves nothing unread exactly if no response is refused, and
    then it returns what the responses have made of the start. -/
theorem pipelined_clean_iff {ι α σ : Type} {python : Python} {client : Client} {vbucket : Int}
    {keyOf : ι → PyText} {send : Client → Nat → ι → Except PyError PyText} {setOrder : SetOrder}
    {cmd : Nat} {reply : α → Nat × Nat × Bytes} {outcome : ι → Outcome α} {step : σ → ι → σ}
    {body : σ → Received → Except Raised (σ × Bool)} {start : σ} {items : List ι} {fine : ι → Prop}
    (narrow : ∀ client k item packet, send client k item = .ok packet → client.vbucketId < 2 ^ 16)
    (fence : ∀ s, body s (noopResponse (items.length + 10)) = .ok (s, true))
    (takes : ∀ k item, items[k]? = some item → fine item → Takes body cmd reply outcome step k item)
    (refuses : ∀ k item, items[k]? = some item → ¬ fine item → Refuses body cmd reply outcome k item)
    (sends : Sends python client vbucket keyOf send items) :
    let call := pipelined python client setOrder vbucket keyOf send
      (fun count => answers cmd reply 0 ((items.take count).map outcome)) body start items
    (call.unread = [] ↔ ∀ item ∈ items, fine item) ∧
      ((∀ item ∈ items, fine item) → call.result = .ok (items.foldl step start)) := by
  obtain ⟨vbs, empty, call⟩ := @pipelined_sent ι σ python client vbucket keyOf send setOrder
    (fun count => answers cmd reply 0 ((items.take count).map outcome)) start body items narrow sends
  dsimp only at call ⊢
  rw [List.take_length] at call
  have result := congrArg Prod.fst call
  have unread := congrArg Prod.snd call
  dsimp only at result unread
  rw [result, unread]
  cases vbs with
  | nil =>
    have noItems := empty.mp rfl
    subst noItems
    exact ⟨iff_of_true rfl (by simp), fun _ => rfl⟩
  | cons vb vbs =>
    have zeroTakes : ∀ k item, items[k]? = some item → fine item →
        Takes body cmd reply outcome step (0 + k) item := by
      intro k item found
      rw [Nat.zero_add]
      exact takes k item found
    have zeroRefuses : ∀ k item, items[k]? = some item → ¬ fine item →
        Refuses body cmd reply outcome (0 + k) item := by
      intro k item found
      rw [Nat.zero_add]
      exact refuses k item found
    by_cases all : ∀ item ∈ items, fine item
    · have read := @read_answers σ body ι α cmd reply outcome step 0 vb vbs items
        (List.replicate (vb :: vbs).length (noopResponse (items.length + 10)))
        (fun k item found => zeroTakes k item found (all item (List.mem_of_getElem? found))) start
      rw [read, readUntilFences_fences fence]
      exact ⟨iff_of_true rfl all, fun _ => rfl⟩
    · have left := @read_answers_refused σ body ι α cmd reply outcome step 0 vb vbs items
        (List.replicate (vb :: vbs).length (noopResponse (items.length + 10))) (by simp) fine
        zeroTakes zeroRefuses all start
      exact ⟨iff_of_false left all, fun fine => absurd fine all⟩

theorem sendCmd_narrow {python : Python} {client : Client} {cmd k : Nat} {key val packet : PyText}
    {extraHeader : Option PyText} {cas : Option Nat} {scope : Option String}
    {collection : Option CollectionRef}
    (sent : sendCmd python client cmd key val k extraHeader cas scope collection = .ok packet) :
    client.vbucketId < 2 ^ 16 := by
  rw [sendCmd, sendMsg_eq_ok] at sent
  obtain ⟨key, extra, number, _, _, _, fits, _⟩ := sent
  simp only [Fits, pktFmt, headerFields, List.forall₂_cons] at fits
  have small := fits.2.2.2.2.2.1
  omega

/-- What a failed request is reported as -/
def raisedFor (errorMap : Option ErrorMap) (error : Failure) : Raised :=
  match errorMap with
  | none => .memcachedError error.status (.body error.body)
  | some errors =>
    match errors error.status with
    | none => .python .typeError
    | some names => .memcachedError error.status (.mapped names.1 names.2 error.body)

theorem handleSingleResponse_failure (errorMap : Option ErrorMap) (cmd k : Nat) (error : Failure) :
    handleSingleResponse errorMap none ⟨cmd, error.status, k, 0, 0, 0, 0, error.body⟩ =
      .error (raisedFor errorMap error) := by
  have nonzero := error.nonzero
  cases errorMap with
  | none => simp [handleSingleResponse, handleKeyedResponse, raisedFor, nonzero, Except.map]
  | some errors =>
    cases mapped : errors error.status with
    | none => simp [handleSingleResponse, handleKeyedResponse, raisedFor, nonzero, mapped, Except.map]
    | some names =>
      simp [handleSingleResponse, handleKeyedResponse, raisedFor, nonzero, mapped, Except.map]

theorem handleSingleResponse_success (errorMap : Option ErrorMap) (received : Received)
    (fine : received.errcode = 0) :
    handleSingleResponse errorMap none received =
      .ok (received.opaqueNumber, received.cas, received.body) := by
  simp [handleSingleResponse, handleKeyedResponse, fine, Except.map]

/-! ## `getMulti` -/

section GetMulti

variable {python : Python} {errorMap : Option ErrorMap}

/-- The last success for a key, as `(flags, cas, value)` -/
def LastSuccess (python : Python) (requests : List (PyText × Outcome GetReply)) (key : PyText)
    (value : Nat × Nat × Bytes) : Prop :=
  ∃ before name flags cas content after,
    requests = before ++ (name, .success (flags, cas, content)) :: after ∧
    dictKey python name = dictKey python key ∧ value = (flags.toNat, cas.toNat, content) ∧
    ∀ request ∈ after, dictKey python request.1 = dictKey python key →
      ∀ reply, request.2 ≠ .success reply

def storeSuccess (python : Python) (rv : AList fun _ : PyText => Nat × Nat × Bytes)
    (request : PyText × Outcome GetReply) : AList fun _ : PyText => Nat × Nat × Bytes :=
  match request.2 with
  | .success reply => rv.insert (dictKey python request.1) (reply.1.toNat, reply.2.1.toNat, reply.2.2)
  | _ => rv

/-- An element of a list to which one element is added is that one or was there before. -/
theorem append_singleton_split {ι : Type} {items before after : List ι} {last item : ι}
    (split : items ++ [last] = before ++ item :: after) :
    (after = [] ∧ items = before ∧ last = item) ∨
      ∃ later, after = later ++ [last] ∧ items = before ++ item :: later := by
  cases after using List.reverseRecOn with
  | nil =>
    obtain ⟨same, ends⟩ := List.append_inj' split rfl
    exact .inl ⟨rfl, same, List.singleton_inj.mp ends⟩
  | append_singleton later final =>
    rw [← List.cons_append, ← List.append_assoc] at split
    obtain ⟨same, ends⟩ := List.append_inj' split rfl
    exact .inr ⟨later, by rw [List.singleton_inj.mp ends], same⟩

/-- A request that is no success for the key changes nothing. -/
theorem lastSuccess_append_other {requests : List (PyText × Outcome GetReply)}
    {last : PyText × Outcome GetReply} {key : PyText} {value : Nat × Nat × Bytes}
    (other : dictKey python last.1 = dictKey python key → ∀ reply, last.2 ≠ .success reply) :
    LastSuccess python (requests ++ [last]) key value ↔ LastSuccess python requests key value := by
  constructor
  · intro ⟨before, name, flags, cas, content, after, split, same, made, rest⟩
    rcases append_singleton_split split with ⟨_, _, ends⟩ | ⟨later, ends, requestsEq⟩
    · exact absurd (by rw [ends]) (other (by rw [ends]; exact same) (flags, cas, content))
    · refine ⟨before, name, flags, cas, content, later, requestsEq, same, made, ?_⟩
      exact fun request member => rest request (by rw [ends]; exact List.mem_append_left _ member)
  · intro ⟨before, name, flags, cas, content, after, split, same, made, rest⟩
    refine ⟨before, name, flags, cas, content, after ++ [last], by rw [split]; simp, same, made, ?_⟩
    intro request member
    cases List.mem_append.mp member with
    | inl inside => exact rest request inside
    | inr ends =>
      rw [List.mem_singleton.mp ends]
      exact other

theorem lookup_storeSuccess (requests : List (PyText × Outcome GetReply)) (key : PyText)
    (value : Nat × Nat × Bytes) :
    (requests.foldl (storeSuccess python) ∅).lookup (dictKey python key) = some value ↔
      LastSuccess python requests key value := by
  induction requests using List.reverseRecOn with
  | nil =>
    refine iff_of_false (by simp) ?_
    intro ⟨before, _, _, _, _, after, impossible, _⟩
    exact absurd impossible.symm (by simp)
  | append_singleton requests last ih =>
    rw [List.foldl_append, List.foldl_cons, List.foldl_nil]
    obtain ⟨name, outcome⟩ := last
    cases outcome with
    | silent => exact ih.trans (lastSuccess_append_other fun _ reply => by simp).symm
    | failure error => exact ih.trans (lastSuccess_append_other fun _ reply => by simp).symm
    | success reply =>
      rw [storeSuccess]
      by_cases same : dictKey python name = dictKey python key
      · rw [same, AList.lookup_insert, Option.some.injEq]
        constructor
        · intro made
          exact ⟨requests, name, reply.1, reply.2.1, reply.2.2, [], rfl, same, made.symm, by simp⟩
        · intro ⟨before, _, flags, cas, content, after, split, _, made, rest⟩
          rcases append_singleton_split split with ⟨_, _, ends⟩ | ⟨later, ends, _⟩
          · cases ends
            exact made.symm
          · have mine := rest (name, .success reply) (by rw [ends]; simp) same reply
            exact absurd rfl mine
      · rw [AList.lookup_insert_ne (Ne.symm same), ih]
        exact (lastSuccess_append_other fun equal => absurd equal same).symm

theorem parseGet_getReply (opaqueNumber : Nat) (reply : GetReply) :
    parseGet (opaqueNumber, (getReply reply).1, (getReply reply).2.2) =
      .ok (reply.1.toNat, reply.2.1.toNat, reply.2.2) := by
  have taken : (beBytes 4 reply.1.toNat ++ reply.2.2).take 4 = beBytes 4 reply.1.toNat := by
    simp
  have dropped : (beBytes 4 reply.1.toNat ++ reply.2.2).drop 4 = reply.2.2 := by
    simp
  have flags : beNat (beBytes 4 reply.1.toNat) = reply.1.toNat := by
    rw [beNat_beBytes]
    exact Nat.mod_eq_of_lt reply.1.toNat_lt
  have long : ¬ (getReply reply).2.2.length < 4 := by
    rw [getReply, List.length_append, length_beBytes]
    omega
  rw [parseGet, if_neg long]
  show Except.ok (beNat ((beBytes 4 reply.1.toNat ++ reply.2.2).take 4), reply.2.1.toNat,
    (beBytes 4 reply.1.toNat ++ reply.2.2).drop 4) = _
  rw [taken, dropped, flags]

theorem getBody_success {keys : List PyText} {k : Nat} {key : PyText} (found : keys[k]? = some key)
    (rv : AList fun _ : PyText => Nat × Nat × Bytes) (reply : GetReply) :
    getBody python errorMap keys rv ⟨9, 0, k, (getReply reply).1, 0, (getReply reply).2.1, 0,
        (getReply reply).2.2⟩ = .ok (storeSuccess python rv (key, .success reply), false) := by
  have inside : k < keys.length := (List.getElem?_eq_some_iff.mp found).1
  have notFence : k ≠ keys.length + 10 := by omega
  rw [getBody, handleSingleResponse_success _ _ rfl]
  show (if k ≠ keys.length + 10 then _ else _) = _
  rw [if_pos notFence, found]
  show (parseGet (k, (getReply reply).1, (getReply reply).2.2) >>= _) = _
  rw [parseGet_getReply]
  rfl

theorem getBody_failure (keys : List PyText) (k : Nat)
    (rv : AList fun _ : PyText => Nat × Nat × Bytes) (error : Failure) :
    getBody python errorMap keys rv ⟨9, error.status, k, 0, 0, 0, 0, error.body⟩ =
      .error (raisedFor errorMap error) := by
  rw [getBody, handleSingleResponse_failure]
  rfl

theorem getBody_fence (keys : List PyText) (rv : AList fun _ : PyText => Nat × Nat × Bytes) :
    getBody python errorMap keys rv (noopResponse (keys.length + 10)) = .ok (rv, true) := by
  rw [getBody, handleSingleResponse_success _ _ rfl]
  show (if keys.length + 10 ≠ keys.length + 10 then _ else _) = _
  rw [if_neg (by simp)]

theorem getBody_takes {requests : List (PyText × Outcome GetReply)} {k : Nat}
    {request : PyText × Outcome GetReply} (found : requests[k]? = some request)
    (fine : ∀ error, request.2 ≠ .failure error) :
    Takes (getBody python errorMap (requests.map Prod.fst)) 9 getReply Prod.snd (storeSuccess python) k
      request := by
  intro rv
  obtain ⟨key, outcome⟩ := request
  cases outcome with
  | silent => exact .inl ⟨rfl, rfl⟩
  | success reply =>
    refine .inr ⟨_, rfl, getBody_success ?_ rv reply⟩
    rw [List.getElem?_map, found]
    rfl
  | failure error => exact absurd rfl (fine error)

/-- A get raises at the first failure. -/
theorem getBody_refuses {keys : List PyText} {k : Nat} {request : PyText × Outcome GetReply}
    (failing : ¬ ∀ error, request.2 ≠ .failure error) :
    Refuses (getBody python errorMap keys) 9 getReply Prod.snd k request := by
  intro rv
  obtain ⟨key, outcome⟩ := request
  cases outcome with
  | silent => exact absurd (fun _ => by simp) failing
  | success reply => exact absurd (fun _ => by simp) failing
  | failure error => exact ⟨_, _, rfl, getBody_failure _ k rv error⟩

/-- Nothing is left to be read, and what is returned has exactly the keys with a success. -/
def GetClean (python : Python) (client : Client) (setOrder : SetOrder) (errorMap : Option ErrorMap)
    (target : Target) (requests : List (PyText × Outcome GetReply)) : Prop :=
  (getMulti python client setOrder errorMap target requests).unread = [] ∧
    ∀ rv, (getMulti python client setOrder errorMap target requests).result = .ok rv →
      ∀ key value, rv.lookup (dictKey python key) = some value ↔ LastSuccess python requests key value

def GetSends (python : Python) (client : Client) (target : Target)
    (requests : List (PyText × Outcome GetReply)) : Prop :=
  Sends python client target.vbucket Prod.fst
    (sendGetq python (client.collectionName target.scope target.collection)) requests

/-- The requests that reach the socket, up to the first that does not, are silent. -/
def GetSilent (python : Python) (client : Client) (target : Target)
    (requests : List (PyText × Outcome GetReply)) : Prop :=
  ∀ k request, requests[k]? = some request →
    (∀ j ≤ k, ∀ other, requests[j]? = some other →
      Sendable python client target.vbucket Prod.fst
        (sendGetq python (client.collectionName target.scope target.collection)) j other) →
    request.2 = .silent

end GetMulti

/-- The responses to the first `count` requests are none exactly if all the requests up to the
    first that is not sent are silent. -/
theorem answers_take_eq_nil_iff {ι α : Type} {cmd : Nat} {reply : α → Nat × Nat × Bytes}
    {outcome : ι → Outcome α} {items : List ι} {sendable : Nat → ι → Prop} {count : Nat}
    (sent : ∀ k item, k < count → items[k]? = some item → sendable k item)
    (stopped : ∀ item, items[count]? = some item → ¬ sendable count item) :
    answers cmd reply 0 ((items.take count).map outcome) = [] ↔
      ∀ k item, items[k]? = some item → (∀ j ≤ k, ∀ other, items[j]? = some other → sendable j other) →
        outcome item = .silent := by
  rw [answers_eq_nil]
  constructor
  · intro silent k item found before
    apply silent
    apply List.mem_map_of_mem
    have less : k < count := by
      by_contra notLess
      cases there : items[count]? with
      | none =>
        have length := List.getElem?_eq_none_iff.mp there
        have inside := (List.getElem?_eq_some_iff.mp found).1
        omega
      | some other => exact stopped other there (before count (Nat.not_lt.mp notLess) other there)
    rw [List.mem_take_iff_getElem]
    obtain ⟨inside, rfl⟩ := List.getElem?_eq_some_iff.mp found
    exact ⟨k, by omega, rfl⟩
  · intro silent made member
    obtain ⟨item, taken, rfl⟩ := List.mem_map.mp member
    obtain ⟨k, less, rfl⟩ := List.mem_take_iff_getElem.mp taken
    apply silent k _ (List.getElem?_eq_getElem (by omega))
    intro j le other found
    exact sent j other (by omega) found

theorem getMulti_clean_iff (python : Python) (client : Client) (setOrder : SetOrder)
    (errorMap : Option ErrorMap) (target : Target) (requests : List (PyText × Outcome GetReply)) :
    GetClean python client setOrder errorMap target requests ↔
      (GetSends python client target requests ∧
          ∀ request ∈ requests, ∀ error, request.2 ≠ .failure error) ∨
        (¬ GetSends python client target requests ∧ GetSilent python client target requests) := by
  have narrow : ∀ names client k request packet, sendGetq python names client k request = .ok packet →
      client.vbucketId < 2 ^ 16 := fun _ _ _ _ _ sent => sendCmd_narrow sent
  by_cases sends : GetSends python client target requests
  · have fence : ∀ rv, getBody python errorMap (requests.map Prod.fst) rv
        (noopResponse (requests.length + 10)) = .ok (rv, true) := by
      intro rv
      have fenced := @getBody_fence python errorMap (requests.map Prod.fst) rv
      rwa [List.length_map] at fenced
    obtain ⟨unread, result⟩ := @pipelined_clean_iff _ _ _ python client target.vbucket Prod.fst _
      setOrder 9 getReply Prod.snd (storeSuccess python)
      (getBody python errorMap (requests.map Prod.fst)) ∅ requests
      (fun request => ∀ error, request.2 ≠ .failure error) (narrow _) fence
      (fun _ _ found => getBody_takes found) (fun _ _ _ => getBody_refuses) sends
    rw [or_iff_left (fun unsent => unsent.1 sends), and_iff_right sends, GetClean]
    constructor
    · intro clean
      exact unread.mp clean.1
    · intro fine
      refine ⟨unread.mpr fine, fun rv returned => ?_⟩
      have same := (result fine).symm.trans returned
      cases same
      exact lookup_storeSuccess requests
  · obtain ⟨count, _, sent, stopped, left, e, raised⟩ := @pipelined_unsent _ _ python client
      target.vbucket Prod.fst _ setOrder
      (fun count => answers 9 getReply 0 ((requests.take count).map Prod.snd)) ∅
      (getBody python errorMap (requests.map Prod.fst)) requests (narrow _) sends
    rw [or_iff_right (fun sent => sends sent.1), and_iff_right sends, GetClean, GetSilent,
      ← @answers_take_eq_nil_iff _ _ 9 getReply Prod.snd requests _ count sent stopped]
    constructor
    · intro clean
      exact left.symm.trans clean.1
    · intro silent
      refine ⟨left.trans silent, fun rv returned => ?_⟩
      have impossible := raised.symm.trans returned
      cases impossible

/-! ## `setMulti` -/

/-- The errors that `setMulti` reports: one for every item that failed -/
def failedItems (errorMap : Option ErrorMap) (items : List SetItem) : List Raised :=
  items.filterMap fun item =>
    match item.outcome with
    | .failure error => some (raisedFor errorMap error)
    | _ => none

/-- The status of a failed item is in the error map, if the client has one. -/
def Mapped (errorMap : Option ErrorMap) (item : SetItem) : Prop :=
  ∀ error, item.outcome = .failure error → ∀ errors ∈ errorMap, (errors error.status).isSome

/-- Nothing is left to be read, and what is returned is one error for every item that failed. -/
def SetClean (python : Python) (client : Client) (setOrder : SetOrder) (errorMap : Option ErrorMap)
    (exp flags : UInt32) (target : Target) (items : List SetItem) : Prop :=
  (setMulti python client setOrder errorMap exp flags target items).unread = [] ∧
    ∀ failed, (setMulti python client setOrder errorMap exp flags target items).result = .ok failed →
      failed = failedItems errorMap items

/-- `struct.pack(SET_PKT_FMT, flags, exp)` -/
def setExtra (exp flags : UInt32) : PyText := .bytes (record [4, 4] [flags.toNat, exp.toNat])

def SetSends (python : Python) (client : Client) (exp flags : UInt32) (target : Target)
    (items : List SetItem) : Prop :=
  Sends python client target.vbucket SetItem.key (sendSetq python (setExtra exp flags)
    (client.collectionName target.scope target.collection)) items

/-- The items that reach the socket, up to the first that does not, are silent. -/
def SetSilent (python : Python) (client : Client) (exp flags : UInt32) (target : Target)
    (items : List SetItem) : Prop :=
  ∀ k item, items[k]? = some item →
    (∀ j ≤ k, ∀ other, items[j]? = some other →
      Sendable python client target.vbucket SetItem.key (sendSetq python (setExtra exp flags)
        (client.collectionName target.scope target.collection)) j other) →
    item.outcome = .silent

def addFailure (errorMap : Option ErrorMap) (failed : List Raised) (item : SetItem) : List Raised :=
  match item.outcome with
  | .failure error => failed ++ [raisedFor errorMap error]
  | _ => failed

theorem foldl_addFailure (errorMap : Option ErrorMap) (items : List SetItem) (failed : List Raised) :
    items.foldl (addFailure errorMap) failed = failed ++ failedItems errorMap items := by
  induction items generalizing failed with
  | nil => simp [failedItems]
  | cons item items ih =>
    rw [List.foldl_cons, ih]
    cases made : item.outcome <;> simp [addFailure, failedItems, made]

theorem setBody_failure {errorMap : Option ErrorMap} {terminal k : Nat} {failed : List Raised}
    {error : Failure} :
    setBody errorMap terminal failed ⟨0x11, error.status, k, 0, 0, 0, 0, error.body⟩ =
      match raisedFor errorMap error with
      | .memcachedError status msg => .ok (failed ++ [.memcachedError status msg], false)
      | .python e => .error (.python e) := by
  rw [setBody, handleSingleResponse_failure]
  cases raisedFor errorMap error <;> rfl

/-- A set reports a failure and reads on. -/
theorem setBody_takes {errorMap : Option ErrorMap} {items : List SetItem} {k : Nat} {item : SetItem}
    (found : items[k]? = some item) (mapped : Mapped errorMap item) :
    Takes (setBody errorMap (items.length + 10)) 0x11 (fun cas : UInt64 => (cas.toNat, 0, []))
      SetItem.outcome (addFailure errorMap) k item := by
  intro failed
  have inside := (List.getElem?_eq_some_iff.mp found).1
  obtain ⟨key, value, outcome⟩ := item
  cases outcome with
  | silent => exact .inl ⟨rfl, rfl⟩
  | success cas =>
    refine .inr ⟨_, rfl, ?_⟩
    rw [setBody, handleSingleResponse_success _ _ rfl]
    have notFence : ¬ k = items.length + 10 := by omega
    simp [notFence, addFailure]
  | failure error =>
    refine .inr ⟨_, rfl, ?_⟩
    rw [setBody_failure, addFailure]
    have known := mapped error rfl
    cases errorMap with
    | none => rfl
    | some errors =>
      obtain ⟨names, there⟩ := Option.isSome_iff_exists.mp (known errors rfl)
      simp [raisedFor, there]

/-- A status that the error map does not know is not caught. -/
theorem setBody_refuses {errorMap : Option ErrorMap} {terminal k : Nat} {item : SetItem}
    (unmapped : ¬ Mapped errorMap item) :
    Refuses (setBody errorMap terminal) 0x11 (fun cas : UInt64 => (cas.toNat, 0, []))
      SetItem.outcome k item := by
  intro failed
  obtain ⟨key, value, outcome⟩ := item
  cases outcome with
  | silent => exact absurd (fun error impossible => by cases impossible) unmapped
  | success cas => exact absurd (fun error impossible => by cases impossible) unmapped
  | failure error =>
    refine ⟨_, .python .typeError, rfl, ?_⟩
    rw [setBody_failure]
    cases errorMap with
    | none => exact absurd (fun _ _ errors impossible => by cases impossible) unmapped
    | some errors =>
      cases there : errors error.status with
      | none => simp [raisedFor, there]
      | some names =>
        refine absurd ?_ unmapped
        intro other same found member
        cases same
        cases member
        rw [there]
        rfl

theorem setMulti_clean_iff (python : Python) (client : Client) (setOrder : SetOrder)
    (errorMap : Option ErrorMap) (exp flags : UInt32) (target : Target) (items : List SetItem) :
    SetClean python client setOrder errorMap exp flags target items ↔
      (SetSends python client exp flags target items ∧ ∀ item ∈ items, Mapped errorMap item) ∨
        (¬ SetSends python client exp flags target items ∧
          SetSilent python client exp flags target items) := by
  have narrow : ∀ extra names client k item packet,
      sendSetq python extra names client k item = .ok packet → client.vbucketId < 2 ^ 16 :=
    fun _ _ _ _ _ _ sent => sendCmd_narrow sent
  have packed : packExtras [4, 4] [flags.toNat, exp.toNat] = .ok (setExtra exp flags) := by
    have fits : Fits [4, 4] [flags.toNat, exp.toNat] :=
      .cons flags.toNat_lt (.cons exp.toNat_lt .nil)
    rw [packExtras, pack, if_pos fits]
    rfl
  have call : setMulti python client setOrder errorMap exp flags target items =
      pipelined python client setOrder target.vbucket SetItem.key
        (sendSetq python (setExtra exp flags)
          (client.collectionName target.scope target.collection))
        (fun count => answers 0x11 (fun cas => (cas.toNat, 0, [])) 0
          ((items.take count).map SetItem.outcome))
        (setBody errorMap (items.length + 10)) [] items := by
    rw [setMulti, packed]
  rw [SetClean, call]
  by_cases sends : SetSends python client exp flags target items
  · have fence : ∀ failed, setBody errorMap (items.length + 10) failed
        (noopResponse (items.length + 10)) = .ok (failed, true) := by
      intro failed
      rw [setBody, handleSingleResponse_success _ _ rfl]
      simp [noopResponse]
    obtain ⟨unread, result⟩ := @pipelined_clean_iff _ _ _ python client target.vbucket SetItem.key _
      setOrder 0x11 (fun cas : UInt64 => (cas.toNat, 0, [])) SetItem.outcome (addFailure errorMap)
      (setBody errorMap (items.length + 10)) [] items (Mapped errorMap) (narrow _ _) fence
      (fun _ _ found => setBody_takes found) (fun _ _ _ => setBody_refuses) sends
    rw [or_iff_left (fun unsent => unsent.1 sends), and_iff_right sends]
    constructor
    · intro clean
      exact unread.mp clean.1
    · intro fine
      refine ⟨unread.mpr fine, fun failed returned => ?_⟩
      have same := (result fine).symm.trans returned
      rw [foldl_addFailure, List.nil_append] at same
      exact (Except.ok.inj same).symm
  · obtain ⟨count, _, sent, stopped, left, e, raised⟩ := @pipelined_unsent _ _ python client
      target.vbucket SetItem.key _ setOrder
      (fun count => answers 0x11 (fun cas : UInt64 => (cas.toNat, 0, [])) 0
        ((items.take count).map SetItem.outcome)) []
      (setBody errorMap (items.length + 10)) items (narrow _ _) sends
    rw [or_iff_right (fun sent => sends sent.1), and_iff_right sends, SetSilent,
      ← @answers_take_eq_nil_iff _ _ 0x11 (fun cas : UInt64 => (cas.toNat, 0, [])) SetItem.outcome
        items _ count sent stopped]
    constructor
    · intro clean
      exact left.symm.trans clean.1
    · intro silent
      refine ⟨left.trans silent, fun failed returned => ?_⟩
      have impossible := raised.symm.trans returned
      cases impossible

/-- The two pipelined operations leave the connection clean and report every outcome, exactly if all
    their frames can be sent and no response makes the reading loop raise, or if what was sent
    before the first frame that cannot be sent is silent. -/
theorem pipelined_operations_clean_iff (python : Python) (client : Client) (setOrder : SetOrder)
    (errorMap : Option ErrorMap) (target : Target) (exp flags : UInt32)
    (requests : List (PyText × Outcome GetReply)) (items : List SetItem) :
    (GetClean python client setOrder errorMap target requests ↔
      (GetSends python client target requests ∧
          ∀ request ∈ requests, ∀ error, request.2 ≠ .failure error) ∨
        (¬ GetSends python client target requests ∧ GetSilent python client target requests)) ∧
    (SetClean python client setOrder errorMap exp flags target items ↔
      (SetSends python client exp flags target items ∧ ∀ item ∈ items, Mapped errorMap item) ∨
        (¬ SetSends python client exp flags target items ∧
          SetSilent python client exp flags target items)) :=
  ⟨getMulti_clean_iff python client setOrder errorMap target requests,
    setMulti_clean_iff python client setOrder errorMap exp flags target items⟩

def listOrder : SetOrder := ⟨List.dedup, fun _ => .refl _⟩

/-- One key that fails with the status 0x86: `getMulti` raises and leaves its fence unread. -/
theorem getMulti_leaves_fence :
    (getMulti .two (.new "h") listOrder none ⟨5, none, none⟩
        [(.bytes [0x6b], .failure ⟨0x86, [], by decide⟩)]).unread = [noopResponse 11] ∧
      ¬ GetClean .two (.new "h") listOrder none ⟨5, none, none⟩
        [(.bytes [0x6b], .failure ⟨0x86, [], by decide⟩)] := by
  have left : (getMulti .two (.new "h") listOrder none ⟨5, none, none⟩
      [(.bytes [0x6b], .failure ⟨0x86, [], by decide⟩)]).unread = [noopResponse 11] := by
    decide +kernel
  refine ⟨left, fun clean => ?_⟩
  rw [GetClean, left] at clean
  exact absurd clean.1 (by simp)

end Taf.Memcached
