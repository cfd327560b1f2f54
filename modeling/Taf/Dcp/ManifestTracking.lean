import Mathlib
import Taf.Lib.Bytes
import Taf.Lib.Run
import Taf.Lib.Text

/-! # Collections seen through DCP system events

`handleSystemEvent` of `couchbase_utils/dcp_utils/dcp_ready_functions.py` and the manifest that
`add_streams` starts a stream with.  The manifest is compared with the scopes and collections that
are alive after the history which the events report. -/

namespace Taf.Dcp

open Taf.Lib

structure DcpCollection where
  name : String
  uid : String
  maxTtl : Option Nat
  deriving DecidableEq

structure DcpScope where
  uid : String
  name : String
  collections : List DcpCollection
  deriving DecidableEq

/-- The manifest starts with the number 0, every event writes hexadecimal digits. -/
inductive ManifestUid where
  | number (n : Nat)
  | digits (text : String)
  deriving DecidableEq

structure DcpManifest where
  scopes : List DcpScope
  uid : ManifestUid
  deriving DecidableEq

def DcpManifest.initial : DcpManifest where
  scopes := [⟨"0", "_default", [⟨"_default", "0", none⟩]⟩]
  uid := .number 0

/-- A DCP system event as it is received. -/
structure SystemEvent where
  vbucket : Nat
  streamId : Option Nat
  bySeqno : Nat
  event : Nat
  version : Nat
  key : String
  value : Bytes

def eventCreateCollection : Nat := 0x0
def eventDeleteCollection : Nat := 0x1
def eventCreateScope : Nat := 0x3
def eventDeleteScope : Nat := 0x4

/-- `struct.error` -/
inductive StructError where
  | unpack

/-- `struct.unpack`, which takes a buffer of exactly the size of the record -/
def unpackValue (widths : List Nat) (value : Bytes) : Except StructError (List Nat) :=
  if value.length = widths.sum then .ok (unpack widths value) else .error .unpack

def SystemEvent.origin (response : SystemEvent) : String :=
  "DCP Event: vb:" ++ toString response.vbucket ++ ", sid:" ++
    response.streamId.elim "None" toString

/-- What `handleSystemEvent` changes: `self.output_string` and the manifest. -/
structure ManifestTracker where
  outputString : List String
  manifest : DcpManifest

/-- The loop that appends a new collection to its scope -/
def appendCollection (sid : String) (collection : DcpCollection) (scopes : List DcpScope) :
    List DcpScope :=
  scopes.map fun e =>
    if e.uid = sid then { e with collections := e.collections ++ [collection] } else e

/-- The inner loop of a drop, over the collections of one scope -/
def keepCollections (cid : String) (collections : List DcpCollection) (update : Bool) :
    List DcpCollection → List DcpCollection × Bool
  | [] => (collections, update)
  | c :: rest =>
    if c.uid ≠ cid then keepCollections cid (collections ++ [c]) true rest
    else keepCollections cid collections update rest

/-- The outer loop of a drop: `collections` is not cleared between scopes, and the first scope
    that is updated ends it. -/
def dropCollection (cid : String) (collections : List DcpCollection) : List DcpScope → List DcpScope
  | [] => []
  | e :: scopes =>
    let kept := keepCollections cid collections false e.collections
    if kept.2 then { e with collections := kept.1 } :: scopes
    else e :: dropCollection cid kept.1 scopes

def handleSystemEvent (self : ManifestTracker) (response : SystemEvent) :
    Except StructError ManifestTracker := do
  let tail uid := ", manifest:" ++ uid ++ ", seqno:" ++ toString response.bySeqno
  if response.event = eventCreateCollection then
    if response.version = 0 then
      match ← unpackValue [8, 4, 4] response.value with
      | [uid, sid, cid] =>
        let line := response.origin ++ ", what:CollectionCREATED, name:" ++ response.key ++ ", id:" ++
          hex cid ++ ", scope:" ++ hex sid ++ tail (hex uid)
        .ok ⟨self.outputString ++ [line],
          ⟨appendCollection (hex sid) ⟨response.key, hex cid, none⟩ self.manifest.scopes,
            .digits (hex uid)⟩⟩
      | _ => .error .unpack
    else if response.version = 1 then
      match ← unpackValue [8, 4, 4, 4] response.value with
      | [uid, sid, cid, ttl] =>
        let line := response.origin ++ ", what:CollectionCREATED, name:" ++ response.key ++ ", id:" ++
          hex cid ++ ", scope:" ++ hex sid ++ ", ttl:" ++ toString ttl ++ tail (hex uid)
        .ok ⟨self.outputString ++ [line],
          ⟨appendCollection (hex sid) ⟨response.key, hex cid, some 0⟩ self.manifest.scopes,
            .digits (hex uid)⟩⟩
      | _ => .error .unpack
    else
      .ok self
  else if response.event = eventDeleteCollection then
    match ← unpackValue [8, 4, 4] response.value with
    | [uid, sid, cid] =>
      let line := response.origin ++ ", what:CollectionDROPPED, id:" ++ hex cid ++ ", scope:" ++
        hex sid ++ ",  manifest:" ++ hex uid ++ ", seqno:" ++ toString response.bySeqno
      .ok ⟨self.outputString ++ [line],
        ⟨dropCollection (hex cid) [] self.manifest.scopes, .digits (hex uid)⟩⟩
    | _ => .error .unpack
  else if response.event = eventCreateScope then
    match ← unpackValue [8, 4] response.value with
    | [uid, sid] =>
      let line := response.origin ++ ", what:ScopeCREATED, name:" ++ response.key ++ ", id:" ++
        hex sid ++ tail (hex uid)
      .ok ⟨self.outputString ++ [line],
        ⟨self.manifest.scopes ++ [⟨hex sid, response.key, []⟩], .digits (hex uid)⟩⟩
    | _ => .error .unpack
  else if response.event = eventDeleteScope then
    match ← unpackValue [8, 4] response.value with
    | [uid, sid] =>
      let line := response.origin ++ ", what:ScopeDROPPED, id:" ++ hex sid ++ tail (hex uid)
      .ok ⟨self.outputString ++ [line],
        ⟨self.manifest.scopes.filter fun e => e.uid ≠ hex sid, .digits (hex uid)⟩⟩
    | _ => .error .unpack
  else
    .ok self

/-! ## Histories -/

inductive Change where
  | createCollection (sid cid : UInt32) (name : String)
  | createCollectionTtl (sid cid : UInt32) (name : String) (ttl : UInt32)
  | dropCollection (sid cid : UInt32)
  | createScope (sid : UInt32) (name : String)
  | dropScope (sid : UInt32)

/-- A change of the collections with the uid of the manifest that it makes, and where it is seen -/
structure ManifestChange where
  uid : UInt64
  vbucket : Nat
  streamId : Option Nat
  bySeqno : Nat
  change : Change

/-- The system event by which a change is reported -/
def ManifestChange.message (event : ManifestChange) : SystemEvent :=
  let message := SystemEvent.mk event.vbucket event.streamId event.bySeqno
  match event.change with
  | .createCollection sid cid name =>
    message eventCreateCollection 0 name (record [8, 4, 4] [event.uid.toNat, sid.toNat, cid.toNat])
  | .createCollectionTtl sid cid name ttl =>
    message eventCreateCollection 1 name
      (record [8, 4, 4, 4] [event.uid.toNat, sid.toNat, cid.toNat, ttl.toNat])
  | .dropCollection sid cid =>
    message eventDeleteCollection 0 "" (record [8, 4, 4] [event.uid.toNat, sid.toNat, cid.toNat])
  | .createScope sid name =>
    message eventCreateScope 0 name (record [8, 4] [event.uid.toNat, sid.toNat])
  | .dropScope sid =>
    message eventDeleteScope 0 "" (record [8, 4] [event.uid.toNat, sid.toNat])

structure AliveScope where
  sid : UInt32
  name : String
  collections : List (UInt32 × String)
  deriving DecidableEq

/-- The scopes and collections that are alive, in the order of their creation -/
structure Alive where
  scopes : List AliveScope
  uid : Option UInt64
  deriving DecidableEq

namespace Alive

def start : Alive := ⟨[⟨0, "_default", [(0, "_default")]⟩], none⟩

def addTo (sid cid : UInt32) (name : String) (scopes : List AliveScope) : List AliveScope :=
  scopes.map fun scope =>
    if scope.sid = sid then { scope with collections := scope.collections ++ [(cid, name)] } else scope

def dropFrom (sid cid : UInt32) (scopes : List AliveScope) : List AliveScope :=
  scopes.map fun scope =>
    if scope.sid = sid then
      { scope with collections := scope.collections.filter fun collection => collection.1 ≠ cid }
    else scope

def applyChange (scopes : List AliveScope) : Change → List AliveScope
  | .createCollection sid cid name => addTo sid cid name scopes
  | .createCollectionTtl sid cid name _ => addTo sid cid name scopes
  | .dropCollection sid cid => dropFrom sid cid scopes
  | .createScope sid name => scopes ++ [⟨sid, name, []⟩]
  | .dropScope sid => scopes.filter fun scope => scope.sid ≠ sid

def step (alive : Alive) (event : ManifestChange) : Alive :=
  ⟨applyChange alive.scopes event.change, some event.uid⟩

/-- The scope has the collection. -/
def Has (scope : AliveScope) (cid : UInt32) : Prop := cid ∈ scope.collections.map Prod.fst

instance (scope : AliveScope) (cid : UInt32) : Decidable (Has scope cid) :=
  inferInstanceAs (Decidable (cid ∈ scope.collections.map Prod.fst))

/-- Uids are fresh, and what is dropped exists. -/
def ValidChange (scopes : List AliveScope) : Change → Prop
  | .createCollection sid cid _ => (∃ scope ∈ scopes, scope.sid = sid) ∧ ∀ scope ∈ scopes, ¬ Has scope cid
  | .createCollectionTtl sid cid _ _ =>
    (∃ scope ∈ scopes, scope.sid = sid) ∧ ∀ scope ∈ scopes, ¬ Has scope cid
  | .dropCollection sid cid => ∃ scope ∈ scopes, scope.sid = sid ∧ Has scope cid
  | .createScope sid _ => ∀ scope ∈ scopes, scope.sid ≠ sid
  | .dropScope sid => ∃ scope ∈ scopes, scope.sid = sid

def Valid (alive : Alive) (event : ManifestChange) : Prop := ValidChange alive.scopes event.change

/-- A collection is dropped only from a scope that has another one, while all the older scopes
    are empty. -/
def Tracked (alive : Alive) (event : ManifestChange) : Prop :=
  match event.change with
  | .dropCollection sid cid =>
    ∃ older scope younger, alive.scopes = older ++ scope :: younger ∧ scope.sid = sid ∧
      (∀ empty ∈ older, empty.collections = []) ∧ ∃ other, other ≠ cid ∧ Has scope other
  | _ => True

/-- Scopes and collections as they are compared with a manifest: their uids and names -/
def shown (alive : Alive) : Multiset (String × String × Multiset (String × String)) :=
  Multiset.ofList (alive.scopes.map fun scope => (hex scope.sid.toNat, scope.name,
    Multiset.ofList (scope.collections.map fun collection =>
      (hex collection.1.toNat, collection.2))))

end Alive

def DcpManifest.shown (manifest : DcpManifest) :
    Multiset (String × String × Multiset (String × String)) :=
  Multiset.ofList (manifest.scopes.map fun scope => (scope.uid, scope.name,
    Multiset.ofList (scope.collections.map fun collection => (collection.uid, collection.name))))

/-- The manifest has exactly the scopes and collections that are alive, and the uid of the last
    event. -/
def DcpManifest.Reflects (manifest : DcpManifest) (alive : Alive) : Prop :=
  manifest.shown = alive.shown ∧ ∀ uid ∈ alive.uid, manifest.uid = .digits (hex uid.toNat)

/-! ## What one event does to the manifest -/

theorem unpackValue_record {widths values : List Nat} (fits : Fits widths values) :
    unpackValue widths (record widths values) = .ok values := by
  have read := unpack_record fits []
  rw [List.append_nil] at read
  rw [unpackValue, if_pos (length_record fits), read]

theorem fits_uid (uid : UInt64) {widths values : List Nat} (fits : Fits widths values) :
    Fits (8 :: widths) (uid.toNat :: values) :=
  .cons uid.toNat_lt fits

theorem fits_id (id : UInt32) {widths values : List Nat} (fits : Fits widths values) :
    Fits (4 :: widths) (id.toNat :: values) :=
  .cons id.toNat_lt fits

/-- The scopes after the event of a change -/
def eventScopes (scopes : List DcpScope) : Change → List DcpScope
  | .createCollection sid cid name => appendCollection (hex sid.toNat) ⟨name, hex cid.toNat, none⟩ scopes
  | .createCollectionTtl sid cid name _ =>
    appendCollection (hex sid.toNat) ⟨name, hex cid.toNat, some 0⟩ scopes
  | .dropCollection _ cid => dropCollection (hex cid.toNat) [] scopes
  | .createScope sid name => scopes ++ [⟨hex sid.toNat, name, []⟩]
  | .dropScope sid => scopes.filter fun e => e.uid ≠ hex sid.toNat

/-- The event of a change is unpacked, adds one line to the output and updates the manifest. -/
theorem handleSystemEvent_message (self : ManifestTracker) (event : ManifestChange) :
    ∃ line, handleSystemEvent self event.message =
      .ok ⟨self.outputString ++ [line],
        ⟨eventScopes self.manifest.scopes event.change, .digits (hex event.uid.toNat)⟩⟩ := by
  obtain ⟨uid, vbucket, streamId, bySeqno, change⟩ := event
  have ended : Fits [] [] := .nil
  cases change with
  | createCollection sid cid name =>
    have read := unpackValue_record (fits_uid uid (fits_id sid (fits_id cid ended)))
    simp only [handleSystemEvent, ManifestChange.message, eventCreateCollection, if_true, read]
    exact ⟨_, rfl⟩
  | createCollectionTtl sid cid name ttl =>
    have read := unpackValue_record (fits_uid uid (fits_id sid (fits_id cid (fits_id ttl ended))))
    simp only [handleSystemEvent, ManifestChange.message, eventCreateCollection, if_true, read]
    exact ⟨_, rfl⟩
  | dropCollection sid cid =>
    have read := unpackValue_record (fits_uid uid (fits_id sid (fits_id cid ended)))
    simp only [handleSystemEvent, ManifestChange.message, eventCreateCollection,
      eventDeleteCollection, if_true, read]
    exact ⟨_, rfl⟩
  | createScope sid name =>
    have read := unpackValue_record (fits_uid uid (fits_id sid ended))
    simp only [handleSystemEvent, ManifestChange.message, eventCreateCollection,
      eventDeleteCollection, eventCreateScope, if_true, read]
    exact ⟨_, rfl⟩
  | dropScope sid =>
    have read := unpackValue_record (fits_uid uid (fits_id sid ended))
    simp only [handleSystemEvent, ManifestChange.message, eventCreateCollection,
      eventDeleteCollection, eventCreateScope, eventDeleteScope, if_true, read]
    exact ⟨_, rfl⟩

/-- The events of a history never raise. -/
theorem foldlM_handleSystemEvent (events : List ManifestChange) (self : ManifestTracker) :
    ∃ tracker, events.foldlM (fun tracker event => handleSystemEvent tracker event.message) self =
        .ok tracker ∧
      tracker.manifest.scopes = (events.map ManifestChange.change).foldl eventScopes
        self.manifest.scopes := by
  induction events generalizing self with
  | nil => exact ⟨self, rfl, rfl⟩
  | cons event events ih =>
    obtain ⟨line, handled⟩ := handleSystemEvent_message self event
    rw [List.foldlM_cons, handled]
    exact ih _

/-! ## The loop of a drop -/

theorem keepCollections_eq (cid : String) (collections : List DcpCollection) (update : Bool)
    (rest : List DcpCollection) :
    keepCollections cid collections update rest =
      (collections ++ rest.filter (fun c => c.uid ≠ cid),
        update || (rest.filter fun c => c.uid ≠ cid) ≠ []) := by
  induction rest generalizing collections update with
  | nil => simp [keepCollections]
  | cons c rest ih =>
    by_cases same : c.uid = cid
    · simp [keepCollections, same, ih]
    · simp [keepCollections, same, ih]

/-- A scope with nothing else than the dropped collection is passed by. -/
theorem dropCollection_skip {cid : String} {e : DcpScope}
    (nothing : e.collections.filter (fun c => c.uid ≠ cid) = []) (scopes : List DcpScope) :
    dropCollection cid [] (e :: scopes) = e :: dropCollection cid [] scopes := by
  rw [dropCollection, keepCollections_eq, nothing]
  rfl

/-- The first scope with another collection is rewritten, and the loop ends there. -/
theorem dropCollection_stop {cid : String} {e : DcpScope}
    (another : e.collections.filter (fun c => c.uid ≠ cid) ≠ []) (scopes : List DcpScope) :
    dropCollection cid [] (e :: scopes) =
      { e with collections := e.collections.filter fun c => c.uid ≠ cid } :: scopes := by
  have update : (false || decide (e.collections.filter (fun c => c.uid ≠ cid) ≠ [])) = true := by
    rw [Bool.false_or]
    exact decide_eq_true another
  rw [dropCollection, keepCollections_eq]
  exact if_pos update

/-- Where no scope has the collection, nothing is changed. -/
theorem dropCollection_absent {cid : String} {scopes : List DcpScope}
    (absent : ∀ e ∈ scopes, ∀ c ∈ e.collections, c.uid ≠ cid) :
    dropCollection cid [] scopes = scopes := by
  induction scopes with
  | nil => rfl
  | cons e scopes ih =>
    have whole : e.collections.filter (fun c => c.uid ≠ cid) = e.collections := by
      apply List.filter_eq_self.mpr
      intro c member
      exact decide_eq_true (absent e List.mem_cons_self c member)
    by_cases empty : e.collections = []
    · rw [dropCollection_skip (whole.trans empty), ih]
      exact fun e member => absent e (List.mem_cons_of_mem _ member)
    · rw [dropCollection_stop (fun nothing => empty (whole ▸ nothing)), whole]

/-! ## The manifest follows the history -/

structure ShowsScope (scope : AliveScope) (e : DcpScope) : Prop where
  uid : e.uid = hex scope.sid.toNat
  name : e.name = scope.name
  collections : e.collections.map (fun c => (c.uid, c.name)) =
    scope.collections.map fun c => (hex c.1.toNat, c.2)

/-- Scopes have different uids, and a collection is in one scope only. -/
structure Distinct (scopes : List AliveScope) : Prop where
  sids : (scopes.map AliveScope.sid).Nodup
  owner : ∀ scope ∈ scopes, ∀ other ∈ scopes, ∀ cid, Alive.Has scope cid → Alive.Has other cid →
    scope.sid = other.sid

structure Follows (manifest : DcpManifest) (alive : Alive) : Prop where
  scopes : List.Forall₂ ShowsScope alive.scopes manifest.scopes
  uid : ∀ uid ∈ alive.uid, manifest.uid = .digits (hex uid.toNat)
  distinct : Distinct alive.scopes

theorem hex_id_eq {a b : UInt32} : hex a.toNat = hex b.toNat ↔ a = b :=
  ⟨fun same => UInt32.toNat_inj.mp (hex_injective same), fun same => by rw [same]⟩

theorem shown_eq_of_forall₂ {scopes : List AliveScope} {es : List DcpScope}
    (shows : List.Forall₂ ShowsScope scopes es) :
    es.map (fun scope => (scope.uid, scope.name,
        Multiset.ofList (scope.collections.map fun collection => (collection.uid, collection.name)))) =
      scopes.map fun scope => (hex scope.sid.toNat, scope.name,
        Multiset.ofList (scope.collections.map fun collection =>
          (hex collection.1.toNat, collection.2))) := by
  induction shows with
  | nil => rfl
  | cons shows _ ih => rw [List.map_cons, List.map_cons, ih, shows.uid, shows.name, shows.collections]

theorem Follows.reflects {manifest : DcpManifest} {alive : Alive} (follows : Follows manifest alive) :
    manifest.Reflects alive :=
  ⟨congrArg Multiset.ofList (shown_eq_of_forall₂ follows.scopes), follows.uid⟩

section Scopes

variable {scope : AliveScope} {e : DcpScope} {scopes : List AliveScope} {es : List DcpScope}

theorem ShowsScope.add (shows : ShowsScope scope e) (cid : UInt32) (name : String) (ttl : Option Nat) :
    ShowsScope { scope with collections := scope.collections ++ [(cid, name)] }
      { e with collections := e.collections ++ [⟨name, hex cid.toNat, ttl⟩] } where
  uid := shows.uid
  name := shows.name
  collections := by rw [List.map_append, List.map_append, shows.collections]; rfl

theorem ShowsScope.drop (shows : ShowsScope scope e) (cid : UInt32) :
    ShowsScope { scope with collections := scope.collections.filter fun c => c.1 ≠ cid }
      { e with collections := e.collections.filter fun c => c.uid ≠ hex cid.toNat } where
  uid := shows.uid
  name := shows.name
  collections := by
    have filtered := congrArg (List.filter fun shown => shown.1 ≠ hex cid.toNat) shows.collections
    rw [List.filter_map, List.filter_map] at filtered
    refine filtered.trans (congrArg _ (List.filter_congr ?_))
    intro c _
    simp [hex_id_eq]

theorem ShowsScope.filter_eq_nil (shows : ShowsScope scope e) (cid : UInt32) :
    e.collections.filter (fun c => c.uid ≠ hex cid.toNat) = [] ↔
      scope.collections.filter (fun c => c.1 ≠ cid) = [] := by
  rw [← List.map_eq_nil_iff, (shows.drop cid).collections, List.map_eq_nil_iff]

theorem ShowsScope.absent (shows : ShowsScope scope e) {cid : UInt32} (absent : ¬ Alive.Has scope cid) :
    ∀ c ∈ e.collections, c.uid ≠ hex cid.toNat := by
  intro c member same
  have image : (c.uid, c.name) ∈ scope.collections.map fun c => (hex c.1.toNat, c.2) := by
    rw [← shows.collections]
    exact List.mem_map_of_mem member
  obtain ⟨collection, found, eq⟩ := List.mem_map.mp image
  have uids : hex collection.1.toNat = c.uid := congrArg Prod.fst eq
  have ids : collection.1 = cid := hex_id_eq.mp (uids.trans same)
  exact absent (List.mem_map.mpr ⟨collection, found, ids⟩)

theorem shows_absent {cid : UInt32} (shows : List.Forall₂ ShowsScope scopes es)
    (absent : ∀ scope ∈ scopes, ¬ Alive.Has scope cid) :
    ∀ e ∈ es, ∀ c ∈ e.collections, c.uid ≠ hex cid.toNat := by
  induction shows with
  | nil => simp
  | cons shows _ ih =>
    intro e member
    cases member with
    | head => exact shows.absent (absent _ List.mem_cons_self)
    | tail _ member => exact ih (fun scope later => absent scope (List.mem_cons_of_mem _ later)) e member

theorem shows_addTo (shows : List.Forall₂ ShowsScope scopes es) (sid cid : UInt32) (name : String)
    (ttl : Option Nat) :
    List.Forall₂ ShowsScope (Alive.addTo sid cid name scopes)
      (appendCollection (hex sid.toNat) ⟨name, hex cid.toNat, ttl⟩ es) := by
  rw [Alive.addTo, appendCollection, List.forall₂_map_left_iff, List.forall₂_map_right_iff]
  refine shows.imp ?_
  intro scope e shows
  by_cases same : scope.sid = sid
  · rw [if_pos same, if_pos (by rw [shows.uid, same])]
    exact shows.add cid name ttl
  · rw [if_neg same, if_neg (by rw [shows.uid, hex_id_eq]; exact same)]
    exact shows

theorem shows_dropScope (shows : List.Forall₂ ShowsScope scopes es) (sid : UInt32) :
    List.Forall₂ ShowsScope (scopes.filter fun scope => scope.sid ≠ sid)
      (es.filter fun e => e.uid ≠ hex sid.toNat) := by
  induction shows with
  | nil => exact .nil
  | @cons scope e scopes es shows _ ih =>
    by_cases same : scope.sid = sid
    · rw [List.filter_cons_of_neg (by simpa using same),
        List.filter_cons_of_neg (by simpa [shows.uid, hex_id_eq] using same)]
      exact ih
    · rw [List.filter_cons_of_pos (by simpa using same),
        List.filter_cons_of_pos (by simpa [shows.uid, hex_id_eq] using same)]
      exact .cons shows ih

theorem dropFrom_absent {sid cid : UInt32} (absent : ∀ scope ∈ scopes, scope.sid ≠ sid) :
    Alive.dropFrom sid cid scopes = scopes := by
  rw [Alive.dropFrom]
  conv_rhs => rw [← List.map_id scopes]
  apply List.map_congr_left
  intro scope member
  exact if_neg (absent scope member)

theorem filter_eq_nil_of_empty {cid : UInt32} (empty : scope.collections = []) :
    scope.collections.filter (fun c => c.1 ≠ cid) = [] := by
  rw [empty]
  rfl

theorem has_other_iff {cid : UInt32} :
    (∃ other, other ≠ cid ∧ Alive.Has scope other) ↔
      scope.collections.filter (fun c => c.1 ≠ cid) ≠ [] := by
  rw [Ne, List.filter_eq_nil_iff]
  constructor
  · intro ⟨other, different, has⟩ nothing
    obtain ⟨collection, member, same⟩ := List.mem_map.mp has
    exact nothing collection member (decide_eq_true (same ▸ different))
  · intro something
    push Not at something
    obtain ⟨collection, member, different⟩ := something
    exact ⟨collection.1, of_decide_eq_true different, List.mem_map_of_mem member⟩

/-- The older scopes are empty, so that the loop stops at the scope of the collection. -/
theorem shows_dropFrom {older younger : List AliveScope} {sid cid : UInt32}
    (shows : List.Forall₂ ShowsScope (older ++ scope :: younger) es)
    (distinct : ((older ++ scope :: younger).map AliveScope.sid).Nodup) (owner : scope.sid = sid)
    (empty : ∀ before ∈ older, before.collections = [])
    (another : ∃ other, other ≠ cid ∧ Alive.Has scope other) :
    List.Forall₂ ShowsScope (Alive.dropFrom sid cid (older ++ scope :: younger))
      (dropCollection (hex cid.toNat) [] es) := by
  induction older generalizing es with
  | nil =>
    cases shows with
    | @cons _ e _ es shows rest =>
      have stops : e.collections.filter (fun c => c.uid ≠ hex cid.toNat) ≠ [] :=
        fun nothing => has_other_iff.mp another ((shows.filter_eq_nil cid).mp nothing)
      have others : Alive.dropFrom sid cid younger = younger := by
        apply dropFrom_absent
        intro later member same
        have new := (List.nodup_cons.mp distinct).1
        exact new (List.mem_map.mpr ⟨later, member, same.trans owner.symm⟩)
      rw [dropCollection_stop stops, List.nil_append, Alive.dropFrom, List.map_cons, if_pos owner,
        ← Alive.dropFrom, others]
      exact .cons (shows.drop cid) rest
  | cons first older ih =>
    cases shows with
    | @cons _ e _ es shows rest =>
      have nothing := @filter_eq_nil_of_empty first cid (empty first List.mem_cons_self)
      have kept : (if first.sid = sid then
          { first with collections := first.collections.filter fun c => c.1 ≠ cid } else first) = first := by
        rw [nothing, ← empty first List.mem_cons_self, ite_self]
      rw [dropCollection_skip ((shows.filter_eq_nil cid).mpr nothing), List.cons_append,
        Alive.dropFrom, List.map_cons, kept, ← Alive.dropFrom]
      exact .cons shows (ih rest (List.nodup_cons.mp distinct).2
        fun before member => empty before (List.mem_cons_of_mem _ member))

/-- Where the loop does not stop at the scope of the collection, it changes nothing. -/
theorem dropCollection_untracked {sid cid : UInt32} (shows : List.Forall₂ ShowsScope scopes es)
    (distinct : (scopes.map AliveScope.sid).Nodup)
    (owner : ∀ scope ∈ scopes, Alive.Has scope cid → scope.sid = sid)
    (untracked : ¬ ∃ older scope younger, scopes = older ++ scope :: younger ∧ scope.sid = sid ∧
      (∀ empty ∈ older, empty.collections = []) ∧ ∃ other, other ≠ cid ∧ Alive.Has scope other) :
    dropCollection (hex cid.toNat) [] es = es := by
  induction shows with
  | nil => rfl
  | @cons scope e scopes es shows rest ih =>
    by_cases has : Alive.Has scope cid
    · have alone : ¬ ∃ other, other ≠ cid ∧ Alive.Has scope other := fun another =>
        untracked ⟨[], scope, scopes, rfl, owner scope List.mem_cons_self has, by simp, another⟩
      have nothing := not_not.mp (mt has_other_iff.mpr alone)
      rw [dropCollection_skip ((shows.filter_eq_nil cid).mpr nothing), dropCollection_absent]
      -- The other scopes cannot have the collection: they have other uids.
      apply shows_absent rest
      intro later member again
      have here := owner scope List.mem_cons_self has
      have there := owner later (List.mem_cons_of_mem _ member) again
      exact (List.nodup_cons.mp distinct).1 (List.mem_map.mpr ⟨later, member, there.trans here.symm⟩)
    · by_cases empty : scope.collections = []
      · rw [dropCollection_skip ((shows.filter_eq_nil cid).mpr (filter_eq_nil_of_empty empty)), ih]
        · exact (List.nodup_cons.mp distinct).2
        · exact fun later member => owner later (List.mem_cons_of_mem _ member)
        · intro ⟨older, found, younger, split, rest⟩
          refine untracked ⟨scope :: older, found, younger, by rw [split]; rfl, rest.1, ?_, rest.2.2⟩
          intro before member
          cases member with
          | head => exact empty
          | tail _ member => exact rest.2.1 before member
      · have whole : e.collections.filter (fun c => c.uid ≠ hex cid.toNat) = e.collections := by
          apply List.filter_eq_self.mpr
          intro c member
          exact decide_eq_true (shows.absent has c member)
        rw [dropCollection_stop, whole]
        intro nothing
        rw [shows.filter_eq_nil] at nothing
        rw [List.filter_eq_self.mpr] at nothing
        · exact empty nothing
        · intro collection member
          exact decide_eq_true fun same => has (List.mem_map.mpr ⟨collection, member, same⟩)

/-! ## Uids stay distinct -/

theorem has_addTo {sid cid id : UInt32} {name : String} {scope : AliveScope}
    (member : scope ∈ Alive.addTo sid cid name scopes) (has : Alive.Has scope id) :
    ∃ before ∈ scopes, before.sid = scope.sid ∧
      (Alive.Has before id ∨ (before.sid = sid ∧ id = cid)) := by
  obtain ⟨before, found, rfl⟩ := List.mem_map.mp member
  refine ⟨before, found, ?_⟩
  by_cases same : before.sid = sid
  · rw [if_pos same] at has ⊢
    refine ⟨rfl, ?_⟩
    rw [Alive.Has, List.map_append, List.mem_append] at has
    cases has with
    | inl old => exact .inl old
    | inr new => exact .inr ⟨same, List.mem_singleton.mp new⟩
  · rw [if_neg same] at has ⊢
    exact ⟨rfl, .inl has⟩

theorem Distinct.addTo (distinct : Distinct scopes) {sid cid : UInt32} (name : String)
    (fresh : ∀ scope ∈ scopes, ¬ Alive.Has scope cid) :
    Distinct (Alive.addTo sid cid name scopes) where
  sids := by
    have same : (Alive.addTo sid cid name scopes).map AliveScope.sid = scopes.map AliveScope.sid := by
      rw [Alive.addTo, List.map_map]
      apply List.map_congr_left
      intro scope _
      show (if scope.sid = sid then _ else scope).sid = scope.sid
      split <;> rfl
    rw [same]
    exact distinct.sids
  owner := by
    intro scope member other otherMember id has otherHas
    obtain ⟨before, found, sameSid, hadOr⟩ := has_addTo member has
    obtain ⟨otherBefore, otherFound, otherSameSid, otherHadOr⟩ := has_addTo otherMember otherHas
    rw [← sameSid, ← otherSameSid]
    cases hadOr with
    | inl had =>
      cases otherHadOr with
      | inl otherHad => exact distinct.owner before found otherBefore otherFound id had otherHad
      | inr new => exact absurd (new.2 ▸ had) (fresh before found)
    | inr new =>
      cases otherHadOr with
      | inl otherHad => exact absurd (new.2 ▸ otherHad) (fresh otherBefore otherFound)
      | inr otherNew => exact new.1.trans otherNew.1.symm

theorem Distinct.dropFrom (distinct : Distinct scopes) (sid cid : UInt32) :
    Distinct (Alive.dropFrom sid cid scopes) where
  sids := by
    have same : (Alive.dropFrom sid cid scopes).map AliveScope.sid = scopes.map AliveScope.sid := by
      rw [Alive.dropFrom, List.map_map]
      apply List.map_congr_left
      intro scope _
      show (if scope.sid = sid then _ else scope).sid = scope.sid
      split <;> rfl
    rw [same]
    exact distinct.sids
  owner := by
    have had : ∀ scope ∈ Alive.dropFrom sid cid scopes, ∀ id, Alive.Has scope id →
        ∃ before ∈ scopes, before.sid = scope.sid ∧ Alive.Has before id := by
      intro scope member id has
      obtain ⟨before, found, rfl⟩ := List.mem_map.mp member
      refine ⟨before, found, ?_⟩
      by_cases same : before.sid = sid
      · rw [if_pos same] at has ⊢
        obtain ⟨collection, kept, named⟩ := List.mem_map.mp has
        exact ⟨rfl, List.mem_map.mpr ⟨collection, List.mem_of_mem_filter kept, named⟩⟩
      · rw [if_neg same] at has ⊢
        exact ⟨rfl, has⟩
    intro scope member other otherMember id has otherHas
    obtain ⟨before, found, sameSid, hadIt⟩ := had scope member id has
    obtain ⟨otherBefore, otherFound, otherSameSid, otherHadIt⟩ := had other otherMember id otherHas
    rw [← sameSid, ← otherSameSid]
    exact distinct.owner before found otherBefore otherFound id hadIt otherHadIt

theorem Distinct.createScope (distinct : Distinct scopes) {sid : UInt32} (name : String)
    (fresh : ∀ scope ∈ scopes, scope.sid ≠ sid) : Distinct (scopes ++ [⟨sid, name, []⟩]) where
  sids := by
    rw [List.map_append, List.map_singleton]
    refine List.Nodup.append distinct.sids (List.nodup_singleton _) ?_
    rw [List.disjoint_singleton]
    intro member
    obtain ⟨scope, found, same⟩ := List.mem_map.mp member
    exact fresh scope found same
  owner := by
    have old : ∀ scope ∈ scopes ++ [⟨sid, name, []⟩], ∀ id, Alive.Has scope id → scope ∈ scopes := by
      intro scope member id has
      cases List.mem_append.mp member with
      | inl old => exact old
      | inr new =>
        rw [List.mem_singleton.mp new] at has
        cases has
    intro scope member other otherMember id has otherHas
    exact distinct.owner scope (old scope member id has) other (old other otherMember id otherHas) id
      has otherHas

theorem Distinct.dropScope (distinct : Distinct scopes) (sid : UInt32) :
    Distinct (scopes.filter fun scope => scope.sid ≠ sid) where
  sids := distinct.sids.sublist (List.filter_sublist.map _)
  owner := fun scope member other otherMember =>
    distinct.owner scope (List.mem_of_mem_filter member) other (List.mem_of_mem_filter otherMember)

theorem Distinct.applyChange (distinct : Distinct scopes) {change : Change}
    (valid : Alive.ValidChange scopes change) : Distinct (Alive.applyChange scopes change) := by
  cases change with
  | createCollection sid cid name => exact distinct.addTo name valid.2
  | createCollectionTtl sid cid name ttl => exact distinct.addTo name valid.2
  | dropCollection sid cid => exact distinct.dropFrom sid cid
  | createScope sid name => exact distinct.createScope name valid
  | dropScope sid => exact distinct.dropScope sid

end Scopes

/-! ## Whole histories -/

section Histories

variable {manifest : DcpManifest} {alive : Alive} {event : ManifestChange}

theorem Follows.step (follows : Follows manifest alive) (valid : alive.Valid event)
    (tracked : alive.Tracked event) :
    Follows ⟨eventScopes manifest.scopes event.change, .digits (hex event.uid.toNat)⟩
      (alive.step event) where
  scopes := by
    show List.Forall₂ ShowsScope (Alive.applyChange alive.scopes event.change) _
    rw [Alive.Tracked] at tracked
    cases reported : event.change with
    | createCollection sid cid name => exact shows_addTo follows.scopes sid cid name none
    | createCollectionTtl sid cid name ttl => exact shows_addTo follows.scopes sid cid name (some 0)
    | dropCollection sid cid =>
      rw [reported] at tracked
      obtain ⟨older, scope, younger, split, owner, empty, another⟩ := tracked
      have shows := follows.scopes
      have distinct := follows.distinct.sids
      rw [Alive.applyChange, eventScopes]
      rw [split] at shows distinct ⊢
      exact shows_dropFrom shows distinct owner empty another
    | createScope sid name =>
      have new : ShowsScope ⟨sid, name, []⟩ ⟨hex sid.toNat, name, []⟩ := ⟨rfl, rfl, rfl⟩
      exact List.rel_append follows.scopes (.cons new .nil)
    | dropScope sid => exact shows_dropScope follows.scopes sid
  uid := by
    intro uid last
    cases last
    rfl
  distinct := follows.distinct.applyChange valid

/-- How many collections a manifest shows -/
def collectionCount (shown : Multiset (String × String × Multiset (String × String))) : Nat :=
  (shown.map fun scope => scope.2.2.card).sum

theorem collectionCount_shown (alive : Alive) :
    collectionCount alive.shown = (alive.scopes.map fun scope => scope.collections.length).sum := by
  simp [collectionCount, Alive.shown, Function.comp_def]

theorem collectionCount_dropFrom {scopes : List AliveScope} {sid cid : UInt32}
    (present : ∃ scope ∈ scopes, scope.sid = sid ∧ Alive.Has scope cid) :
    ((Alive.dropFrom sid cid scopes).map fun scope => scope.collections.length).sum <
      (scopes.map fun scope => scope.collections.length).sum := by
  rw [Alive.dropFrom, List.map_map]
  apply List.sum_lt_sum
  · intro scope _
    show (if scope.sid = sid then _ else scope).collections.length ≤ _
    split
    · exact List.length_filter_le _ _
    · exact Nat.le_refl _
  · obtain ⟨scope, member, owner, has⟩ := present
    refine ⟨scope, member, ?_⟩
    show (if scope.sid = sid then _ else scope).collections.length < _
    rw [if_pos owner]
    obtain ⟨collection, found, same⟩ := List.mem_map.mp has
    exact List.length_filter_lt_length_iff_exists.mpr ⟨collection, found, by simpa using same⟩

/-- A drop that is not tracked leaves the collection in the manifest. -/
theorem Follows.untracked (follows : Follows manifest alive) (valid : alive.Valid event)
    (untracked : ¬ alive.Tracked event) (uid : ManifestUid) :
    ¬ DcpManifest.Reflects ⟨eventScopes manifest.scopes event.change, uid⟩ (alive.step event) := by
  rw [Alive.Tracked] at untracked
  rw [Alive.Valid] at valid
  cases reported : event.change with
  | dropCollection sid cid =>
    rw [reported] at untracked valid
    have owner : ∀ scope ∈ alive.scopes, Alive.Has scope cid → scope.sid = sid := by
      intro scope member has
      obtain ⟨dropped, found, sameSid, hasIt⟩ := valid
      rw [← sameSid]
      exact follows.distinct.owner scope member dropped found cid has hasIt
    have unchanged : eventScopes manifest.scopes (.dropCollection sid cid) = manifest.scopes :=
      dropCollection_untracked follows.scopes follows.distinct.sids owner untracked
    intro reflects
    have shown : alive.shown = (alive.step event).shown := by
      rw [unchanged] at reflects
      rw [← reflects.1]
      exact follows.reflects.1.symm
    have counts := congrArg collectionCount shown
    rw [collectionCount_shown, collectionCount_shown] at counts
    have fewer := collectionCount_dropFrom valid
    rw [Alive.step, reported, Alive.applyChange] at counts
    exact absurd counts (Nat.ne_of_gt fewer)
  | createCollection sid cid name =>
    rw [reported] at untracked
    exact absurd trivial untracked
  | createCollectionTtl sid cid name ttl =>
    rw [reported] at untracked
    exact absurd trivial untracked
  | createScope sid name =>
    rw [reported] at untracked
    exact absurd trivial untracked
  | dropScope sid =>
    rw [reported] at untracked
    exact absurd trivial untracked

theorem follows_initial : Follows .initial .start where
  scopes := .cons ⟨by decide, rfl, by decide⟩ .nil
  uid := by simp [Alive.start]
  distinct := by
    constructor
    · exact List.nodup_singleton _
    · intro scope member other otherMember _ _ _
      rw [List.mem_singleton.mp member, List.mem_singleton.mp otherMember]

/-- Over a valid history the manifest has after every event exactly what is alive, if and only if
    every collection is dropped while it is not the last one of its scope and the older scopes are
    empty. -/
theorem manifest_reflects_iff {events : List ManifestChange}
    (valid : Guarded Alive.step Alive.Valid .start events) (outputString : List String) :
    (∀ before after, events = before ++ after →
        ∃ tracker, before.foldlM (fun tracker event => handleSystemEvent tracker event.message)
            ⟨outputString, .initial⟩ = .ok tracker ∧
          tracker.manifest.Reflects (run Alive.step .start before)) ↔
      Guarded Alive.step Alive.Tracked .start events := by
  have takes : ∀ (tracker : ManifestTracker) alive (event : ManifestChange),
      Follows tracker.manifest alive → alive.Valid event → alive.Tracked event →
      ∃ next, handleSystemEvent tracker event.message = .ok next ∧
        Follows next.manifest (alive.step event) := by
    intro tracker alive event follows valid tracked
    obtain ⟨line, handled⟩ := handleSystemEvent_message tracker event
    exact ⟨_, handled, follows.step valid tracked⟩
  have refuses : ∀ (tracker : ManifestTracker) alive (event : ManifestChange),
      Follows tracker.manifest alive → alive.Valid event → ¬ alive.Tracked event →
      ∀ next, handleSystemEvent tracker event.message = .ok next →
        ¬ next.manifest.Reflects (alive.step event) := by
    intro tracker alive event follows valid untracked next stepped
    obtain ⟨line, handled⟩ := handleSystemEvent_message tracker event
    rw [handled] at stepped
    cases stepped
    exact follows.untracked valid untracked _
  exact foldlM_agrees_iff (R := fun (tracker : ManifestTracker) alive => Follows tracker.manifest alive)
    (fun _ _ follows => follows.reflects) takes refuses follows_initial valid

/-- A collection is created beside the default one and dropped again. -/
def droppedFromDefault : List ManifestChange :=
  [⟨1, 0, none, 1, .createCollection 0 8 "c"⟩, ⟨2, 0, none, 2, .dropCollection 0 8⟩]

theorem manifest_reflects_dropped_from_default :
    Guarded Alive.step Alive.Valid .start droppedFromDefault ∧
      ∃ tracker, droppedFromDefault.foldlM
          (fun tracker event => handleSystemEvent tracker event.message) ⟨[], .initial⟩ = .ok tracker ∧
        tracker.manifest.Reflects (run Alive.step .start droppedFromDefault) := by
  have valid : Guarded Alive.step Alive.Valid .start droppedFromDefault := by
    refine ⟨⟨⟨_, List.mem_singleton_self _, rfl⟩, ?_⟩, ⟨_, List.mem_singleton_self _, rfl, ?_⟩, trivial⟩
    · decide
    · decide
  have tracked : Guarded Alive.step Alive.Tracked .start droppedFromDefault := by
    refine ⟨trivial, ⟨[], _, [], rfl, rfl, ?_, 0, ?_, ?_⟩, trivial⟩
    · decide
    · decide
    · decide
  exact ⟨valid, (manifest_reflects_iff valid []).mpr tracked _ [] (List.append_nil _).symm⟩

/-- The only collection of a second scope is dropped. -/
def droppedFromSecond : List ManifestChange :=
  [⟨1, 0, none, 1, .createScope 8 "s"⟩, ⟨2, 0, none, 2, .createCollection 8 9 "c"⟩,
    ⟨3, 0, none, 3, .dropCollection 8 9⟩]

theorem manifest_keeps_dropped_collection :
    Guarded Alive.step Alive.Valid .start droppedFromSecond ∧
      ∃ tracker, droppedFromSecond.foldlM
          (fun tracker event => handleSystemEvent tracker event.message) ⟨[], .initial⟩ = .ok tracker ∧
        (⟨"8", "s", [⟨"c", "9", none⟩]⟩ : DcpScope) ∈ tracker.manifest.scopes ∧
        ¬ tracker.manifest.Reflects (run Alive.step .start droppedFromSecond) := by
  refine ⟨?_, ?_⟩
  · refine ⟨?_, ⟨⟨⟨8, "s", []⟩, ?_, rfl⟩, ?_⟩, ⟨⟨8, "s", [(9, "c")]⟩, ?_, rfl, ?_⟩, trivial⟩
    · intro scope member
      rw [List.mem_singleton.mp member]
      decide
    · decide
    · decide
    · decide
    · decide
  · obtain ⟨tracker, folded, scopes⟩ := foldlM_handleSystemEvent droppedFromSecond ⟨[], .initial⟩
    have kept : tracker.manifest.scopes =
        [⟨"0", "_default", [⟨"_default", "0", none⟩]⟩, ⟨"8", "s", [⟨"c", "9", none⟩]⟩] := by
      rw [scopes]
      decide
    refine ⟨tracker, folded, by rw [kept]; decide, ?_⟩
    intro reflects
    have counts := congrArg collectionCount reflects.1
    rw [DcpManifest.shown, kept, collectionCount_shown] at counts
    exact absurd counts (by decide)

end Histories

end Taf.Dcp
