import Taf.Lib.Run
import Taf.Lib.Dict
import Taf.Lib.PyJson

/-! # Design documents

`DesignDocument` and `View` of `couchbase_helper/document.py`.  `_init_from_json` leaves the
parameter `spatial_views` of the constructor out, so every document it makes holds the list
that was made once as the default value; what it appends there, all of them show. -/

namespace Taf.Views

open Taf.Lib

/-- A value of `json_object['views']`. -/
structure ViewFunctions where
  map : String
  reduce : Option String := none
  deriving DecidableEq

/-- The JSON object of a design document; a spatial view is its map function. -/
structure DesignJson where
  views : AList fun _ : String => ViewFunctions
  spatial : Option (AList fun _ : String => String) := none
  options : Option PyDict := none

/-- What `View.as_json` has under the name of the view. -/
inductive ViewJson where
  | functions (functions : ViewFunctions)
  | spatial (mapFunc : String)
  deriving DecidableEq

/-- What `DesignDocument.as_json` returns. -/
structure DesignShown where
  views : AList fun _ : String => ViewJson
  spatial : Option (AList fun _ : String => ViewJson)
  options : Option PyDict

def cleanString (text : String) : String :=
  String.ofList ((text.toList.filter (· ≠ '\n')).filter (· ≠ '\r'))

structure View where
  name : String
  mapFunc : String
  redFunc : Option String
  isSpatial : Bool
  deriving DecidableEq

/-- `View._init_from_json(view)` -/
def View.initFromJson (name : String) (json : ViewFunctions) : View where
  name := name
  mapFunc := cleanString json.map
  redFunc := json.reduce.map cleanString
  isSpatial := false

/-- `View._init_from_json(view, spatial=True)` -/
def View.initSpatialFromJson (name mapFunc : String) : View where
  name := name
  mapFunc := cleanString mapFunc
  redFunc := none
  isSpatial := true

def View.asJson (view : View) : ViewJson :=
  if view.isSpatial then .spatial view.mapFunc
  else .functions { map := view.mapFunc, reduce := view.redFunc }

/-- A document without the list that it shares with the others. -/
structure DesignDocument where
  name : String
  views : List View
  options : Option PyDict

/-- The default value of the parameter `spatial_views`, and the documents made so far. -/
structure Process where
  spatialViews : List View := []
  documents : List DesignDocument := []

def DesignJson.spatialViews (json : DesignJson) : List View :=
  match json.spatial with
  | none => []
  | some spatial => spatial.entries.map fun entry => View.initSpatialFromJson entry.1 entry.2

def DesignJson.document (json : DesignJson) (name : String) : DesignDocument where
  name := name
  views := json.views.entries.map fun entry => View.initFromJson entry.1 entry.2
  options := json.options

/-- `DesignDocument._init_from_json(design_doc_name, json_object)` -/
def initFromJson (process : Process) (call : String × DesignJson) : Process where
  spatialViews := process.spatialViews ++ call.2.spatialViews
  documents := process.documents ++ [call.2.document call.1]

/-- The views by name; of two with one name the later one stays. -/
def byName (views : List View) : AList fun _ : String => ViewJson :=
  assignAll (views.map fun view => (view.name, view.asJson)) ∅

def Process.asJson (process : Process) (document : DesignDocument) : DesignShown where
  views := byName document.views
  spatial := if process.spatialViews.isEmpty then none else some (byName process.spatialViews)
  -- `if self.options:`
  options := document.options.filter fun options => !options.entries.isEmpty

/-! ## What a document has to show -/

/-- The text has neither CR nor LF. -/
def OneLine (text : String) : Prop := '\n' ∉ text.toList ∧ '\r' ∉ text.toList

instance (text : String) : Decidable (OneLine text) := inferInstanceAs (Decidable (_ ∧ _))

/-- Functions on one line, and `options` is there only if it is not empty. -/
structure DesignJson.WellFormed (json : DesignJson) : Prop where
  functions : ∀ name functions, json.views.lookup name = some functions →
    OneLine functions.map ∧ ∀ reduce ∈ functions.reduce, OneLine reduce
  spatial : ∀ spatial ∈ json.spatial, ∀ name mapFunc, spatial.lookup name = some mapFunc →
    OneLine mapFunc
  options : ∀ options ∈ json.options, options.entries ≠ []

/-- `as_json() == json_object`, dictionary by dictionary. -/
structure Shows (shown : DesignShown) (json : DesignJson) : Prop where
  views : ∀ name, shown.views.lookup name = (json.views.lookup name).map .functions
  absent : json.spatial = none → shown.spatial = none
  spatial : ∀ spatial ∈ json.spatial, ∃ shownSpatial ∈ shown.spatial,
    ∀ name, shownSpatial.lookup name = (spatial.lookup name).map .spatial
  options : shown.options = json.options

/-- Every document shows the JSON object it was made from. -/
def RoundTrips (calls : List (String × DesignJson)) : Prop :=
  ∀ (index : Nat) name json document, calls[index]? = some (name, json) →
    (run initFromJson {} calls).documents[index]? = some document →
      Shows ((run initFromJson {} calls).asJson document) json

/-- The same spatial views, or none in either. -/
def SameSpatial (json other : DesignJson) : Prop :=
  match json.spatial, other.spatial with
  | none, none => True
  | some spatial, some otherSpatial => ∀ name, spatial.lookup name = otherSpatial.lookup name
  | _, _ => False

/-! ## The run in closed form -/

theorem run_initFromJson (process : Process) (calls : List (String × DesignJson)) :
    run initFromJson process calls =
      { spatialViews := process.spatialViews ++ calls.flatMap fun call => call.2.spatialViews
        documents := process.documents ++ calls.map fun call => call.2.document call.1 } := by
  induction calls generalizing process with
  | nil => simp
  | cons call calls ih =>
    rw [run_cons, ih]
    simp [initFromJson]

theorem run_spatialViews (calls : List (String × DesignJson)) :
    (run initFromJson {} calls).spatialViews = calls.flatMap fun call => call.2.spatialViews := by
  simp [run_initFromJson]

theorem run_documents (calls : List (String × DesignJson)) :
    (run initFromJson {} calls).documents = calls.map fun call => call.2.document call.1 := by
  simp [run_initFromJson]

/-! ## Views by name -/

theorem cleanString_of_oneLine {text : String} (oneLine : OneLine text) : cleanString text = text := by
  have noLF : text.toList.filter (· ≠ '\n') = text.toList := by
    refine List.filter_eq_self.mpr fun char member => ?_
    have other : char ≠ '\n' := fun same => oneLine.1 (same ▸ member)
    simpa using other
  have noCR : text.toList.filter (· ≠ '\r') = text.toList := by
    refine List.filter_eq_self.mpr fun char member => ?_
    have other : char ≠ '\r' := fun same => oneLine.2 (same ▸ member)
    simpa using other
  rw [cleanString, noLF, noCR, String.ofList_toList]

variable {json other : DesignJson} {name : String}

/-- The views of a document under their names are those of its JSON object. -/
theorem lookup_document_views (wellFormed : json.WellFormed) (docName : String) :
    (byName (json.document docName).views).lookup name =
      (json.views.lookup name).map .functions := by
  have assigned := @lookup_assignAll_entries _ _ _ name _ json.views
    (fun functions => ViewJson.functions
      { map := cleanString functions.map, reduce := functions.reduce.map cleanString }) ∅
  have pairs : ((json.document docName).views.map fun view => (view.name, view.asJson)) =
      json.views.entries.map fun entry =>
        (entry.1, ViewJson.functions
          { map := cleanString entry.2.map, reduce := entry.2.reduce.map cleanString }) := by
    simp [DesignJson.document, View.initFromJson, View.asJson]
  rw [byName, pairs, assigned, AList.lookup_empty, Option.or_none]
  cases found : json.views.lookup name with
  | none => rfl
  | some functions =>
    obtain ⟨oneLineMap, oneLineReduce⟩ := wellFormed.functions name functions found
    have sameReduce : functions.reduce.map cleanString = functions.reduce := by
      cases reduce : functions.reduce with
      | none => rfl
      | some body => exact congrArg some (cleanString_of_oneLine (oneLineReduce body reduce))
    rw [Option.map_some, Option.map_some, cleanString_of_oneLine oneLineMap, sameReduce]

/-- The spatial views of one JSON object, assigned over those of earlier ones. -/
theorem lookup_assign_spatialViews (wellFormed : json.WellFormed)
    {spatial : AList fun _ : String => String} (isSpatial : json.spatial = some spatial)
    (dict : AList fun _ : String => ViewJson) :
    (assignAll (json.spatialViews.map fun view => (view.name, view.asJson)) dict).lookup name =
      ((spatial.lookup name).map .spatial).or (dict.lookup name) := by
  have assigned := @lookup_assignAll_entries _ _ _ name _ spatial
    (fun mapFunc => ViewJson.spatial (cleanString mapFunc)) dict
  have pairs : (json.spatialViews.map fun view => (view.name, view.asJson)) =
      spatial.entries.map fun entry => (entry.1, ViewJson.spatial (cleanString entry.2)) := by
    simp [DesignJson.spatialViews, isSpatial, View.initSpatialFromJson, View.asJson]
  rw [pairs, assigned]
  cases found : spatial.lookup name with
  | none => rfl
  | some mapFunc =>
    have oneLine := wellFormed.spatial spatial isSpatial name mapFunc found
    rw [Option.map_some, Option.map_some, cleanString_of_oneLine oneLine]

/-- A view that is in the list is shown under its name. -/
theorem lookup_byName_isSome {views : List View} {view : View} (member : view ∈ views) :
    ((byName views).lookup view.name).isSome := by
  refine lookup_assignAll_isSome.mpr (.inl ?_)
  simp only [List.map_map, List.mem_map]
  exact ⟨view, member, rfl⟩

theorem shows_document_iff (wellFormed : json.WellFormed) (process : Process) (docName : String) :
    Shows (process.asJson (json.document docName)) json ↔
      (json.spatial = none → process.spatialViews = []) ∧
      ∀ spatial ∈ json.spatial, process.spatialViews ≠ [] ∧
        ∀ name, (byName process.spatialViews).lookup name =
          (spatial.lookup name).map .spatial := by
  constructor
  · intro shows
    refine ⟨?_, ?_⟩
    · intro absent
      have hidden := shows.absent absent
      by_contra present
      simp [Process.asJson, present] at hidden
    · intro spatial isSpatial
      obtain ⟨shownSpatial, shown, same⟩ := shows.spatial spatial isSpatial
      by_cases empty : process.spatialViews = []
      · simp [Process.asJson, empty] at shown
      · refine ⟨empty, ?_⟩
        simp [Process.asJson, empty] at shown
        rw [shown]
        exact same
  · intro shared
    exact
      { views := fun name => lookup_document_views wellFormed docName
        absent := by
          intro absent
          simp [Process.asJson, shared.1 absent]
        spatial := by
          intro spatial isSpatial
          obtain ⟨present, same⟩ := shared.2 spatial isSpatial
          exact ⟨byName process.spatialViews, by simp [Process.asJson, present], same⟩
        options := by
          cases given : json.options with
          | none => simp [Process.asJson, DesignJson.document, given]
          | some options =>
            have nonempty := wellFormed.options options given
            simp [Process.asJson, DesignJson.document, given, nonempty] }

/-! ## Every document at every point of the run -/

variable {calls : List (String × DesignJson)}

/-- Calls that all have the same spatial views leave just these. -/
theorem lookup_assign_shared {spatial : AList fun _ : String => String}
    (wellFormed : ∀ call ∈ calls, call.2.WellFormed)
    (same : ∀ call ∈ calls, ∃ own, call.2.spatial = some own ∧
      ∀ name, own.lookup name = spatial.lookup name)
    (nonempty : calls ≠ []) (dict : AList fun _ : String => ViewJson) :
    (assignAll ((calls.flatMap fun call => call.2.spatialViews).map
        fun view => (view.name, view.asJson)) dict).lookup name =
      ((spatial.lookup name).map .spatial).or (dict.lookup name) := by
  induction calls generalizing dict with
  | nil => exact absurd rfl nonempty
  | cons call calls ih =>
    obtain ⟨own, isSpatial, sameOwn⟩ := same call List.mem_cons_self
    have block := @lookup_assign_spatialViews call.2 name (wellFormed call List.mem_cons_self) own
      isSpatial dict
    rw [sameOwn] at block
    rw [List.flatMap_cons, List.map_append, assignAll_append]
    by_cases last : calls = []
    · subst last
      exact block
    · rw [ih (fun later member => wellFormed later (List.mem_cons_of_mem call member))
        (fun later member => same later (List.mem_cons_of_mem call member)) last, block]
      cases (spatial.lookup name).map ViewJson.spatial <;> rfl

/-- The documents of a run show their JSON objects exactly if none has an empty `spatial` and
    they all have the same spatial views. -/
def AgreeOnSpatial (calls : List (String × DesignJson)) : Prop :=
  (∀ call ∈ calls, ∀ spatial ∈ call.2.spatial, spatial.entries ≠ []) ∧
    ∀ call ∈ calls, ∀ other ∈ calls, SameSpatial call.2 other.2

theorem AgreeOnSpatial.take {before after : List (String × DesignJson)}
    (agree : AgreeOnSpatial (before ++ after)) : AgreeOnSpatial before :=
  ⟨fun call member => agree.1 call (List.mem_append_left _ member),
    fun call member other otherMember =>
      agree.2 call (List.mem_append_left _ member) other (List.mem_append_left _ otherMember)⟩

theorem spatialViews_ne_nil {spatial : AList fun _ : String => String}
    (isSpatial : json.spatial = some spatial) (nonempty : spatial.entries ≠ []) :
    json.spatialViews ≠ [] := by
  simpa [DesignJson.spatialViews, isSpatial] using nonempty

theorem roundTrips_of_agree (wellFormed : ∀ call ∈ calls, call.2.WellFormed)
    (agree : AgreeOnSpatial calls) : RoundTrips calls := by
  intro index name json document isCall isDocument
  have member : (name, json) ∈ calls := List.mem_of_getElem? isCall
  rw [run_documents, List.getElem?_map, isCall, Option.map_some, Option.some.injEq] at isDocument
  subst isDocument
  rw [shows_document_iff (wellFormed _ member), run_spatialViews]
  refine ⟨?_, ?_⟩
  · intro absent
    replace absent : json.spatial = none := absent
    refine List.flatMap_eq_nil_iff.mpr fun call callMember => ?_
    have same := agree.2 _ member call callMember
    cases own : call.2.spatial with
    | none => simp [DesignJson.spatialViews, own]
    | some spatial => simp [SameSpatial, absent, own] at same
  · intro spatial isSpatial
    have shared : ∀ call ∈ calls, ∃ own, call.2.spatial = some own ∧
        ∀ name, own.lookup name = spatial.lookup name := by
      intro call callMember
      have same := agree.2 call callMember _ member
      replace isSpatial : json.spatial = some spatial := isSpatial
      cases own : call.2.spatial with
      | none => simp [SameSpatial, isSpatial, own] at same
      | some ownSpatial =>
        simp only [SameSpatial, isSpatial, own] at same
        exact ⟨ownSpatial, rfl, same⟩
    refine ⟨?_, ?_⟩
    · intro none
      exact spatialViews_ne_nil isSpatial (agree.1 _ member spatial isSpatial)
        (List.flatMap_eq_nil_iff.mp none _ member)
    · intro viewName
      rw [byName, lookup_assign_shared wellFormed shared (List.ne_nil_of_mem member),
        AList.lookup_empty, Option.or_none]

/-- A document that shows its JSON object has the spatial views of the whole run. -/
theorem RoundTrips.shows (roundTrips : RoundTrips calls) {call : String × DesignJson}
    (member : call ∈ calls) :
    Shows ((run initFromJson {} calls).asJson (call.2.document call.1)) call.2 := by
  obtain ⟨index, isCall⟩ := List.mem_iff_getElem?.mp member
  refine roundTrips index call.1 call.2 _ isCall ?_
  rw [run_documents, List.getElem?_map, isCall]
  rfl

theorem agree_of_roundTrips (wellFormed : ∀ call ∈ calls, call.2.WellFormed)
    (roundTrips : RoundTrips calls) : AgreeOnSpatial calls := by
  have shows : ∀ call ∈ calls, _ := fun call member =>
    (shows_document_iff (wellFormed call member) _ call.1).mp (roundTrips.shows member)
  refine ⟨?_, ?_⟩
  · intro call member spatial isSpatial empty
    obtain ⟨present, same⟩ := (shows call member).2 spatial isSpatial
    obtain ⟨view, views, split⟩ := List.exists_cons_of_ne_nil present
    have shown := lookup_byName_isSome (split ▸ List.mem_cons_self)
    rw [same view.name] at shown
    simp [AList.lookup, empty] at shown
  · intro call member other otherMember
    unfold SameSpatial
    cases isSpatial : call.2.spatial with
    | none =>
      cases isOther : other.2.spatial with
      | none => exact trivial
      | some spatial =>
        exact ((shows other otherMember).2 spatial isOther).1 ((shows call member).1 isSpatial)
    | some spatial =>
      cases isOther : other.2.spatial with
      | none =>
        exact ((shows call member).2 spatial isSpatial).1 ((shows other otherMember).1 isOther)
      | some otherSpatial =>
        intro name
        have here := ((shows call member).2 spatial isSpatial).2 name
        have there := ((shows other otherMember).2 otherSpatial isOther).2 name
        have injective : Function.Injective ViewJson.spatial := fun _ _ same => by
          cases same
          rfl
        exact Option.map_injective injective (here.symm.trans there)

/-- All documents show the JSON objects they were made from, at every point of a run, exactly if
    no call has an empty `spatial` and all calls have the same spatial views. -/
theorem roundTrips_throughout_iff (calls : List (String × DesignJson))
    (wellFormed : ∀ call ∈ calls, call.2.WellFormed) :
    (∀ before after, calls = before ++ after → RoundTrips before) ↔ AgreeOnSpatial calls := by
  constructor
  · intro throughout
    exact agree_of_roundTrips wellFormed (throughout calls [] (List.append_nil _).symm)
  · rintro agree before after rfl
    refine roundTrips_of_agree (fun call member => ?_) agree.take
    exact wellFormed call (List.mem_append_left _ member)

def plainDesign : String × DesignJson :=
  ("plain", { views := AList.insert "by_id" { map := "function(doc){}" } ∅ })

def spatialDesign : String × DesignJson :=
  ("places", { views := ∅, spatial := some (AList.insert "points" "function(doc){}" ∅) })

theorem plainDesign_wellFormed : plainDesign.2.WellFormed where
  functions := by
    intro name functions found
    rcases lookup_insert_eq_some.mp found with ⟨_, same⟩ | ⟨_, absent⟩
    · subst same
      exact ⟨by decide, by simp⟩
    · cases absent
  spatial := by simp [plainDesign]
  options := by simp [plainDesign]

theorem roundTrips_plainDesigns :
    (∀ call ∈ [plainDesign, ("other", plainDesign.2)], call.2.WellFormed) ∧
      ∀ before after, [plainDesign, ("other", plainDesign.2)] = before ++ after → RoundTrips before := by
  have wellFormed : ∀ call ∈ [plainDesign, ("other", plainDesign.2)], call.2.WellFormed := by
    simp [plainDesign_wellFormed]
  refine ⟨wellFormed, (roundTrips_throughout_iff _ wellFormed).mpr ⟨?_, ?_⟩⟩
  · simp [plainDesign]
  · simp [SameSpatial, plainDesign]

theorem spatialDesign_wellFormed : spatialDesign.2.WellFormed where
  functions := by
    intro name functions found
    cases found
  spatial := by
    intro spatial isSpatial name mapFunc found
    cases isSpatial
    rcases lookup_insert_eq_some.mp found with ⟨_, same⟩ | ⟨_, absent⟩
    · subst same
      decide
    · cases absent
  options := by simp [spatialDesign]

/-- A document without spatial views shows those of the one made before it. -/
theorem plainDesign_shows_points :
    ¬ ∀ calls : List (String × DesignJson), (∀ call ∈ calls, call.2.WellFormed) →
      RoundTrips calls := by
  intro always
  have wellFormed : ∀ call ∈ [spatialDesign, plainDesign], call.2.WellFormed := by
    simp [spatialDesign_wellFormed, plainDesign_wellFormed]
  have shows := always [spatialDesign, plainDesign] wellFormed 1 "plain" plainDesign.2
    (plainDesign.2.document "plain") rfl rfl
  have hidden := shows.absent rfl
  cases hidden

end Taf.Views
