import Taf.Lib.Grouped
import Taf.Lib.PyJson
import Taf.Lib.Split

/-! # The newest line of every key

`translateDataFromCSVToMap` keeps one line for every value of a column and means to keep the newest.  The
stored value is the line and not its columns, so what is read as its revision is the sixth character
of the line. -/

namespace Taf.DataAnalysis

open Taf.Lib

def revIdIndex : ℕ := 5

/-- `items[i]`, where a negative index counts from the end -/
def pyItem {α : Type} (items : List α) (i : ℤ) : Option α :=
  if 0 ≤ i then items[i.toNat]?
  else if (-i).toNat ≤ items.length then items[items.length - (-i).toNat]?
  else none

/-- `values[index]` -/
def column (index : ℤ) (value : String) : Option String := pyItem (splitText ',' value) index

/-- `int(bucketMap[values[index]][revIdIndex])` for the stored line -/
def prevRevId (stored : String) : Option ℤ := do
  let c ← stored.toList[revIdIndex]?
  PyJson.parseInt (String.singleton c)

/-- `int(values[revIdIndex])` -/
def newRevId (value : String) : Option ℤ := (column revIdIndex value).bind PyJson.parseInt

/-- A round of the loop; `none` is an `IndexError` or a `ValueError`. -/
def translateLine (index : ℤ) (bucketMap : AList fun _ : String => String) (value : String) :
    Option (AList fun _ : String => String) := do
  let key ← column index value
  match bucketMap.lookup key with
  | some stored => do
    -- the stored line is indexed as a text, the new one as a list of columns
    let prev_revId ← prevRevId stored
    let new_revId ← newRevId value
    if prev_revId < new_revId then some (bucketMap.insert key value) else some bucketMap
  | none => some (bucketMap.insert key value)

def translateDataFromCSVToMap (index : ℤ) (dataInCSV : List String) : Option (AList fun _ : String => String) :=
  dataInCSV.foldlM (translateLine index) ∅

/-! ## The newest line -/

/-- A line with six columns and a revision -/
def WellFormed (line : String) : Prop := 6 ≤ (splitText ',' line).length ∧ ∃ revId, newRevId line = some revId

/-- The revision of a line that is `WellFormed` -/
def revId (line : String) : ℤ := (newRevId line).getD 0

/-- The earliest line with the highest revision -/
def Newest (group : List String) (line : String) : Prop :=
  ∃ before after, group = before ++ line :: after ∧ (∀ other ∈ before, revId other < revId line) ∧
    ∀ other ∈ after, revId other ≤ revId line

/-- The map has the newest line of every value of the column. -/
structure NewestMap (index : ℤ) (lines : List String) (bucketMap : AList fun _ : String => String) : Prop where
  keys : ∀ value, value ∈ bucketMap ↔ ∃ line ∈ lines, column index line = some value
  newest : ∀ value line, bucketMap.lookup value = some line → Newest (ofKey (column index) lines value) line

/-! ## The way through the lines of one value -/

/-- From a line the way goes to the first later line whose revision is above the digit that the line has
    as its sixth character.  The lines of a way are taken with all lines behind them. -/
inductive OnWay : List String → List String → Prop
  | here (group : List String) : OnWay group group
  | next {line : String} {later : List String} {digit : ℤ} {newer : String} {after rest : List String}
      (isDigit : prevRevId line = some digit)
      (found : later.dropWhile (fun other => revId other ≤ digit) = newer :: after)
      (onWay : OnWay (newer :: after) rest) : OnWay (line :: later) rest

/-- Every line on the way has a digit if there are lines behind it, and the way ends at the newest line. -/
def LeadsToNewest (group : List String) : Prop :=
  ∀ line later, OnWay group (line :: later) → (later = [] ∨ ∃ digit, prevRevId line = some digit) ∧
    ((∀ digit, prevRevId line = some digit → ∀ other ∈ later, revId other ≤ digit) → Newest group line)

theorem Newest.le {group : List String} {line other : String} (newest : Newest group line) (member : other ∈ group) :
    revId other ≤ revId line := by
  obtain ⟨before, after, rfl, earlier, later⟩ := newest
  rcases List.mem_append.mp member with isEarlier | isHere
  · exact (earlier other isEarlier).le
  · rcases List.mem_cons.mp isHere with rfl | isLater
    · exact le_rfl
    · exact later other isLater

section

variable {index : ℤ} {lines group later before rest : List String} {line newer : String}
  {bucketMap : AList fun _ : String => String}

/-! ## The loop for one value -/

/-- What a round does to the stored line of the value -/
def keepNewer (stored : Option String) (value : String) : Option String :=
  match stored with
  | some stored => do
    let prev_revId ← prevRevId stored
    let new_revId ← newRevId value
    return if prev_revId < new_revId then value else stored
  | none => some value

theorem translateLine_keyed :
    Keyed (fun bucketMap key => bucketMap.lookup key) (column index) keepNewer (translateLine index) := by
  constructor
  · intro bucketMap value next stepped
    obtain ⟨key, isKey, stepped⟩ := Option.bind_eq_some_iff.mp stepped
    cases found : bucketMap.lookup key with
    | none =>
      simp only [found, Option.some.injEq] at stepped
      subst stepped
      exact ⟨key, value, isKey, by rw [found, keepNewer], AList.lookup_insert _, fun _ other => AList.lookup_insert_ne other⟩
    | some stored =>
      simp only [found] at stepped
      obtain ⟨prev, isPrev, stepped⟩ := Option.bind_eq_some_iff.mp stepped
      obtain ⟨new, isNew, stepped⟩ := Option.bind_eq_some_iff.mp stepped
      have updated : keepNewer (some stored) value = some (if prev < new then value else stored) := by
        simp [keepNewer, isPrev, isNew]
      refine ⟨key, _, isKey, by rw [found]; exact updated, ?_⟩
      by_cases newer : prev < new
      · rw [if_pos newer, Option.some.injEq] at stepped
        subst stepped
        rw [if_pos newer]
        exact ⟨AList.lookup_insert _, fun _ other => AList.lookup_insert_ne other⟩
      · rw [if_neg newer, Option.some.injEq] at stepped
        subst stepped
        rw [if_neg newer]
        exact ⟨found, fun _ _ => rfl⟩
  · intro bucketMap value key kept isKey updated
    cases found : bucketMap.lookup key with
    | none =>
      refine ⟨bucketMap.insert key value, ?_⟩
      simp [translateLine, isKey, found]
    | some stored =>
      rw [found] at updated
      obtain ⟨prev, isPrev, updated⟩ := Option.bind_eq_some_iff.mp updated
      obtain ⟨new, isNew, _⟩ := Option.bind_eq_some_iff.mp updated
      refine ⟨if prev < new then bucketMap.insert key value else bucketMap, ?_⟩
      by_cases newer : prev < new
      · simp [translateLine, isKey, found, isPrev, isNew, newer]
      · simp [translateLine, isKey, found, isPrev, isNew, newer]

theorem newRevId_eq (wellFormed : WellFormed line) : newRevId line = some (revId line) := by
  obtain ⟨_, number, isNumber⟩ := wellFormed
  rw [revId, isNumber, Option.getD_some]

theorem slot_none : slot keepNewer none line = some (some line) := rfl

theorem slot_some {digit : ℤ} (wellFormed : WellFormed newer) (isDigit : prevRevId line = some digit) :
    slot keepNewer (some line) newer = some (some (if digit < revId newer then newer else line)) := by
  simp [slot, keepNewer, isDigit, newRevId_eq wellFormed]

theorem slot_raises (noDigit : prevRevId line = none) : slot keepNewer (some line) newer = none := by
  simp [slot, keepNewer, noDigit]

theorem onWay_head {start : List String} (onWay : OnWay start (line :: later)) : start ≠ [] := by
  cases onWay with
  | here => exact List.cons_ne_nil _ _
  | next => exact List.cons_ne_nil _ _

theorem dropWhile_passed {digit : ℤ}
    (passed : ∀ other ∈ before, ∃ digit, prevRevId line = some digit ∧ revId other ≤ digit)
    (isDigit : prevRevId line = some digit) : before.dropWhile (fun other => revId other ≤ digit) = [] := by
  rw [List.dropWhile_eq_nil_iff]
  intro other member
  obtain ⟨digit', isDigit', bound⟩ := passed other member
  cases isDigit.symm.trans isDigit'
  simpa using bound

/-- A value that has a line keeps one. -/
theorem slot_keeps {entry : Option String} (folded : rest.foldlM (slot keepNewer) (some line) = some entry) :
    ∃ kept, entry = some kept := by
  induction rest generalizing line with
  | nil =>
    cases folded
    exact ⟨line, rfl⟩
  | cons newer rest ih =>
    rw [List.foldlM_cons] at folded
    obtain ⟨next, stepped, folded⟩ := Option.bind_eq_some_iff.mp folded
    obtain ⟨kept, _, rfl⟩ := Option.map_eq_some_iff.mp stepped
    exact ih folded

theorem slot_isSome {entry : Option String} (folded : group.foldlM (slot keepNewer) none = some entry) :
    entry.isSome ↔ group ≠ [] := by
  cases group with
  | nil =>
    cases folded
    simp
  | cons first later =>
    rw [List.foldlM_cons, slot_none] at folded
    obtain ⟨kept, rfl⟩ := slot_keeps folded
    simp

/-- The lines `before` are passed already: none of them is above the digit of the stored line. -/
theorem keeps_iff {P : String → Prop} (wellFormed : ∀ other ∈ rest, WellFormed other)
    (passed : ∀ other ∈ before, ∃ digit, prevRevId line = some digit ∧ revId other ≤ digit) :
    (∃ kept, rest.foldlM (slot keepNewer) (some line) = some (some kept) ∧ P kept) ↔
      ∀ stored later, OnWay (line :: (before ++ rest)) (stored :: later) →
        (later = [] ∨ ∃ digit, prevRevId stored = some digit) ∧
          ((∀ digit, prevRevId stored = some digit → ∀ other ∈ later, revId other ≤ digit) → P stored) := by
  induction rest generalizing line before with
  | nil =>
    have ended : (∃ kept, [].foldlM (slot keepNewer) (some line) = some (some kept) ∧ P kept) ↔ P line := by simp
    rw [ended, List.append_nil]
    constructor
    · intro good stored later onWay
      cases onWay with
      | here =>
        refine ⟨?_, fun _ => good⟩
        cases before with
        | nil => exact .inl rfl
        | cons other before =>
          obtain ⟨digit, isDigit, _⟩ := passed other List.mem_cons_self
          exact .inr ⟨digit, isDigit⟩
      | next isDigit found _ =>
        rw [dropWhile_passed passed isDigit] at found
        cases found
    · intro good
      refine (good line before (.here _)).2 fun digit isDigit other member => ?_
      obtain ⟨digit', isDigit', bound⟩ := passed other member
      cases isDigit.symm.trans isDigit'
      exact bound
  | cons newer rest ih =>
    obtain ⟨newerFormed, restFormed⟩ := List.forall_mem_cons.mp wellFormed
    rw [List.foldlM_cons]
    cases isDigit : prevRevId line with
    | none =>
      rw [slot_raises isDigit]
      refine iff_of_false (by simp) fun good => ?_
      rcases (good line _ (.here _)).1 with empty | ⟨digit, impossible⟩
      · exact absurd empty (by simp)
      · cases isDigit.symm.trans impossible
    | some digit =>
      rw [slot_some newerFormed isDigit]
      by_cases above : digit < revId newer
      · -- the way goes to `newer`, whatever is before it
        have found : (before ++ newer :: rest).dropWhile (fun other => revId other ≤ digit) = newer :: rest := by
          rw [List.dropWhile_append, dropWhile_passed passed isDigit]
          simp [above]
        rw [if_pos above]
        have nonePassed : ∀ other ∈ ([] : List String), ∃ digit, prevRevId newer = some digit ∧ revId other ≤ digit := by
          simp
        refine (ih restFormed nonePassed).trans ?_
        constructor
        · intro good stored later onWay
          cases onWay with
          | here =>
            refine ⟨.inr ⟨digit, isDigit⟩, fun stops => ?_⟩
            have bound := stops digit isDigit newer (List.mem_append_right before List.mem_cons_self)
            omega
          | next isDigit' found' onWay =>
            cases isDigit.symm.trans isDigit'
            cases found.symm.trans found'
            exact good stored later onWay
        · intro good stored later onWay
          exact good stored later (.next isDigit found onWay)
      · rw [if_neg above]
        have passedNewer : ∀ other ∈ before ++ [newer], ∃ digit, prevRevId line = some digit ∧ revId other ≤ digit := by
          intro other member
          rcases List.mem_append.mp member with earlier | last
          · exact passed other earlier
          · rw [List.mem_singleton.mp last]
            exact ⟨digit, isDigit, by omega⟩
        have shape : before ++ newer :: rest = before ++ [newer] ++ rest := by simp
        rw [shape]
        exact ih restFormed passedNewer

theorem leadsToNewest_iff (wellFormed : ∀ line ∈ group, WellFormed line) :
    LeadsToNewest group ↔ ∃ entry, group.foldlM (slot keepNewer) none = some entry ∧
      ∀ line, entry = some line → Newest group line := by
  cases group with
  | nil =>
    refine iff_of_true (fun line later onWay => absurd rfl (onWay_head onWay)) ⟨none, rfl, ?_⟩
    intro line impossible
    cases impossible
  | cons first later =>
    have nonePassed : ∀ other ∈ ([] : List String), ∃ digit, prevRevId first = some digit ∧ revId other ≤ digit := by
      simp
    have passed := keeps_iff (P := Newest (first :: later)) (List.forall_mem_cons.mp wellFormed).2 nonePassed
    refine passed.symm.trans ?_
    rw [List.foldlM_cons, slot_none]
    constructor
    · rintro ⟨kept, folded, newest⟩
      refine ⟨some kept, folded, fun line same => ?_⟩
      cases same
      exact newest
    · rintro ⟨entry, folded, newest⟩
      obtain ⟨kept, rfl⟩ := slot_keeps folded
      exact ⟨kept, folded, newest kept rfl⟩

theorem translate_newest_iff (wellFormed : ∀ line ∈ lines, WellFormed line) :
    (∃ bucketMap, translateDataFromCSVToMap index lines = some bucketMap ∧ NewestMap index lines bucketMap) ↔
      (∀ line ∈ lines, ∃ value, column index line = some value) ∧
        ∀ value, LeadsToNewest (ofKey (column index) lines value) := by
  have groups : ∀ value, LeadsToNewest (ofKey (column index) lines value) ↔
      ∃ entry, (ofKey (column index) lines value).foldlM (slot keepNewer) none = some entry ∧
        ∀ line, entry = some line → Newest (ofKey (column index) lines value) line := fun value =>
    leadsToNewest_iff fun line member => wellFormed line (List.mem_of_mem_filter member)
  have returns : (∃ bucketMap, translateDataFromCSVToMap index lines = some bucketMap) ↔
      (∀ line ∈ lines, ∃ value, column index line = some value) ∧ ∀ value, ∃ entry,
        (ofKey (column index) lines value).foldlM (slot keepNewer) none = some entry := translateLine_keyed.returns_iff
  constructor
  · rintro ⟨bucketMap, returned, newestMap⟩
    refine ⟨(returns.mp ⟨bucketMap, returned⟩).1, fun value => (groups value).mpr ?_⟩
    exact ⟨_, translateLine_keyed.lookup returned value, newestMap.newest value⟩
  · rintro ⟨named, leads⟩
    obtain ⟨bucketMap, returned⟩ := returns.mpr ⟨named, fun value =>
      ((groups value).mp (leads value)).imp fun _ both => both.1⟩
    refine ⟨bucketMap, returned, ?_, ?_⟩
    · intro value
      have kept := translateLine_keyed.lookup returned value
      rw [AList.lookup_empty] at kept
      rw [← AList.lookup_isSome, slot_isSome kept, ofKey, ne_eq, List.filter_eq_nil_iff]
      simp
    · intro value line found
      obtain ⟨entry, folded, newest⟩ := (groups value).mp (leads value)
      have kept := translateLine_keyed.lookup returned value
      rw [AList.lookup_empty, folded, found, Option.some.injEq] at kept
      exact newest line kept

/-- Two revisions of one document: the digit of the key is read as the revision of the first line. -/
def revised (key : String) : List String := [key ++ ",0,0,0,old,1", key ++ ",0,0,0,new,2"]

theorem translate_newest_revised : (∃ bucketMap, translateDataFromCSVToMap 0 (revised "doc-10") = some bucketMap ∧
    NewestMap 0 (revised "doc-10") bucketMap) ↔
      (∀ line ∈ revised "doc-10", ∃ value, column 0 line = some value) ∧
        ∀ value, LeadsToNewest (ofKey (column 0) (revised "doc-10") value) := by
  refine translate_newest_iff fun line member => ?_
  rw [revised, List.mem_cons, List.mem_singleton] at member
  rcases member with rfl | rfl
  · exact ⟨by decide, 1, by decide⟩
  · exact ⟨by decide, 2, by decide⟩

theorem revised_keeps_old : ¬ ∃ bucketMap, translateDataFromCSVToMap 0 (revised "doc-19") = some bucketMap ∧
    NewestMap 0 (revised "doc-19") bucketMap := by
  rintro ⟨bucketMap, returned, newestMap⟩
  have old : translateDataFromCSVToMap 0 (revised "doc-19") =
      some ((∅ : AList fun _ : String => String).insert "doc-19" "doc-19,0,0,0,old,1") := by
    rfl
  cases old.symm.trans returned
  have newest := newestMap.newest "doc-19" "doc-19,0,0,0,old,1" (AList.lookup_insert _)
  have both : "doc-19,0,0,0,new,2" ∈ ofKey (column 0) (revised "doc-19") "doc-19" := by decide
  have bound := newest.le both
  exact absurd bound (by decide)

end

end Taf.DataAnalysis
