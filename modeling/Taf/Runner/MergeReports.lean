import Mathlib
import Taf.Lib.PyText
import Taf.Lib.Run
import Taf.Runner.ReportLines

/-! # Merging the reports of several runs

`merge_reports` of `scripts/merge_reports.py`: the test cases of all report files, oldest first, go
into one dictionary for each suite.  The key of a case is its name without the fields that start
with a filter word, and two keys are the same test if their first fields and their sorted other
fields are equal.  A report is what the XML parser gives: its suites with their cases. -/

namespace Taf.Runner.Merge

open Taf.Lib

/-- A test case: its `name` attribute, and the text of its first error, which is not empty. -/
structure Case where
  name : Str
  error : Option Str
  text : error ≠ some []

abbrev Suite := Str × List Case

/-! ## Keys -/

def fixedNames : List Str := droppedNames ++ [str "is_container"]

/-- `[param.split("=")[0] for param in run_params.split(',')]` -/
def runWords (runParams : Str) : List Str :=
  (runParams.splitOn ',').map fun param => (param.splitOn '=').headD []

/-- `filter_fields` of `merge_reports.py`; the names of `run_params` are filtered as well. -/
def filterFields (testname runParams : Str) : Str :=
  if HasColons testname then
    rstripCommas (colonLine (colonWords fixedNames ++ runWords runParams) testname)
  else equalsLine (equalsWords fixedNames ++ runWords runParams) testname

/-- What `compare_with_sort` compares -/
def sortedKey (key : Str) : Str :=
  let fields := key.splitOn ','
  sortedLine (fields.headD []) fields.tail

def caseKey (runParams : Str) (case : Case) : Str := filterFields case.name runParams

/-! ## `merge_reports` -/

abbrev Entries := AList fun _ : Str => Case

abbrev Suites := AList fun _ : Str => Entries

/-- One test case; `none` if `str` of its error raises. -/
def mergeCase (runParams : Str) (tests : Entries) (case : Case) : Option Entries :=
  if ∀ text ∈ case.error, AsciiChars text then
    some (putLatest sortedKey (caseKey runParams) tests case)
  else none

def mergeSuite (runParams : Str) (suites : Suites) (suite : Suite) : Option Suites := do
  let tests ← suite.2.foldlM (mergeCase runParams) ((suites.lookup suite.1).getD ∅)
  some (suites.insert suite.1 tests)

/-- The names that are printed and written into the merged report; it is a byte string. -/
def Writable (suites : Suites) : Prop :=
  ∀ suite ∈ suites.entries, AsciiChars suite.1 ∧ ∀ entry ∈ suite.2.entries, AsciiChars entry.2.name

instance (suites : Suites) : Decidable (Writable suites) :=
  inferInstanceAs (Decidable (∀ suite ∈ suites.entries, _))

/-- `renamed`: the old directory of logs could be moved away. -/
def mergeReports (renamed : Bool) (runParams : Str) (reports : List (List Suite)) : Option Suites := do
  let suites ← reports.flatten.foldlM (mergeSuite runParams) ∅
  if renamed then
    if Writable suites then some suites else none
  else some ∅

/-! ## What the merged reports are meant to be -/

/-- The names that a list of parameters gives values to -/
def paramNames (runParams : Str) : List Str :=
  (splitKeys runParams).2.map fun pair => strip pair.1

/-- The test and the parameters that are not dropped -/
def classOf (runParams : Str) (case : Case) : Str × Multiset (Str × Str) :=
  let parsed := splitKeys case.name
  (parsed.1, ((parsed.2.map fun pair => (strip pair.1, strip pair.2)).filter fun pair =>
    pair.1 ∉ fixedNames ++ paramNames runParams : List (Str × Str)))

/-- All cases of a suite, in the order of the reports -/
def casesOf (suites : List Suite) (name : Str) : List Case :=
  (suites.filter fun suite => suite.1 = name).flatMap Prod.snd

/-- For every suite one entry for each class, and it is the last case of its class. -/
def KeepsLatest (renamed : Bool) (runParams : Str) (reports : List (List Suite)) : Prop :=
  ∃ merged, mergeReports renamed runParams reports = some merged ∧
    (∀ name, name ∈ merged ↔ name ∈ reports.flatten.map Prod.fst) ∧
    ∀ name tests, merged.lookup name = some tests →
      OnePerClass (classOf runParams) tests (casesOf reports.flatten name)

/-- The last case with its key is the last case of its class, and all texts that are printed and
    written are ASCII. -/
structure Mergeable (renamed : Bool) (runParams : Str) (reports : List (List Suite)) : Prop where
  errors : ∀ suite ∈ reports.flatten, ∀ case ∈ suite.2, ∀ text ∈ case.error, AsciiChars text
  moved : reports.flatten = [] ∨ renamed = true
  names : ∀ suite ∈ reports.flatten, AsciiChars suite.1
  entries : ∀ name case, IsLast (classOf runParams) (casesOf reports.flatten name) case →
    AsciiChars case.name
  sameLast : ∀ name case,
    IsLast (sortedKey ∘ caseKey runParams) (casesOf reports.flatten name) case ↔
      IsLast (classOf runParams) (casesOf reports.flatten name) case

/-! ## The dictionaries -/

variable {runParams : Str}

/-- The entries of a suite when no error raises -/
def merged (runParams : Str) (cases : List Case) : Entries :=
  cases.foldl (putLatest sortedKey (caseKey runParams)) ∅

theorem merged_latest (cases : List Case) :
    Latest sortedKey (caseKey runParams) (merged runParams cases) cases :=
  Latest.empty.putAll cases

theorem foldlM_mergeCase_eq_some {cases : List Case} {tests after : Entries} :
    cases.foldlM (mergeCase runParams) tests = some after ↔
      (∀ case ∈ cases, ∀ text ∈ case.error, AsciiChars text) ∧
        cases.foldl (putLatest sortedKey (caseKey runParams)) tests = after :=
  foldlM_guard_eq_some

/-- What is merged after some of the suites -/
def Merges (runParams : Str) (done : List Suite) (suites : Suites) : Prop :=
  ∀ name, suites.lookup name =
    if name ∈ done.map Prod.fst then some (merged runParams (casesOf done name)) else none

theorem Merges.empty : Merges runParams [] ∅ := fun _ => rfl

theorem casesOf_append (done more : List Suite) (name : Str) :
    casesOf (done ++ more) name = casesOf done name ++ casesOf more name := by
  rw [casesOf, List.filter_append, List.flatMap_append]
  rfl

theorem casesOf_of_notMem {done : List Suite} {name : Str} (absent : name ∉ done.map Prod.fst) :
    casesOf done name = [] := by
  rw [casesOf, List.filter_eq_nil_iff.mpr, List.flatMap_nil]
  intro suite member
  have other : suite.1 ≠ name := by
    rintro rfl
    exact absent (List.mem_map_of_mem member)
  simpa using other

theorem Merges.next {done : List Suite} {suites : Suites} (merges : Merges runParams done suites)
    {suite : Suite} (errors : ∀ case ∈ suite.2, ∀ text ∈ case.error, AsciiChars text) :
    ∃ after, mergeSuite runParams suites suite = some after ∧
      Merges runParams (done ++ [suite]) after := by
  have before : (suites.lookup suite.1).getD ∅ = merged runParams (casesOf done suite.1) := by
    rw [merges]
    split
    · rfl
    · rename_i absent
      rw [casesOf_of_notMem absent]
      rfl
  refine ⟨suites.insert suite.1 (suite.2.foldl (putLatest sortedKey (caseKey runParams))
    (merged runParams (casesOf done suite.1))), ?_, ?_⟩
  · rw [mergeSuite, before, foldlM_mergeCase_eq_some.mpr ⟨errors, rfl⟩]
    rfl
  · intro name
    by_cases here : name = suite.1
    · subst here
      have own : casesOf [suite] suite.1 = suite.2 := by simp [casesOf]
      have recorded : suite.1 ∈ (done ++ [suite]).map Prod.fst := by simp
      rw [AList.lookup_insert, if_pos recorded, casesOf_append, own, merged, merged,
        List.foldl_append]
    · have own : casesOf [suite] name = [] := casesOf_of_notMem (by simpa using here)
      have recorded : name ∈ done.map Prod.fst ↔ name ∈ (done ++ [suite]).map Prod.fst := by
        simp [here]
      rw [AList.lookup_insert_ne here, merges, casesOf_append, own, List.append_nil]
      exact if_congr recorded rfl rfl

theorem foldlM_mergeSuite {done more : List Suite} {suites : Suites}
    (merges : Merges runParams done suites)
    (errors : ∀ suite ∈ more, ∀ case ∈ suite.2, ∀ text ∈ case.error, AsciiChars text) :
    ∃ after, more.foldlM (mergeSuite runParams) suites = some after ∧
      Merges runParams (done ++ more) after := by
  induction more generalizing done suites with
  | nil => exact ⟨suites, rfl, by simpa using merges⟩
  | cons suite more ih =>
    obtain ⟨next, first, merges⟩ := merges.next (errors suite List.mem_cons_self)
    obtain ⟨after, rest, merges⟩ := ih merges fun other member =>
      errors other (List.mem_cons_of_mem _ member)
    refine ⟨after, ?_, by simpa using merges⟩
    rw [List.foldlM_cons, first]
    exact rest

theorem foldlM_mergeSuite_some {more : List Suite} {suites after : Suites}
    (merged : more.foldlM (mergeSuite runParams) suites = some after) :
    ∀ suite ∈ more, ∀ case ∈ suite.2, ∀ text ∈ case.error, AsciiChars text := by
  induction more generalizing suites with
  | nil => simp
  | cons suite more ih =>
    rw [List.foldlM_cons] at merged
    obtain ⟨next, first, rest⟩ := Option.bind_eq_some_iff.mp merged
    intro other member
    rcases List.mem_cons.mp member with rfl | member
    · rw [mergeSuite] at first
      obtain ⟨tests, folded, -⟩ := Option.bind_eq_some_iff.mp first
      exact (foldlM_mergeCase_eq_some.mp folded).1
    · exact ih rest other member

theorem not_isLast_nil {δ : Type} {f : Case → δ} {case : Case} : ¬ IsLast f [] case :=
  fun last => by cases last.mem

theorem Merges.mem_iff {done : List Suite} {suites : Suites} (merges : Merges runParams done suites)
    {name : Str} : name ∈ suites ↔ name ∈ done.map Prod.fst := by
  rw [← AList.lookup_isSome, merges]
  split
  · rename_i member
    simpa using member
  · rename_i absent
    simpa using absent

theorem mem_entries_iff {β : Type} {dict : AList fun _ : Str => β} {key : Str} {value : β} :
    ⟨key, value⟩ ∈ dict.entries ↔ dict.lookup key = some value :=
  AList.mem_lookup_iff.symm

theorem Merges.writable_iff {done : List Suite} {suites : Suites}
    (merges : Merges runParams done suites) :
    Writable suites ↔ (∀ suite ∈ done, AsciiChars suite.1) ∧
      ∀ name case, IsLast (sortedKey ∘ caseKey runParams) (casesOf done name) case →
        AsciiChars case.name := by
  constructor
  · intro writable
    have here : ∀ name ∈ done.map Prod.fst, AsciiChars name ∧
        ∀ entry ∈ (merged runParams (casesOf done name)).entries, AsciiChars entry.2.name := by
      intro name member
      apply writable ⟨name, merged runParams (casesOf done name)⟩
      exact mem_entries_iff.mpr ((merges name).trans (if_pos member))
    refine ⟨fun suite member => (here suite.1 (List.mem_map_of_mem member)).1, ?_⟩
    intro name case last
    by_cases member : name ∈ done.map Prod.fst
    · obtain ⟨key, found⟩ := (merged_latest _).stored case last
      exact (here name member).2 ⟨key, case⟩ (mem_entries_iff.mpr found)
    · rw [casesOf_of_notMem member] at last
      exact absurd last not_isLast_nil
  · rintro ⟨names, entries⟩ ⟨name, tests⟩ member
    have found := mem_entries_iff.mp member
    rw [merges] at found
    split at found
    · rename_i recorded
      cases found
      obtain ⟨suite, among, rfl⟩ := List.mem_map.mp recorded
      refine ⟨names suite among, ?_⟩
      rintro ⟨key, case⟩ inside
      exact entries _ case ((merged_latest _).entry key case (mem_entries_iff.mp inside)).2
    · cases found

/-- The classes of every suite are merged rightly exactly when the last cases agree. -/
theorem Merges.onePerClass_iff {done : List Suite} {suites : Suites}
    (merges : Merges runParams done suites) :
    (∀ name tests, suites.lookup name = some tests →
        OnePerClass (classOf runParams) tests (casesOf done name)) ↔
      ∀ name case, IsLast (sortedKey ∘ caseKey runParams) (casesOf done name) case ↔
        IsLast (classOf runParams) (casesOf done name) case := by
  constructor
  · intro right name
    by_cases member : name ∈ done.map Prod.fst
    · exact ((merged_latest _).onePerClass_iff _).mp
        (right name _ (by rw [merges, if_pos member]))
    · intro case
      rw [casesOf_of_notMem member]
      exact iff_of_false not_isLast_nil not_isLast_nil
  · intro same name tests found
    rw [merges] at found
    split at found
    · cases found
      exact ((merged_latest _).onePerClass_iff _).mpr (same name)
    · cases found

theorem KeepsLatest.mergeable {renamed : Bool} {reports : List (List Suite)}
    (keeps : KeepsLatest renamed runParams reports) : Mergeable renamed runParams reports := by
  obtain ⟨result, returned, keys, right⟩ := keeps
  obtain ⟨suites, folded, returned⟩ := Option.bind_eq_some_iff.mp returned
  have errors := foldlM_mergeSuite_some folded
  obtain ⟨same, refolded, merges⟩ := foldlM_mergeSuite Merges.empty errors
  rw [folded] at refolded
  cases refolded
  rw [List.nil_append] at merges
  cases renamed with
  | false =>
    cases returned
    have empty : reports.flatten = [] := by
      rw [← List.map_eq_nil_iff, List.eq_nil_iff_forall_not_mem]
      intro name member
      cases (keys name).mpr member
    refine ⟨errors, .inl empty, ?_, ?_, ?_⟩
    · simp [empty]
    · rw [empty]
      exact fun name case last => absurd last not_isLast_nil
    · rw [empty]
      exact fun name case => iff_of_false not_isLast_nil not_isLast_nil
  | true =>
    rw [if_pos rfl] at returned
    split at returned
    · rename_i writable
      cases returned
      have same := merges.onePerClass_iff.mp right
      obtain ⟨names, entries⟩ := merges.writable_iff.mp writable
      exact ⟨errors, .inr rfl, names, fun name case last => entries name case
        ((same name case).mpr last), same⟩
    · cases returned

theorem Mergeable.keepsLatest {renamed : Bool} {reports : List (List Suite)}
    (mergeable : Mergeable renamed runParams reports) :
    KeepsLatest renamed runParams reports := by
  obtain ⟨errors, moved, names, entries, same⟩ := mergeable
  obtain ⟨suites, folded, merges⟩ := foldlM_mergeSuite Merges.empty errors
  rw [List.nil_append] at merges
  have right := merges.onePerClass_iff.mpr same
  have writable : Writable suites := merges.writable_iff.mpr
    ⟨names, fun name case last => entries name case ((same name case).mp last)⟩
  rcases moved with empty | rfl
  · rw [empty] at folded
    cases folded
    refine ⟨∅, ?_, fun name => merges.mem_iff, right⟩
    rw [mergeReports, empty]
    cases renamed with
    | false => rfl
    | true =>
      show (if Writable ∅ then some ∅ else none) = some ∅
      exact if_pos writable
  · refine ⟨suites, ?_, fun name => merges.mem_iff, right⟩
    rw [mergeReports, folded]
    exact if_pos writable

theorem keepsLatest_iff (renamed : Bool) (runParams : Str) (reports : List (List Suite)) :
    KeepsLatest renamed runParams reports ↔ Mergeable renamed runParams reports :=
  ⟨KeepsLatest.mergeable, Mergeable.keepsLatest⟩

/-! ## Reports with plain names -/

/-- A test with assignments: no commas and no blanks around the values, and a field that starts with
    a filter word has it as its name. -/
structure PlainName (given : List (Str × Str)) (test : Str) (pairs : List (Str × Str)) : Prop where
  single : ',' ∉ test ∧ '=' ∉ test
  readable : Readable pairs
  values : ∀ pair ∈ pairs, ',' ∉ pair.2 ∧ strip pair.1 = pair.1 ∧ strip pair.2 = pair.2
  colon : ¬ HasColons (test ++ followed pairs)
  words : ∀ word ∈ equalsWords fixedNames ++ runWords (joined given), word ≠ [] → ¬ word <+: test ∧
    ∀ pair ∈ pairs, word <+: assignment pair → pair.1 ∈ fixedNames ++ given.map Prod.fst

structure PlainGiven (given : List (Str × Str)) : Prop where
  readable : Readable given
  values : ∀ pair ∈ given, ',' ∉ pair.2 ∧ strip pair.1 = pair.1

/-- The pairs that are not dropped -/
def keptPairs (given pairs : List (Str × Str)) : List (Str × Str) :=
  pairs.filter fun pair => pair.1 ∉ fixedNames ++ given.map Prod.fst

variable {given pairs : List (Str × Str)} {test : Str}

theorem paramNames_joined (plain : PlainGiven given) :
    paramNames (joined given) = given.map Prod.fst := by
  rw [paramNames, splitKeys_joined plain.readable.separable]
  exact List.map_congr_left fun pair member => (plain.values pair member).2

theorem classOf_plain (plainGiven : PlainGiven given) (plain : PlainName given test pairs)
    {case : Case} (named : case.name = test ++ followed pairs) :
    classOf (joined given) case = (test, ↑(keptPairs given pairs)) := by
  have stripped : pairs.map (fun pair => (strip pair.1, strip pair.2)) = pairs := by
    rw [List.map_congr_left fun pair member => ?_, List.map_id]
    obtain ⟨-, key, value⟩ := plain.values pair member
    rw [key, value]
    rfl
  rw [classOf, named, splitKeys_name_followed (inert_of_plain plain.single.2)
    plain.readable.separable, paramNames_joined plainGiven]
  simp only [stripped]
  rfl

theorem splitOn_name (plain : PlainName given test pairs) :
    (test ++ followed pairs).splitOn ',' = test :: pairs.map assignment := by
  have line : test ++ followed pairs = [','].intercalate (test :: pairs.map assignment) := by
    rw [intercalate_cons_eq, List.flatMap_map]
    rfl
  rw [line, List.splitOn_intercalate ',' ?_ (List.cons_ne_nil _ _)]
  intro field member
  rcases List.mem_cons.mp member with rfl | member
  · exact plain.single.1
  · obtain ⟨pair, inside, rfl⟩ := List.mem_map.mp member
    exact comma_notMem_assignment (plain.readable pair inside).1 (plain.values pair inside).1

/-- A name of a plain list of parameters is one of the filter words. -/
theorem mem_runWords (plainGiven : PlainGiven given) {pair : Str × Str} (member : pair ∈ given) :
    pair.1 ∈ runWords (joined given) := by
  have plain : ∀ field ∈ given.map assignment, ',' ∉ field := by
    intro field isField
    obtain ⟨other, inside, rfl⟩ := List.mem_map.mp isField
    exact comma_notMem_assignment (plainGiven.readable other inside).1
      (plainGiven.values other inside).1
  have nonempty : given.map assignment ≠ [] := by
    intro empty
    rw [List.map_eq_nil_iff.mp empty] at member
    cases member
  rw [runWords, joined, List.splitOn_intercalate ',' plain nonempty, List.map_map, List.mem_map]
  refine ⟨pair, member, ?_⟩
  obtain ⟨-, isKey⟩ := (plainGiven.readable pair member).1
  have equals : '=' ∉ pair.1 := fun inKey => absurd (isKey '=' inKey) (by simp [keyChar])
  show ((assignment pair).splitOn '=').headD [] = pair.1
  rw [assignment, List.splitOn_append_cons_self_of_not_mem equals]
  rfl

theorem filtered_assignment_iff (plainGiven : PlainGiven given) (plain : PlainName given test pairs)
    {pair : Str × Str} (member : pair ∈ pairs) :
    filtered (equalsWords fixedNames ++ runWords (joined given)) (assignment pair) ↔
      pair.1 ∈ fixedNames ++ given.map Prod.fst := by
  constructor
  · intro drops
    obtain ⟨word, isWord, starts⟩ := List.any_eq_true.mp drops
    simp only [decide_eq_true_eq, List.isPrefixOf_iff_prefix] at starts
    exact (plain.words word isWord starts.1).2 pair member starts.2
  · intro named
    apply List.any_eq_true.mpr
    rcases List.mem_append.mp named with fixed | inGiven
    · refine ⟨pair.1 ++ ['='], List.mem_append.mpr (.inl (List.mem_map_of_mem fixed)), ?_⟩
      simp only [decide_eq_true_eq, List.isPrefixOf_iff_prefix]
      exact ⟨by simp, ⟨pair.2, by simp [assignment]⟩⟩
    · obtain ⟨other, inside, same⟩ := List.mem_map.mp inGiven
      refine ⟨pair.1, List.mem_append.mpr (.inr (same ▸ mem_runWords plainGiven inside)), ?_⟩
      simp only [decide_eq_true_eq, List.isPrefixOf_iff_prefix]
      exact ⟨(plain.readable pair member).1.1, ⟨'=' :: pair.2, rfl⟩⟩

theorem caseKey_plain (plainGiven : PlainGiven given) (plain : PlainName given test pairs)
    {case : Case} (named : case.name = test ++ followed pairs) :
    caseKey (joined given) case =
      [','].intercalate (test :: (keptPairs given pairs).map assignment) := by
  have first : filtered (equalsWords fixedNames ++ runWords (joined given)) test = false := by
    rw [← Bool.not_eq_true]
    intro drops
    obtain ⟨word, isWord, starts⟩ := List.any_eq_true.mp drops
    simp only [decide_eq_true_eq, List.isPrefixOf_iff_prefix] at starts
    exact (plain.words word isWord starts.1).1 starts.2
  rw [caseKey, filterFields, named, if_neg plain.colon, equalsLine, splitOn_name plain,
    List.filter_cons_of_pos (by simp [first]), List.filter_map, keptPairs]
  congr 3
  apply List.filter_congr
  intro pair member
  have drops := filtered_assignment_iff plainGiven plain member
  by_cases named : pair.1 ∈ fixedNames ++ given.map Prod.fst
  · simp only [Function.comp_apply, drops.mpr named]
    simp [named]
  · have kept : filtered (equalsWords fixedNames ++ runWords (joined given)) (assignment pair) = false := by
      rw [← Bool.not_eq_true]
      exact fun filters => named (drops.mp filters)
    simp only [Function.comp_apply, kept]
    simp [named]

/-- The code tells plain names apart exactly as their classes do. -/
theorem sameKey_iff_sameClass (plainGiven : PlainGiven given) (plain : PlainName given test pairs)
    {test' : Str} {pairs' : List (Str × Str)} (plain' : PlainName given test' pairs')
    {case other : Case} (named : case.name = test ++ followed pairs)
    (named' : other.name = test' ++ followed pairs') :
    sortedKey (caseKey (joined given) case) = sortedKey (caseKey (joined given) other) ↔
      classOf (joined given) case = classOf (joined given) other := by
  have kept : ∀ {test : Str} {pairs : List (Str × Str)}, PlainName given test pairs →
      (∀ pair ∈ keptPairs given pairs, IsKey pair.1) ∧
        ∀ field ∈ (keptPairs given pairs).map assignment, ',' ∉ field ∧ field ≠ [] := by
    intro test pairs plain
    refine ⟨fun pair member => (plain.readable pair (List.mem_filter.mp member).1).1, ?_⟩
    intro field isField
    obtain ⟨pair, member, rfl⟩ := List.mem_map.mp isField
    have inside := (List.mem_filter.mp member).1
    refine ⟨comma_notMem_assignment (plain.readable pair inside).1 (plain.values pair inside).1, ?_⟩
    simp [assignment]
  have sorted : ∀ {test : Str} {pairs : List (Str × Str)} {case : Case},
      PlainName given test pairs → case.name = test ++ followed pairs →
        sortedKey (caseKey (joined given) case) =
          sortedLine test ((keptPairs given pairs).map assignment) := by
    intro test pairs case plain named
    rw [caseKey_plain plainGiven plain named, sortedKey, List.splitOn_intercalate ',' ?_ (by simp)]
    · rfl
    · exact List.forall_mem_cons.mpr ⟨plain.single.1, fun field member => ((kept plain).2 field member).1⟩
  rw [sorted plain named, sorted plain' named', classOf_plain plainGiven plain named,
    classOf_plain plainGiven plain' named', Prod.mk.injEq, Multiset.coe_eq_coe,
    sortedLine_inj plain.single.1 plain'.single.1 (kept plain).2 (kept plain').2,
    map_assignment_perm_iff (kept plain).1 (kept plain').1]

/-- Plain reports are merged rightly. -/
theorem keepsLatest_of_plain {reports : List (List Suite)} (plainGiven : PlainGiven given)
    (ascii : ∀ suite ∈ reports.flatten, AsciiChars suite.1 ∧ ∀ case ∈ suite.2, AsciiChars case.name ∧
      ∀ text ∈ case.error, AsciiChars text)
    (plain : ∀ suite ∈ reports.flatten, ∀ case ∈ suite.2, ∃ test pairs,
      PlainName given test pairs ∧ case.name = test ++ followed pairs) :
    KeepsLatest true (joined given) reports := by
  have inside : ∀ {name : Str} {case : Case}, case ∈ casesOf reports.flatten name →
      ∃ suite ∈ reports.flatten, case ∈ suite.2 := by
    intro name case member
    obtain ⟨suite, recorded, inSuite⟩ := List.mem_flatMap.mp member
    exact ⟨suite, (List.mem_filter.mp recorded).1, inSuite⟩
  apply Mergeable.keepsLatest
  refine ⟨fun suite member case inSuite => ((ascii suite member).2 case inSuite).2, .inr rfl,
    fun suite member => (ascii suite member).1, ?_, ?_⟩
  · intro name case last
    obtain ⟨suite, member, inSuite⟩ := inside last.mem
    exact ((ascii suite member).2 case inSuite).1
  · intro name case
    apply isLast_congr
    intro first firstIn second secondIn
    obtain ⟨suite, member, inSuite⟩ := inside firstIn
    obtain ⟨test, pairs, plainFirst, named⟩ := plain suite member first inSuite
    obtain ⟨suite', member', inSuite'⟩ := inside secondIn
    obtain ⟨test', pairs', plainSecond, named'⟩ := plain suite' member' second inSuite'
    exact sameKey_iff_sameClass plainGiven plainFirst plainSecond named named'

/-- The name `n` of `run_params` takes the parameter `nodes` away as well. -/
theorem mergeReports_fuses_nodes :
    ¬ ∀ renamed runParams reports, KeepsLatest renamed runParams reports := by
  intro keeps
  let first : Case := ⟨str "a.B.c,nodes=1", none, by simp⟩
  let second : Case := ⟨str "a.B.c,nodes=2", none, by simp⟩
  have same := (keeps true (str "n=1") [[(str "a.B", [first, second])]]).mergeable.sameLast
    (str "a.B") first
  have cases : casesOf [[(str "a.B", [first, second])]].flatten (str "a.B") = [first, second] := rfl
  rw [cases] at same
  have names : paramNames (str "n=1") = [str "n"] := by
    apply @paramNames_joined [(str "n", ['1'])]
    refine ⟨?_, ?_⟩
    · simp [Readable, IsKey, str, keyChar]
    · simp only [List.mem_singleton, forall_eq]
      exact ⟨by simp, by decide⟩
  have parsed : ∀ case : Case, ∀ count ∈ ['1', '2'],
      case.name = str "a.B.c" ++ followed [(str "nodes", [count])] →
        classOf (str "n=1") case = (str "a.B.c", {(str "nodes", [count])}) := by
    intro case count digit named
    have split := @splitKeys_name_followed (str "a.B.c") [(str "nodes", [count])]
      (inert_of_plain (by simp [str]))
    rw [classOf, named, names]
    rcases List.mem_pair.mp digit with rfl | rfl
    · rw [split (Readable.separable (by simp [Readable, IsKey, str, keyChar]))]
      decide
    · rw [split (Readable.separable (by simp [Readable, IsKey, str, keyChar]))]
      decide
  have classes : classOf (str "n=1") second ≠ classOf (str "n=1") first := by
    rw [parsed first '1' (by simp) rfl, parsed second '2' (by simp) rfl]
    simp
  have keys : sortedKey (caseKey (str "n=1") second) = sortedKey (caseKey (str "n=1") first) := by
    decide +kernel
  have last := same.mpr ⟨[], [second], rfl, by simpa using classes⟩
  rcases (@isLast_concat _ _ _ [first] _ _).mp last with equal | ⟨-, different⟩
  · exact absurd (congrArg Case.name equal) (by decide)
  · exact different keys

end Taf.Runner.Merge
