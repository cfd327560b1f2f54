import Taf.Runner.XUnit

/-! # Reading the reports back

`parse_junit_result_xml` of `testrunner.py`: the names of the cases of all reports go to the lists of
passed and failed tests.  The flag that says that a test has failed is set back for every suite, not
for every test, so that in a suite nothing that comes after a failure is in the list of passed
tests. -/

namespace Taf.Runner.Report

open Taf.Lib

/-! ## `parse_junit_result_xml` -/

structure Lists where
  passed : List Str
  failed : List Str

def Lists.of (lists : Lists) : Status → List Str
  | .pass => lists.passed
  | .fail => lists.failed

/-- One test case, with the flag -/
def readCase (state : Lists × Bool) (case : CaseElement) : Lists × Bool :=
  let failed := state.2 || !case.errors.isEmpty
  ({ failed := state.1.failed ++ case.errors.map fun _ => case.name
     passed := if failed then state.1.passed else state.1.passed ++ [case.name] }, failed)

def readSuite (lists : Lists) (suite : SuiteElement) : Lists :=
  (suite.cases.foldl readCase (lists, false)).1

/-- The order in which `glob` lists the files -/
abbrev Glob := KeyOrder Str

def parseJunitResultXml (glob : Glob) (files : Files) : Option Lists := do
  let suites ← (glob.order files.keys).mapM fun file => (files.lookup file).bind parse
  let lists := suites.foldl readSuite { passed := [], failed := [] }
  some {
    passed := transformAndWriteToFile lists.passed
    failed := transformAndWriteToFile lists.failed }

/-- The tests are recorded and written, and the reports are read. -/
def report (opens : Str → Bool) (path : Str) (glob : Glob) (tests : List Added) : Option Lists := do
  let files ← write opens path (tests.foldl addTest [])
  parseJunitResultXml glob files

/-! ## What is meant to be read -/

/-- For each status the lines that are read are those that were recorded with it. -/
def ReadsBack (opens : Str → Bool) (path : Str) (glob : Glob) (tests : List Added) : Prop :=
  ∃ lists, report opens path glob tests = some lists ∧ ∀ status line,
    (∃ found ∈ lists.of status, canon found = canon line) ↔
      ∃ test ∈ tests, test.status = status ∧ canon (lineOf test.fullName) = canon line

/-- The report of the test is not overwritten, and no test of its class has failed before a test
    that passed. -/
def Kept (path : Str) (tests : List Added) (test : Added) : Prop :=
  ¬ Overwritten path tests (className test.name) ∧
    ∃ before after, tests = before ++ test :: after ∧ (test.status = .pass →
      ∀ earlier ∈ before, className earlier.name = className test.name → earlier.status = .pass)

structure Reportable (opens : Str → Bool) (path : Str) (tests : List Added) : Prop where
  opened : ∀ test ∈ tests, opens (reportFile path (className test.name))
  ascii : ∀ test ∈ tests, ∀ text ∈ test.texts, AsciiChars text
  wellFormed : ∀ test ∈ tests, ¬ Overwritten path tests (className test.name) →
    ∀ text ∈ test.texts, ∀ c ∈ text, xmlChar c
  unbroken : ∀ test ∈ tests, Unbroken (lineOf test.fullName)
  anagrams : ∀ test ∈ tests, ∀ other ∈ tests, test.status = other.status →
    (lineOf test.fullName).Perm (lineOf other.fullName) →
      canon (lineOf test.fullName) = canon (lineOf other.fullName)
  kept : ∀ test ∈ tests, ∃ other, Kept path tests other ∧ other.status = test.status ∧
    canon (lineOf other.fullName) = canon (lineOf test.fullName)

/-! ## The loops of the reader -/

theorem foldl_readCase_failed (cases : List CaseElement) (lists : Lists) :
    (cases.foldl readCase (lists, true)).1 =
      { lists with failed := lists.failed ++ cases.flatMap fun case => case.errors.map fun _ => case.name } := by
  induction cases generalizing lists with
  | nil => simp
  | cons case cases ih =>
    rw [List.foldl_cons]
    show (cases.foldl readCase (_, true)).1 = _
    rw [ih]
    simp

theorem readSuite_eq (lists : Lists) (suite : SuiteElement) : readSuite lists suite =
    { passed := lists.passed ++ (suite.cases.takeWhile fun case => case.errors.isEmpty).map CaseElement.name
      failed := lists.failed ++ suite.cases.flatMap fun case => case.errors.map fun _ => case.name } := by
  rw [readSuite]
  generalize suite.cases = cases
  induction cases generalizing lists with
  | nil => simp
  | cons case cases ih =>
    rw [List.foldl_cons, List.takeWhile_cons]
    cases none : case.errors.isEmpty with
    | true =>
      have step : readCase (lists, false) case =
          ({ lists with passed := lists.passed ++ [case.name] }, false) := by
        simp [readCase, List.isEmpty_iff.mp none]
      rw [step, ih]
      simp [List.isEmpty_iff.mp none]
    | false =>
      have step : readCase (lists, false) case =
          ({ lists with failed := lists.failed ++ case.errors.map fun _ => case.name }, true) := by
        simp [readCase, none]
      rw [step, foldl_readCase_failed]
      simp

theorem foldl_readSuite (suites : List SuiteElement) (lists : Lists) :
    suites.foldl readSuite lists =
      { passed := lists.passed ++ suites.flatMap fun suite =>
          (suite.cases.takeWhile fun case => case.errors.isEmpty).map CaseElement.name
        failed := lists.failed ++ suites.flatMap fun suite =>
          suite.cases.flatMap fun case => case.errors.map fun _ => case.name } := by
  induction suites generalizing lists with
  | nil => simp
  | cons suite suites ih =>
    rw [List.foldl_cons, ih, readSuite_eq]
    simp

theorem mem_takeWhile_filter {α : Type} {p q : α → Bool} {items : List α} {item : α} :
    item ∈ (items.filter p).takeWhile q ↔ ∃ before after, items = before ++ item :: after ∧
      p item ∧ q item ∧ ∀ earlier ∈ before, p earlier → q earlier := by
  induction items with
  | nil => simp
  | cons first items ih =>
    constructor
    · intro member
      cases own : p first with
      | false =>
        rw [List.filter_cons_of_neg (by simp [own]), ih] at member
        obtain ⟨before, after, rfl, here, passes, earlier⟩ := member
        refine ⟨first :: before, after, rfl, here, passes, ?_⟩
        exact List.forall_mem_cons.mpr ⟨fun inside => by simp [own] at inside, earlier⟩
      | true =>
        rw [List.filter_cons_of_pos own, List.takeWhile_cons] at member
        split at member
        · rename_i passesFirst
          rcases List.mem_cons.mp member with rfl | member
          · exact ⟨[], items, rfl, own, passesFirst, by simp⟩
          · obtain ⟨before, after, rfl, here, passes, earlier⟩ := ih.mp member
            refine ⟨first :: before, after, rfl, here, passes, ?_⟩
            exact List.forall_mem_cons.mpr ⟨fun _ => passesFirst, earlier⟩
        · cases member
    · rintro ⟨before, after, same, here, passes, earlier⟩
      cases before with
      | nil =>
        cases same
        rw [List.filter_cons_of_pos here, List.takeWhile_cons_of_pos passes]
        exact List.mem_cons_self
      | cons other before =>
        cases same
        obtain ⟨passesFirst, earlier⟩ := List.forall_mem_cons.mp earlier
        have later := ih.mpr ⟨before, after, rfl, here, passes, earlier⟩
        cases own : p first with
        | false =>
          rw [List.filter_cons_of_neg (by simp [own])]
          exact later
        | true =>
          rw [List.filter_cons_of_pos own, List.takeWhile_cons_of_pos (passesFirst own)]
          exact List.mem_cons_of_mem _ later

/-! ## What is read of a run -/

variable {opens : Str → Bool} {path : Str} {glob : Glob} {tests : List Added}

/-- A test as it is read -/
def readOf (test : Added) : CaseElement where
  name := attributeText test.fullName
  errors := (testCase test).error.toList

theorem errors_readOf (test : Added) : (readOf test).errors.isEmpty = true ↔ test.status = .pass := by
  rw [readOf, testCase]
  cases test.status with
  | pass => simp
  | fail => simp

theorem parse_toXml {name : Str} {suite : SuiteElement}
    (parsed : parse (toXml (suiteOf tests name)) = some suite) :
    suite.cases = (tests.filter fun test => className test.name = name).map readOf := by
  rw [parse] at parsed
  split at parsed
  · cases parsed
    simp only [toXml, suiteOf, List.map_map]
    rfl
  · cases parsed

/-- The names of the cases of a report that are put into a list -/
def readNames (suite : SuiteElement) : Status → List Str
  | .pass => (suite.cases.takeWhile fun case => case.errors.isEmpty).map CaseElement.name
  | .fail => suite.cases.flatMap fun case => case.errors.map fun _ => case.name

theorem mem_readNames {name found : Str} {suite : SuiteElement}
    (parsed : parse (toXml (suiteOf tests name)) = some suite) (status : Status) :
    found ∈ readNames suite status ↔ ∃ test before after, tests = before ++ test :: after ∧
      className test.name = name ∧ test.status = status ∧ found = attributeText test.fullName ∧
      (status = .pass → ∀ earlier ∈ before, className earlier.name = name → earlier.status = .pass) := by
  cases status with
  | pass =>
    rw [readNames, parse_toXml parsed, List.takeWhile_map, List.mem_map]
    constructor
    · rintro ⟨case, member, rfl⟩
      obtain ⟨test, inside, rfl⟩ := List.mem_map.mp member
      obtain ⟨before, after, same, own, passed, earlier⟩ := mem_takeWhile_filter.mp inside
      refine ⟨test, before, after, same, by simpa using own, (errors_readOf test).mp passed, rfl, ?_⟩
      intro _ other member same
      exact (errors_readOf other).mp (earlier other member (by simpa using same))
    · rintro ⟨test, before, after, same, own, passed, rfl, earlier⟩
      refine ⟨readOf test, List.mem_map_of_mem (mem_takeWhile_filter.mpr ?_), rfl⟩
      refine ⟨before, after, same, by simpa using own, (errors_readOf test).mpr passed, ?_⟩
      intro other member inside
      exact (errors_readOf other).mpr (earlier rfl other member (by simpa using inside))
  | fail =>
    rw [readNames, parse_toXml parsed, List.flatMap_map, List.mem_flatMap]
    constructor
    · rintro ⟨test, member, inErrors⟩
      obtain ⟨member, own⟩ := List.mem_filter.mp member
      obtain ⟨before, after, same⟩ := List.append_of_mem member
      obtain ⟨error, isError, rfl⟩ := List.mem_map.mp inErrors
      have failed : test.status = .fail := by
        cases status : test.status with
        | fail => rfl
        | pass =>
          have none := (errors_readOf test).mpr status
          rw [List.isEmpty_iff.mp none] at isError
          cases isError
      exact ⟨test, before, after, same, by simpa using own, failed, rfl, by simp⟩
    · rintro ⟨test, before, after, rfl, own, failed, rfl, -⟩
      refine ⟨test, by simp [own], ?_⟩
      have errors : (readOf test).errors = [⟨test.errorType, test.errorMessage⟩] := by
        rw [readOf, testCase, failed]
        rfl
      rw [errors]
      exact List.mem_singleton.mpr rfl

/-- The reports of a run, as they are parsed one after the other -/
def parseAll (path : Str) (glob : Glob) (tests : List Added) : Option (List SuiteElement) :=
  (glob.order (filesOf path (tests.foldl addTest [])).keys).mapM fun file =>
    ((filesOf path (tests.foldl addTest [])).lookup file).bind parse

theorem mem_order_keys {file : Str} {suite : SuiteElement} {files : Files}
    (found : files.lookup file = some suite) : file ∈ glob.order files.keys := by
  apply (glob.perm _).mem_iff.mpr
  apply AList.mem_keys.mp
  rw [← AList.lookup_isSome, found]
  exact Option.isSome_some

theorem mem_parseAll {suites : List SuiteElement} (parsed : parseAll path glob tests = some suites)
    {suite : SuiteElement} : suite ∈ suites ↔ ∃ name ∈ classes tests, ¬ Overwritten path tests name ∧
      parse (toXml (suiteOf tests name)) = some suite := by
  rw [parseAll] at parsed
  rw [mem_of_mapM parsed]
  constructor
  · rintro ⟨file, -, read⟩
    obtain ⟨element, found, read⟩ := Option.bind_eq_some_iff.mp read
    obtain ⟨name, opened, kept, rfl⟩ := mem_filesOf.mp ⟨file, found⟩
    exact ⟨name, opened, kept, read⟩
  · rintro ⟨name, opened, kept, read⟩
    obtain ⟨file, found⟩ := (@mem_filesOf path tests _).mpr ⟨name, opened, kept, rfl⟩
    refine ⟨file, mem_order_keys found, ?_⟩
    rw [found, Option.bind_some, read]

theorem parse_isSome_iff {suite : SuiteElement} : (∃ read, parse suite = some read) ↔ WellFormed suite := by
  rw [parse]
  split
  · rename_i wellFormed
    exact iff_of_true ⟨_, rfl⟩ wellFormed
  · rename_i malformed
    exact iff_of_false (fun ⟨read, parsed⟩ => by cases parsed) malformed

theorem parseAll_isSome_iff : (∃ suites, parseAll path glob tests = some suites) ↔
    ∀ name ∈ classes tests, ¬ Overwritten path tests name →
      WellFormed (toXml (suiteOf tests name)) := by
  have iff := @mapM_isSome_iff _ _ (fun file =>
    ((filesOf path (tests.foldl addTest [])).lookup file).bind parse)
      (glob.order (filesOf path (tests.foldl addTest [])).keys)
  rw [← parseAll] at iff
  rw [iff]
  constructor
  · intro all name opened kept
    obtain ⟨file, found⟩ := (@mem_filesOf path tests _).mpr ⟨name, opened, kept, rfl⟩
    obtain ⟨suite, read⟩ := all file (mem_order_keys found)
    rw [found, Option.bind_some] at read
    exact parse_isSome_iff.mp ⟨suite, read⟩
  · intro wellFormed file member
    have present := AList.mem_keys.mpr ((glob.perm _).mem_iff.mp member)
    obtain ⟨element, found⟩ := Option.isSome_iff_exists.mp (AList.lookup_isSome.mpr present)
    obtain ⟨name, opened, kept, rfl⟩ := mem_filesOf.mp ⟨file, found⟩
    rw [found, Option.bind_some]
    exact parse_isSome_iff.mpr (wellFormed name opened kept)

theorem report_eq_some_iff {lists : Lists} : report opens path glob tests = some lists ↔
    (∀ suite ∈ tests.foldl addTest [], Writable opens path suite) ∧
      ∃ suites, parseAll path glob tests = some suites ∧
        lists.passed = transformAndWriteToFile (suites.flatMap (readNames · .pass)) ∧
        lists.failed = transformAndWriteToFile (suites.flatMap (readNames · .fail)) := by
  have read : ∀ suites : List SuiteElement, suites.foldl readSuite { passed := [], failed := [] } =
      { passed := suites.flatMap (readNames · .pass), failed := suites.flatMap (readNames · .fail) } :=
    fun suites => foldl_readSuite suites _
  constructor
  · intro returned
    obtain ⟨files, written, returned⟩ := Option.bind_eq_some_iff.mp returned
    obtain ⟨writable, rfl⟩ := write_eq_some.mp written
    simp only [parseJunitResultXml, Option.bind_eq_bind, Option.bind_eq_some_iff, Option.some.injEq,
      read] at returned
    obtain ⟨suites, parsed, rfl⟩ := returned
    exact ⟨writable, suites, parsed, rfl, rfl⟩
  · rintro ⟨writable, suites, parsed, passed, failed⟩
    rw [report, write_eq_some.mpr ⟨writable, rfl⟩]
    show parseJunitResultXml glob _ = _
    simp only [parseJunitResultXml, Option.bind_eq_bind, Option.bind_eq_some_iff, Option.some.injEq,
      read]
    refine ⟨suites, parsed, ?_⟩
    rw [← passed, ← failed]

/-- The names that are read are those of the tests that are kept. -/
theorem mem_namesRead {suites : List SuiteElement} (parsed : parseAll path glob tests = some suites)
    {status : Status} {found : Str} : found ∈ suites.flatMap (readNames · status) ↔
      ∃ test, Kept path tests test ∧ test.status = status ∧ found = attributeText test.fullName := by
  rw [List.mem_flatMap]
  constructor
  · rintro ⟨suite, inside, member⟩
    obtain ⟨name, -, kept, read⟩ := (mem_parseAll parsed).mp inside
    obtain ⟨test, before, after, same, rfl, rfl, rfl, earlier⟩ := (mem_readNames read status).mp member
    exact ⟨test, ⟨kept, before, after, same, earlier⟩, rfl, rfl⟩
  · rintro ⟨test, ⟨kept, before, after, same, earlier⟩, rfl, rfl⟩
    have opened : className test.name ∈ classes tests := mem_classes.mpr ⟨test, by simp [same], rfl⟩
    obtain ⟨suite, read⟩ := parse_isSome_iff.mpr (parseAll_isSome_iff.mp ⟨suites, parsed⟩ _ opened kept)
    refine ⟨suite, (mem_parseAll parsed).mpr ⟨_, opened, kept, read⟩, ?_⟩
    exact (mem_readNames read _).mpr ⟨test, before, after, same, rfl, rfl, rfl, earlier⟩

/-- The failed tests of the class whose report is in the file -/
def failedIn (files : Files) (tests : List Added) (file : Str) : List Added :=
  match files.lookup file with
  | some suite => tests.filter fun test => className test.name = suite.name ∧ test.status = .fail
  | none => []

/-- The failed tests whose reports are not overwritten, in the order in which they are read -/
def failedInOrder (path : Str) (glob : Glob) (tests : List Added) : List Added :=
  let files := filesOf path (tests.foldl addTest [])
  (glob.order files.keys).flatMap (failedIn files tests)

theorem mem_failedInOrder {test : Added} : test ∈ failedInOrder path glob tests ↔
    test ∈ tests ∧ test.status = .fail ∧ ¬ Overwritten path tests (className test.name) := by
  simp only [failedInOrder, List.mem_flatMap, failedIn]
  constructor
  · rintro ⟨file, -, member⟩
    split at member
    · rename_i suite found
      obtain ⟨inside, own⟩ := List.mem_filter.mp member
      obtain ⟨same, failed⟩ := of_decide_eq_true own
      obtain ⟨name, -, kept, rfl⟩ := mem_filesOf.mp ⟨file, found⟩
      exact ⟨inside, failed, same ▸ kept⟩
    · cases member
  · rintro ⟨inside, failed, kept⟩
    have opened : className test.name ∈ classes tests := mem_classes.mpr ⟨test, inside, rfl⟩
    obtain ⟨file, found⟩ := (@mem_filesOf path tests _).mpr ⟨_, opened, kept, rfl⟩
    refine ⟨file, mem_order_keys found, ?_⟩
    rw [found]
    exact List.mem_filter.mpr ⟨inside, decide_eq_true ⟨rfl, failed⟩⟩

theorem readNames_fail {name : Str} {suite : SuiteElement}
    (parsed : parse (toXml (suiteOf tests name)) = some suite) : readNames suite .fail =
      (tests.filter fun test => className test.name = name ∧ test.status = .fail).map fun test =>
        attributeText test.fullName := by
  rw [readNames, parse_toXml parsed, List.flatMap_map]
  clear parsed
  induction tests with
  | nil => rfl
  | cons test tests ih =>
    by_cases own : className test.name = name
    · rw [List.filter_cons_of_pos (by simpa using own), List.flatMap_cons, ih]
      cases status : test.status with
      | pass =>
        rw [List.filter_cons_of_neg (by simp [status]), readOf, testCase, status]
        rfl
      | fail =>
        rw [List.filter_cons_of_pos (by simp [own, status]), readOf, testCase, status]
        rfl
    · rw [List.filter_cons_of_neg (by simpa using own), List.filter_cons_of_neg (by simp [own]), ih]

/-- The names of the failed tests are read in the order of the files. -/
theorem namesRead_fail {suites : List SuiteElement} (parsed : parseAll path glob tests = some suites) :
    suites.flatMap (readNames · .fail) =
      (failedInOrder path glob tests).map fun test => attributeText test.fullName := by
  rw [failedInOrder, List.map_flatMap]
  have pairs := forall₂_of_mapM parsed
  -- The induction is over the files and what is read of them.
  generalize glob.order (filesOf path (tests.foldl addTest [])).keys = order at pairs
  clear parsed
  induction pairs with
  | nil => rfl
  | @cons file suite order suites read _ ih =>
    obtain ⟨element, found, read⟩ := Option.bind_eq_some_iff.mp read
    obtain ⟨name, -, -, rfl⟩ := mem_filesOf.mp ⟨file, found⟩
    rw [List.flatMap_cons, List.flatMap_cons, ih, readNames_fail read, failedIn, found]
    rfl

theorem Kept.mem {test : Added} (kept : Kept path tests test) : test ∈ tests := by
  obtain ⟨-, before, after, rfl, -⟩ := kept
  simp

theorem wellFormed_iff : (∀ name ∈ classes tests, ¬ Overwritten path tests name →
      WellFormed (toXml (suiteOf tests name))) ↔
    ∀ test ∈ tests, ¬ Overwritten path tests (className test.name) →
      ∀ text ∈ test.texts, ∀ c ∈ text, xmlChar c := by
  constructor
  · intro wellFormed test member kept
    have opened : className test.name ∈ classes tests := mem_classes.mpr ⟨test, member, rfl⟩
    exact (forall_texts_iff opened).mp (wellFormed _ opened kept) test member rfl
  · intro wellFormed name opened kept
    refine (@forall_texts_iff tests (fun c => xmlChar c) name opened).mpr ?_
    rintro test member rfl
    exact wellFormed test member kept

theorem unbroken_of_canon_eq {line other : Str} (same : canon line = canon other)
    (unbroken : Unbroken line) : Unbroken other :=
  fun c member => unbroken c ((perm_of_canon_eq same).mem_iff.mpr member)

theorem ReadsBack.reportable (readsBack : ReadsBack opens path glob tests) :
    Reportable opens path tests := by
  obtain ⟨lists, returned, same⟩ := readsBack
  obtain ⟨writable, suites, parsed, passed, failed⟩ := report_eq_some_iff.mp returned
  obtain ⟨opened, ascii⟩ := writable_iff.mp writable
  have wellFormed := wellFormed_iff.mp (parseAll_isSome_iff.mp ⟨suites, parsed⟩)
  have names : ∀ status, lists.of status =
      transformAndWriteToFile (suites.flatMap (readNames · status)) := by
    intro status
    cases status with
    | pass => exact passed
    | fail => exact failed
  -- Every recorded line has one that is read, and this is the line of a test that is kept.
  have source : ∀ test ∈ tests, ∃ other, Kept path tests other ∧ other.status = test.status ∧
      lineOf (attributeText other.fullName) ∈ lists.of test.status ∧
      canon (lineOf (attributeText other.fullName)) = canon (lineOf test.fullName) := by
    intro test member
    obtain ⟨found, inside, alike⟩ := (same test.status _).mpr ⟨test, member, rfl, rfl⟩
    have read := inside
    rw [names] at read
    obtain ⟨name, isName, rfl⟩ := mem_transform read
    obtain ⟨other, kept, status, rfl⟩ := (mem_namesRead parsed).mp isName
    exact ⟨other, kept, status, inside, alike⟩
  have unbroken : ∀ test ∈ tests, Unbroken (lineOf test.fullName) := by
    intro test member
    obtain ⟨other, -, -, -, alike⟩ := source test member
    exact unbroken_of_canon_eq alike (unbroken_lineOf_attributeText _)
  refine ⟨opened, ascii, wellFormed, unbroken, ?_, ?_⟩
  · intro test member other inside status perm
    obtain ⟨first, -, -, inList, alike⟩ := source test member
    obtain ⟨second, -, -, inList', alike'⟩ := source other inside
    rw [← status, names] at inList'
    rw [names] at inList
    have anagrams : (lineOf (attributeText first.fullName)).Perm
        (lineOf (attributeText second.fullName)) :=
      (perm_of_canon_eq alike).trans (perm.trans (perm_of_canon_eq alike').symm)
    have equal := (represents_foldl sortedChars _).single inList inList'
      (mergeSort_eq_mergeSort_iff.mpr anagrams)
    rw [← alike, ← alike', equal]
  · intro test member
    obtain ⟨other, kept, status, -, alike⟩ := source test member
    rw [lineOf_attributeText (unbroken other kept.mem)] at alike
    exact ⟨other, kept, status, alike⟩

theorem Reportable.readsBack (reportable : Reportable opens path tests) :
    ReadsBack opens path glob tests := by
  obtain ⟨opened, ascii, wellFormed, unbroken, anagrams, kept⟩ := reportable
  obtain ⟨suites, parsed⟩ := (@parseAll_isSome_iff path glob tests).mpr (wellFormed_iff.mpr wellFormed)
  let lists : Lists :=
    { passed := transformAndWriteToFile (suites.flatMap (readNames · .pass))
      failed := transformAndWriteToFile (suites.flatMap (readNames · .fail)) }
  refine ⟨lists, report_eq_some_iff.mpr ⟨writable_iff.mpr ⟨opened, ascii⟩, suites, parsed, rfl, rfl⟩, ?_⟩
  intro status line
  have names : lists.of status = transformAndWriteToFile (suites.flatMap (readNames · status)) := by
    cases status with
    | pass => rfl
    | fail => rfl
  rw [names]
  have asRecorded : ∀ {test : Added}, Kept path tests test →
      lineOf (attributeText test.fullName) = lineOf test.fullName :=
    fun kept => lineOf_attributeText (unbroken _ kept.mem)
  constructor
  · rintro ⟨found, member, alike⟩
    obtain ⟨name, isName, rfl⟩ := mem_transform member
    obtain ⟨test, kept, status, rfl⟩ := (mem_namesRead parsed).mp isName
    rw [asRecorded kept] at alike
    exact ⟨test, kept.mem, status, alike⟩
  · rintro ⟨test, member, rfl, alike⟩
    obtain ⟨other, isKept, status, same⟩ := kept test member
    have apart : ∀ name ∈ suites.flatMap (readNames · test.status),
        ∀ name' ∈ suites.flatMap (readNames · test.status), (lineOf name).Perm (lineOf name') →
          canon (lineOf name) = canon (lineOf name') := by
      intro name isName name' isName' perm
      obtain ⟨first, keptFirst, firstStatus, rfl⟩ := (mem_namesRead parsed).mp isName
      obtain ⟨second, keptSecond, secondStatus, rfl⟩ := (mem_namesRead parsed).mp isName'
      rw [asRecorded keptFirst, asRecorded keptSecond] at perm ⊢
      exact anagrams first keptFirst.mem second keptSecond.mem (firstStatus.trans secondStatus.symm) perm
    obtain ⟨found, inside, represents⟩ := transform_complete_iff.mpr apart _
      ((mem_namesRead parsed).mpr ⟨other, isKept, status, rfl⟩)
    rw [asRecorded isKept] at represents
    exact ⟨found, inside, represents.trans (same.trans alike)⟩

theorem readsBack_iff (opens : Str → Bool) (path : Str) (glob : Glob) (tests : List Added) :
    ReadsBack opens path glob tests ↔ Reportable opens path tests :=
  ⟨ReadsBack.reportable, Reportable.readsBack⟩

/-- A test that passes after a failure of its class is in neither list. -/
theorem report_loses_passed :
    ¬ ∀ opens path glob tests, ReadsBack opens path glob tests := by
  intro readsBack
  let first : Added := ⟨str "a.B.c", .fail, str "error", str "[]", []⟩
  let second : Added := ⟨str "a.B.d", .pass, [], [], []⟩
  have reportable := (readsBack (fun _ => true) (str "report") ⟨id, fun _ => .refl _⟩
    [first, second]).reportable
  obtain ⟨other, ⟨-, before, after, same, earlier⟩, passed, -⟩ := reportable.kept second (by simp)
  cases before with
  | nil =>
    cases same
    cases passed
  | cons test before =>
    obtain ⟨rfl, same⟩ := List.cons.inj same
    cases before with
    | nil =>
      cases same
      have failed := earlier rfl first List.mem_cons_self (by decide)
      cases failed
    | cons test before => simp at same

end Taf.Runner.Report
