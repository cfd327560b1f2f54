import Taf.Lib.OnePerClass
import Taf.Lib.PyText
import Taf.Lib.Run
import Taf.Runner.ReportLines

/-! # The reports of a run

`XUnitTestResult` of `lib/xunit.py`: a test goes to the suite of its class, and every suite is
written to a file of its own.  A document is modelled by its elements; what XML does to it is what
the parser makes of the texts in them. -/

namespace Taf.Runner.Report

open Taf.Lib

inductive Status where
  | pass
  | fail
  deriving DecidableEq

/-- A call of `add_test`; `None` as the type or the message of an error is written as no text. -/
structure Added where
  name : Str
  status : Status
  errorType : Str
  errorMessage : Str
  params : Str

structure TestCaseError where
  type : Str
  message : Str

structure TestCase where
  name : Str
  params : Str
  error : Option TestCaseError

structure TestSuite where
  name : Str
  tests : List TestCase

/-! ## `add_test` -/

/-- `name[:name.rfind(".")]`: without a dot this cuts the last character off. -/
def beforeLastDot (name : Str) : Str :=
  if '.' ∈ name then (name.rdropWhile (· ≠ '.')).dropLast else name.dropLast

def className (name : Str) : Str :=
  if ',' ∈ name then name else beforeLastDot name

def testCase (added : Added) : TestCase where
  name := added.name
  params := added.params
  error :=
    match added.status with
    | .fail => some { type := added.errorType, message := added.errorMessage }
    | .pass => none

def addTest : List TestSuite → Added → List TestSuite
  | [], added => [{ name := className added.name, tests := [testCase added] }]
  | suite :: suites, added =>
    if suite.name = className added.name then
      { suite with tests := suite.tests ++ [testCase added] } :: suites
    else suite :: addTest suites added

/-! ## `to_xml` and `write` -/

structure CaseElement where
  name : Str
  errors : List TestCaseError

structure SuiteElement where
  name : Str
  cases : List CaseElement

def toXml (suite : TestSuite) : SuiteElement where
  name := suite.name
  cases := suite.tests.map fun test =>
    { name := test.name ++ test.params, errors := test.error.toList }

def CaseElement.texts (case : CaseElement) : List Str :=
  case.name :: case.errors.flatMap fun error => [error.type, error.message]

def SuiteElement.texts (suite : SuiteElement) : List Str :=
  suite.name :: suite.cases.flatMap CaseElement.texts

/-- `"{0}-{1}.xml".format(prefix, name)` with the name up to its first comma -/
def reportFile (path name : Str) : Str :=
  path ++ '-' :: (name.takeWhile (· ≠ ',') ++ str ".xml")

abbrev Files := AList fun _ : Str => SuiteElement

variable (opens : Str → Bool) (path : Str)

/-- A report can be written if its file can be opened; it is a byte string. -/
def Writable (suite : TestSuite) : Prop :=
  opens (reportFile path suite.name) ∧ ∀ text ∈ (toXml suite).texts, AsciiChars text

instance (suite : TestSuite) : Decidable (Writable opens path suite) :=
  inferInstanceAs (Decidable (_ ∧ _))

/-- `write`; `none` stands for an exception. -/
def write (suites : List TestSuite) : Option Files :=
  suites.foldlM (fun files suite =>
    if Writable opens path suite then
      some (files.insert (reportFile path suite.name) (toXml suite))
    else none) ∅

/-! ## What a parser reads -/

/-- The characters that XML allows, among those of ASCII -/
def xmlChar (c : Char) : Bool := lineBreak c || 32 ≤ c.toNat

def WellFormed (suite : SuiteElement) : Prop := ∀ text ∈ suite.texts, ∀ c ∈ text, xmlChar c

instance (suite : SuiteElement) : Decidable (WellFormed suite) :=
  inferInstanceAs (Decidable (∀ text ∈ suite.texts, _))

/-- `minidom.parse` of a report; what its errors say is not looked at. -/
def parse (suite : SuiteElement) : Option SuiteElement :=
  if WellFormed suite then
    some {
      name := attributeText suite.name
      cases := suite.cases.map fun case => { case with name := attributeText case.name } }
  else none

/-! ## The suites of a run -/

/-- The classes in the order in which they are opened -/
def classes (tests : List Added) : List Str :=
  (tests.map fun test => className test.name).foldl (keepNew id) []

def suiteOf (tests : List Added) (name : Str) : TestSuite where
  name := name
  tests := (tests.filter fun test => className test.name = name).map testCase

variable {tests : List Added} {test : Added}

theorem classes_represents (tests : List Added) :
    Represents id (classes tests) (tests.map fun test => className test.name) :=
  represents_foldl id _

theorem mem_classes {name : Str} :
    name ∈ classes tests ↔ ∃ test ∈ tests, className test.name = name := by
  constructor
  · intro member
    exact List.mem_map.mp ((classes_represents tests).mem name member)
  · rintro ⟨test, member, rfl⟩
    obtain ⟨own, inside, same⟩ := (classes_represents tests).some _ (List.mem_map_of_mem member)
    rw [← show own = className test.name from same]
    exact inside

theorem classes_concat : classes (tests ++ [test]) =
    if className test.name ∈ classes tests then classes tests
    else classes tests ++ [className test.name] := by
  rw [classes, List.map_append, List.foldl_append]
  show keepNew id (classes tests) (className test.name) = _
  rw [keepNew]
  apply if_congr _ rfl rfl
  simp

theorem suiteOf_concat (name : Str) : suiteOf (tests ++ [test]) name =
    if className test.name = name then
      { suiteOf tests name with tests := (suiteOf tests name).tests ++ [testCase test] }
    else suiteOf tests name := by
  rw [suiteOf, List.filter_append, List.map_append]
  by_cases own : className test.name = name
  · rw [if_pos own]
    simp [suiteOf, own]
  · rw [if_neg own]
    simp [suiteOf, own]

theorem addTest_of_notMem {suites : List TestSuite}
    (absent : className test.name ∉ suites.map TestSuite.name) :
    addTest suites test = suites ++ [{ name := className test.name, tests := [testCase test] }] := by
  induction suites with
  | nil => rfl
  | cons suite suites ih =>
    rw [List.map_cons, List.mem_cons, not_or] at absent
    rw [addTest, if_neg (Ne.symm absent.1), ih absent.2]
    rfl

theorem addTest_suites {names : List Str} (nodup : names.Nodup)
    (present : className test.name ∈ names) :
    addTest (names.map (suiteOf tests)) test = names.map (suiteOf (tests ++ [test])) := by
  induction names with
  | nil => cases present
  | cons name names ih =>
    obtain ⟨fresh, nodup⟩ := List.nodup_cons.mp nodup
    rw [List.map_cons, List.map_cons, addTest, suiteOf_concat]
    by_cases here : className test.name = name
    · rw [if_pos (show (suiteOf tests name).name = _ from here.symm), if_pos here]
      congr 1
      apply List.map_congr_left
      intro other member
      have different : className test.name ≠ other := by
        rintro rfl
        exact fresh (here ▸ member)
      rw [suiteOf_concat, if_neg different]
    · have later : className test.name ∈ names := by
        rcases List.mem_cons.mp present with same | later
        · exact absurd same here
        · exact later
      rw [if_neg (show (suiteOf tests name).name ≠ _ from Ne.symm here), if_neg here, ih nodup later]

/-- The suites are those of the classes, in the order in which these are opened. -/
theorem foldl_addTest (tests : List Added) :
    tests.foldl addTest [] = (classes tests).map (suiteOf tests) := by
  induction tests using List.reverseRecOn with
  | nil => rfl
  | append_singleton tests test ih =>
    have nodup : (classes tests).Nodup := (classes_represents tests).apart
    rw [List.foldl_append, ih, classes_concat]
    show addTest _ test = _
    by_cases present : className test.name ∈ classes tests
    · rw [if_pos present, addTest_suites nodup present]
    · have names : ((classes tests).map (suiteOf tests)).map TestSuite.name = classes tests := by
        rw [List.map_map]
        exact List.map_id _
      have unchanged : (classes tests).map (suiteOf (tests ++ [test])) =
          (classes tests).map (suiteOf tests) := by
        apply List.map_congr_left
        intro name member
        have different : className test.name ≠ name := by
          rintro rfl
          exact present member
        rw [suiteOf_concat, if_neg different]
      have empty : (suiteOf tests (className test.name)).tests = [] := by
        rw [suiteOf, List.map_eq_nil_iff, List.filter_eq_nil_iff]
        intro other member
        have different : className other.name ≠ className test.name := by
          intro same
          exact present (mem_classes.mpr ⟨other, member, same⟩)
        simpa using different
      rw [addTest_of_notMem (by rw [names]; exact present), if_neg present, List.map_append, unchanged,
        List.map_singleton, suiteOf_concat, if_pos rfl, empty]
      rfl

/-! ## The files of a run -/

variable {opens path}

/-- A later suite is written to the same file. -/
def Overwritten (path : Str) (tests : List Added) (name : Str) : Prop :=
  ∃ before opener after, tests = before ++ opener :: after ∧
    (∃ test ∈ before, className test.name = name) ∧
    (∀ test ∈ before, className test.name ≠ className opener.name) ∧
    reportFile path (className opener.name) = reportFile path name

theorem overwritten_concat {name : Str} : Overwritten path (tests ++ [test]) name ↔
    Overwritten path tests name ∨ (name ∈ classes tests ∧ className test.name ∉ classes tests ∧
      reportFile path (className test.name) = reportFile path name) := by
  constructor
  · rintro ⟨before, opener, after, same, first, fresh, file⟩
    rcases List.eq_nil_or_concat after with rfl | ⟨middle, last, rfl⟩
    · right
      obtain ⟨rfl, one⟩ := List.append_inj' same rfl
      cases one
      refine ⟨mem_classes.mpr first, ?_, file⟩
      intro present
      obtain ⟨other, member, alike⟩ := mem_classes.mp present
      exact fresh other member alike
    · left
      rw [List.concat_eq_append, ← List.cons_append, ← List.append_assoc] at same
      obtain ⟨rfl, -⟩ := List.append_inj' same rfl
      exact ⟨before, opener, middle, rfl, first, fresh, file⟩
  · rintro (⟨before, opener, after, rfl, first, fresh, file⟩ | ⟨first, fresh, file⟩)
    · exact ⟨before, opener, after ++ [test], by simp, first, fresh, file⟩
    · refine ⟨tests, test, [], rfl, mem_classes.mp first, ?_, file⟩
      intro other member same
      exact fresh (mem_classes.mpr ⟨other, member, same⟩)

/-- A suite is the last one for its file unless another one overwrites it. -/
theorem isLast_classes_iff {name : Str} :
    IsLast (reportFile path) (classes tests) name ↔
      name ∈ classes tests ∧ ¬ Overwritten path tests name := by
  induction tests using List.reverseRecOn with
  | nil =>
    refine iff_of_false (fun last => ?_) (fun member => ?_)
    · cases last.mem
    · cases member.1
  | append_singleton tests test ih =>
    rw [classes_concat, overwritten_concat]
    by_cases present : className test.name ∈ classes tests
    · rw [if_pos present, ih]
      simp [present]
    · rw [if_neg present, isLast_concat, ih, List.mem_append, List.mem_singleton]
      have unopened : ¬ Overwritten path tests (className test.name) := by
        rintro ⟨before, opener, after, rfl, ⟨first, member, own⟩, -⟩
        exact present (mem_classes.mpr ⟨first, by simp [member], own⟩)
      constructor
      · rintro (rfl | ⟨⟨member, kept⟩, apart⟩)
        · exact ⟨.inr rfl, by simp [unopened, present]⟩
        · exact ⟨.inl member, by simp [kept, apart]⟩
      · rintro ⟨member | rfl, kept⟩
        · rw [not_or] at kept
          exact .inr ⟨⟨member, kept.1⟩, fun file => kept.2 ⟨member, present, file⟩⟩
        · exact .inl rfl

/-- The files after the suites are written one after the other -/
def filesOf (path : Str) (suites : List TestSuite) : Files :=
  suites.foldl (fun files suite => files.insert (reportFile path suite.name) (toXml suite)) ∅

theorem write_eq_some {suites : List TestSuite} {files : Files} :
    write opens path suites = some files ↔
      (∀ suite ∈ suites, Writable opens path suite) ∧ filesOf path suites = files :=
  foldlM_guard_eq_some

theorem filesOf_latest (suites : List TestSuite) :
    Latest id (fun suite : SuiteElement => reportFile path suite.name) (filesOf path suites)
      (suites.map toXml) := by
  induction suites using List.reverseRecOn with
  | nil => exact Latest.empty
  | append_singleton suites suite ih =>
    rw [filesOf, List.foldl_append, List.map_append]
    exact ih.insert rfl fun other _ same => same

/-- The reports that are there after a run -/
theorem mem_filesOf {suite : SuiteElement} :
    (∃ file, (filesOf path (tests.foldl addTest [])).lookup file = some suite) ↔
      ∃ name ∈ classes tests, ¬ Overwritten path tests name ∧ suite = toXml (suiteOf tests name) := by
  have latest := @filesOf_latest path (tests.foldl addTest [])
  have stored : (∃ file, (filesOf path (tests.foldl addTest [])).lookup file = some suite) ↔
      IsLast (fun suite : SuiteElement => reportFile path suite.name)
        ((tests.foldl addTest []).map toXml) suite :=
    ⟨fun ⟨file, found⟩ => (latest.entry file suite found).2, latest.stored suite⟩
  rw [stored, foldl_addTest, List.map_map, isLast_map]
  constructor
  · rintro ⟨name, rfl, last⟩
    obtain ⟨member, kept⟩ := isLast_classes_iff.mp last
    exact ⟨name, member, kept, rfl⟩
  · rintro ⟨name, member, kept, rfl⟩
    exact ⟨name, rfl, isLast_classes_iff.mpr ⟨member, kept⟩⟩

/-! ## The texts of a report -/

theorem beforeLastDot_subset {name : Str} {c : Char} (member : c ∈ beforeLastDot name) : c ∈ name := by
  rw [beforeLastDot] at member
  split at member
  · exact (List.rdropWhile_prefix _ _).subset (List.dropLast_subset _ member)
  · exact List.dropLast_subset _ member

theorem className_subset {name : Str} {c : Char} (member : c ∈ className name) : c ∈ name := by
  rw [className] at member
  split at member
  · exact member
  · exact beforeLastDot_subset member

/-- The name of a test in the reports -/
def Added.fullName (test : Added) : Str := test.name ++ test.params

/-- What is written of a test: its name and parameters, and the error of a failure. -/
def Added.texts (test : Added) : List Str :=
  match test.status with
  | .fail => [test.fullName, test.errorType, test.errorMessage]
  | .pass => [test.fullName]

/-- The texts of a suite are those of its tests; its name is part of theirs. -/
theorem forall_texts_iff {p : Char → Prop} {name : Str} (opened : name ∈ classes tests) :
    (∀ text ∈ (toXml (suiteOf tests name)).texts, ∀ c ∈ text, p c) ↔
      ∀ test ∈ tests, className test.name = name → ∀ text ∈ test.texts, ∀ c ∈ text, p c := by
  have ofCase : ∀ test : Added, (CaseElement.texts
      { name := (testCase test).name ++ (testCase test).params
        errors := (testCase test).error.toList }) = test.texts := by
    intro test
    rw [CaseElement.texts, testCase, Added.texts]
    cases test.status with
    | pass => rfl
    | fail => rfl
  have whole : (toXml (suiteOf tests name)).texts =
      name :: (tests.filter fun test => className test.name = name).flatMap Added.texts := by
    rw [SuiteElement.texts, toXml, suiteOf, List.map_map, List.flatMap_map]
    congr 1
    apply List.flatMap_congr
    intro test member
    exact ofCase test
  rw [whole, List.forall_mem_cons]
  have tail : (∀ text ∈ (tests.filter fun test => className test.name = name).flatMap Added.texts,
      ∀ c ∈ text, p c) ↔ ∀ test ∈ tests, className test.name = name →
        ∀ text ∈ test.texts, ∀ c ∈ text, p c := by
    constructor
    · intro all test member own text inTest
      exact all text (List.mem_flatMap.mpr ⟨test, by simp [member, own], inTest⟩)
    · intro all text inside
      obtain ⟨test, member, inTest⟩ := List.mem_flatMap.mp inside
      obtain ⟨member, own⟩ := List.mem_filter.mp member
      exact all test member (by simpa using own) text inTest
  rw [tail, and_iff_right_iff_imp]
  intro all c inName
  obtain ⟨test, member, own⟩ := mem_classes.mp opened
  have first : test.fullName ∈ test.texts := by
    rw [Added.texts]
    cases test.status with
    | pass => simp
    | fail => simp
  apply all test member own _ first
  rw [← own] at inName
  exact List.mem_append_left _ (className_subset inName)

theorem writable_iff : (∀ suite ∈ tests.foldl addTest [], Writable opens path suite) ↔
    (∀ test ∈ tests, opens (reportFile path (className test.name))) ∧
      ∀ test ∈ tests, ∀ text ∈ test.texts, AsciiChars text := by
  rw [foldl_addTest, List.forall_mem_map]
  constructor
  · intro writable
    have ofTest : ∀ test ∈ tests, Writable opens path (suiteOf tests (className test.name)) :=
      fun test member => writable _ (mem_classes.mpr ⟨test, member, rfl⟩)
    refine ⟨fun test member => (ofTest test member).1, fun test member => ?_⟩
    have opened : className test.name ∈ classes tests := mem_classes.mpr ⟨test, member, rfl⟩
    exact (forall_texts_iff opened).mp (ofTest test member).2 test member rfl
  · rintro ⟨opened, ascii⟩ name member
    obtain ⟨test, inside, rfl⟩ := mem_classes.mp member
    refine ⟨opened test inside, (forall_texts_iff member).mpr ?_⟩
    exact fun other inside _ => ascii other inside

end Taf.Runner.Report
