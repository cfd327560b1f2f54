import Taf.Lib.Removals
import Taf.Runner.JunitReports

/-! # Tests that are left out

`process_include_or_filter_exclude_tests` of `testrunner.py`, with the options `-d` and `-e` and the
result files behind them.  A test is looked for by its characters, `-p` behind it, and the first test
with these characters is removed for every line; which characters they are is all that is compared. -/

namespace Taf.Runner.Exclude

open Taf.Lib Taf.Runner.Report

/-! ## `check_if_exists` -/

def checkIfExists (testList : List Str) (testLine : Str) : Bool × Str :=
  match testList.find? fun t => sortedChars t = sortedChars testLine with
  | some t => (true, t)
  | none => (false, [])

/-- `t + "," + test_params.strip()` if there is a `-p`, even a blank one -/
def joined (testParams t : Str) : Str :=
  if testParams = [] then t else t ++ ',' :: strip testParams

def checkIfExistsWithParams (testList : List Str) (testLine testParams : Str) : Bool × Str :=
  match testList.find? fun t => sortedChars (joined testParams t) = sortedChars testLine with
  | some t => (true, t)
  | none => (false, [])

/-! ## Result files -/

/-- What `open`, `glob`, `re` and Jenkins answer -/
structure Sources where
  glob : Glob
  files : Str → Files
  -- The names and the statuses of a test report, or `None` if it is not accessible; it may raise.
  testReport : Str → Option (Option (List (Str × Str)))
  locateConfFile : Str → Option (List Str)
  search : Str → Str → Option Bool

namespace Sources

variable (sources : Sources)

def isUrl (text : Str) : Bool :=
  (str "http://").isPrefixOf text || (str "https://").isPrefixOf text

/-- `parse_testreport_result_xml` of an address -/
def parseTestreportResultXml (url : Str) : Option (Option Lists) :=
  (sources.testReport url).map fun found => found.map fun cases =>
    { passed := transformAndWriteToFile ((cases.filter fun case => case.2 = str "PASSED").map Prod.fst)
      failed := transformAndWriteToFile ((cases.filter fun case => case.2 ≠ str "PASSED").map Prod.fst) }

/-- `parse_junit_result_xml` -/
def parseJunitResult (filepath : Str) : Option (Option Lists) :=
  if isUrl filepath then sources.parseTestreportResultXml filepath
  else
    let pattern := if filepath = [] then str "logs/**/*.xml" else filepath
    (parseJunitResultXml sources.glob (sources.files pattern)).map some

def isResult (option : Str) : Bool :=
  (str "failed").isPrefixOf option || (str "passed").isPrefixOf option || isUrl option

/-- The list that is asked for, `others` if it is empty -/
def chosen (option : Str) (lists : Lists) (others : List Str) : List Str :=
  if (str "failed").isPrefixOf option ∧ lists.failed ≠ [] then lists.failed
  else if (str "passed").isPrefixOf option ∧ lists.passed ≠ [] then lists.passed
  else others

/-- `tests_list`; the inner `none` is a report that could not be read. -/
def testsList (option : Str) : Option (Option (List Str)) :=
  match option.splitOn '=' with
  | [_, place] =>
    (if isUrl place then sources.parseTestreportResultXml place
      else sources.parseJunitResult place).map fun found =>
        found.map fun lists => chosen option lists []
  | _ =>
    if isUrl option then do
      -- `tp + tf` raises without a report.
      let lists ← (sources.parseTestreportResultXml option).join
      some (some (chosen option lists (lists.passed ++ lists.failed)))
    else (sources.parseJunitResult []).map fun found => found.map fun lists => chosen option lists []

end Sources

/-! ## `process_include_or_filter_exclude_tests` -/

/-- The loop over the lines; `tests.remove(t)` takes the first test that is equal to `t`. -/
def excludeLines (params : Str) (tests lines : List Str) : List Str :=
  lines.foldl (fun tests line =>
    match checkIfExistsWithParams tests line params with
    | (true, t) => tests.erase t
    | (false, _) => tests) tests

def isFile (option : Str) : Bool := (str "file=").isPrefixOf option

/-- `option.split("=")[1]` -/
def fileName (option : Str) : Str := ((option.splitOn '=').tail).headD []

/-- `none` if it raises -/
def processIncludeOrFilterExcludeTests (sources : Sources) (filtertype option : Str)
    (tests : List Str) (params : Str) : Option (List Str) :=
  if filtertype = str "include" ∨ filtertype = str "exclude" then
    if Sources.isResult option then do
      match ← sources.testsList option with
      | none => some tests
      | some lines => some (if filtertype = str "include" then lines else excludeLines params tests lines)
    else if isFile option then
      match sources.locateConfFile (fileName option) with
      | none => if filtertype = str "include" then some [] else none
      | some file =>
        let lines := file.map strip
        some (if filtertype = str "include" then lines else excludeLines params tests lines)
    else tests.filterM fun test => do
      let found ← sources.search option test
      some (if filtertype = str "include" then found else !found)
  else some tests

/-- The lines to exclude, where the option names some -/
def linesOf (sources : Sources) (option : Str) : Option (List Str) :=
  if Sources.isResult option then (sources.testsList option).join
  else if isFile option then (sources.locateConfFile (fileName option)).map fun file => file.map strip
  else none

/-! ## What is to be left out -/

/-- A test with the parameters of `-p`; a blank `-p` has none. -/
def withParams (params t : Str) : Str :=
  if strip params = [] then t else t ++ ',' :: strip params

/-- A line has the same test name and the same parameters. -/
def Named (params : Str) (lines : List Str) (t : Str) : Prop :=
  ∃ line ∈ lines, canon (withParams params t) = canon line

instance (params : Str) (lines : List Str) : DecidablePred (Named params lines) :=
  fun t => inferInstanceAs (Decidable (∃ line ∈ lines, canon (withParams params t) = canon line))

structure ExcludesNamed (sources : Sources) (option : Str) (tests : List Str) (params : Str)
    (lines : List Str) (line : Str) : Prop where
  left : processIncludeOrFilterExcludeTests sources (str "exclude") option tests params =
    some (tests.filter fun t => ¬ Named params lines t)
  found : (checkIfExists tests line).1 = true ↔ ∃ t ∈ tests, canon t = canon line
  foundWithParams : (checkIfExistsWithParams tests line params).1 = true ↔
    ∃ t ∈ tests, canon (withParams params t) = canon line

/-- Of the tests with the same characters the named ones come first, as many as there are lines with
    these characters, and a line with the characters of a test is equal to one. -/
structure Distinct (tests : List Str) (params : Str) (lines : List Str) (line : Str) : Prop where
  first : NamedFirst (fun t => sortedChars (joined params t)) (Named params lines)
    (lines.map sortedChars : List Str) tests
  bare : ∀ t ∈ tests, t.Perm line → ∃ other ∈ tests, canon other = canon line
  followed : ∀ t ∈ tests, (joined params t).Perm line →
    ∃ other ∈ tests, canon (withParams params other) = canon line
  blank : params ≠ [] → strip params = [] → ∀ t ∈ tests, canon t = canon line →
    ∃ other ∈ tests, (joined params other).Perm line

/-! ## Characters and parameters -/

variable {params line t : Str} {tests lines : List Str}

theorem sortedChars_eq_iff {first second : Str} : sortedChars first = sortedChars second ↔ first.Perm second :=
  mergeSort_eq_mergeSort_iff

/-- `transform_and_write_to_file` asks with `check_if_exists`. -/
theorem keepNew_sortedChars (tests : List Str) (line : Str) :
    keepNew sortedChars tests line = if (checkIfExists tests line).1 then tests else tests ++ [line] := by
  have asked : (tests.any fun t => sortedChars t = sortedChars line) = (checkIfExists tests line).1 := by
    rw [checkIfExists, ← List.isSome_find?]
    cases tests.find? fun t => sortedChars t = sortedChars line <;> rfl
  rw [keepNew, asked]

theorem checkIfExistsWithParams_iff :
    (checkIfExistsWithParams tests line params).1 = true ↔ ∃ t ∈ tests, (joined params t).Perm line := by
  rw [checkIfExistsWithParams]
  cases found : tests.find? fun t => sortedChars (joined params t) = sortedChars line with
  | none =>
    have absent := List.find?_eq_none.mp found
    simp only [decide_eq_true_eq, sortedChars_eq_iff] at absent
    simpa using absent
  | some t =>
    have same := List.find?_some found
    simp only [decide_eq_true_eq, sortedChars_eq_iff] at same
    exact iff_of_true rfl ⟨t, List.mem_of_find?_eq_some found, same⟩

theorem checkIfExists_iff : (checkIfExists tests line).1 = true ↔ ∃ t ∈ tests, t.Perm line :=
  @checkIfExistsWithParams_iff [] line tests

/-- What is joined is what is meant, a blank `-p` apart. -/
theorem joined_eq_withParams (meant : params = [] ∨ strip params ≠ []) (t : Str) :
    joined params t = withParams params t := by
  rw [joined, withParams]
  rcases meant with rfl | filled
  · rfl
  · have given : params ≠ [] := by
      rintro rfl
      exact filled rfl
    rw [if_neg given, if_neg filled]

/-! ## The loop -/

theorem erase_find {α : Type*} [BEq α] [LawfulBEq α] {p : α → Bool} {items : List α} {item : α}
    (found : items.find? p = some item) : items.erase item = items.eraseP p := by
  induction items with
  | nil => cases found
  | cons first items ih =>
    cases holds : p first with
    | true =>
      rw [List.find?_cons_of_pos holds] at found
      cases found
      rw [List.erase_cons_head, List.eraseP_cons_of_pos holds]
    | false =>
      rw [List.find?_cons_of_neg (by simp [holds])] at found
      have other : first ≠ item := by
        rintro rfl
        rw [List.find?_some found] at holds
        cases holds
      rw [List.erase_cons_tail (by simpa using other), List.eraseP_cons_of_neg (by simp [holds]), ih found]

theorem excludeLines_eq (params : Str) (tests lines : List Str) : excludeLines params tests lines =
    removeFirsts (fun t => sortedChars (joined params t)) (lines.map sortedChars) tests := by
  -- `remove` takes the first test that is equal to the one that was found, and that is this test.
  rw [excludeLines, removeFirsts, List.foldl_map]
  congr 1
  funext tests line
  rw [checkIfExistsWithParams]
  cases found : tests.find? fun t => sortedChars (joined params t) = sortedChars line with
  | none =>
    have absent := List.find?_eq_none.mp found
    exact (List.eraseP_of_forall_not absent).symm
  | some t =>
    show tests.erase t = _
    exact erase_find found

theorem exclude_eq {sources : Sources} {option : Str} (requested : linesOf sources option = some lines)
    (tests : List Str) (params : Str) :
    processIncludeOrFilterExcludeTests sources (str "exclude") option tests params =
      some (excludeLines params tests lines) := by
  have excludes : str "exclude" ≠ str "include" := by decide
  rw [linesOf] at requested
  rw [processIncludeOrFilterExcludeTests, if_pos (.inr rfl)]
  split at requested
  · rename_i result
    have read := Option.join_eq_some_iff.mp requested
    rw [if_pos result, read]
    simp [excludes]
  · rename_i noResult
    split at requested
    · rename_i file
      obtain ⟨content, located, rfl⟩ := Option.map_eq_some_iff.mp requested
      rw [if_neg noResult, if_pos file, located]
      simp only [if_neg excludes]
    · cases requested

/-- The tests that are named are removed, and found, exactly if the characters tell them apart. -/
theorem excludesNamed_iff (sources : Sources) {option : Str} {lines : List Str}
    (requested : linesOf sources option = some lines) (tests : List Str) (params line : Str) :
    ExcludesNamed sources option tests params lines line ↔ Distinct tests params lines line := by
  have left : processIncludeOrFilterExcludeTests sources (str "exclude") option tests params =
      some (tests.filter fun t => ¬ Named params lines t) ↔
        NamedFirst (fun t => sortedChars (joined params t)) (Named params lines)
          (lines.map sortedChars : List Str) tests := by
    rw [exclude_eq requested, excludeLines_eq, Option.some.injEq, removeFirsts_eq_filter_iff]
  constructor
  · intro excludes
    refine ⟨left.mp excludes.left, ?_, ?_, ?_⟩
    · intro t member same
      exact excludes.found.mp (checkIfExists_iff.mpr ⟨t, member, same⟩)
    · intro t member same
      exact excludes.foundWithParams.mp (checkIfExistsWithParams_iff.mpr ⟨t, member, same⟩)
    · intro given blank t member same
      have meant : canon (withParams params t) = canon line := by
        rw [withParams, if_pos blank, same]
      exact checkIfExistsWithParams_iff.mp (excludes.foundWithParams.mpr ⟨t, member, meant⟩)
  · intro distinct
    refine ⟨left.mpr distinct.first, ?_, ?_⟩
    · rw [checkIfExists_iff]
      constructor
      · intro found
        obtain ⟨t, member, same⟩ := found
        exact distinct.bare t member same
      · intro found
        obtain ⟨t, member, same⟩ := found
        exact ⟨t, member, perm_of_canon_eq same⟩
    · rw [checkIfExistsWithParams_iff]
      constructor
      · intro found
        obtain ⟨t, member, same⟩ := found
        exact distinct.followed t member same
      · intro found
        obtain ⟨t, member, same⟩ := found
        by_cases meant : params = [] ∨ strip params ≠ []
        · exact ⟨t, member, by rw [joined_eq_withParams meant]; exact perm_of_canon_eq same⟩
        · -- A comma is put behind the test for a `-p` that has only blanks.
          obtain ⟨given, blank⟩ := not_or.mp meant
          rw [not_ne_iff] at blank
          rw [withParams, if_pos blank] at same
          exact distinct.blank given blank t member same

/-! ## Tests with the same characters -/

/-- One file with one line -/
def oneLine (line : Str) : Sources where
  glob := ⟨fun keys => keys, fun keys => List.Perm.refl keys⟩
  files _ := ∅
  testReport _ := none
  locateConfFile _ := some [line]
  search _ _ := none

/-- The test with the other values stands first and is removed in the place of the named one. -/
theorem swapped_test_is_left_out :
    ¬ ExcludesNamed (oneLine (str "a.B.c,x=2,y=1")) (str "file=e")
      [str "a.B.c,x=1,y=2", str "a.B.c,x=2,y=1"] [] [str "a.B.c,x=2,y=1"] (str "a.B.c,x=2,y=1") := by
  intro excludes
  have requested : linesOf (oneLine (str "a.B.c,x=2,y=1")) (str "file=e") =
      some [str "a.B.c,x=2,y=1"] := rfl
  have sameChars : (str "a.B.c,x=1,y=2").Perm (str "a.B.c,x=2,y=1") := by decide
  have holds : sortedChars (joined [] (str "a.B.c,x=1,y=2")) = sortedChars (str "a.B.c,x=2,y=1") :=
    sortedChars_eq_iff.mpr sameChars
  have first : checkIfExistsWithParams [str "a.B.c,x=1,y=2", str "a.B.c,x=2,y=1"] (str "a.B.c,x=2,y=1") [] =
      (true, str "a.B.c,x=1,y=2") := by
    simp only [checkIfExistsWithParams, List.find?_cons, holds, decide_true]
  have left := excludes.left
  rw [exclude_eq requested, excludeLines, List.foldl_cons, first, Option.some.injEq] at left
  have stays : str "a.B.c,x=2,y=1" ∈ [str "a.B.c,x=2,y=1"] := List.mem_singleton.mpr rfl
  simp only [List.erase_cons_head, List.foldl_nil] at left
  rw [left] at stays
  have named : Named [] [str "a.B.c,x=2,y=1"] (str "a.B.c,x=2,y=1") := ⟨_, List.mem_singleton.mpr rfl, rfl⟩
  simpa [named] using (List.mem_filter.mp stays).2

/-- Of two tests the first one is named, with its parameters in the other order. -/
theorem excludesNamed_first_of_two :
    ExcludesNamed (oneLine (str "a.B.c,y=2,x=1")) (str "file=e") [str "a.B.c,x=1,y=2", str "a.B.d,x=1"] []
      [str "a.B.c,y=2,x=1"] (str "a.B.c,y=2,x=1") := by
  have same : canon (str "a.B.c,x=1,y=2") = canon (str "a.B.c,y=2,x=1") := by decide
  have sorted : sortedChars (str "a.B.c,y=2,x=1") = sortedChars (str "a.B.c,x=1,y=2") :=
    sortedChars_eq_iff.mpr (perm_of_canon_eq same.symm)
  have apart : sortedChars (str "a.B.d,x=1") ≠ sortedChars (str "a.B.c,x=1,y=2") :=
    fun equal => absurd (sortedChars_eq_iff.mp equal).length_eq (by decide)
  have first : Named [] [str "a.B.c,y=2,x=1"] (str "a.B.c,x=1,y=2") := ⟨_, List.mem_singleton.mpr rfl, same⟩
  have second : ¬ Named [] [str "a.B.c,y=2,x=1"] (str "a.B.d,x=1") := by decide
  have own : ∀ t, joined [] t = t := fun _ => rfl
  have only : ∀ t ∈ [str "a.B.c,x=1,y=2", str "a.B.d,x=1"], t.Perm (str "a.B.c,y=2,x=1") →
      t = str "a.B.c,x=1,y=2" := by decide
  refine (excludesNamed_iff (oneLine (str "a.B.c,y=2,x=1")) rfl _ [] _).mpr ⟨?_, ?_, ?_, ?_⟩
  · intro class'
    by_cases here : sortedChars (str "a.B.c,x=1,y=2") = class'
    · subst here
      simp [own, apart, sorted, first]
    · by_cases there : sortedChars (str "a.B.d,x=1") = class'
      · subst there
        simp [own, here, apart, sorted, second]
      · simp [own, here, there]
  · intro t member equal
    cases only t member equal
    exact ⟨_, member, same⟩
  · intro t member equal
    cases only t member equal
    exact ⟨_, member, same⟩
  · intro given
    exact absurd rfl given

end Taf.Runner.Exclude
