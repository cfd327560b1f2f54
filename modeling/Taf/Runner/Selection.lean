import Mathlib
import Taf.Runner.PrintedParams
import Taf.Runner.XUnit

/-! # The loop over the tests

`main` of `testrunner.py`: the tests of the requested groups run one after the other, each on a
dictionary of its own that the runner shares with it.  What a test does is not known: it may leave
any dictionary behind, and it may change the lists among the parameters of the run in place, since
`dict.update` copies them by reference.  After each test the reports of all of them are written. -/

namespace Taf.Runner

open Taf.Lib
open Taf.Runner.Report (Added Files TestSuite Writable addTest write write_eq_some writable_iff)

variable {F ω : Type}

/-! ## Which lines are selected -/

def group : Str := str "GROUP"
def excludeGroup : Str := str "EXCLUDE_GROUP"

/-- `value.split(";")`; only a string has `split`. -/
def groupsOf : Value F → Option (List Str)
  | .text content => some (content.splitOn ';')
  | _ => none

/-- The check of `GROUP`; `none` stands for an `AttributeError`. -/
def groupAllows (runtime : Params F) (own : AList fun _ : Str => Str) : Option Bool :=
  match runtime.lookup group with
  | none => some true
  | some value => do
    let requested ← groupsOf value
    if str "ALL" ∈ requested then some true
    else
      match own.lookup group with
      | none => some false
      | some content =>
        let tcGroups := content.splitOn ';'
        some (requested.all (· ∈ tcGroups))

/-- The check of `EXCLUDE_GROUP` -/
def excludeAllows (runtime : Params F) (own : AList fun _ : Str => Str) : Option Bool :=
  match runtime.lookup excludeGroup, own.lookup group with
  | some value, some content => do
    let excluded ← groupsOf value
    some (excluded.all (· ∉ content.splitOn ';'))
  | _, _ => some true

/-- Whether the loop gets to the log directory of a line -/
def allows (runtime : Params F) (own : AList fun _ : Str => Str) : Option Bool :=
  match groupAllows runtime own with
  | some true => excludeAllows runtime own
  | other => other

/-! ## One test -/

/-- What `loadTestsFromName` does; the two exceptions that are caught come with `str` of the list of
    their message. -/
inductive Loaded where
  | suite
  | attributeError (errors : Str)
  | syntaxError (errors : Str)
  /-- any other exception -/
  | raises
  deriving DecidableEq

/-- What a run of a suite leaves: the shared dictionary, the contents of the lists of the run's
    parameters, whether there are failures or errors, and `str` of the list of the first ones. -/
structure Ran (F ω : Type) where
  world : ω
  params : Params F
  lists : Str → List Str → List Str
  failed : Bool
  errors : Str

/-- The tests of a repository, and the files around them; `ω` is everything else that they share. -/
structure Tests (F ω : Type) where
  /-- The log directory and the logging configuration are made; `none` if that raises. -/
  prepare : ω → Str → Option ω
  load : ω → Str → Loaded × ω
  run : ω → Str → Params F → Ran F ω
  /-- A report file can be opened. -/
  opens : ω → Str → Bool
  written : ω → Files → ω

def logsFolder (root : Str) (caseNumber : Nat) : Str :=
  root ++ str "/test_" ++ caseNumber.repr.toList

/-- `name.split(",")[0]` -/
def testName (line : Str) : Str := (line.splitOn ',').headD []

/-- The dictionary of a test when it starts -/
def startParams (root : Str) (runtime : Params F) (caseNumber : Nat) (line : Str) : Params F :=
  let params := update (Params.ofTexts (argumentPairs line)) runtime
  let params := params.insert (str "case_number") (.int caseNumber)
  let params := params.insert (str "logs_folder") (.text (logsFolder root caseNumber))
  setDefault params (str "rerun") (.bool false)

def touchValue (lists : Str → List Str → List Str) (key : Str) : Value F → Value F
  | .list items => .list (lists key items)
  | value => value

/-- The parameters of the run after a test has changed lists among them -/
def touch (lists : Str → List Str → List Str) (runtime : Params F) : Params F :=
  ⟨runtime.entries.map (.map id (touchValue lists)), runtime.nodupKeys.map₂ _ _⟩

/-- One execution of a line: the dictionary it started with, and how it went. -/
structure Execution (F : Type) where
  line : Str
  start : Params F
  failed : Bool

structure Run (F ω : Type) where
  world : ω
  runtime : Params F
  caseNumber : Nat
  /-- The suites of `xunit` -/
  suites : List TestSuite
  executions : List (Execution F)

inductive Ended where
  | finished
  | stopped
  /-- an exception that nobody catches -/
  | died
  deriving DecidableEq

variable (floats : Floats F) (tests : Tests F ω) (root strTime : Str)

/-- The suite, and once more with trace logs if it fails and `rerun` is set; `false` beside it says
    that `param("rerun")` raises. -/
def runSuite (world : ω) (name : Str) (start : Params F) : Ran F ω × Bool :=
  let first := tests.run world name start
  match param floats first.params (str "rerun") none with
  | none => (first, false)
  | some rerun =>
    if rerun.truthy floats ∧ first.failed then
      let second := tests.run first.world name
        (first.params.insert (str "log_level") (.text (str "debug")))
      ({ second with lists := fun key items => second.lists key (first.lists key items) }, true)
    else (first, true)

def Run.started (run : Run F ω) (line : Str) : Params F :=
  startParams root run.runtime run.caseNumber line

/-- `none` if loading raises.  A test that is not found is an error. -/
def loadAndRun (world : ω) (line : Str) (start : Params F) : Option (Ran F ω × Bool) :=
  let loaded := tests.load world (testName line)
  match loaded.1 with
  | .suite => some (runSuite floats tests loaded.2 (testName line) start)
  | .attributeError errors | .syntaxError errors =>
    some ({ world := loaded.2, params := start, lists := fun _ items => items, failed := true,
            errors := errors }, true)
  | .raises => none

/-- What comes of a line -/
def attempt (run : Run F ω) (line : Str) : Option (Ran F ω × Bool) :=
  (tests.prepare run.world (logsFolder root run.caseNumber)).bind fun world =>
    loadAndRun floats tests world line (run.started root line)

/-- `param("stop-on-failure", False)` -/
def stopOnFailure (params : Params F) : Option (Param F) :=
  param floats params (str "stop-on-failure") (some (.bool false))

/-- A call of `xunit.add_test` -/
def addedTest (line : Str) (failed : Bool) (errors : Str) (texts : List (Str × Str)) : Added where
  name := testName line
  status := if failed then .fail else .pass
  errorType := if failed then str "membase.error" else []
  errorMessage := if failed then errors else []
  params := followed texts

/-- `"%s%sreport-%s"` -/
def reportPath : Str := root ++ str "/report-" ++ strTime

/-- The suites with the test -/
def Ran.suites (ran : Ran F ω) (run : Run F ω) (line : Str) (texts : List (Str × Str)) : List TestSuite :=
  addTest run.suites (addedTest line ran.failed ran.errors texts)

/-- The parameters are printed, and all reports are written; `none` if that raises. -/
def reportTest (run : Run F ω) (line : Str) (ran : Ran F ω) : Option (List TestSuite × ω) := do
  let texts ← printed ran.params
  let suites := ran.suites run line texts
  let files ← write (tests.opens ran.world) (reportPath root strTime) suites
  some (suites, tests.written ran.world files)

def Run.after (run : Run F ω) (line : Str) (ran : Ran F ω) : Run F ω where
  world := ran.world
  runtime := touch ran.lists run.runtime
  caseNumber := run.caseNumber + 1
  suites := run.suites
  executions := run.executions ++
    [{ line := line, start := run.started root line, failed := ran.failed }]

def Run.reported (run : Run F ω) (suites : List TestSuite) (world : ω) : Run F ω :=
  { run with suites := suites, world := world }

/-- How the loop goes on after a test: `break`, the next line, or an exception of `param`. -/
def goesOn (ran : Ran F ω) : Option Bool :=
  if ran.failed then (stopOnFailure floats ran.params).map fun stop => !stop.truthy floats
  else some true

def runTests (run : Run F ω) : List Str → Run F ω × Ended
  | [] => (run, .finished)
  | line :: lines =>
    match allows run.runtime (argumentPairs line) with
    | none => (run, .died)
    | some false => runTests run lines
    | some true =>
      match attempt floats tests root run line with
      | none => (run, .died)
      | some (ran, false) => (run.after root line ran, .died)
      | some (ran, true) =>
        match reportTest tests root strTime run line ran with
        | none => (run.after root line ran, .died)
        | some (suites, world) =>
          let next := (run.after root line ran).reported suites world
          match goesOn floats ran with
          | none => (next, .died)
          | some false => (next, .stopped)
          | some true => runTests next lines

def Run.first (world : ω) (runtime : Params F) : Run F ω where
  world := world
  runtime := runtime
  caseNumber := 1
  suites := []
  executions := []

/-- `main` from the parameters of the run on -/
def main (world : ω) (runtime : Params F) (lines : List Str) : Run F ω × Ended :=
  runTests floats tests root strTime (.first world runtime) lines

/-! ## What the run is meant to be -/

/-- The groups that a parameter of the run names -/
def requestedGroups (runtime : Params F) (name : Str) : Option (List Str) :=
  (runtime.lookup name).bind groupsOf

def lineGroups (line : Str) : List Str :=
  match (argumentPairs line).lookup group with
  | some content => content.splitOn ';'
  | none => []

/-- The groups of the line contain all requested ones, and no excluded one. -/
def Selected (runtime : Params F) (line : Str) : Prop :=
  (∀ requested ∈ requestedGroups runtime group,
    str "ALL" ∈ requested ∨ ∀ name ∈ requested, name ∈ lineGroups line) ∧
  ∀ excluded ∈ requestedGroups runtime excludeGroup, ∀ name ∈ excluded, name ∉ lineGroups line

instance (runtime : Params F) (line : Str) : Decidable (Selected runtime line) :=
  inferInstanceAs (Decidable (_ ∧ _))

/-- The line's parameters overridden by those of the run, and what the runner adds. -/
def expectedStart (runtime : Params F) (line : Str) (caseNumber : Nat) (key : Str) :
    Option (Value F) :=
  if key = str "case_number" then some (.int caseNumber)
  else if key = str "logs_folder" then some (.text (logsFolder root caseNumber))
  else ((runtime.lookup key).or (((argumentPairs line).lookup key).map .text)).or
    (if key = str "rerun" then some (.bool false) else none)

/-- A failure of a test that runs with `stop-on-failure` -/
def Execution.Stops (execution : Execution F) : Prop :=
  execution.failed ∧ ∃ stop, stopOnFailure floats execution.start = some stop ∧ stop.truthy floats

structure RunsSelected (runtime : Params F) (lines : List Str) (executions : List (Execution F)) :
    Prop where
  inOrder : executions.map Execution.line <+: lines.filter (Selected runtime ·)
  all : executions.map Execution.line = lines.filter (Selected runtime ·) ∨
    ∃ execution ∈ executions, execution.Stops floats
  stops : ∀ earlier execution later, executions = earlier ++ execution :: later →
    execution.Stops floats → later = []
  start : ∀ i execution, executions[i]? = some execution → ∀ key,
    execution.start.lookup key = expectedStart root runtime execution.line (i + 1) key

/-- The groups that are asked for are texts. -/
def TextGroups (runtime : Params F) : Prop :=
  ∀ name ∈ [group, excludeGroup], ∀ value, runtime.lookup name = some value →
    ∃ content, value = .text content

/-- The log directory of a line can be made, its test can be loaded, leaves a `rerun` that can be
    read, and changes no list of the run's parameters.  What it leaves can be printed, and the
    reports, which are ASCII, can be opened.  If it fails, `stop-on-failure` is readable and as it
    was. -/
structure KeptBy (run : Run F ω) (line : Str) (ran : Ran F ω) : Prop where
  attempted : attempt floats tests root run line = some (ran, true)
  lists : ∀ key items, run.runtime.lookup key = some (.list items) → ran.lists key items = items
  reported : ∃ texts, printed ran.params = some texts ∧ ∀ suite ∈ ran.suites run line texts,
    Writable (tests.opens ran.world) (reportPath root strTime) suite
  stop : ran.failed → stopOnFailure floats ran.params = stopOnFailure floats (run.started root line) ∧
    stopOnFailure floats ran.params ≠ none

def Kept (run : Run F ω) (line : Str) : Prop := ∃ ran, KeptBy floats tests root strTime run line ran

/-- Every test of the run keeps to it. -/
def AllKept (run : Run F ω) : List Str → Prop
  | [] => True
  | line :: lines =>
    if Selected run.runtime line then
      Kept floats tests root strTime run line ∧
      ∀ ran suites world, attempt floats tests root run line = some (ran, true) →
        reportTest tests root strTime run line ran = some (suites, world) →
        goesOn floats ran = some true →
        AllKept ((run.after root line ran).reported suites world) lines
    else AllKept run lines

/-! ## Selection -/

variable {floats tests root strTime} {runtime : Params F} {line : Str}

theorem requestedGroups_text {name content : Str} (found : runtime.lookup name = some (.text content)) :
    requestedGroups runtime name = some (content.splitOn ';') := by
  rw [requestedGroups, found]
  rfl

theorem groupAllows_iff (texts : TextGroups runtime) :
    groupAllows runtime (argumentPairs line) =
      some (decide (∀ requested ∈ requestedGroups runtime group,
        str "ALL" ∈ requested ∨ ∀ name ∈ requested, name ∈ lineGroups line)) := by
  cases found : runtime.lookup group with
  | none => simp [groupAllows, requestedGroups, found]
  | some value =>
    obtain ⟨content, rfl⟩ := texts group (by simp) value found
    rw [requestedGroups_text found, groupAllows, found]
    simp only [groupsOf, Option.bind_eq_bind, Option.bind_some, Option.mem_some_iff, forall_eq']
    by_cases everything : str "ALL" ∈ content.splitOn ';'
    · simp [everything]
    · rw [if_neg everything, lineGroups]
      cases (argumentPairs line).lookup group with
      | none =>
        have first := List.exists_mem_of_ne_nil _ (List.splitOn_ne_nil ';' content)
        simp [everything]
        tauto
      | some own => simp [everything, List.all_eq]

theorem excludeAllows_iff (texts : TextGroups runtime) :
    excludeAllows runtime (argumentPairs line) =
      some (decide (∀ excluded ∈ requestedGroups runtime excludeGroup,
        ∀ name ∈ excluded, name ∉ lineGroups line)) := by
  cases found : runtime.lookup excludeGroup with
  | none => simp [excludeAllows, requestedGroups, found]
  | some value =>
    obtain ⟨content, rfl⟩ := texts excludeGroup (by simp) value found
    rw [requestedGroups_text found, excludeAllows, found, lineGroups]
    cases (argumentPairs line).lookup group with
    | none => simp
    | some own => simp [groupsOf, List.all_eq]

theorem allows_iff (texts : TextGroups runtime) :
    allows runtime (argumentPairs line) = some (decide (Selected runtime line)) := by
  rw [allows, groupAllows_iff texts]
  split
  · rename_i grouped
    rw [excludeAllows_iff texts]
    simp only [Option.some.injEq, decide_eq_true_eq] at grouped
    congr 1
    rw [decide_eq_decide, Selected]
    exact (and_iff_right grouped).symm
  · rename_i skipped
    congr 1
    rw [decide_eq_decide, Selected]
    simp only [Option.some.injEq, decide_eq_true_eq] at skipped
    tauto

theorem lookup_startParams (caseNumber : Nat) (key : Str) :
    (startParams root runtime caseNumber line).lookup key =
      expectedStart root runtime line caseNumber key := by
  simp only [startParams, lookup_setDefault, expectedStart]
  by_cases folder : key = str "logs_folder"
  · subst folder
    rw [AList.lookup_insert, if_neg (by decide), if_pos rfl]
    rfl
  · rw [AList.lookup_insert_ne folder, if_neg folder]
    by_cases number : key = str "case_number"
    · subst number
      rw [AList.lookup_insert, if_pos rfl]
      rfl
    · rw [AList.lookup_insert_ne number, if_neg number, lookup_update, lookup_ofTexts]

/-! ## The whole run -/

theorem touch_eq_self {lists : Str → List Str → List Str}
    (kept : ∀ key items, runtime.lookup key = some (.list items) → lists key items = items) :
    touch lists runtime = runtime := by
  apply AList.ext
  show runtime.entries.map (Sigma.map id (touchValue lists)) = runtime.entries
  refine Eq.trans (List.map_congr_left ?_) (List.map_id _)
  rintro ⟨key, value⟩ member
  have found : runtime.lookup key = some value := AList.mem_lookup_iff.mpr member
  cases value with
  | list items => simp [Sigma.map, touchValue, kept key items found]
  | text content => rfl
  | int number => rfl
  | bool truth => rfl
  | other parsed => rfl

/-- Where the run stands after some of the lines -/
structure Standing (floats : Floats F) (root : Str) (runtime : Params F) (done : List Str)
    (run : Run F ω) : Prop where
  unchanged : run.runtime = runtime
  number : run.caseNumber = run.executions.length + 1
  lines : run.executions.map Execution.line = done.filter (Selected runtime ·)
  running : ∀ execution ∈ run.executions, ¬ execution.Stops floats
  start : ∀ i execution, run.executions[i]? = some execution → ∀ key,
    execution.start.lookup key = expectedStart root runtime execution.line (i + 1) key

variable {run : Run F ω} {done lines : List Str}

theorem start_append {executions : List (Execution F)} {execution : Execution F}
    (start : ∀ i other, executions[i]? = some other → ∀ key,
      other.start.lookup key = expectedStart root runtime other.line (i + 1) key)
    (last : ∀ key, execution.start.lookup key =
      expectedStart root runtime execution.line (executions.length + 1) key) :
    ∀ i other, (executions ++ [execution])[i]? = some other → ∀ key,
      other.start.lookup key = expectedStart root runtime other.line (i + 1) key := by
  intro i other found
  rcases Nat.lt_trichotomy i executions.length with less | same | more
  · rw [List.getElem?_append_left less] at found
    exact start i other found
  · subst same
    rw [List.getElem?_concat_length] at found
    cases found
    exact last
  · rw [List.getElem?_eq_none (by simp; omega)] at found
    cases found

theorem stops_after {earlier : List (Execution F)} {execution : Execution F}
    (running : ∀ other ∈ earlier, ¬ other.Stops floats) :
    ∀ front other later, earlier ++ [execution] = front ++ other :: later → other.Stops floats →
      later = [] := by
  intro front other later same stops
  rcases List.eq_nil_or_concat later with rfl | ⟨middle, last, rfl⟩
  · rfl
  · have split : earlier = front ++ other :: middle := by
      have shape : earlier ++ [execution] = (front ++ other :: middle) ++ [last] := by simpa using same
      exact List.append_inj_left' shape rfl
    exact absurd stops (running other (by simp [split]))

theorem Standing.done_runs (standing : Standing floats root runtime lines run) :
    RunsSelected floats root runtime lines run.executions where
  inOrder := standing.lines ▸ List.prefix_rfl
  all := .inl standing.lines
  stops := by
    intro earlier execution later same stops
    exact absurd stops (standing.running execution (by simp [same]))
  start := standing.start

/-- The execution that a step adds -/
def Run.execution (root : Str) (run : Run F ω) (line : Str) (ran : Ran F ω) : Execution F where
  line := line
  start := run.started root line
  failed := ran.failed

theorem Standing.start_after (standing : Standing floats root runtime done run) (ran : Ran F ω) :
    ∀ i execution, (run.after root line ran).executions[i]? = some execution → ∀ key,
      execution.start.lookup key = expectedStart root runtime execution.line (i + 1) key := by
  apply start_append standing.start
  intro key
  show (startParams root run.runtime run.caseNumber line).lookup key = _
  rw [lookup_startParams, standing.unchanged, standing.number]

theorem Standing.lines_after (standing : Standing floats root runtime done run) (ran : Ran F ω)
    (selected : Selected runtime line) :
    (run.after root line ran).executions.map Execution.line =
      (done ++ [line]).filter (Selected runtime ·) := by
  show (run.executions ++ [_]).map Execution.line = _
  rw [List.map_append, standing.lines, List.filter_append, List.filter_cons_of_pos (by simpa using selected)]
  rfl

theorem Standing.next (standing : Standing floats root runtime done run) {ran : Ran F ω}
    {suites : List TestSuite} {world : ω} (selected : Selected runtime line)
    (kept : ∀ key items, run.runtime.lookup key = some (.list items) → ran.lists key items = items)
    (running : ¬ (run.execution root line ran).Stops floats) :
    Standing floats root runtime (done ++ [line]) ((run.after root line ran).reported suites world) where
  unchanged := by
    show touch ran.lists run.runtime = runtime
    rw [touch_eq_self kept, standing.unchanged]
  number := by
    show run.caseNumber + 1 = (run.executions ++ [_]).length + 1
    rw [standing.number, List.length_append]
    rfl
  lines := standing.lines_after ran selected
  running := by
    intro execution member
    rcases List.mem_append.mp member with member | member
    · exact standing.running execution member
    · rw [List.mem_singleton.mp member]
      exact running
  start := standing.start_after ran

theorem Standing.skip (standing : Standing floats root runtime done run)
    (skipped : ¬ Selected runtime line) : Standing floats root runtime (done ++ [line]) run where
  unchanged := standing.unchanged
  number := standing.number
  lines := by
    rw [standing.lines, List.filter_append, List.filter_cons_of_neg (by simpa using skipped)]
    simp
  running := standing.running
  start := standing.start

theorem Standing.stopped (standing : Standing floats root runtime done run) (ran : Ran F ω)
    (selected : Selected runtime line) (stops : (run.execution root line ran).Stops floats) :
    RunsSelected floats root runtime (done ++ line :: lines) (run.after root line ran).executions where
  inOrder := by
    rw [standing.lines_after ran selected]
    have shape : done ++ line :: lines = (done ++ [line]) ++ lines := by simp
    rw [shape, @List.filter_append _ _ (done ++ [line])]
    exact List.prefix_append _ _
  all := .inr ⟨_, List.mem_append_right _ List.mem_cons_self, stops⟩
  stops := stops_after standing.running
  start := standing.start_after ran

/-- `break` is reached exactly when the test has failed under `stop-on-failure`. -/
theorem goesOn_of_kept {ran : Ran F ω}
    (kept : ran.failed → stopOnFailure floats ran.params = stopOnFailure floats (run.started root line) ∧
      stopOnFailure floats ran.params ≠ none) :
    ∃ on, goesOn floats ran = some on ∧ (on = false ↔ (run.execution root line ran).Stops floats) := by
  cases failed : ran.failed with
  | false =>
    refine ⟨true, by simp [goesOn, failed], ?_⟩
    simp [Execution.Stops, Run.execution, failed]
  | true =>
    obtain ⟨same, readable⟩ := kept failed
    obtain ⟨stop, found⟩ := Option.ne_none_iff_exists'.mp readable
    refine ⟨!stop.truthy floats, by simp [goesOn, failed, found], ?_⟩
    rw [Execution.Stops]
    show _ ↔ ran.failed = true ∧ ∃ stop, stopOnFailure floats (run.started root line) = some stop ∧ _
    rw [← same, found, failed]
    simp

/-- The report of a test is written if its parameters can be printed and the files be opened. -/
theorem reportTest_eq_some {ran : Ran F ω} {suites : List TestSuite} {world : ω} :
    reportTest tests root strTime run line ran = some (suites, world) ↔
      ∃ texts files, printed ran.params = some texts ∧
        write (tests.opens ran.world) (reportPath root strTime) (ran.suites run line texts) = some files ∧
        suites = ran.suites run line texts ∧ world = tests.written ran.world files := by
  simp only [reportTest, Option.bind_eq_bind, Option.bind_eq_some_iff, Option.some.injEq, Prod.mk.injEq]
  constructor
  · rintro ⟨texts, shown, files, written, rfl, rfl⟩
    exact ⟨texts, files, shown, written, rfl, rfl⟩
  · rintro ⟨texts, files, shown, written, rfl, rfl⟩
    exact ⟨texts, shown, files, written, rfl, rfl⟩

theorem KeptBy.reports {ran : Ran F ω} (step : KeptBy floats tests root strTime run line ran) :
    ∃ suites world, reportTest tests root strTime run line ran = some (suites, world) := by
  obtain ⟨texts, shown, writable⟩ := step.reported
  exact ⟨_, _, reportTest_eq_some.mpr ⟨texts, _, shown, write_eq_some.mpr ⟨writable, rfl⟩, rfl, rfl⟩⟩

theorem runTests_runsSelected (texts : TextGroups runtime)
    (standing : Standing floats root runtime done run)
    (kept : AllKept floats tests root strTime run lines) :
    RunsSelected floats root runtime (done ++ lines)
      (runTests floats tests root strTime run lines).1.executions := by
  induction lines generalizing run done with
  | nil =>
    rw [List.append_nil]
    exact standing.done_runs
  | cons line lines ih =>
    have next : done ++ line :: lines = (done ++ [line]) ++ lines := by simp
    rw [runTests, standing.unchanged, allows_iff texts]
    rw [AllKept, standing.unchanged] at kept
    by_cases selected : Selected runtime line
    · rw [if_pos selected] at kept
      obtain ⟨⟨ran, step⟩, later⟩ := kept
      obtain ⟨on, goes, stops⟩ := goesOn_of_kept step.stop
      obtain ⟨suites, world, reported⟩ := step.reports
      simp only [selected, decide_true, step.attempted, reported, goes]
      cases on with
      | false => exact standing.stopped ran selected (stops.mp rfl)
      | true =>
        rw [next]
        apply ih (standing.next selected step.lists fun stopped => Bool.noConfusion (stops.mpr stopped))
        exact later ran suites world step.attempted reported goes
    · rw [if_neg selected] at kept
      simp only [selected, decide_false]
      rw [next]
      exact ih (standing.skip selected) kept

theorem main_runsSelected (floats : Floats F) (tests : Tests F ω) (root strTime : Str) (world : ω)
    {runtime : Params F} (texts : TextGroups runtime) {lines : List Str}
    (kept : AllKept floats tests root strTime (.first world runtime) lines) :
    RunsSelected floats root runtime lines
      (main floats tests root strTime world runtime lines).1.executions := by
  have standing : Standing floats root runtime [] (.first world runtime : Run F ω) :=
    ⟨rfl, rfl, rfl, by simp [Run.first], by simp [Run.first]⟩
  exact runTests_runsSelected texts standing kept

/-- No text is a float. -/
def noFloats : Floats Unit where
  read _ := none
  truthy _ := false

/-- Tests that pass and leave one entry in the dictionary; `nosuch` is not a module. -/
def passingTests : Tests Unit Unit where
  prepare world _ := some world
  load _ name := if name = str "nosuch.T.t" then (.raises, ()) else (.suite, ())
  run _ _ _ :=
    { world := (), params := (∅ : Params Unit).insert (str "rerun") (.bool false),
      lists := fun _ items => items, failed := false, errors := [] }
  opens _ _ := true
  written world _ := world

theorem selected_of_no_groups (line : Str) : Selected (∅ : Params Unit) line := by
  simp [Selected, requestedGroups]

theorem textGroups_empty : TextGroups (∅ : Params Unit) := by
  intro name _ value found
  simp at found

theorem attempt_eq (run : Run Unit Unit) (line : Str) : attempt noFloats passingTests [] run line =
    loadAndRun noFloats passingTests run.world line (run.started [] line) := rfl

/-- A test that is loaded passes and leaves one entry, which is not printed. -/
theorem attempt_passingTests (run : Run Unit Unit) {line : Str} (other : testName line ≠ str "nosuch.T.t") :
    attempt noFloats passingTests [] run line = some (passingTests.run () [] ∅, true) := by
  have loaded : passingTests.load run.world (testName line) = (.suite, ()) := if_neg other
  rw [attempt_eq, loadAndRun, loaded]
  rfl

/-- The reports of passing tests have nothing but their names. -/
theorem kept_passingTests (run : Run Unit Unit) {line : Str} (other : testName line ≠ str "nosuch.T.t")
    (before : List Added) (suites : run.suites = before.foldl addTest [])
    (ascii : ∀ test ∈ before ++ [addedTest line false [] []], ∀ text ∈ test.texts, AsciiChars text) :
    Kept noFloats passingTests [] [] run line := by
  refine ⟨_, attempt_passingTests run other, fun _ _ _ => rfl, ⟨[], rfl, ?_⟩, fun failed => Bool.noConfusion failed⟩
  rw [Ran.suites, suites]
  have whole : addTest (before.foldl addTest []) (addedTest line false [] []) =
      (before ++ [addedTest line false [] []]).foldl addTest [] := by rw [List.foldl_concat]
  show ∀ suite ∈ addTest (before.foldl addTest []) (addedTest line false [] []), _
  rw [whole]
  exact writable_iff.mpr ⟨fun _ _ => rfl, ascii⟩

theorem main_runsSelected_two : RunsSelected noFloats [] ∅ [str "a.B.c", str "a.B.d"]
    (main noFloats passingTests [] [] () ∅ [str "a.B.c", str "a.B.d"]).1.executions := by
  apply main_runsSelected noFloats passingTests [] [] () textGroups_empty
  have ascii : ∀ test ∈ [addedTest (str "a.B.c") false [] [], addedTest (str "a.B.d") false [] []],
      ∀ text ∈ test.texts, AsciiChars text := by
    have first : testName ['a', '.', 'B', '.', 'c'] = ['a', '.', 'B', '.', 'c'] := by decide
    have second : testName ['a', '.', 'B', '.', 'd'] = ['a', '.', 'B', '.', 'd'] := by decide
    simp [addedTest, Added.texts, Added.fullName, followed, AsciiChars, str, first, second]
  rw [AllKept, Run.first, if_pos (selected_of_no_groups _)]
  refine ⟨kept_passingTests _ (by decide +kernel) [] rfl ?_, ?_⟩
  · exact fun test member => ascii test (List.mem_cons.mpr (.inl (List.mem_singleton.mp member)))
  intro ran suites world attempted reported _
  rw [attempt_passingTests _ (by decide +kernel), Option.some.injEq, Prod.mk.injEq] at attempted
  obtain ⟨rfl, -⟩ := attempted
  obtain ⟨texts, files, shown, -, rfl, -⟩ := reportTest_eq_some.mp reported
  obtain rfl : [] = texts := Option.some.inj shown
  have unchanged : touch (passingTests.run () [] ∅).lists (∅ : Params Unit) = ∅ := rfl
  rw [AllKept, Run.reported, Run.after]
  simp only [unchanged]
  rw [if_pos (selected_of_no_groups _)]
  exact ⟨kept_passingTests _ (by decide +kernel) [addedTest (str "a.B.c") false [] []] rfl ascii,
    fun _ _ _ _ _ _ => trivial⟩

theorem main_dies_at_import : ¬ RunsSelected noFloats [] ∅ [str "nosuch.T.t", str "a.B.c"]
    (main noFloats passingTests [] [] () ∅ [str "nosuch.T.t", str "a.B.c"]).1.executions := by
  intro selected
  have none : (main noFloats passingTests [] [] () ∅
      [str "nosuch.T.t", str "a.B.c"]).1.executions = [] := by
    have loaded : passingTests.load () (testName (str "nosuch.T.t")) = (.raises, ()) := by decide +kernel
    rw [main, runTests, Run.first, allows_iff textGroups_empty]
    simp only [selected_of_no_groups, decide_true, attempt_eq, loadAndRun, loaded]
  rcases selected.all with all | ⟨execution, member, -⟩
  · rw [none] at all
    simp [selected_of_no_groups] at all
  · rw [none] at member
    cases member

end Taf.Runner
