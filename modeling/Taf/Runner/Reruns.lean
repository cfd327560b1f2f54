import Taf.Runner.JunitReports
import Taf.Runner.ParamPlaces

/-! # Running failed tests again

A test is reported under its name with its parameters behind it, and `-d failed=<report>` runs the
names of the failed tests as lines of a conf file.  Between the two dictionaries lie `str`, the
commas between the parameters, the attribute of an XML element, `filter_fields`, the search for
lines that are there already, and the split at the keys. -/

namespace Taf.Runner.Rerun

open Taf.Lib Taf.Runner.Report

variable {F : Type}

/-- A test that has been run: its line, its parameters at the end, and the error. -/
structure Outcome (F : Type) where
  line : Str
  params : Params F
  failed : Bool
  errors : Str

/-- `xunit.add_test` in `main`; `none` if a parameter cannot be printed. -/
def Outcome.added (outcome : Outcome F) : Option Added :=
  (printed outcome.params).map (addedTest outcome.line outcome.failed outcome.errors)

/-! ## The fields of a reported name -/

variable {pairs : List (Str × Str)} {pair : Str × Str} {name : Str}

theorem splitOn_followed (comma : ',' ∉ name) : (name ++ followed pairs).splitOn ',' =
    name :: pairs.flatMap fun pair => (assignment pair).splitOn ',' := by
  -- The induction is over the pairs at the end.
  induction pairs using List.reverseRecOn with
  | nil =>
    rw [followed, List.flatMap_nil, List.append_nil, List.splitOn_eq_singleton comma]
    rfl
  | append_singleton pairs last ih =>
    have behind : name ++ followed (pairs ++ [last]) = (name ++ followed pairs) ++ ',' :: assignment last := by
      simp [followed]
    rw [behind, List.splitOn_append_cons_self, ih]
    simp

/-- A field is at the start of its line, or behind a comma. -/
theorem mem_splitOn_cases {text field : Str} (member : field ∈ text.splitOn ',') :
    (∃ rest, text = field ++ rest) ∨ ∃ front rest, text = front ++ ',' :: (field ++ rest) := by
  have whole := @List.intercalate_splitOn _ text _ _ ','
  rw [splitOn_eq_cons text] at member whole
  rw [intercalate_cons_eq] at whole
  cases List.mem_cons.mp member with
  | inl first =>
    rw [first]
    exact .inl ⟨_, whole.symm⟩
  | inr later =>
    obtain ⟨before, after, split⟩ := List.append_of_mem later
    rw [split, List.flatMap_append, List.flatMap_cons, ← List.append_assoc] at whole
    exact .inr ⟨_, _, whole.symm⟩

theorem droppedNames_isKey : ∀ dropped ∈ droppedNames, IsKey dropped := by
  simp [droppedNames, IsKey, str, keyChar]

theorem filtered_equalsWords {field : Str} : filtered (equalsWords droppedNames) field = true ↔
    ∃ dropped ∈ droppedNames, ∃ rest, field = dropped ++ '=' :: rest := by
  simp only [filtered, equalsWords, List.any_map, List.any_eq_true, Function.comp_apply,
    decide_eq_true_eq, List.isPrefixOf_iff_prefix]
  apply exists_congr
  intro dropped
  apply and_congr_right
  intro member
  constructor
  · intro behind
    obtain ⟨_, rest, same⟩ := behind
    exact ⟨rest, by rw [← same, List.append_assoc]; rfl⟩
  · intro assigned
    obtain ⟨rest, same⟩ := assigned
    exact ⟨by simp, rest, by rw [same, List.append_assoc]; rfl⟩

/-- The key in front of an assignment -/
theorem key_unique {key key' text text' : Str} (isKey : IsKey key) (isKey' : IsKey key')
    (same : key ++ '=' :: text = key' ++ '=' :: text') : key = key' := by
  have first := congrArg (List.takeWhile keyChar) same
  rw [List.takeWhile_append_of_pos isKey.2, List.takeWhile_append_of_pos isKey'.2] at first
  simpa [keyChar] using first

/-- No field of a parameter that is kept is taken for one of the names that are dropped. -/
theorem field_kept (isKey : IsKey pair.1) (inert : Inert pair.2) (kept : pair.1 ∉ droppedNames)
    {field : Str} (member : field ∈ (assignment pair).splitOn ',') :
    filtered (equalsWords droppedNames) field = false := by
  rw [← Bool.not_eq_true, filtered_equalsWords]
  intro ⟨dropped, isDropped, rest, same⟩
  have isWord := droppedNames_isKey dropped isDropped
  rw [same] at member
  cases mem_splitOn_cases member with
  | inl first =>
    obtain ⟨behind, whole⟩ := first
    rw [assignment, List.append_assoc, List.cons_append] at whole
    rw [key_unique isKey isWord whole] at kept
    exact kept isDropped
  | inr later =>
    obtain ⟨front, behind, whole⟩ := later
    have comma : ',' ∉ pair.1 := fun inKey => absurd (isKey.2 ',' inKey) (by decide)
    -- The comma stands in the value, so a key would begin there.
    rw [assignment] at whole
    cases List.append_eq_append_iff.mp whole with
    | inl inValue =>
      obtain ⟨middle, _, shifted⟩ := inValue
      cases middle with
      | nil => cases shifted
      | cons equals middle =>
        have value : pair.2 = middle ++ ',' :: (dropped ++ '=' :: (rest ++ behind)) := by
          have tails := (List.cons.inj shifted).2
          rw [tails]
          simp
        rw [value] at inert
        have missing := (inert_cons_iff.mp inert.suffix).1
        rw [(matchKey_key isWord).2] at missing
        cases missing
    | inr inKey =>
      obtain ⟨middle, isFront, shifted⟩ := inKey
      cases middle with
      | nil => cases shifted
      | cons c middle =>
        have first := (List.cons.inj shifted).1
        rw [isFront, ← first] at comma
        exact comma (by simp)

theorem field_dropped (dropped : pair.1 ∈ droppedNames) (comma : ',' ∉ pair.2) :
    ∀ field ∈ (assignment pair).splitOn ',', filtered (equalsWords droppedNames) field = true := by
  rw [List.splitOn_eq_singleton (comma_notMem_assignment (droppedNames_isKey _ dropped) comma)]
  intro field member
  rw [List.mem_singleton.mp member]
  exact filtered_equalsWords.mpr ⟨pair.1, dropped, pair.2, rfl⟩

/-- A name and parameters that `filter_fields` takes apart where they were put together -/
structure Printable (name : Str) (pairs : List (Str × Str)) : Prop where
  comma : ',' ∉ name
  name : Inert name
  kept : ∀ pair ∈ pairs, pair.1 ∉ droppedNames → IsKey pair.1 ∧ Inert pair.2
  dropped : ∀ pair ∈ pairs, pair.1 ∈ droppedNames → ',' ∉ pair.2

/-- The parameters that are kept -/
def keptPairs (pairs : List (Str × Str)) : List (Str × Str) :=
  pairs.filter fun pair => pair.1 ∉ droppedNames

theorem equalsLine_followed (printable : Printable name pairs) :
    equalsLine (equalsWords droppedNames) (name ++ followed pairs) =
      name ++ followed (keptPairs pairs) := by
  have nameKept : filtered (equalsWords droppedNames) name = false := by
    rw [← Bool.not_eq_true, filtered_equalsWords]
    intro ⟨dropped, isDropped, rest, same⟩
    have inert := printable.name
    have found := (@matchKey_key dropped rest (droppedNames_isKey dropped isDropped)).1
    rw [same, Inert, splitKeys_of_match found] at inert
    exact absurd (congrArg Prod.snd inert) (List.cons_ne_nil _ _)
  have fields : ∀ pairs, (∀ pair ∈ pairs, pair.1 ∉ droppedNames → IsKey pair.1 ∧ Inert pair.2) →
      (∀ pair ∈ pairs, pair.1 ∈ droppedNames → ',' ∉ pair.2) →
      (((pairs.flatMap fun pair => (assignment pair).splitOn ',').filter fun field =>
        !filtered (equalsWords droppedNames) field).flatMap fun field => ',' :: field) =
          followed (keptPairs pairs) := by
    intro pairs
    induction pairs with
    | nil => simp [followed, keptPairs]
    | cons pair pairs ih =>
      intro kept dropped
      have rest := ih (fun other member => kept other (List.mem_cons_of_mem pair member))
        (fun other member => dropped other (List.mem_cons_of_mem pair member))
      rw [List.flatMap_cons, List.filter_append, List.flatMap_append, rest]
      by_cases isDropped : pair.1 ∈ droppedNames
      · have gone := field_dropped isDropped (dropped pair List.mem_cons_self isDropped)
        rw [List.filter_eq_nil_iff.mpr (by simpa using gone)]
        simp [keptPairs, isDropped]
      · obtain ⟨isKey, inert⟩ := kept pair List.mem_cons_self isDropped
        have stays : ∀ field ∈ (assignment pair).splitOn ',',
            (!filtered (equalsWords droppedNames) field) = true := by
          intro field member
          rw [field_kept isKey inert isDropped member]
          rfl
        have whole := @List.intercalate_splitOn _ (assignment pair) _ _ ','
        rw [splitOn_eq_cons (assignment pair), intercalate_cons_eq] at whole
        rw [List.filter_eq_self.mpr stays, splitOn_eq_cons (assignment pair), List.flatMap_cons,
          List.cons_append, whole]
        simp [keptPairs, isDropped, followed]
  rw [equalsLine, splitOn_followed printable.comma, List.filter_cons_of_pos (by simp [nameKept]),
    intercalate_cons_eq, fields pairs printable.kept printable.dropped]

/-! ## The line that is run again -/

theorem rstripCommas_eq_self {text : Str} (ending : text.getLast? ≠ some ',') :
    rstripCommas text = text := by
  rw [rstripCommas, List.rdropWhile_eq_self_iff]
  intro nonempty comma
  rw [List.getLast?_eq_some_getLast nonempty] at ending
  exact ending (congrArg some (by simpa using comma))

/-- The last parameter that is kept does not end with a comma. -/
def EndsClosed (pairs : List (Str × Str)) : Prop :=
  ∀ pair ∈ pairs.getLast?, pair.2.getLast? ≠ some ','

theorem getLast?_followed (comma : ',' ∉ name) (closed : EndsClosed pairs) :
    (name ++ followed pairs).getLast? ≠ some ',' := by
  intro last
  cases pairs using List.reverseRecOn with
  | nil =>
    rw [followed, List.flatMap_nil, List.append_nil] at last
    exact comma (List.mem_of_getLast? last)
  | append_singleton pairs pair _ =>
    have shape : name ++ followed (pairs ++ [pair]) =
        (name ++ followed pairs ++ ',' :: pair.1) ++ '=' :: pair.2 := by
      simp [followed, assignment]
    have open' := closed pair (by simp)
    rw [shape, List.getLast?_append_of_ne_nil _ (List.cons_ne_nil _ _)] at last
    cases value : pair.2 with
    | nil =>
      rw [value] at last
      cases last
    | cons c cs =>
      rw [value, List.getLast?_cons_cons] at last
      rw [value] at open'
      exact open' last

theorem lineOf_followed (printable : Printable name pairs)
    (colons : ¬ HasColons (name ++ followed pairs)) (closed : EndsClosed (keptPairs pairs)) :
    lineOf (name ++ followed pairs) = name ++ followed (keptPairs pairs) := by
  rw [lineOf, filterFields, if_neg colons, equalsLine_followed printable]
  exact rstripCommas_eq_self (getLast?_followed printable.comma closed)

theorem testName_followed (comma : ',' ∉ name) : testName (name ++ followed pairs) = name := by
  rw [testName, splitOn_followed comma]
  rfl

theorem Printable.separable (printable : Printable name pairs) : Separable (keptPairs pairs) := by
  intro pair member
  obtain ⟨member, kept⟩ := List.mem_filter.mp member
  exact printable.kept pair member (by simpa using kept)

theorem argumentPairs_followed (printable : Printable name pairs) :
    argumentPairs (name ++ followed (keptPairs pairs)) =
      assignAll ((keptPairs pairs).map fun pair => (strip pair.1, strip pair.2)) ∅ := by
  rw [argumentPairs, splitKeys_name_followed printable.name printable.separable]

variable {params : Params F} {key text : Str} {value : Value F}

/-- The keys of the parameters have no blanks around them. -/
def Stripped (pairs : List (Str × Str)) : Prop :=
  ∀ pair ∈ keptPairs pairs, strip pair.1 = pair.1

theorem keys_kept (stripped : Stripped pairs) (nodup : (pairs.map Prod.fst).Nodup) :
    (((keptPairs pairs).map fun pair => (strip pair.1, strip pair.2)).map Prod.fst).Nodup := by
  have keys : ((keptPairs pairs).map fun pair => (strip pair.1, strip pair.2)).map Prod.fst =
      (keptPairs pairs).map Prod.fst := by
    rw [List.map_map]
    exact List.map_congr_left stripped
  rw [keys]
  exact (List.Sublist.map _ List.filter_sublist).nodup nodup

/-- A parameter that is printed is read again, without the blanks around its text. -/
theorem lookup_printed (shown : printed params = some pairs) (printable : Printable name pairs)
    (stripped : Stripped pairs) (kept : key ∉ droppedNames) (member : (key, text) ∈ pairs) :
    (argumentPairs (name ++ followed (keptPairs pairs))).lookup key = some (strip text) := by
  have inKept : (key, text) ∈ keptPairs pairs := List.mem_filter.mpr ⟨member, by simpa using kept⟩
  have read : (key, strip text) ∈ (keptPairs pairs).map fun pair => (strip pair.1, strip pair.2) :=
    List.mem_map.mpr ⟨_, inKept, by rw [stripped _ inKept]⟩
  rw [argumentPairs_followed printable]
  exact lookup_assignAll_of_mem (keys_kept stripped (keys_printed shown)) read

/-- One that is not printed is not there. -/
theorem lookup_not_printed (printable : Printable name pairs) (stripped : Stripped pairs)
    (lost : ∀ text, (key, text) ∉ pairs) :
    (argumentPairs (name ++ followed (keptPairs pairs))).lookup key = none := by
  rw [argumentPairs_followed printable]
  apply lookup_assignAll_of_notMem
  intro member
  rw [List.map_map] at member
  obtain ⟨pair, inside, same⟩ := List.mem_map.mp member
  have own : pair.1 = key := (stripped pair inside).symm.trans same
  exact lost pair.2 (own ▸ (List.mem_filter.mp inside).1)

/-! ## Running it again -/

variable (floats : Floats F) (env : Env)

/-- The parameters of a run with the same ini file, and without a conf file and `-p` -/
def rerunParams (env : Env) : Params F := runtimeParams env (iniParams env) []

/-- What a test makes of its parameter: `none` if it is missing, `some none` if that raises. -/
def parsed (params : Params F) (key : Str) : Option (Option (Param F)) :=
  (params.lookup key).map (parseParam floats)

/-- The line is run, it has the name of the test, and its parameters are those of the test. -/
structure Reproduces (line : Str) (outcome : Outcome F) : Prop where
  name : testName line = testName outcome.line
  runs : allows (rerunParams env : Params F) (argumentPairs line) = some true
  params : ∀ caseNumber, ∀ key ∉ droppedNames,
    parsed floats (startParams env.root (rerunParams env) caseNumber line) key =
      parsed floats outcome.params key

/-- The reports of a run can be read, and every test that has failed is run again. -/
def FailedRunAgain (opens : Str → Bool) (path : Str) (glob : Glob) (outcomes : List (Outcome F)) :
    Prop :=
  ∃ tests lists, outcomes.mapM Outcome.added = some tests ∧ report opens path glob tests = some lists ∧
    ∀ outcome ∈ outcomes, outcome.failed → ∃ line ∈ lists.failed, Reproduces floats env line outcome

/-- The line for a test in the list of failed tests, as it comes out of an XML attribute -/
def runLine (test : Added) : Str := lineOf (attributeText test.fullName)

/-- The number of clients, which the runner sets -/
def SetsClients (key : Str) : Prop := env.clients ≠ 0 ∧ key = str "num_clients"

instance (key : Str) : Decidable (SetsClients env key) := inferInstanceAs (Decidable (_ ∧ _))

/-- The line has the name of the test, and its texts are read as the test's parameters are. -/
structure Restores (line : Str) (outcome : Outcome F) : Prop where
  name : testName line = testName outcome.line
  clients : env.clients ≠ 0 →
    parsed floats outcome.params (str "num_clients") = some (some (.int env.clients))
  assigned : ∀ key ∉ droppedNames, ¬ SetsClients env key → ∀ text,
    (argumentPairs line).lookup key = some text →
      parsed floats outcome.params key = some (some (parseText floats text))
  -- The runner sets `rerun` to false, which is read as 0.
  missing : ∀ key ∉ droppedNames, ¬ SetsClients env key → (argumentPairs line).lookup key = none →
    parsed floats outcome.params key = if key = str "rerun" then some (some (.int 0)) else none

/-- The reports can be written and read.  For each test that has failed the line of such a test, whose
    report is not overwritten, is the first with its characters in the order of reading, and
    restores it. -/
structure Reproducible (opens : Str → Bool) (path : Str) (glob : Glob) (tests : List Added)
    (outcomes : List (Outcome F)) : Prop where
  opened : ∀ test ∈ tests, opens (reportFile path (className test.name))
  ascii : ∀ test ∈ tests, ∀ text ∈ test.texts, AsciiChars text
  wellFormed : ∀ test ∈ tests, ¬ Overwritten path tests (className test.name) →
    ∀ text ∈ test.texts, ∀ c ∈ text, xmlChar c
  restored : ∀ outcome ∈ outcomes, outcome.failed → ∃ test,
    IsFirst (sortedChars ∘ runLine) (failedInOrder path glob tests) test ∧
      Restores floats env (runLine test) outcome

variable {floats env} {outcome other : Outcome F}

theorem ne_of_kept (kept : key ∉ droppedNames) : ∀ dropped ∈ droppedNames, key ≠ dropped :=
  fun _ member => (ne_of_mem_of_not_mem member kept).symm

theorem lookup_rerunParams (kept : key ∉ droppedNames) :
    (rerunParams env : Params F).lookup key =
      if SetsClients env key then some (.int env.clients) else none := by
  have other := ne_of_kept kept
  have nodes : key ≠ str "num_nodes" := other _ (by simp [droppedNames])
  have ini : key ≠ str "ini" := other _ (by simp [droppedNames])
  have cluster : key ≠ str "cluster_name" := other _ (by simp [droppedNames])
  show _ = if env.clients ≠ 0 ∧ key = str "num_clients" then some (Value.int env.clients) else none
  rw [rerunParams, lookup_runtimeParams, optionParams_nil, iniParams,
    lookup_assignAll_of_notMem (by simp [ini, cluster]), counted]
  simp [nodes]

theorem allows_rerunParams (own : AList fun _ : Str => Str) :
    allows (rerunParams env : Params F) own = some true := by
  have none : ∀ name ∈ [group, excludeGroup], (rerunParams env : Params F).lookup name = none := by
    intro name member
    have kept : name ∉ droppedNames := by
      fin_cases member <;> decide
    have other : name ≠ str "num_clients" := by
      fin_cases member <;> decide
    rw [lookup_rerunParams kept, if_neg fun both => other both.2]
  rw [allows, groupAllows, none group (by simp), excludeAllows, none excludeGroup (by simp)]

/-- The start of the line of a rerun, in the parameters that are compared -/
theorem lookup_rerun {line : Str} {caseNumber : ℕ} (kept : key ∉ droppedNames) :
    (startParams env.root (rerunParams env : Params F) caseNumber line).lookup key =
      if SetsClients env key then some (.int env.clients)
      else (((argumentPairs line).lookup key).map .text).or
        (if key = str "rerun" then some (.bool false) else none) := by
  have other := ne_of_kept kept
  have number : key ≠ str "case_number" := other _ (by simp [droppedNames])
  have folder : key ≠ str "logs_folder" := other _ (by simp [droppedNames])
  rw [lookup_startParams, expectedStart, if_neg number, if_neg folder, lookup_rerunParams kept]
  by_cases clients : SetsClients env key
  · rw [if_pos clients, if_pos clients]
    rfl
  · rw [if_neg clients, if_neg clients]
    rfl

theorem setsClients_of_clients (clients : env.clients ≠ 0) : SetsClients env (str "num_clients") :=
  ⟨clients, rfl⟩

/-- A line that is run again does what it is meant to do exactly if its texts are those of the test. -/
theorem reproduces_iff {line : Str} : Reproduces floats env line outcome ↔ Restores floats env line outcome := by
  constructor
  · intro reproduces
    have start : ∀ key ∉ droppedNames, parsed floats outcome.params key =
        (if SetsClients env key then some (.int env.clients)
          else (((argumentPairs line).lookup key).map .text).or
            (if key = str "rerun" then some (.bool false) else none)).map (parseParam floats) := by
      intro key kept
      rw [← reproduces.params 1 key kept, parsed, lookup_rerun kept]
    refine ⟨reproduces.name, ?_, ?_, ?_⟩
    · intro clients
      rw [start _ (by decide), if_pos (setsClients_of_clients clients)]
      rfl
    · intro key kept own text assigned
      rw [start key kept, if_neg own, assigned]
      rfl
    · intro key kept own missing
      rw [start key kept, if_neg own, missing]
      split <;> rfl
  · intro restores
    refine ⟨restores.name, allows_rerunParams _, ?_⟩
    intro caseNumber key kept
    rw [parsed, lookup_rerun kept]
    by_cases clients : SetsClients env key
    · rw [if_pos clients, clients.2, restores.clients clients.1]
      rfl
    · rw [if_neg clients]
      cases assigned : (argumentPairs line).lookup key with
      | some text =>
        rw [restores.assigned key kept clients text assigned]
        rfl
      | none =>
        rw [restores.missing key kept clients assigned]
        split <;> rfl

variable {opens : Str → Bool} {path : Str} {glob : Glob} {outcomes : List (Outcome F)} {tests : List Added}

/-- The lines that are run again are the first ones with their characters. -/
theorem mem_failed_iff {suites : List SuiteElement} (read : parseAll path glob tests = some suites) {line : Str} :
    line ∈ transformAndWriteToFile (suites.flatMap (readNames · .fail)) ↔
      ∃ test, line = runLine test ∧ IsFirst (sortedChars ∘ runLine) (failedInOrder path glob tests) test := by
  rw [namesRead_fail read, transformAndWriteToFile, List.map_map, mem_keepNew_foldl_iff]
  exact isFirst_map

def onlyFailure (value : Str) : Outcome Unit where
  line := str "a.B.c,x=" ++ value
  params := startParams plainEnv.root (runnerParams plainEnv) 1 (str "a.B.c,x=" ++ value)
  failed := true
  errors := str "[]"

theorem argumentPairs_single {value : Str} (plain : '=' ∉ value) (solid : strip value = value) :
    argumentPairs (str "a.B.c,x=" ++ value) = AList.singleton ['x'] value := by
  have line : str "a.B.c,x=" ++ value = str "a.B.c" ++ followed [(['x'], value)] := by
    simp [followed, assignment, str]
  have isKey : IsKey ['x'] := by simp [IsKey, keyChar]
  have separable : Separable [(['x'], value)] := by
    intro pair member
    rw [List.mem_singleton.mp member]
    exact ⟨isKey, inert_of_plain plain⟩
  rw [line, argumentPairs, splitKeys_name_followed (inert_of_plain (by decide)) separable]
  simp only [List.map_cons, List.map_nil, solid]
  rfl

theorem params_onlyFailure {value : Str} (plain : '=' ∉ value) (solid : strip value = value) :
    (onlyFailure value).params =
      setDefault (((update (Params.ofTexts (AList.singleton ['x'] value))
        (closeConf plainEnv (iniParams plainEnv))).insert (str "case_number") (.int 1)).insert
          (str "logs_folder") (.text (logsFolder plainEnv.root 1))) (str "rerun") (.bool false) := by
  have runner : (runnerParams plainEnv : Params Unit) = closeConf plainEnv (iniParams plainEnv) := by
    rw [runnerParams, runtimeParams, getTestInput, optionParams_nil]
    rfl
  rw [onlyFailure, startParams, runner, argumentPairs_single plain solid]
  rfl

/-- The value is printed, and what is read of its text is what is read of it. -/
structure ReadFromText (floats : Floats F) (key : Str) (value : Value F) (text : Str) : Prop where
  isKey : IsKey key
  stripped : strip key = key
  truthy : value.truthy = some true
  shown : valueText value = some text
  inert : Inert text
  same : parseParam floats value = some (parseText floats (strip text))

/-- The parameters of a test come through the report. -/
structure Plain (floats : Floats F) (env : Env) (outcome : Outcome F) (pairs : List (Str × Str)) : Prop where
  shown : printed outcome.params = some pairs
  name : Inert (testName outcome.line)
  colons : ¬ HasColons (testName outcome.line ++ followed pairs)
  unbroken : Unbroken (testName outcome.line ++ followed (keptPairs pairs))
  read : ∀ key ∉ droppedNames, ∀ value, outcome.params.lookup key = some value →
    (∃ text, ReadFromText floats key value text) ∨ (key = str "rerun" ∧ value = .bool false)
  dropped : ∀ pair ∈ pairs, pair.1 ∈ droppedNames → ',' ∉ pair.2
  closed : EndsClosed (keptPairs pairs)
  -- What the runner sets by itself
  rerun : str "rerun" ∈ outcome.params
  clients : env.clients ≠ 0 →
    parsed floats outcome.params (str "num_clients") = some (some (.int env.clients))

theorem comma_notMem_testName (line : Str) : ',' ∉ testName line := by
  rw [testName, splitOn_eq_cons]
  exact notMem_of_mem_splitOn (by rw [splitOn_eq_cons line]; exact List.mem_cons_self)

theorem Plain.printable (plain : Plain floats env outcome pairs) :
    Printable (testName outcome.line) pairs where
  comma := comma_notMem_testName _
  name := plain.name
  kept := by
    intro pair member kept
    obtain ⟨value, found, _, holds, written⟩ := (mem_printed plain.shown).mp member
    rcases plain.read pair.1 kept value found with ⟨text, read⟩ | ⟨_, rfl⟩
    · cases written.symm.trans read.shown
      exact ⟨read.isKey, read.inert⟩
    · cases holds
  dropped := plain.dropped

theorem Plain.stripped (plain : Plain floats env outcome pairs) : Stripped pairs := by
  intro pair member
  obtain ⟨member, kept⟩ := List.mem_filter.mp member
  obtain ⟨value, found, _, holds, _⟩ := (mem_printed plain.shown).mp member
  rcases plain.read pair.1 (by simpa using kept) value found with ⟨text, read⟩ | ⟨_, rfl⟩
  · exact read.stripped
  · cases holds

/-- The line that is run is the name with the parameters that are kept. -/
theorem Plain.runLine_eq (plain : Plain floats env outcome pairs) :
    runLine (addedTest outcome.line outcome.failed outcome.errors pairs) =
      testName outcome.line ++ followed (keptPairs pairs) := by
  have line : lineOf (testName outcome.line ++ followed pairs) =
      testName outcome.line ++ followed (keptPairs pairs) :=
    lineOf_followed plain.printable plain.colons plain.closed
  have unbroken := plain.unbroken
  rw [← line] at unbroken ⊢
  exact lineOf_attributeText unbroken

theorem Plain.restores (plain : Plain floats env outcome pairs) :
    Restores floats env (runLine (addedTest outcome.line outcome.failed outcome.errors pairs)) outcome := by
  have found : ∀ {key text}, key ∉ droppedNames → (key, text) ∈ pairs →
      (argumentPairs (testName outcome.line ++ followed (keptPairs pairs))).lookup key = some (strip text) :=
    fun kept member => lookup_printed plain.shown plain.printable plain.stripped kept member
  have lost : ∀ {key}, (∀ text, (key, text) ∉ pairs) →
      (argumentPairs (testName outcome.line ++ followed (keptPairs pairs))).lookup key = none :=
    fun absent => lookup_not_printed plain.printable plain.stripped absent
  rw [plain.runLine_eq]
  refine ⟨testName_followed plain.printable.comma, plain.clients, ?_, ?_⟩
  · intro key kept _ text assigned
    by_cases shown : ∃ text, (key, text) ∈ pairs
    · obtain ⟨text', member⟩ := shown
      obtain rfl : strip text' = text := Option.some.inj ((found kept member).symm.trans assigned)
      obtain ⟨value, own, _, holds, written⟩ := (mem_printed plain.shown).mp member
      rcases plain.read key kept value own with ⟨text, read⟩ | ⟨_, rfl⟩
      · cases written.symm.trans read.shown
        rw [parsed, own, Option.map_some, read.same]
      · cases holds
    · cases (lost fun text member => shown ⟨text, member⟩).symm.trans assigned
  · intro key kept _ missing
    cases own : outcome.params.lookup key with
    | none =>
      have other : key ≠ str "rerun" := by
        intro same
        have present := AList.lookup_isSome.mpr plain.rerun
        rw [← same, own] at present
        cases present
      rw [parsed, own, if_neg other]
      rfl
    | some value =>
      rcases plain.read key kept value own with ⟨text, read⟩ | ⟨same, rfl⟩
      · have member : (key, text) ∈ pairs :=
          (mem_printed plain.shown).mpr ⟨value, own, read.isKey.1, read.truthy, read.shown⟩
        cases (found kept member).symm.trans missing
      · rw [parsed, own, if_pos same]
        rfl

theorem Restores.of_same {line : Str} (restores : Restores floats env line other)
    (name : testName outcome.line = testName other.line)
    (params : ∀ key ∉ droppedNames, parsed floats outcome.params key = parsed floats other.params key) :
    Restores floats env line outcome where
  name := restores.name.trans name.symm
  clients clients := (params _ (by decide)).trans (restores.clients clients)
  assigned key kept own text assigned := (params key kept).trans (restores.assigned key kept own text assigned)
  missing key kept own missing := (params key kept).trans (restores.missing key kept own missing)

theorem status_addedTest {line errors : Str} {failed : Bool} :
    (addedTest line failed errors pairs).status = .fail ↔ failed := by
  cases failed with
  | true => exact iff_of_true rfl rfl
  | false => exact iff_of_false (by simp [addedTest]) (by simp)

/-- Plain tests that have failed are restored if their reports are there, and those with the same characters in
    their lines have the same parameters. -/
theorem restored_of_plain (recorded : outcomes.mapM Outcome.added = some tests)
    (kept : ∀ outcome ∈ outcomes, outcome.failed →
      ¬ Overwritten path tests (className (testName outcome.line)))
    (plain : ∀ outcome ∈ outcomes, outcome.failed → ∃ pairs, Plain floats env outcome pairs)
    (apart : ∀ outcome ∈ outcomes, ∀ other ∈ outcomes, ∀ pairs others, outcome.failed → other.failed →
      Plain floats env outcome pairs → Plain floats env other others →
      (testName outcome.line ++ followed (keptPairs pairs)).Perm
        (testName other.line ++ followed (keptPairs others)) →
      testName outcome.line = testName other.line ∧
        ∀ key ∉ droppedNames, parsed floats outcome.params key = parsed floats other.params key) :
    ∀ outcome ∈ outcomes, outcome.failed → ∃ test,
      IsFirst (sortedChars ∘ runLine) (failedInOrder path glob tests) test ∧
        Restores floats env (runLine test) outcome := by
  intro outcome member hasFailed
  obtain ⟨pairs, ownPlain⟩ := plain outcome member hasFailed
  have added : outcome.added = some (addedTest outcome.line outcome.failed outcome.errors pairs) := by
    rw [Outcome.added, ownPlain.shown]
    rfl
  have inOrder : addedTest outcome.line outcome.failed outcome.errors pairs ∈
      failedInOrder path glob tests :=
    mem_failedInOrder.mpr ⟨(mem_of_mapM recorded).mpr ⟨outcome, member, added⟩, status_addedTest.mpr hasFailed,
      kept outcome member hasFailed⟩
  -- The first line with the same characters may be that of another test.
  obtain ⟨test, first, characters⟩ := exists_isFirst (f := sortedChars ∘ runLine) inOrder
  obtain ⟨inTests, failed, _⟩ := mem_failedInOrder.mp first.mem
  obtain ⟨other, isOther, otherAdded⟩ := (mem_of_mapM recorded).mp inTests
  obtain ⟨others, shown, rfl⟩ := Option.map_eq_some_iff.mp otherAdded
  have otherFailed := status_addedTest.mp failed
  obtain ⟨pairs', otherPlain⟩ := plain other isOther otherFailed
  obtain rfl : pairs' = others := Option.some.inj (otherPlain.shown.symm.trans shown)
  rw [Function.comp_apply, Function.comp_apply, otherPlain.runLine_eq, ownPlain.runLine_eq] at characters
  obtain ⟨name, params⟩ := apart outcome member other isOther pairs pairs' hasFailed otherFailed ownPlain
    otherPlain (mergeSort_eq_mergeSort_iff.mp characters).symm
  exact ⟨_, first, otherPlain.restores.of_same name params⟩

end Taf.Runner.Rerun
