import Mathlib
import Taf.Runner.Selection

/-! # Conf files

`parse_conf_file` and `append_test` of `testrunner.py`, and the parameters of a run as `parse_args`
and the first lines of `main` put them together.  A file is the list of its lines. -/

namespace Taf.Runner

open Taf.Lib

variable {F : Type}

/-- `unittest.TestLoader().loadTestsFromName`, as the method names of the tests; `none` if it
    raises. -/
abbrev Loader := Str → Option (List Str)

structure Conf (F : Type) where
  modulePrefix : Option Str
  tests : List Str
  params : Params F

def Contains (part text : Str) : Prop := part <:+: text

instance (part text : Str) : Decidable (Contains part text) :=
  inferInstanceAs (Decidable (part <:+: text))

/-- Tests whose lines may have a `*` -/
def StarAllowed (name : Str) : Prop :=
  Contains (str "test_restore_with_filter_regex") name ∨
    Contains (str "test_restore_with_rbac") name ∨ Contains (str "test_backup_with_rbac") name

instance (name : Str) : Decidable (StarAllowed name) :=
  inferInstanceAs (Decidable (_ ∨ _ ∨ _))

/-- `".".join(name.split(".")[0:-1])` -/
def moduleOf (name : Str) : Str := ['.'].intercalate (name.splitOn '.').dropLast

/-- `append_test` -/
def appendTest (load : Loader) (tests : List Str) (name : Str) : Option (List Str) :=
  if ¬ StarAllowed name ∧ '*' ∈ name ∧ name.head? ≠ some '*' then do
    let methods ← load (name.rdropWhile fun c => c = '.' ∨ c = '*')
    some (tests ++ methods.map fun method => moduleOf name ++ '.' :: method)
  else some (tests ++ [name])

/-- `prefix and prefix.lower() == "params"` -/
def InParams (conf : Conf F) : Prop :=
  ∃ named ∈ conf.modulePrefix, lower named = str "params"

instance (conf : Conf F) : Decidable (InParams conf) :=
  inferInstanceAs (Decidable (∃ named ∈ conf.modulePrefix, _))

/-- The full name of the test on a line -/
def lineName (conf : Conf F) (line : Str) : Str :=
  match conf.modulePrefix with
  | some named =>
    if line.head? = some ' ' ∧ named ≠ [] then named ++ '.' :: strip line else strip line
  | none => strip line

/-- One line of the file -/
def confLine (load : Loader) (conf : Conf F) (line : Str) : Option (Conf F) :=
  let stripped := strip line
  if stripped.head? = some '#' ∨ stripped = [] then some conf
  else if stripped.getLast? = some ':' then
    some { conf with modulePrefix := (stripped.splitOn ':').head? }
  else if InParams conf then
    -- `stripped.split("=", 1)`
    if '=' ∈ stripped then
      let key := stripped.takeWhile (· ≠ '=')
      let value := (stripped.dropWhile (· ≠ '=')).tail
      some { conf with params := conf.params.insert key (.text value) }
    else some conf
  else do
    let name := lineName conf line
    let tests ← appendTest load conf.tests name
    some { conf with tests := tests, modulePrefix := some (moduleOf (testName name)) }

/-- What a run is started with, `-t` and `-p` apart; `spec` is the base name of the conf file. -/
structure Env where
  ini : Str
  clusterName : Str
  filename : Str
  spec : Str
  clients : Nat
  servers : Nat
  root : Str

/-- The parameters at the end of `parse_conf_file` -/
def closeConf (env : Env) (params : Params F) : Params F :=
  (setDefault params (str "spec") (.text env.spec)).insert (str "conf_file") (.text env.filename)

def parseConfFile (load : Loader) (env : Env) (params : Params F) (lines : List Str) :
    Option (List Str × Params F) := do
  let conf ← lines.foldlM (confLine load) { modulePrefix := none, tests := [], params := params }
  some (conf.tests, closeConf env conf.params)

def iniParams (env : Env) : Params F :=
  assignAll [(str "ini", Value.text env.ini), (str "cluster_name", .text env.clusterName)] ∅

/-- `parse_args` with `-i`, `-c` and `-p` -/
def parseArgs (load : Loader) (env : Env) (lines : List Str) : Option (List Str × Params F) :=
  parseConfFile load env (iniParams env) lines

/-- `runtime_test_params` of `main` -/
def runtimeParams (env : Env) (testParams : Params F) (argument : Str) : Params F :=
  update testParams (getTestInput env.clients env.servers argument)

/-- The dictionary with which the only test of a conf file starts; `none` if the file has another
    number of tests or another test, or if the test is not run. -/
def observe (load : Loader) (env : Env) (name : Str) (lines : List Str) (argument : Str) :
    Option (Params F) :=
  match parseArgs load env lines with
  | some ([line], testParams) =>
    let runtime := runtimeParams env testParams argument
    if testName line = name ∧ allows runtime (argumentPairs line) = some true then
      some (startParams env.root runtime 1 line)
    else none
  | _ => none

/-- The dictionary is the one that the first execution of `main` starts with. -/
theorem main_starts {ω : Type} (floats : Floats F) (tests : Tests F ω) (strTime : Str) {world ready : ω}
    {load : Loader} {env : Env} {name line argument : Str} {lines : List Str} {start testParams : Params F}
    (parsed : parseArgs load env lines = some ([line], testParams))
    (observed : observe load env name lines argument = some start)
    (prepared : tests.prepare world (logsFolder env.root 1) = some ready)
    (loads : (tests.load ready name).1 ≠ .raises) :
    ∃ execution, (main floats tests env.root strTime world (runtimeParams env testParams argument)
      [line]).1.executions = [execution] ∧ execution.line = line ∧ execution.start = start := by
  rw [observe, parsed] at observed
  simp only at observed
  split at observed
  · rename_i allowed
    obtain ⟨named, allowed⟩ := allowed
    cases observed
    obtain ⟨ran, attempted⟩ : ∃ ran, attempt floats tests env.root
        (.first world (runtimeParams env testParams argument)) line = some ran := by
      rw [attempt]
      show ∃ ran, (tests.prepare world (logsFolder env.root 1)).bind _ = some ran
      rw [prepared, Option.bind_some, loadAndRun, named]
      split
      · exact ⟨_, rfl⟩
      · exact ⟨_, rfl⟩
      · exact ⟨_, rfl⟩
      · rename_i raised
        exact absurd raised loads
    refine ⟨{ line := line, start := _, failed := ran.1.failed }, ?_, rfl, rfl⟩
    have allowedFirst : allows (Run.first world (runtimeParams env testParams argument)).runtime
        (argumentPairs line) = some true := allowed
    rw [main, runTests, allowedFirst]
    simp only [attempted]
    obtain ⟨ran, readable⟩ := ran
    cases readable with
    | false => rfl
    | true =>
      simp only
      split
      · rfl
      · split <;> rfl
  · cases observed

end Taf.Runner
