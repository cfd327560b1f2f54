import Taf.Runner.ParamPlaces

/-! # The grammar of conf files

`parse_conf_file` keeps one text of the lines behind it: the module of the last header or of the last
test, which also says that the lines are those of the `params:` section.  A file is described here by
what its lines are: headers, indented tests, tests with their full names, comments and empty lines, and
the section at the end. -/

namespace Taf.Runner.Grammar

open Taf.Lib

variable {F : Type}

/-! ## Files after files -/

/-- `parse_conf_file(filename, tests, params)` with what earlier files have left -/
def appendConfFile (load : Loader) (env : Env) (tests : List Str) (params : Params F) (lines : List Str) :
    Option (List Str × Params F) := do
  let conf ← lines.foldlM (confLine load) { modulePrefix := none, tests := tests, params := params }
  some (conf.tests, closeConf env conf.params)

theorem parseConfFile_eq (load : Loader) (env : Env) (params : Params F) (lines : List Str) :
    parseConfFile load env params lines = appendConfFile load env [] params lines := rfl

/-! ## Lines -/

/-- A test without its module: an undotted name, and behind a comma whatever does not end with a colon. -/
structure IsTest (test : Str) : Prop where
  parts : ∃ name rest, test = name ++ rest ∧ name ≠ [] ∧ '.' ∉ name ∧ ',' ∉ name ∧ Fenced rest
  first : test.head? ≠ some '#'
  closed : test.getLast? ≠ some ':'

/-- The name of a module, which may have dots -/
structure IsModule (module : Str) : Prop where
  nonempty : module ≠ []
  colon : ':' ∉ module
  comma : ',' ∉ module
  first : module.head? ≠ some '#'

/-- A comment or an empty line -/
def IsNote (line : Str) : Prop := (strip line).head? = some '#' ∨ strip line = []

/-- What a grammar admits besides the shapes of the lines, and the module that is in force behind a
    test with its full name. -/
structure Limits where
  test : Str → Prop
  module : Str → Prop
  sectionName : Str → Prop
  value : Str → Prop
  inForce : Option Str → Str → Option Str

/-- The lines behind `params:`, with the pairs on them -/
inductive SectionLines (limits : Limits) : List Str → List (Str × Str) → Prop where
  | nil : SectionLines limits [] []
  | note {line lines pairs} : IsNote line → SectionLines limits lines pairs →
      SectionLines limits (line :: lines) pairs
  | pair {line key value lines pairs} : strip line = key ++ '=' :: value → '=' ∉ key →
      key.head? ≠ some '#' → limits.value value → SectionLines limits lines pairs →
      SectionLines limits (line :: lines) ((key, value) :: pairs)

/-- The lines of a file below a module, with the tests and the pairs on them -/
inductive FileLines (limits : Limits) : Option Str → List Str → List Str → List (Str × Str) → Prop where
  | nil {above} : FileLines limits above [] [] []
  | note {above line lines tests pairs} : IsNote line → FileLines limits above lines tests pairs →
      FileLines limits above (line :: lines) tests pairs
  | header {above line module lines tests pairs} : strip line = module ++ [':'] → IsModule module →
      module ≠ str "params" → limits.module module → FileLines limits (some module) lines tests pairs →
      FileLines limits above (line :: lines) tests pairs
  | indented {module line test lines tests pairs} : line.head? = some ' ' → strip line = test →
      IsTest test → limits.test (module ++ '.' :: test) →
      FileLines limits (some module) lines tests pairs →
      FileLines limits (some module) (line :: lines) ((module ++ '.' :: test) :: tests) pairs
  | qualified {above line module test lines tests pairs} : line.head? ≠ some ' ' →
      strip line = module ++ '.' :: test → IsModule module → IsTest test → limits.module module →
      limits.test (module ++ '.' :: test) →
      FileLines limits (limits.inForce above module) lines tests pairs →
      FileLines limits above (line :: lines) ((module ++ '.' :: test) :: tests) pairs
  | params {above line name lines pairs} : strip line = name ++ [':'] → limits.sectionName name →
      SectionLines limits lines pairs → FileLines limits above (line :: lines) [] pairs

/-- The tests of a file and its pairs, and nothing else -/
def documented : Limits where
  test _ := True
  module _ := True
  sectionName name := name = str "params"
  value _ := True
  inForce above _ := above

/-- No `*` but in the tests that may have one, no module whose name is `params`, no value that ends
    with a colon; a test with its full name sets the module. -/
def honoured : Limits where
  test test := '*' ∈ test → StarAllowed test
  module module := lower module ≠ str "params"
  sectionName name := lower name = str "params"
  value value := value.getLast? ≠ some ':'
  inForce _ module := some module

def textPairs (pairs : List (Str × Str)) : List (Str × Value F) :=
  pairs.map fun pair => (pair.1, .text pair.2)

/-! ## One line -/

variable {load : Loader} {conf : Conf F} {line module test : Str}

theorem confLine_note (note : IsNote line) : confLine load conf line = some conf := by
  rw [confLine]
  exact if_pos note

theorem confLine_header (header : strip line = module ++ [':']) (plain : ':' ∉ module)
    (hash : module.head? ≠ some '#') :
    confLine load conf line = some { conf with modulePrefix := some module } := by
  have split : (module ++ [':']).splitOn ':' = module :: [[]] :=
    List.splitOn_append_cons_self_of_not_mem plain []
  have noNote : ¬ ((module ++ [':']).head? = some '#' ∨ module ++ [':'] = []) := by
    cases module with
    | nil => simp
    | cons c rest => simpa using hash
  rw [confLine, header]
  simp only [noNote, if_false, List.getLast?_concat, split, if_true, List.head?_cons]

theorem confLine_test (outside : ¬ InParams conf) (note : ¬ IsNote line)
    (closed : (strip line).getLast? ≠ some ':') (star : '*' ∈ lineName conf line → StarAllowed (lineName conf line)) :
    confLine load conf line = some { conf with
      tests := conf.tests ++ [lineName conf line]
      modulePrefix := some (moduleOf (testName (lineName conf line))) } := by
  have noNote : ¬ ((strip line).head? = some '#' ∨ strip line = []) := note
  rw [confLine]
  simp only [noNote, closed, outside, if_false, appendTest_plain star]
  rfl

theorem confLine_assignment (inside : InParams conf) {key value : Str} (pair : strip line = key ++ '=' :: value)
    (plain : '=' ∉ key) (hash : key.head? ≠ some '#') (closed : value.getLast? ≠ some ':') :
    confLine load conf line = some { conf with params := conf.params.insert key (.text value) } := by
  have noNote : ¬ ((key ++ '=' :: value).head? = some '#' ∨ key ++ '=' :: value = []) := by
    cases key with
    | nil => simp
    | cons c rest => simpa using hash
  -- A line that ends with a colon would be a header, and the section would be over.
  have ending : (key ++ '=' :: value).getLast? ≠ some ':' := by
    rw [List.getLast?_append_of_ne_nil _ (List.cons_ne_nil _ _)]
    cases value with
    | nil => simp
    | cons c rest => rwa [List.getLast?_cons_cons]
  have solid : ∀ c ∈ key, (decide (c ≠ '=')) = true := by
    intro c member
    have other : c ≠ '=' := by
      rintro rfl
      exact plain member
    exact decide_eq_true other
  have member : '=' ∈ key ++ '=' :: value := by simp
  have before : (key ++ '=' :: value).takeWhile (fun c => c ≠ '=') = key := by
    rw [List.takeWhile_append_of_pos solid]
    simp
  have behind : ((key ++ '=' :: value).dropWhile (fun c => c ≠ '=')).tail = value := by
    rw [List.dropWhile_append_of_pos solid]
    simp
  rw [confLine, pair]
  simp only [noNote, ending, inside, member, before, behind, if_false, if_true]

/-! ## Names -/

theorem moduleOf_qualified {name : Str} (plain : '.' ∉ name) : moduleOf (module ++ '.' :: name) = module := by
  have pieces : (module ++ '.' :: name).splitOn '.' = module.splitOn '.' ++ [name] := by
    rw [List.splitOn_append_cons_self, List.splitOn_eq_singleton plain]
  rw [moduleOf, pieces, List.dropLast_concat, List.intercalate_splitOn]

namespace IsTest

variable (isTest : IsTest test)
include isTest

/-- Whatever the parameters are, the module is what stands in front of the last dot of the name. -/
theorem moduleOf_testName (isModule : IsModule module) : moduleOf (testName (module ++ '.' :: test)) = module := by
  obtain ⟨name, rest, rfl, nonempty, dot, comma, fenced⟩ := isTest.parts
  -- The name ends at the first comma, whatever stands behind it, and the module at the last dot of that.
  have qualified : ',' ∉ module ++ '.' :: name := by
    simp [isModule.comma, comma]
  have shape : module ++ '.' :: (name ++ rest) = (module ++ '.' :: name) ++ rest := by simp
  rw [shape, testName_of_fenced qualified fenced, moduleOf_qualified dot]

theorem ne_nil : test ≠ [] := by
  obtain ⟨name, rest, rfl, nonempty, _⟩ := isTest.parts
  exact List.append_ne_nil_of_left_ne_nil nonempty rest

theorem getLast?_qualified : (module ++ '.' :: test).getLast? ≠ some ':' := by
  obtain ⟨c, rest, shape⟩ := List.exists_cons_of_ne_nil isTest.ne_nil
  have closed := isTest.closed
  rw [List.getLast?_append_of_ne_nil _ (List.cons_ne_nil _ _)]
  subst shape
  rwa [List.getLast?_cons_cons]

end IsTest

/-! ## The file -/

theorem fold_section {lines : List Str} {pairs : List (Str × Str)} (inside : InParams conf)
    (follows : SectionLines honoured lines pairs) :
    lines.foldlM (confLine load) conf =
      some { conf with params := assignAll (textPairs pairs) conf.params } := by
  induction follows generalizing conf with
  | nil => rfl
  | note note _ ih =>
    rw [List.foldlM_cons, confLine_note note]
    exact ih inside
  | pair shape plain hash closed _ ih =>
    rw [List.foldlM_cons, confLine_assignment inside shape plain hash closed]
    exact ih inside

/-- What is kept of the lines behind: the module that is in force, which is not that of the section -/
structure Above (conf : Conf F) (above : Option Str) : Prop where
  same : conf.modulePrefix = above
  module : ∀ module ∈ above, IsModule module ∧ lower module ≠ str "params"

theorem Above.outside {above : Option Str} (below : Above conf above) : ¬ InParams conf := by
  intro inside
  obtain ⟨named, found, isParams⟩ := inside
  exact (below.module named (below.same ▸ found)).2 isParams

theorem confLine_indented (below : Above conf (some module)) (blank : line.head? = some ' ')
    (shape : strip line = test) (isTest : IsTest test) (star : '*' ∈ module ++ '.' :: test → StarAllowed (module ++ '.' :: test)) :
    confLine load conf line = some { conf with tests := conf.tests ++ [module ++ '.' :: test] } := by
  have isModule := (below.module module rfl).1
  have name : lineName conf line = module ++ '.' :: test := by
    rw [lineName, below.same]
    simp only [blank, isModule.nonempty, ne_eq, not_false_eq_true, and_self, if_true, shape]
  have noNote : ¬ IsNote line := by
    rw [IsNote, shape]
    exact not_or.mpr ⟨isTest.first, isTest.ne_nil⟩
  have closed : (strip line).getLast? ≠ some ':' := by
    rw [shape]
    exact isTest.closed
  rw [confLine_test below.outside noNote closed (by rwa [name]), name, isTest.moduleOf_testName isModule,
    ← below.same]

theorem confLine_qualified {above : Option Str} (below : Above conf above) (solid : line.head? ≠ some ' ')
    (shape : strip line = module ++ '.' :: test) (isModule : IsModule module) (isTest : IsTest test)
    (star : '*' ∈ module ++ '.' :: test → StarAllowed (module ++ '.' :: test)) :
    confLine load conf line = some { conf with
      tests := conf.tests ++ [module ++ '.' :: test]
      modulePrefix := some module } := by
  have name : lineName conf line = module ++ '.' :: test := by
    rw [lineName]
    cases conf.modulePrefix with
    | none => exact shape
    | some named => simp only [solid, false_and, if_false, shape]
  have noNote : ¬ IsNote line := by
    rw [IsNote, shape]
    rw [List.head?_append_of_ne_nil _ isModule.nonempty]
    exact not_or.mpr ⟨isModule.first, by simp⟩
  have closed : (strip line).getLast? ≠ some ':' := by
    rw [shape]
    exact isTest.getLast?_qualified
  rw [confLine_test below.outside noNote closed (by rwa [name]), name, isTest.moduleOf_testName isModule]

theorem notMem_of_lower {name : Str} (isParams : lower name = str "params") {c : Char}
    (other : c.toLower ∉ str "params") : c ∉ name := by
  intro member
  rw [← isParams] at other
  exact other (List.mem_map_of_mem member)

/-- The module in force and the tests so far are all that a line needs of those above it. -/
theorem fold_file {above : Option Str} {lines tests : List Str} {pairs : List (Str × Str)}
    (follows : FileLines honoured above lines tests pairs) (below : Above conf above) :
    ∃ final, lines.foldlM (confLine load) conf = some final ∧ final.tests = conf.tests ++ tests ∧
      final.params = assignAll (textPairs pairs) conf.params := by
  -- On the derivation: each rule is one line, and says which module is in force below it.
  induction follows generalizing conf with
  | nil => exact ⟨conf, rfl, by simp, rfl⟩
  | note note _ ih =>
    rw [List.foldlM_cons, confLine_note note]
    exact ih below
  | header shape isModule _ admitted _ ih =>
    rw [List.foldlM_cons, confLine_header shape isModule.colon isModule.first]
    exact ih ⟨rfl, by simpa using ⟨isModule, admitted⟩⟩
  | indented blank shape isTest star _ ih =>
    rw [List.foldlM_cons, confLine_indented below blank shape isTest star]
    obtain ⟨final, folded, finalTests, params⟩ := @ih { conf with tests := conf.tests ++ [_] } ⟨below.same, below.module⟩
    exact ⟨final, folded, by simp [finalTests], params⟩
  | @qualified _ _ module _ _ _ _ solid shape isModule isTest admitted star _ ih =>
    rw [List.foldlM_cons, confLine_qualified below solid shape isModule isTest star]
    -- The test brings its own module with it, in the place of the one above.
    have inForce : ∀ named, some module = some named → IsModule named ∧ lower named ≠ str "params" := by
      intro named same
      cases same
      exact ⟨isModule, admitted⟩
    obtain ⟨final, folded, finalTests, params⟩ := @ih
      { conf with tests := conf.tests ++ [_], modulePrefix := some _ } ⟨rfl, inForce⟩
    exact ⟨final, folded, by simp [finalTests], params⟩
  | params shape isParams follows =>
    rw [List.foldlM_cons, confLine_header shape (notMem_of_lower isParams (by decide))
      (fun hash => notMem_of_lower isParams (by decide) (List.mem_of_mem_head? hash))]
    exact ⟨_, fold_section ⟨_, rfl, isParams⟩ follows, by simp, rfl⟩

/-- A file of the grammar adds its tests in their order and its pairs, the last one of a key for it, and then
    the name of the file. -/
theorem appendConfFile_follows (load : Loader) (env : Env) (before : List Str) (params : Params F)
    {lines tests : List Str} {pairs : List (Str × Str)} (follows : FileLines honoured none lines tests pairs) :
    appendConfFile load env before params lines =
      some (before ++ tests, closeConf env (assignAll (textPairs pairs) params)) := by
  have start : Above ({ modulePrefix := none, tests := before, params := params } : Conf F) none :=
    ⟨rfl, by simp⟩
  obtain ⟨final, folded, finalTests, finalParams⟩ := @fold_file F load _ none lines tests pairs follows start
  rw [appendConfFile, folded, ← finalTests, ← finalParams]
  rfl

/-! ## Files outside of it -/

def noTests : Loader := fun _ => none

def confEnv : Env where
  ini := str "n.ini"
  clusterName := str "n"
  filename := str "c.conf"
  spec := str "c"
  clients := 0
  servers := 0
  root := []

/-- The grammar without limits, and nothing but its pairs in the parameters -/
def ReadsDocumented (lines : List Str) : Prop :=
  ∀ tests pairs, FileLines documented none lines tests pairs →
    parseConfFile noTests confEnv (∅ : Params Unit) lines = some (tests, assignAll (textPairs pairs) ∅)

theorem ReadsDocumented.tests {lines tests : List Str} {pairs : List (Str × Str)}
    (reads : ReadsDocumented lines) (follows : FileLines documented none lines tests pairs) :
    (parseConfFile noTests confEnv (∅ : Params Unit) lines).map Prod.fst = some tests := by
  rw [reads tests pairs follows]
  rfl

theorem ReadsDocumented.keys {lines tests : List Str} {pairs : List (Str × Str)}
    (reads : ReadsDocumented lines) (follows : FileLines documented none lines tests pairs) :
    (parseConfFile noTests confEnv (∅ : Params Unit) lines).map (fun result => result.2.keys) =
      some (assignAll (textPairs pairs) (∅ : Params Unit)).keys := by
  rw [reads tests pairs follows]
  rfl

theorem isTest_word {name : Str} (nonempty : name ≠ []) (dot : '.' ∉ name) (comma : ',' ∉ name)
    (first : name.head? ≠ some '#') (closed : name.getLast? ≠ some ':') : IsTest name where
  parts := ⟨name, [], by simp, nonempty, dot, comma, by simp [Fenced]⟩
  first := first
  closed := closed

theorem isTest_c : IsTest (str "c") := isTest_word (by decide) (by decide) (by decide) (by decide) (by decide)

theorem isModule_aB : IsModule (str "a.B") := ⟨by decide, by decide, by decide, by decide⟩

/-- `conf_file` is put there for every file, a `*` in a parameter asks the loader, a module `params` starts
    the section, a test with its full name sets the module, and a value may be taken for a header. -/
theorem documented_grammar_fails :
    ¬ ReadsDocumented [str "a.B:", str "  c"] ∧
    ¬ ReadsDocumented [str "a.B:", str "  c,x=*"] ∧
    ¬ ReadsDocumented [str "params.t", str "a.B.c"] ∧
    ¬ ReadsDocumented [str "a.B:", str "d.E.f", str "  c"] ∧
    ¬ ReadsDocumented [str "params:", str "x=y:"] := by
  refine ⟨?_, ?_, ?_, ?_, ?_⟩
  · intro reads
    have below : FileLines documented (some (str "a.B")) [str "  c"] [str "a.B.c"] [] :=
      .indented rfl (by decide) isTest_c trivial .nil
    have keys := reads.keys (.header (by decide) isModule_aB (by decide) trivial below)
    exact absurd keys (by decide +kernel)
  · intro reads
    have isTest : IsTest (str "c,x=*") :=
      ⟨⟨str "c", str ",x=*", by decide, by decide, by decide, by decide, by simp [Fenced, str]⟩, by decide, by decide⟩
    have below : FileLines documented (some (str "a.B")) [str "  c,x=*"] [str "a.B.c,x=*"] [] :=
      .indented rfl (by decide) isTest trivial .nil
    have tests := reads.tests (.header (by decide) isModule_aB (by decide) trivial below)
    exact absurd tests (by decide +kernel)
  · intro reads
    have below : FileLines documented none [str "a.B.c"] [str "a.B.c"] [] :=
      .qualified (by decide) (by decide) isModule_aB isTest_c trivial trivial .nil
    have isTest : IsTest (str "t") := isTest_word (by decide) (by decide) (by decide) (by decide) (by decide)
    have isModule : IsModule (str "params") := ⟨by decide, by decide, by decide, by decide⟩
    have tests := reads.tests (.qualified (by decide) (by decide) isModule isTest trivial trivial below)
    exact absurd tests (by decide +kernel)
  · intro reads
    have last : FileLines documented (some (str "a.B")) [str "  c"] [str "a.B.c"] [] :=
      .indented rfl (by decide) isTest_c trivial .nil
    have isTest : IsTest (str "f") := isTest_word (by decide) (by decide) (by decide) (by decide) (by decide)
    have isModule : IsModule (str "d.E") := ⟨by decide, by decide, by decide, by decide⟩
    have below : FileLines documented (some (str "a.B")) [str "d.E.f", str "  c"] [str "d.E.f", str "a.B.c"] [] :=
      .qualified (by decide) (by decide) isModule isTest trivial trivial last
    have tests := reads.tests (.header (by decide) isModule_aB (by decide) trivial below)
    exact absurd tests (by decide +kernel)
  · intro reads
    have pairs : SectionLines documented [str "x=y:"] [(str "x", str "y:")] :=
      .pair (by decide) (by decide) (by decide) trivial .nil
    have keys := reads.keys (.params (by decide) rfl pairs)
    exact absurd keys (by decide +kernel)

theorem appendConfFile_follows_two :
    appendConfFile noTests confEnv [] (∅ : Params Unit)
      [str "a.B:", str "  c,x=1.2:3=4", str "params:", str "k=v=w", str "k=u"] =
        some ([] ++ [str "a.B.c,x=1.2:3=4"], closeConf confEnv
          (assignAll (textPairs [(str "k", str "v=w"), (str "k", str "u")]) ∅)) := by
  apply appendConfFile_follows noTests confEnv [] ∅
  have isTest : IsTest (str "c,x=1.2:3=4") :=
    ⟨⟨str "c", str ",x=1.2:3=4", by decide, by decide, by decide, by decide, by simp [Fenced, str]⟩, by decide,
      by decide⟩
  have plain : '*' ∈ str "a.B.c,x=1.2:3=4" → StarAllowed (str "a.B.c,x=1.2:3=4") := by
    intro star
    exact absurd star (by decide)
  have last : SectionLines honoured [str "k=u"] [(str "k", str "u")] :=
    .pair (by decide) (by decide) (by decide) (by simp [honoured, str]) .nil
  have pairs : SectionLines honoured [str "k=v=w", str "k=u"] [(str "k", str "v=w"), (str "k", str "u")] :=
    .pair (by decide) (by decide) (by decide) (by simp [honoured, str]) last
  have atEnd : strip (str "params:") = str "params" ++ [':'] := by decide
  have inSection : FileLines honoured (some (str "a.B")) [str "params:", str "k=v=w", str "k=u"] []
      [(str "k", str "v=w"), (str "k", str "u")] := .params atEnd (by simp [honoured, lower, str]) pairs
  have below : FileLines honoured (some (str "a.B")) [str "  c,x=1.2:3=4", str "params:", str "k=v=w", str "k=u"]
      [str "a.B.c,x=1.2:3=4"] [(str "k", str "v=w"), (str "k", str "u")] :=
    .indented rfl (by decide) isTest plain inSection
  exact .header (by decide) isModule_aB (by decide) (by simp [honoured, lower, str]) below

end Taf.Runner.Grammar
