import Mathlib
import Taf.Runner.ConfFile

/-! # A parameter means the same wherever it is set

Three places set the parameters of a test: the line of the test, the `params:` section of the conf
file, and the `-p` option.  Each has its own parser; `TestInput.param` reads what they leave. -/

namespace Taf.Runner

open Taf.Lib

variable {F : Type} (floats : Floats F)

/-! ## The three places -/

/-- A dotted name -/
def IsTestName (name : Str) : Prop :=
  name ≠ [] ∧ ∀ c ∈ name, c.isAlphanum ∨ c = '_' ∨ c = '.'

/-- Pairs that can be written on lines: distinct keys that can be told from the text around them,
    and values without `=` and line breaks. -/
structure Pairs where
  pairs : List (Str × Str)
  distinct : (pairs.map Prod.fst).Nodup
  readable : Readable pairs
  solid : ∀ pair ∈ pairs, ∀ c ∈ pair.1, blank c = false
  oneLine : ∀ pair ∈ pairs, '\n' ∉ pair.2

/-- The dictionary of the test under each of the three, and with one list on the line and another
    one in `-p` -/
def onLine (load : Loader) (env : Env) (name : Str) (pairs : Pairs) : Option (Params F) :=
  observe load env name [name ++ followed pairs.pairs] []

def inSection (load : Loader) (env : Env) (name : Str) (pairs : Pairs) : Option (Params F) :=
  observe load env name (name :: str "params:" :: pairs.pairs.map assignment) []

def inOption (load : Loader) (env : Env) (name : Str) (pairs : Pairs) : Option (Params F) :=
  observe load env name [name] (joined pairs.pairs)

def onLineAndInOption (load : Loader) (env : Env) (name : Str) (own given : Pairs) :
    Option (Params F) :=
  observe load env name [name ++ followed own.pairs] (joined given.pairs)

/-- The test is run each time, and `param` returns the same value. -/
def SameEverywhere (load : Loader) (env : Env) (name : Str) (pairs : Pairs) : Prop :=
  ∃ line sect option : Params F, onLine load env name pairs = some line ∧
    inSection load env name pairs = some sect ∧ inOption load env name pairs = some option ∧
    ∀ pair ∈ pairs.pairs, ∃ value, param floats line pair.1 none = some value ∧
      param floats sect pair.1 none = some value ∧ param floats option pair.1 none = some value

/-- What `-p` gives wins, key by key. -/
def Overrides (F : Type) (load : Loader) (env : Env) (name : Str) (own given : Pairs) : Prop :=
  ∀ line option both : Params F, onLine load env name own = some line →
    inOption load env name given = some option →
    onLineAndInOption load env name own given = some both → ∀ key,
      both.lookup key = if key ∈ given.pairs.map Prod.fst then option.lookup key else line.lookup key

/-! ## When it does -/

/-- What the runner itself puts among the parameters of a run -/
def runnerParams (env : Env) : Params F := runtimeParams env (closeConf env (iniParams env)) []

/-- The names that the runner sets after it has read the conf file -/
def SetLast (env : Env) (key : Str) : Prop :=
  key = str "conf_file" ∨ (key = str "num_clients" ∧ env.clients ≠ 0) ∨
    (key = str "num_nodes" ∧ env.servers ≠ 0)

instance (env : Env) (key : Str) : Decidable (SetLast env key) :=
  inferInstanceAs (Decidable (_ ∨ _ ∨ _))

/-- A pair that all three places read alike: no list, no other value of the runner, and no blank
    in front unless it is a number. -/
def Alike (env : Env) (pair : Str × Str) : Prop :=
  ',' ∉ pair.2 ∧
  (∀ value : Value F, (runnerParams env).lookup pair.1 = some value →
    parseParam floats value = some (parseText floats (strip pair.2))) ∧
  (¬ SetLast env pair.1 → strip pair.2 = rstrip pair.2 ∨ (number floats pair.2).isSome)

/-- The line of a test, as it is kept -/
def testLine (name : Str) (pairs : Pairs) : Str := strip (name ++ followed pairs.pairs)

structure ReadAlike (env : Env) (name : Str) (pairs : Pairs) : Prop where
  star : '*' ∈ testLine name pairs → StarAllowed (testLine name pairs)
  hash : ∀ pair ∈ pairs.pairs, pair.1.head? ≠ some '#'
  colon : ∀ pair ∈ pairs.pairs, (rstrip pair.2).getLast? ≠ some ':'
  everybody : ∀ pair ∈ pairs.pairs, pair.1 = group →
    str "ALL" ∈ (strip pair.2).splitOn ';' ∧ str "ALL" ∈ (rstrip pair.2).splitOn ';'
  alike : ∀ pair ∈ pairs.pairs, pair.1 ∈ [str "case_number", str "logs_folder"] ∨
    Alike floats env pair

/-! ## `param` of a text -/

variable {floats}

theorem number_strip (value : Str) : number floats (strip value) = number floats value := by
  rw [number, number, strip_strip]

theorem number_rstrip (value : Str) : number floats (rstrip value) = number floats value := by
  rw [number, number, strip_rstrip]

theorem toLower_blank {c : Char} (isBlank : blank c) : c.toLower = c := by
  simp only [blank, List.mem_cons, List.not_mem_nil, or_false, decide_eq_true_eq] at isBlank
  rcases isBlank with rfl | rfl | rfl | rfl | rfl | rfl <;> decide

/-- Without blanks in front nothing is taken away there. -/
theorem strip_eq_rstrip_or (value : Str) : strip value = rstrip value ∨
    ∃ c rest, rstrip value = c :: rest ∧ blank c := by
  cases value with
  | nil => exact .inl rfl
  | cons c rest =>
    by_cases solid : blank c
    · by_cases all : ∀ d ∈ c :: rest, blank d
      · left
        have none : (c :: rest).dropWhile blank = [] := List.dropWhile_eq_nil_iff.mpr all
        rw [strip, none, rstrip, rstrip, List.rdropWhile_eq_nil_iff.mpr all]
        rfl
      · right
        have kept : rstrip (c :: rest) <+: c :: rest := List.rdropWhile_prefix _ _
        cases stripped : rstrip (c :: rest) with
        | nil => exact absurd (List.rdropWhile_eq_nil_iff.mp stripped) all
        | cons d more =>
          rw [stripped] at kept
          obtain ⟨rfl, -⟩ := List.cons_prefix_cons.mp kept
          exact ⟨d, more, rfl, solid⟩
    · left
      exact strip_eq_rstrip fun d first => by
        cases first
        simpa using solid

theorem parseText_rstrip (value : Str) :
    parseText floats (rstrip value) = parseText floats (strip value) ↔
      strip value = rstrip value ∨ (number floats value).isSome := by
  constructor
  · intro same
    rcases strip_eq_rstrip_or value with alike | ⟨c, rest, leading, isBlank⟩
    · exact .inl alike
    · cases found : number floats value with
      | some parsed => exact .inr rfl
      | none =>
        left
        have notWord : ∀ word : Str, word.head? ≠ some c → lower (rstrip value) ≠ word := by
          rintro word other rfl
          rw [leading] at other
          simp [lower, toLower_blank isBlank] at other
        have notFalse : lower (rstrip value) ≠ str "false" := by
          apply notWord
          intro first
          cases first
          exact absurd isBlank (by decide)
        have notTrue : lower (rstrip value) ≠ str "true" := by
          apply notWord
          intro first
          cases first
          exact absurd isBlank (by decide)
        rw [parseText, parseText, number_rstrip, number_strip, found] at same
        simp only [if_neg notFalse, if_neg notTrue] at same
        split at same
        · cases same
        · split at same
          · cases same
          · exact (Param.text.inj same).symm
  · rintro (same | isNumber)
    · rw [same]
    · obtain ⟨parsed, found⟩ := Option.isSome_iff_exists.mp isNumber
      rw [parseText, parseText, number_rstrip, number_strip, found]

/-! ## The line of a test -/

/-- The pairs of a line whose end is stripped -/
def trimLast : List (Str × Str) → List (Str × Str)
  | [] => []
  | [pair] => [(pair.1, rstrip pair.2)]
  | pair :: next :: pairs => pair :: trimLast (next :: pairs)

theorem followed_cons (pair : Str × Str) (pairs : List (Str × Str)) :
    followed (pair :: pairs) = ',' :: (pair.1 ++ '=' :: (pair.2 ++ followed pairs)) := by
  simp [followed, assignment]

theorem rstrip_followed (pair : Str × Str) (pairs : List (Str × Str)) (front : Str) :
    rstrip (front ++ followed (pair :: pairs)) = front ++ followed (trimLast (pair :: pairs)) := by
  have equals : ∀ rest, rstrip (front ++ ',' :: (pair.1 ++ '=' :: rest)) =
      front ++ ',' :: (pair.1 ++ '=' :: rstrip rest) := by
    intro rest
    rw [rstrip_append_cons (by decide), rstrip_append_cons (by decide)]
  induction pairs generalizing pair front with
  | nil =>
    rw [followed_cons, equals, trimLast, followed_cons]
    simp [followed]
  | cons next pairs ih =>
    rw [followed_cons, equals, trimLast, ih, followed_cons]
    intro rest
    rw [rstrip_append_cons (by decide), rstrip_append_cons (by decide)]

theorem trimLast_strip (pairs : List (Str × Str)) :
    (trimLast pairs).map (fun pair => (strip pair.1, strip pair.2)) =
      pairs.map fun pair => (strip pair.1, strip pair.2) := by
  induction pairs using trimLast.induct with
  | case1 => rfl
  | case2 pair => simp [trimLast]
  | case3 pair next pairs ih =>
    rw [trimLast, List.map_cons, ih]
    rfl

theorem trimLast_readable {pairs : List (Str × Str)} (readable : Readable pairs) :
    Readable (trimLast pairs) := by
  induction pairs using trimLast.induct with
  | case1 => exact readable
  | case2 pair =>
    intro other member
    obtain ⟨isKey, plain⟩ := readable pair List.mem_cons_self
    rw [trimLast, List.mem_singleton] at member
    subst member
    exact ⟨isKey, fun inside => plain (mem_rstrip inside)⟩
  | case3 pair next pairs ih =>
    intro other member
    rcases List.mem_cons.mp member with rfl | member
    · exact readable other List.mem_cons_self
    · exact ih (fun other member => readable other (List.mem_cons_of_mem _ member)) other member

theorem getLast?_equals (front rest : Str) :
    (front ++ '=' :: rest).getLast? = some ':' ↔ rest.getLast? = some ':' := by
  cases rest using List.reverseRecOn with
  | nil => simp
  | append_singleton rest last =>
    rw [← List.cons_append, ← List.append_assoc, List.getLast?_concat, List.getLast?_concat]

theorem getLast?_followed_trimLast (pairs : List (Str × Str)) (front : Str) :
    (front ++ followed (trimLast pairs)).getLast? = some ':' ↔
      (pairs = [] ∧ front.getLast? = some ':') ∨
        ∃ last, pairs.getLast? = some last ∧ (rstrip last.2).getLast? = some ':' := by
  induction pairs using trimLast.induct generalizing front with
  | case1 => simp [trimLast, followed]
  | case2 pair =>
    rw [trimLast, followed_cons]
    simp only [followed, List.flatMap_nil, List.append_nil]
    have shape : front ++ ',' :: (pair.1 ++ '=' :: rstrip pair.2) =
        (front ++ ',' :: pair.1) ++ '=' :: rstrip pair.2 := by simp
    rw [shape, getLast?_equals]
    simp
  | case3 pair next pairs ih =>
    have shape : front ++ followed (pair :: trimLast (next :: pairs)) =
        (front ++ ',' :: (pair.1 ++ '=' :: pair.2)) ++ followed (trimLast (next :: pairs)) := by
      simp [followed_cons]
    rw [trimLast, shape, ih]
    simp

namespace Pairs

variable (pairs : Pairs)

/-- The pairs as the line of a test and `-p` give them, and as the section does -/
def stripped : List (Str × Str) := pairs.pairs.map fun pair => (pair.1, strip pair.2)

def rstripped : List (Str × Str) := pairs.pairs.map fun pair => (pair.1, rstrip pair.2)

theorem strip_key {pair : Str × Str} (member : pair ∈ pairs.pairs) : strip pair.1 = pair.1 :=
  strip_eq_self (pairs.solid pair member)

theorem map_strip : pairs.pairs.map (fun pair => (strip pair.1, strip pair.2)) = pairs.stripped := by
  apply List.map_congr_left
  intro pair member
  rw [pairs.strip_key member]

theorem keys_stripped : pairs.stripped.map Prod.fst = pairs.pairs.map Prod.fst := by
  simp [stripped, Function.comp_def]

theorem keys_rstripped : pairs.rstripped.map Prod.fst = pairs.pairs.map Prod.fst := by
  simp [rstripped, Function.comp_def]

theorem lookup_stripped {pair : Str × Str} (member : pair ∈ pairs.pairs) :
    (assignAll pairs.stripped ∅).lookup pair.1 = some (strip pair.2) :=
  lookup_assignAll_of_mem (pairs.keys_stripped ▸ pairs.distinct)
    (List.mem_map.mpr ⟨pair, member, rfl⟩)

theorem lookup_stripped_of_notMem {key : Str} (absent : key ∉ pairs.pairs.map Prod.fst) :
    (assignAll pairs.stripped ∅).lookup key = none :=
  (lookup_assignAll_of_notMem (pairs.keys_stripped ▸ absent)).trans rfl

end Pairs

/-! ## Names -/

theorem testName_of_fenced {name rest : Str} (comma : ',' ∉ name) (fenced : Fenced rest) :
    testName (name ++ rest) = name := by
  rw [testName]
  cases rest with
  | nil => rw [List.append_nil, List.splitOn_eq_singleton comma]; rfl
  | cons c rest =>
    have first := fenced c rfl
    subst first
    rw [List.splitOn_append_cons_self, List.splitOn_eq_singleton comma]
    rfl

namespace IsTestName

variable {name : Str} (isName : IsTestName name)
include isName

theorem notMem {c : Char} (other : c.isAlphanum = false ∧ c ≠ '_' ∧ c ≠ '.') : c ∉ name := by
  intro member
  rcases isName.2 c member with alnum | rfl | rfl
  · rw [other.1] at alnum
    cases alnum
  · exact other.2.1 rfl
  · exact other.2.2 rfl

theorem solid : ∀ c ∈ name, blank c = false := by
  intro c member
  by_contra isBlank
  rw [Bool.not_eq_false] at isBlank
  simp only [blank, List.mem_cons, List.not_mem_nil, or_false, decide_eq_true_eq] at isBlank
  rcases isBlank with rfl | rfl | rfl | rfl | rfl | rfl <;>
    exact isName.notMem (by decide) member

theorem strip_eq : strip name = name := strip_eq_self isName.solid

theorem testName_append (rest : Str) (fenced : Fenced rest) : testName (name ++ rest) = name :=
  testName_of_fenced (isName.notMem (by decide)) fenced

theorem mem_of_head? {rest : Str} {c : Char} (first : (name ++ rest).head? = some c) : c ∈ name := by
  rw [List.head?_append_of_ne_nil _ isName.1] at first
  exact List.mem_of_mem_head? first

theorem head?_ne {rest : Str} {c : Char} (other : c.isAlphanum = false ∧ c ≠ '_' ∧ c ≠ '.') :
    (name ++ rest).head? ≠ some c :=
  fun first => isName.notMem other (isName.mem_of_head? first)

end IsTestName

variable {name : Str} {pairs : Pairs}

theorem testLine_eq (isName : IsTestName name) :
    testLine name pairs = name ++ followed (trimLast pairs.pairs) := by
  have solid : ∀ c ∈ (name ++ followed pairs.pairs).head?, blank c = false := by
    intro c first
    exact isName.solid c (isName.mem_of_head? first)
  rw [testLine, strip_eq_rstrip solid]
  cases pairs.pairs with
  | nil =>
    simp only [followed, List.flatMap_nil, List.append_nil, trimLast]
    exact rstrip_eq_self fun c last => isName.solid c (List.mem_of_getLast? last)
  | cons pair rest => exact rstrip_followed pair rest name

theorem argumentPairs_testLine (isName : IsTestName name) :
    argumentPairs (testLine name pairs) = assignAll pairs.stripped ∅ := by
  rw [testLine_eq isName, argumentPairs,
    splitKeys_name_followed (inert_of_plain (isName.notMem (by decide)))
      (trimLast_readable pairs.readable).separable,
    trimLast_strip, pairs.map_strip]

theorem argumentPairs_name (isName : IsTestName name) : argumentPairs name = ∅ := by
  have read := @splitKeys_name_followed name [] (inert_of_plain (isName.notMem (by decide)))
    (by simp [Separable])
  rw [followed, List.flatMap_nil, List.append_nil] at read
  rw [argumentPairs, read]
  rfl

/-! ## The parameters of a run -/

variable {env : Env} {key : Str}

/-- The numbers of clients and servers -/
def counted (env : Env) (key : Str) : Option (Value F) :=
  (if env.clients ≠ 0 ∧ key = str "num_clients" then some (.int env.clients) else none).or
    (if env.servers ≠ 0 ∧ key = str "num_nodes" then some (.int env.servers) else none)

theorem lookup_getTestInput (argument : Str) :
    (getTestInput env.clients env.servers argument : Params F).lookup key =
      ((optionParams argument).lookup key).or (counted env key) := by
  have counting : ∀ (count : Nat) (name : Str) (params : Params F),
      (if count ≠ 0 then setDefault params name (.int count) else params).lookup key =
        (params.lookup key).or (if count ≠ 0 ∧ key = name then some (.int count) else none) := by
    intro count name params
    by_cases some : count ≠ 0
    · rw [if_pos some, lookup_setDefault]
      simp [some]
    · simp [some]
  rw [getTestInput, counting, counting, counted, Option.or_assoc]

theorem optionParams_nil : (optionParams [] : Params F) = ∅ := by
  rw [optionParams, argumentPairs, splitKeys]
  rfl

theorem argumentPairs_joined : argumentPairs (joined pairs.pairs) = assignAll pairs.stripped ∅ := by
  rw [argumentPairs, splitKeys_joined pairs.readable.separable, pairs.map_strip]

theorem lookup_optionParams_joined {pair : Str × Str} (member : pair ∈ pairs.pairs) :
    (optionParams (joined pairs.pairs) : Params F).lookup pair.1 =
      some (optionValue (strip pair.2)) := by
  rw [lookup_optionParams, argumentPairs_joined, pairs.lookup_stripped member]
  rfl

theorem lookup_optionParams_joined_of_notMem (absent : key ∉ pairs.pairs.map Prod.fst) :
    (optionParams (joined pairs.pairs) : Params F).lookup key = none := by
  rw [lookup_optionParams, argumentPairs_joined, pairs.lookup_stripped_of_notMem absent]
  rfl

theorem lookup_runtimeParams (testParams : Params F) (argument : Str) :
    (runtimeParams env testParams argument).lookup key =
      (((optionParams argument).lookup key).or (counted env key)).or (testParams.lookup key) := by
  rw [runtimeParams, lookup_update, lookup_getTestInput]

theorem lookup_closeConf (params : Params F) : (closeConf env params).lookup key =
    if key = str "conf_file" then some (.text env.filename)
    else (params.lookup key).or (if key = str "spec" then some (.text env.spec) else none) := by
  rw [closeConf]
  by_cases file : key = str "conf_file"
  · rw [if_pos file, file, AList.lookup_insert]
  · rw [if_neg file, AList.lookup_insert_ne file, lookup_setDefault]

theorem lookup_runnerParams : (runnerParams env : Params F).lookup key =
    (counted env key).or ((closeConf env (iniParams env)).lookup key) := by
  rw [runnerParams, lookup_runtimeParams, optionParams_nil]
  rfl

theorem counted_eq_none : (counted env key : Option (Value F)) = none ↔
    ¬ (key = str "num_clients" ∧ env.clients ≠ 0) ∧ ¬ (key = str "num_nodes" ∧ env.servers ≠ 0) := by
  rw [counted, Option.or_eq_none_iff]
  simp only [ite_eq_right_iff, reduceCtorEq, imp_false]
  tauto

theorem runnerParams_setLast (last : SetLast env key) :
    ((runnerParams env : Params F).lookup key).isSome := by
  rw [lookup_runnerParams, lookup_closeConf]
  by_cases file : key = str "conf_file"
  · rw [if_pos file]
    cases (counted env key : Option (Value F)) <;> rfl
  · cases number : (counted env key : Option (Value F)) with
    | none =>
      obtain ⟨clients, servers⟩ := counted_eq_none.mp number
      exact absurd last (by simp only [SetLast, not_or]; exact ⟨file, clients, servers⟩)
    | some value => rfl

/-- The section decides unless the runner sets the name later. -/
theorem lookup_section {pair : Str × Str} (member : pair ∈ pairs.pairs) :
    (runtimeParams env (closeConf env (assignAll
      (pairs.rstripped.map fun pair => (pair.1, Value.text pair.2)) (iniParams env))) [] :
        Params F).lookup pair.1 =
      if SetLast env pair.1 then (runnerParams env).lookup pair.1
      else some (.text (rstrip pair.2)) := by
  have stored : (assignAll (pairs.rstripped.map fun pair => (pair.1, Value.text pair.2))
      (iniParams env) : Params F).lookup pair.1 = some (.text (rstrip pair.2)) := by
    apply lookup_assignAll_of_mem
    · rw [List.map_map]
      exact pairs.keys_rstripped ▸ pairs.distinct
    · exact List.mem_map.mpr ⟨_, List.mem_map.mpr ⟨pair, member, rfl⟩, rfl⟩
  rw [lookup_runtimeParams, optionParams_nil, lookup_runnerParams, lookup_closeConf, lookup_closeConf,
    stored]
  by_cases file : pair.1 = str "conf_file"
  · rw [if_pos file, if_pos (.inl file), if_pos file]
    rfl
  · rw [if_neg file, if_neg file]
    cases number : (counted env pair.1 : Option (Value F)) with
    | none =>
      have early : ¬ SetLast env pair.1 := by
        simp only [SetLast, not_or]
        exact ⟨file, counted_eq_none.mp number⟩
      rw [if_neg early]
      rfl
    | some value =>
      have last : SetLast env pair.1 := by
        by_contra early
        simp only [SetLast, not_or] at early
        rw [counted_eq_none.mpr early.2] at number
        cases number
      rw [if_pos last]
      rfl

/-! ## The conf files -/

/-- `loadTestsFromName` finds no test under a name with a `,` or `=` in it. -/
def FindsOnlyNames (load : Loader) : Prop :=
  ∀ name, ',' ∈ name ∨ '=' ∈ name → load name = none

variable {load : Loader}

theorem mem_rdropWhile {p : Char → Bool} {text : Str} {c : Char} (member : c ∈ text)
    (kept : p c = false) : c ∈ text.rdropWhile p := by
  rw [← @List.rdropWhile_append_rtakeWhile _ p text] at member
  rcases List.mem_append.mp member with inside | dropped
  · exact inside
  · have := List.mem_rtakeWhile_imp dropped
    rw [kept] at this
    cases this

theorem appendTest_star (only : FindsOnlyNames load) {tests : List Str} {line : Str}
    (odd : ',' ∈ line ∨ '=' ∈ line) (first : line.head? ≠ some '*') (star : '*' ∈ line)
    (disallowed : ¬ StarAllowed line) : appendTest load tests line = none := by
  rw [appendTest, if_pos ⟨disallowed, star, first⟩, only]
  · rfl
  · rcases odd with comma | equals
    · exact .inl (mem_rdropWhile comma (by decide))
    · exact .inr (mem_rdropWhile equals (by decide))

theorem appendTest_plain {tests : List Str} {line : Str}
    (plain : '*' ∈ line → StarAllowed line) : appendTest load tests line = some (tests ++ [line]) := by
  rw [appendTest, if_neg]
  rintro ⟨disallowed, star, -⟩
  exact disallowed (plain star)

theorem appendTest_some (only : FindsOnlyNames load) {tests after : List Str} {line : Str}
    (odd : ',' ∈ line ∨ '=' ∈ line) (appended : appendTest load tests line = some after) :
    after = tests ++ [line] := by
  by_cases star : '*' ∈ line → StarAllowed line
  · rw [appendTest_plain star] at appended
    exact (Option.some.inj appended).symm
  · push Not at star
    by_cases first : line.head? = some '*'
    · rw [appendTest, if_neg (by simp [first])] at appended
      exact (Option.some.inj appended).symm
    · rw [appendTest_star only odd first star.1 star.2] at appended
      cases appended

/-- The first line of a file, which is a test -/
theorem confLine_first {params : Params F} {line : Str} (solid : strip line ≠ [])
    (hash : (strip line).head? ≠ some '#') (colon : (strip line).getLast? ≠ some ':') :
    confLine load { modulePrefix := none, tests := [], params := params } line =
      (appendTest load [] (strip line)).map fun tests =>
        { modulePrefix := some (moduleOf (testName (strip line))), tests := tests,
          params := params } := by
  have outside : ¬ InParams ({ modulePrefix := none, tests := [], params := params } : Conf F) := by
    rintro ⟨named, found, -⟩
    cases found
  rw [confLine]
  simp only [hash, solid, colon, outside, or_self, if_false, lineName]
  cases appendTest load [] (strip line) <;> rfl

theorem parseArgs_single (line : Str) : (parseArgs load env [line] : Option (List Str × Params F)) =
    (confLine load { modulePrefix := none, tests := [], params := iniParams env } line).map
      fun conf => (conf.tests, closeConf env conf.params) := by
  rw [parseArgs, parseConfFile, List.foldlM_cons]
  cases confLine load { modulePrefix := none, tests := [], params := iniParams env } line <;> rfl

theorem testLine_ne_nil (isName : IsTestName name) : testLine name pairs ≠ [] := by
  rw [testLine_eq isName]
  exact List.append_ne_nil_of_left_ne_nil isName.1 _

theorem testName_testLine (isName : IsTestName name) : testName (testLine name pairs) = name := by
  rw [testLine_eq isName]
  exact isName.testName_append _ (followed_fenced _)

/-- The value at the end of the line of a test does not end with a colon. -/
def EndsPlain (pairs : Pairs) : Prop :=
  ∀ last, pairs.pairs.getLast? = some last → (rstrip last.2).getLast? ≠ some ':'

theorem testLine_colon (isName : IsTestName name) :
    (testLine name pairs).getLast? ≠ some ':' ↔ EndsPlain pairs := by
  have plain : name.getLast? ≠ some ':' := fun last =>
    isName.notMem (by decide) (List.mem_of_getLast? last)
  rw [testLine_eq isName, Ne, getLast?_followed_trimLast, EndsPlain]
  simp [plain]

theorem testLine_hash (isName : IsTestName name) : (testLine name pairs).head? ≠ some '#' := by
  rw [testLine_eq isName]
  exact isName.head?_ne (by decide)

theorem observe_line (isName : IsTestName name) (colon : EndsPlain pairs)
    (star : '*' ∈ testLine name pairs → StarAllowed (testLine name pairs)) (argument : Str) :
    (observe load env name [name ++ followed pairs.pairs] argument : Option (Params F)) =
      let runtime := runtimeParams env (closeConf env (iniParams env)) argument
      if allows runtime (argumentPairs (testLine name pairs)) = some true then
        some (startParams env.root runtime 1 (testLine name pairs))
      else none := by
  rw [observe, parseArgs_single, confLine_first (testLine_ne_nil isName) (testLine_hash isName)
    ((testLine_colon isName).mpr colon), ← testLine, appendTest_plain star]
  simp only [Option.map_some, List.nil_append, testName_testLine isName, true_and]

theorem comma_mem_testLine (isName : IsTestName name) (star : '*' ∈ testLine name pairs) :
    ',' ∈ testLine name pairs := by
  rw [testLine_eq isName] at star ⊢
  have outside : '*' ∉ name := isName.notMem (by decide)
  have inside : '*' ∈ followed (trimLast pairs.pairs) := by
    rcases List.mem_append.mp star with member | member
    · exact absurd member outside
    · exact member
  apply List.mem_append_right
  cases trimmed : trimLast pairs.pairs with
  | nil =>
    rw [trimmed] at inside
    cases inside
  | cons pair rest =>
    rw [followed_cons]
    exact List.mem_cons_self

theorem observe_line_some (only : FindsOnlyNames load) (isName : IsTestName name) {argument : Str}
    {start : Params F}
    (observed : observe load env name [name ++ followed pairs.pairs] argument = some start) :
    EndsPlain pairs ∧ ('*' ∈ testLine name pairs → StarAllowed (testLine name pairs)) := by
  rw [observe, parseArgs_single] at observed
  by_cases colon : EndsPlain pairs
  · refine ⟨colon, fun star => ?_⟩
    by_contra disallowed
    have first : (testLine name pairs).head? ≠ some '*' := by
      rw [testLine_eq isName]
      exact isName.head?_ne (by decide)
    rw [confLine_first (testLine_ne_nil isName) (testLine_hash isName)
      ((testLine_colon isName).mpr colon), ← testLine,
      appendTest_star only (.inl (comma_mem_testLine isName star)) first star disallowed] at observed
    cases observed
  · -- The line is read as a module prefix, and the file has no test.
    have ends : (testLine name pairs).getLast? = some ':' := by
      by_contra other
      exact colon ((testLine_colon isName).mp other)
    rw [confLine, ← testLine] at observed
    simp [testLine_hash isName, testLine_ne_nil isName, ends] at observed

theorem observe_name (isName : IsTestName name) (argument : Str) :
    (observe load env name [name] argument : Option (Params F)) =
      let runtime := runtimeParams env (closeConf env (iniParams env)) argument
      if allows runtime ∅ = some true then some (startParams env.root runtime 1 name) else none := by
  let none : Pairs := ⟨[], by simp, by simp [Readable], by simp, by simp⟩
  have line : testLine name none = name := by
    rw [testLine_eq isName]
    simp [none, trimLast, followed]
  have observed := @observe_line F name none env load isName (by simp [EndsPlain, none])
    (by rw [line]; exact fun star => absurd star (isName.notMem (by decide))) argument
  rw [line, argumentPairs_name isName] at observed
  rw [← observed]
  simp [none, followed]

/-! ## The section -/

/-- A line of the section that is a comment or the name of a section -/
def Misread (pair : Str × Str) : Prop :=
  pair.1.head? = some '#' ∨ (rstrip pair.2).getLast? = some ':'

theorem strip_assignment {pair : Str × Str} (member : pair ∈ pairs.pairs) :
    strip (assignment pair) = pair.1 ++ '=' :: rstrip pair.2 := by
  obtain ⟨⟨nonempty, -⟩, -⟩ := pairs.readable pair member
  rw [assignment, strip_eq_rstrip, rstrip_append_cons (by decide)]
  intro c first
  rw [List.head?_append_of_ne_nil _ nonempty] at first
  exact pairs.solid pair member c (List.mem_of_mem_head? first)

theorem head?_assignment {pair : Str × Str} (member : pair ∈ pairs.pairs) (rest : Str) :
    (pair.1 ++ '=' :: rest).head? = pair.1.head? :=
  List.head?_append_of_ne_nil _ (pairs.readable pair member).1.1

theorem confLine_pair {pair : Str × Str} (member : pair ∈ pairs.pairs) (plain : ¬ Misread pair)
    {conf : Conf F} (inside : InParams conf) :
    confLine load conf (assignment pair) =
      some { conf with params := conf.params.insert pair.1 (.text (rstrip pair.2)) } := by
  simp only [Misread, not_or] at plain
  obtain ⟨⟨nonempty, isKey⟩, -⟩ := pairs.readable pair member
  have stop : ∀ c ∈ pair.1, decide (c ≠ '=') = true := by
    intro c inKey
    have := isKey c inKey
    simp only [keyChar, decide_eq_true_eq] at this
    simpa using this.2
  have taken : (pair.1 ++ '=' :: rstrip pair.2).takeWhile (· ≠ '=') = pair.1 := by
    rw [List.takeWhile_append_of_pos stop]
    simp
  have dropped : (pair.1 ++ '=' :: rstrip pair.2).dropWhile (· ≠ '=') = '=' :: rstrip pair.2 := by
    rw [List.dropWhile_append_of_pos stop]
    simp
  rw [confLine, strip_assignment member]
  simp only [head?_assignment member, plain.1, getLast?_equals, plain.2, inside, taken, dropped]
  simp

/-- Whatever stands in front of the first separator is in the first part. -/
theorem splitOn_head_mem {front text : Str} {c d : Char} (absent : d ∉ front) (other : c ≠ d) :
    ∃ named, ((front ++ c :: text).splitOn d).head? = some named ∧ c ∈ named := by
  induction front with
  | nil =>
    obtain ⟨first, rest, parts⟩ := List.exists_cons_of_ne_nil (List.splitOn_ne_nil d text)
    refine ⟨c :: first, ?_, List.mem_cons_self⟩
    rw [List.nil_append, List.splitOn_cons_eq_if_modifyHead, if_neg (by simpa using other), parts]
    rfl
  | cons e front ih =>
    have different : e ≠ d := fun same => absent (same ▸ List.mem_cons_self)
    obtain ⟨named, found, member⟩ := ih fun inside => absent (List.mem_cons_of_mem _ inside)
    refine ⟨e :: named, ?_, List.mem_cons_of_mem _ member⟩
    rw [List.cons_append, List.splitOn_cons_eq_if_modifyHead, if_neg (by simpa using different),
      List.head?_modifyHead, found]
    rfl

/-- What a line of the section can do: it is misread, it is stored, or it has become a test. -/
theorem confLine_cases (only : FindsOnlyNames load) {pair : Str × Str} (member : pair ∈ pairs.pairs)
    {conf next : Conf F} (read : confLine load conf (assignment pair) = some next) :
    (Misread pair ∧ next.tests = conf.tests ∧ next.params = conf.params ∧
      (':' ∉ pair.1 → pair.1.head? ≠ some '#' → ¬ InParams next)) ∨
    (¬ Misread pair ∧ InParams conf ∧
      next = { conf with params := conf.params.insert pair.1 (.text (rstrip pair.2)) }) ∨
    (¬ Misread pair ∧ ¬ InParams conf ∧ next.params = conf.params ∧
      ∃ line, next.tests = conf.tests ++ [line]) := by
  by_cases misread : Misread pair
  · left
    rw [confLine, strip_assignment member] at read
    simp only [head?_assignment member, getLast?_equals] at read
    split at read
    · rename_i hash
      cases read
      refine ⟨misread, rfl, rfl, fun _ other => absurd ?_ other⟩
      simpa using hash
    · rename_i other
      rcases misread with hash | colon
      · exact absurd (.inl hash) other
      · rw [if_pos colon] at read
        cases read
        refine ⟨.inr colon, rfl, rfl, fun plain _ inside => ?_⟩
        -- The name of the new section has the `=` of the line in it.
        obtain ⟨named, found, equals⟩ := @splitOn_head_mem pair.1 (rstrip pair.2) '=' ':' plain
          (by decide)
        obtain ⟨sectionName, given, params⟩ := inside
        have same : named = sectionName := Option.some.inj (found.symm.trans given)
        subst same
        have lowered : '=' ∈ lower named := List.mem_map.mpr ⟨'=', equals, by decide⟩
        rw [params] at lowered
        exact absurd lowered (by decide)
  · by_cases inside : InParams conf
    · right; left
      rw [confLine_pair member misread inside] at read
      exact ⟨misread, inside, (Option.some.inj read).symm⟩
    · right; right
      rw [confLine, strip_assignment member] at read
      simp only [Misread, not_or] at misread
      have solid : (pair.1 ++ '=' :: rstrip pair.2) ≠ [] := by simp
      simp only [head?_assignment member, getLast?_equals, misread.1, misread.2, solid, inside,
        or_self, if_false] at read
      obtain ⟨tests, appended, made⟩ := Option.bind_eq_some_iff.mp read
      cases made
      refine ⟨by simp [Misread, misread], inside, rfl, _, appendTest_some only (.inr ?_) appended⟩
      have equals : '=' ∈ strip (assignment pair) := by simp [strip_assignment member]
      unfold lineName
      split
      · split
        · exact List.mem_append_right _ (List.mem_cons_of_mem _ equals)
        · exact equals
      · exact equals

theorem fold_good {rest : List (Str × Str)} (known : ∀ pair ∈ rest, pair ∈ pairs.pairs)
    (plain : ∀ pair ∈ rest, ¬ Misread pair) {conf : Conf F} (inside : InParams conf) :
    (rest.map assignment).foldlM (confLine load) conf = some { conf with params := (assignAll
      (rest.map fun pair => (pair.1, Value.text (rstrip pair.2))) conf.params) } := by
  induction rest generalizing conf with
  | nil => rfl
  | cons pair rest ih =>
    rw [List.map_cons, List.foldlM_cons, confLine_pair (known pair List.mem_cons_self)
      (plain pair List.mem_cons_self) inside]
    exact ih (fun other member => known other (List.mem_cons_of_mem _ member))
      (fun other member => plain other (List.mem_cons_of_mem _ member)) inside

/-- A name whose line is misread is not among what the section sets. -/
theorem fold_params (only : FindsOnlyNames load) {rest : List (Str × Str)}
    (known : ∀ pair ∈ rest, pair ∈ pairs.pairs) {conf final : Conf F}
    (read : (rest.map assignment).foldlM (confLine load) conf = some final)
    (lost : ∀ pair ∈ rest, pair.1 = key → Misread pair) :
    final.params.lookup key = conf.params.lookup key := by
  induction rest generalizing conf with
  | nil =>
    cases read
    rfl
  | cons pair rest ih =>
    rw [List.map_cons, List.foldlM_cons] at read
    obtain ⟨next, first, read⟩ := Option.bind_eq_some_iff.mp read
    have later := ih (fun other member => known other (List.mem_cons_of_mem _ member)) read
      fun other member => lost other (List.mem_cons_of_mem _ member)
    rw [later]
    rcases confLine_cases only (known pair List.mem_cons_self) first with
      ⟨-, -, same, -⟩ | ⟨plain, -, rfl⟩ | ⟨-, -, same, -⟩
    · rw [same]
    · exact AList.lookup_insert_ne fun same => plain (lost pair List.mem_cons_self same.symm)
    · rw [same]

theorem fold_tests (only : FindsOnlyNames load) {rest : List (Str × Str)}
    (known : ∀ pair ∈ rest, pair ∈ pairs.pairs) {conf final : Conf F}
    (read : (rest.map assignment).foldlM (confLine load) conf = some final) :
    conf.tests <+: final.tests := by
  induction rest generalizing conf with
  | nil =>
    cases read
    exact List.prefix_rfl
  | cons pair rest ih =>
    rw [List.map_cons, List.foldlM_cons] at read
    obtain ⟨next, first, read⟩ := Option.bind_eq_some_iff.mp read
    have later := ih (fun other member => known other (List.mem_cons_of_mem _ member)) read
    rcases confLine_cases only (known pair List.mem_cons_self) first with
      ⟨-, same, -⟩ | ⟨-, -, rfl⟩ | ⟨-, -, -, line, same⟩
    · rwa [same] at later
    · exact later
    · rw [same] at later
      exact (List.prefix_append _ _).trans later

/-- Outside of the section every line that is not misread adds a test. -/
theorem fold_outside (only : FindsOnlyNames load) {rest : List (Str × Str)}
    (known : ∀ pair ∈ rest, pair ∈ pairs.pairs) {conf final : Conf F}
    (read : (rest.map assignment).foldlM (confLine load) conf = some final)
    (named : ∀ pair ∈ rest, Misread pair → ':' ∉ pair.1 ∧ pair.1.head? ≠ some '#')
    (outside : ¬ InParams conf) (few : final.tests.length ≤ conf.tests.length) :
    ∀ pair ∈ rest, Misread pair := by
  induction rest generalizing conf with
  | nil => simp
  | cons pair rest ih =>
    rw [List.map_cons, List.foldlM_cons] at read
    obtain ⟨next, first, read⟩ := Option.bind_eq_some_iff.mp read
    have tail : ∀ other ∈ rest, other ∈ pairs.pairs :=
      fun other member => known other (List.mem_cons_of_mem _ member)
    have more := (fold_tests only tail read).length_le
    rcases confLine_cases only (known pair List.mem_cons_self) first with
      ⟨misread, same, -, left⟩ | ⟨-, inside, -⟩ | ⟨-, -, -, line, longer⟩
    · obtain ⟨colon, hash⟩ := named pair List.mem_cons_self misread
      intro other member
      rcases List.mem_cons.mp member with rfl | member
      · exact misread
      · exact ih tail read (fun other member => named other (List.mem_cons_of_mem _ member))
          (left colon hash) (by rwa [same]) other member
    · exact absurd inside outside
    · rw [longer, List.length_append, List.length_singleton] at more
      omega

/-- A section that sets no further test and does not end misread is read as it stands. -/
theorem fold_plain (only : FindsOnlyNames load) {rest : List (Str × Str)}
    (known : ∀ pair ∈ rest, pair ∈ pairs.pairs) {conf final : Conf F}
    (read : (rest.map assignment).foldlM (confLine load) conf = some final)
    (named : ∀ pair ∈ rest, Misread pair → ':' ∉ pair.1 ∧ pair.1.head? ≠ some '#')
    (last : ∀ pair, rest.getLast? = some pair → ¬ Misread pair)
    (inside : InParams conf) (few : final.tests.length ≤ conf.tests.length) :
    ∀ pair ∈ rest, ¬ Misread pair := by
  induction rest generalizing conf with
  | nil => simp
  | cons pair rest ih =>
    rw [List.map_cons, List.foldlM_cons] at read
    obtain ⟨next, first, read⟩ := Option.bind_eq_some_iff.mp read
    have tail : ∀ other ∈ rest, other ∈ pairs.pairs :=
      fun other member => known other (List.mem_cons_of_mem _ member)
    have later : ∀ other ∈ rest, Misread other → ':' ∉ other.1 ∧ other.1.head? ≠ some '#' :=
      fun other member => named other (List.mem_cons_of_mem _ member)
    rcases confLine_cases only (known pair List.mem_cons_self) first with
      ⟨misread, same, -, left⟩ | ⟨plain, -, rfl⟩ | ⟨-, outside, -⟩
    · -- All that follow are misread too, and so is the last one.
      obtain ⟨colon, hash⟩ := named pair List.mem_cons_self misread
      have all := fold_outside only tail read later (left colon hash) (by rwa [same])
      exfalso
      rcases List.eq_nil_or_concat rest with rfl | ⟨front, final, rfl⟩
      · exact last pair rfl misread
      · exact last final (by rw [List.concat_eq_append, ← List.cons_append, List.getLast?_concat]) (all final (by simp))
    · intro other member
      rcases List.mem_cons.mp member with rfl | member
      · exact plain
      · refine ih tail read later (fun pair ending => last pair ?_) inside few other member
        rw [List.getLast?_cons, ending]
        rfl
    · exact absurd inside outside

/-- The file up to the first pair of its section -/
def sectionConf (env : Env) (name : Str) : Conf F where
  modulePrefix := some (str "params")
  tests := [name]
  params := iniParams env

theorem sectionConf_inParams : InParams (sectionConf env name : Conf F) :=
  ⟨str "params", rfl, by decide⟩

theorem parseArgs_section (isName : IsTestName name) (rest : List Str) :
    (parseArgs load env (name :: str "params:" :: rest) : Option (List Str × Params F)) =
      (rest.foldlM (confLine load) (sectionConf env name)).map fun conf =>
        (conf.tests, closeConf env conf.params) := by
  have solid : strip name ≠ [] := by rw [isName.strip_eq]; exact isName.1
  have hash : (strip name).head? ≠ some '#' := by
    rw [isName.strip_eq]
    exact fun first => isName.notMem (by decide) (List.mem_of_mem_head? first)
  have colon : (strip name).getLast? ≠ some ':' := by
    rw [isName.strip_eq]
    exact fun last => isName.notMem (by decide) (List.mem_of_getLast? last)
  have star : '*' ∈ name → StarAllowed name := fun star => absurd star (isName.notMem (by decide))
  have header : ∀ conf : Conf F, confLine load conf (str "params:") =
      some { conf with modulePrefix := some (str "params") } := by
    intro conf
    rw [confLine, show strip (str "params:") = str "params:" by decide]
    rfl
  rw [parseArgs, parseConfFile, List.foldlM_cons, confLine_first solid hash colon, isName.strip_eq,
    appendTest_plain star]
  simp only [Option.map_some, List.nil_append, Option.bind_eq_bind, Option.bind_some,
    List.foldlM_cons, header]
  show (rest.foldlM (confLine load) (sectionConf env name)).bind _ = _
  cases rest.foldlM (confLine load) (sectionConf env name : Conf F) <;> rfl

theorem testName_self (isName : IsTestName name) : testName name = name := by
  have whole := isName.testName_append [] (by simp [Fenced])
  rwa [List.append_nil] at whole

/-- The parameters of the run when the section is read as it stands -/
def sectionParams (env : Env) (pairs : Pairs) : Params F :=
  runtimeParams env (closeConf env (assignAll
    (pairs.rstripped.map fun pair => (pair.1, Value.text pair.2)) (iniParams env))) []

theorem inSection_eq (isName : IsTestName name) (plain : ∀ pair ∈ pairs.pairs, ¬ Misread pair) :
    (inSection load env name pairs : Option (Params F)) =
      if allows (sectionParams env pairs : Params F) ∅ = some true then
        some (startParams env.root (sectionParams env pairs) 1 name)
      else none := by
  rw [inSection, observe, parseArgs_section isName,
    fold_good (fun _ member => member) plain sectionConf_inParams]
  simp only [Option.map_some, sectionConf, testName_self isName, true_and,
    argumentPairs_name isName, sectionParams, Pairs.rstripped, List.map_map, Function.comp_def]

theorem inSection_some (only : FindsOnlyNames load) (isName : IsTestName name) {start : Params F}
    (observed : inSection load env name pairs = some start) :
    ∃ final, (pairs.pairs.map assignment).foldlM (confLine load) (sectionConf env name) =
        some final ∧ final.tests = [name] ∧
      start = startParams env.root (runtimeParams env (closeConf env final.params) []) 1 name := by
  rw [inSection, observe, parseArgs_section isName] at observed
  cases read : (pairs.pairs.map assignment).foldlM (confLine load) (sectionConf env name : Conf F) with
  | none =>
    rw [read] at observed
    cases observed
  | some final =>
    rw [read] at observed
    obtain ⟨more, tests⟩ := fold_tests only (fun _ member => member) read
    -- The first test of the file is the named one, and there is no other.
    refine ⟨final, rfl, ?_⟩
    rw [Option.map_some] at observed
    cases more with
    | nil =>
      have single : final.tests = [name] := tests.symm
      rw [single] at observed
      simp only at observed
      split at observed
      · exact ⟨single, (Option.some.inj observed).symm⟩
      · cases observed
    | cons line more =>
      have longer : final.tests = name :: line :: more := tests.symm
      rw [longer] at observed
      cases observed

/-- The names that a test finds in its dictionary whether they are given or not -/
def runnerNames : List Str :=
  [str "ini", str "cluster_name", str "spec", str "conf_file", str "num_clients", str "num_nodes",
    str "case_number", str "logs_folder", str "rerun"]

theorem mem_runnerNames {params : Params F} (isName : IsTestName name)
    (unset : params.lookup key = (iniParams env).lookup key)
    (found : ((startParams env.root (runtimeParams env (closeConf env params) []) 1 name :
      Params F).lookup key).isSome) : key ∈ runnerNames := by
  by_contra absent
  simp only [runnerNames, List.mem_cons, List.not_mem_nil, or_false, not_or] at absent
  obtain ⟨ini, cluster, spec, file, clients, servers, number, folder, rerun⟩ := absent
  have base : (iniParams env : Params F).lookup key = none := by
    rw [iniParams, lookup_assignAll_of_notMem (by simp [ini, cluster])]
    rfl
  have uncounted : (counted env key : Option (Value F)) = none :=
    counted_eq_none.mpr ⟨fun same => clients same.1, fun same => servers same.1⟩
  rw [lookup_startParams, expectedStart, if_neg number, if_neg folder, lookup_runtimeParams,
    optionParams_nil, uncounted, lookup_closeConf, if_neg file, unset, base, if_neg spec,
    argumentPairs_name isName, if_neg rerun] at found
  cases found

theorem runnerNames_plain : ∀ key ∈ runnerNames, ':' ∉ key ∧ key.head? ≠ some '#' := by
  decide

/-- A section from which `param` reads every pair is read as it stands. -/
theorem section_plain (only : FindsOnlyNames load) (isName : IsTestName name) {start : Params F}
    (observed : inSection load env name pairs = some start) (ending : EndsPlain pairs)
    (found : ∀ pair ∈ pairs.pairs, (start.lookup pair.1).isSome) :
    ∀ pair ∈ pairs.pairs, ¬ Misread pair := by
  obtain ⟨final, read, tests, rfl⟩ := inSection_some only isName observed
  have named : ∀ pair ∈ pairs.pairs, Misread pair → ':' ∉ pair.1 ∧ pair.1.head? ≠ some '#' := by
    intro pair member misread
    have lost : ∀ other ∈ pairs.pairs, other.1 = pair.1 → Misread other := by
      intro other inside same
      rwa [List.inj_on_of_nodup_map pairs.distinct inside member same]
    have unset : final.params.lookup pair.1 = (iniParams env).lookup pair.1 :=
      fold_params only (fun _ member => member) read lost
    exact runnerNames_plain pair.1 (mem_runnerNames isName unset (found pair member))
  have last : ∀ pair, pairs.pairs.getLast? = some pair → ¬ Misread pair := by
    rintro pair final (hash | colon)
    · have member := List.mem_of_getLast? final
      exact (named pair member (.inl hash)).2 hash
    · exact ending pair final colon
  exact fold_plain only (fun _ member => member) read named last sectionConf_inParams
    (by rw [tests]; exact le_refl _)

/-! ## What the test finds -/

theorem runnerParams_group (name : Str) (member : name ∈ [group, excludeGroup]) :
    (runnerParams env : Params F).lookup name = none := by
  have other : name ∉ runnerNames := by
    fin_cases member <;> decide
  simp only [runnerNames, List.mem_cons, List.not_mem_nil, or_false, not_or] at other
  obtain ⟨ini, cluster, spec, file, clients, servers, -⟩ := other
  rw [lookup_runnerParams, counted_eq_none.mpr ⟨fun same => clients same.1,
    fun same => servers same.1⟩, lookup_closeConf, if_neg file, if_neg spec, iniParams,
    lookup_assignAll_of_notMem (by simp [ini, cluster])]
  rfl

theorem allows_runnerParams (own : AList fun _ : Str => Str) :
    allows (runnerParams env : Params F) own = some true := by
  rw [allows, groupAllows, runnerParams_group group (by simp), excludeAllows,
    runnerParams_group excludeGroup (by simp)]

theorem onLine_eq (isName : IsTestName name) (colon : EndsPlain pairs)
    (star : '*' ∈ testLine name pairs → StarAllowed (testLine name pairs)) :
    (onLine load env name pairs : Option (Params F)) =
      some (startParams env.root (runnerParams env) 1 (testLine name pairs)) := by
  rw [onLine, observe_line isName colon star]
  simp only
  rw [← runnerParams, if_pos (allows_runnerParams _)]

/-- The parameters of the run under `-p` -/
def optionRuntime (env : Env) (pairs : Pairs) : Params F :=
  runtimeParams env (closeConf env (iniParams env)) (joined pairs.pairs)

theorem inOption_eq (isName : IsTestName name) : (inOption load env name pairs : Option (Params F)) =
    if allows (optionRuntime env pairs : Params F) ∅ = some true then
      some (startParams env.root (optionRuntime env pairs) 1 name)
    else none := by
  rw [inOption, observe_name isName]
  rfl

theorem lookup_optionRuntime {pair : Str × Str} (member : pair ∈ pairs.pairs) :
    (optionRuntime env pairs : Params F).lookup pair.1 = some (optionValue (strip pair.2)) := by
  rw [optionRuntime, lookup_runtimeParams, lookup_optionParams_joined member]
  rfl

theorem lookup_optionRuntime_of_notMem (absent : key ∉ pairs.pairs.map Prod.fst) :
    (optionRuntime env pairs : Params F).lookup key = (runnerParams env).lookup key := by
  rw [optionRuntime, lookup_runtimeParams, lookup_optionParams_joined_of_notMem absent,
    lookup_runnerParams]
  rfl

theorem mem_strip_iff {c : Char} (solid : blank c = false) {text : Str} :
    c ∈ strip text ↔ c ∈ text := by
  constructor
  · intro member
    exact (List.dropWhile_suffix _).subset (mem_rstrip member)
  · intro member
    apply mem_rdropWhile _ solid
    rw [← @List.takeWhile_append_dropWhile _ blank text] at member
    rcases List.mem_append.mp member with taken | dropped
    · have := List.mem_takeWhile_imp taken
      rw [solid] at this
      cases this
    · exact dropped

/-- Only a value without a comma is stored as a text. -/
theorem optionValue_strip (value : Str) : (optionValue (strip value) : Value F) =
    if ',' ∈ value then .list (((strip value).splitOn ',').map strip) else .text (strip value) := by
  have iff := @mem_strip_iff ',' (by decide) value
  by_cases comma : ',' ∈ value
  · rw [if_pos comma, optionValue]
    split
    · rename_i single parts
      have one := congrArg List.length parts
      obtain ⟨front, rest, same⟩ := List.append_of_mem (iff.mpr comma)
      have first := List.length_pos_iff.mpr (List.splitOn_ne_nil ',' front)
      have second := List.length_pos_iff.mpr (List.splitOn_ne_nil ',' rest)
      rw [same, List.splitOn_append_cons_self, List.length_map, List.length_append] at one
      simp only [List.length_singleton] at one
      omega
    · rfl
  · rw [if_neg comma, optionValue, List.splitOn_eq_singleton fun inside => comma (iff.mp inside)]
    simp

/-- A line without a group runs if no group is requested, or all of them are. -/
theorem allows_empty {runtime : Params F} : allows runtime ∅ = some true ↔
    ∀ value, runtime.lookup group = some value →
      ∃ content, value = .text content ∧ str "ALL" ∈ content.splitOn ';' := by
  have excluded : excludeAllows runtime ∅ = some true := by
    rw [excludeAllows]
    cases runtime.lookup excludeGroup <;> rfl
  rw [allows, groupAllows]
  cases runtime.lookup group with
  | none => simp [excluded]
  | some value =>
    cases value with
    | text content =>
      simp only [groupsOf, Option.bind_eq_bind, Option.bind_some, Option.some.injEq, forall_eq']
      by_cases everybody : str "ALL" ∈ content.splitOn ';'
      · simp [everybody, excluded]
      · simp [everybody]
    | list items => simp [groupsOf]
    | int number => simp [groupsOf]
    | bool truth => simp [groupsOf]
    | other parsed => simp [groupsOf]

theorem allows_optionRuntime : allows (optionRuntime env pairs : Params F) ∅ = some true ↔
    ∀ pair ∈ pairs.pairs, pair.1 = group →
      ',' ∉ pair.2 ∧ str "ALL" ∈ (strip pair.2).splitOn ';' := by
  rw [allows_empty]
  constructor
  · intro asked pair member isGroup
    obtain ⟨content, same, everybody⟩ := asked _ (isGroup ▸ lookup_optionRuntime member)
    rw [optionValue_strip] at same
    split at same
    · cases same
    · rename_i single
      cases same
      exact ⟨single, everybody⟩
  · intro asked value found
    by_cases given : group ∈ pairs.pairs.map Prod.fst
    · obtain ⟨pair, member, isGroup⟩ := List.mem_map.mp given
      obtain ⟨single, everybody⟩ := asked pair member isGroup
      rw [← isGroup, lookup_optionRuntime member, optionValue_strip, if_neg single] at found
      exact ⟨strip pair.2, (Option.some.inj found).symm, everybody⟩
    · rw [lookup_optionRuntime_of_notMem given, runnerParams_group group (by simp)] at found
      cases found

theorem lookup_sectionParams_of_notMem (absent : key ∉ pairs.pairs.map Prod.fst) :
    (sectionParams env pairs : Params F).lookup key = (runnerParams env).lookup key := by
  have unset : (assignAll (pairs.rstripped.map fun pair => (pair.1, Value.text pair.2))
      (iniParams env) : Params F).lookup key = (iniParams env).lookup key := by
    apply lookup_assignAll_of_notMem
    rw [List.map_map]
    exact pairs.keys_rstripped ▸ absent
  rw [sectionParams, lookup_runtimeParams, optionParams_nil, lookup_runnerParams, lookup_closeConf,
    lookup_closeConf, unset]
  rfl

theorem allows_sectionParams : allows (sectionParams env pairs : Params F) ∅ = some true ↔
    ∀ pair ∈ pairs.pairs, pair.1 = group → str "ALL" ∈ (rstrip pair.2).splitOn ';' := by
  have early : ¬ SetLast env group := by
    rintro (same | ⟨same, -⟩ | ⟨same, -⟩) <;> exact absurd same (by decide)
  have stored : ∀ pair ∈ pairs.pairs, pair.1 = group →
      (sectionParams env pairs : Params F).lookup group = some (.text (rstrip pair.2)) := by
    intro pair member isGroup
    have found := @lookup_section F pairs env pair member
    rw [isGroup, if_neg early] at found
    exact found
  rw [allows_empty]
  constructor
  · intro asked pair member isGroup
    obtain ⟨content, same, everybody⟩ := asked _ (stored pair member isGroup)
    cases same
    exact everybody
  · intro asked value found
    by_cases given : group ∈ pairs.pairs.map Prod.fst
    · obtain ⟨pair, member, isGroup⟩ := List.mem_map.mp given
      rw [stored pair member isGroup] at found
      exact ⟨_, (Option.some.inj found).symm, asked pair member isGroup⟩
    · rw [lookup_sectionParams_of_notMem given, runnerParams_group group (by simp)] at found
      cases found

/-- The value of a pair on the line, in the section and in the option -/
structure Found (floats : Floats F) (env : Env) (name : Str) (pairs : Pairs) (pair : Str × Str)
    (value : Param F) : Prop where
  line : param floats (startParams env.root (runnerParams env) 1 (testLine name pairs)) pair.1 none =
    some value
  sect : param floats (startParams env.root (sectionParams env pairs) 1 name) pair.1 none = some value
  option : param floats (startParams env.root (optionRuntime env pairs) 1 name) pair.1 none = some value

/-- What `param` reads in a dictionary of a test -/
theorem param_start {root line : Str} {runtime : Params F} :
    param floats (startParams root runtime 1 line) key none =
      (expectedStart root runtime line 1 key).bind (parseParam floats) := by
  rw [param, lookup_startParams]
  cases expectedStart root runtime line 1 key <;> rfl

theorem expectedStart_given {root line : Str} {runtime : Params F} {value : Value F}
    (other : key ∉ [str "case_number", str "logs_folder"]) (given : runtime.lookup key = some value) :
    expectedStart root runtime line 1 key = some value := by
  simp only [List.mem_cons, List.not_mem_nil, or_false, not_or] at other
  rw [expectedStart, if_neg other.1, if_neg other.2, given]
  rfl

theorem expectedStart_own {root line value : Str} {runtime : Params F}
    (other : key ∉ [str "case_number", str "logs_folder"]) (absent : runtime.lookup key = none)
    (own : (argumentPairs line).lookup key = some value) :
    expectedStart root runtime line 1 key = some (.text value) := by
  simp only [List.mem_cons, List.not_mem_nil, or_false, not_or] at other
  rw [expectedStart, if_neg other.1, if_neg other.2, absent, own]
  rfl

theorem found_iff_alike (isName : IsTestName name) {pair : Str × Str} (member : pair ∈ pairs.pairs)
    (other : pair.1 ∉ [str "case_number", str "logs_folder"]) :
    (∃ value, Found floats env name pairs pair value) ↔ Alike floats env pair := by
  have own : (argumentPairs (testLine name pairs)).lookup pair.1 = some (strip pair.2) := by
    rw [argumentPairs_testLine isName]
    exact pairs.lookup_stripped member
  have option : ∀ value, param floats (startParams env.root (optionRuntime env pairs) 1 name) pair.1
      none = some value ↔ ',' ∉ pair.2 ∧ value = parseText floats (strip pair.2) := by
    intro value
    rw [param_start, expectedStart_given other (lookup_optionRuntime member), optionValue_strip]
    by_cases comma : ',' ∈ pair.2
    · simp [comma, parseParam]
    · simp [comma, parseParam, eq_comm]
  have stored := @lookup_section F pairs env pair member
  rw [← sectionParams] at stored
  constructor
  · rintro ⟨value, line, sect, given⟩
    obtain ⟨single, rfl⟩ := (option value).mp given
    refine ⟨single, fun value runner => ?_, fun early => ?_⟩
    · rwa [param_start, expectedStart_given other runner] at line
    · rw [if_neg early] at stored
      rw [param_start, expectedStart_given other stored] at sect
      exact (parseText_rstrip pair.2).mp (Option.some.inj sect)
  · rintro ⟨single, runner, blanks⟩
    refine ⟨parseText floats (strip pair.2), ?_, ?_, (option _).mpr ⟨single, rfl⟩⟩
    · rw [param_start]
      cases found : (runnerParams env : Params F).lookup pair.1 with
      | none =>
        rw [expectedStart_own other found own]
        rfl
      | some value =>
        rw [expectedStart_given other found]
        exact runner value found
    · rw [param_start]
      by_cases last : SetLast env pair.1
      · obtain ⟨value, found⟩ := Option.isSome_iff_exists.mp (@runnerParams_setLast F env _ last)
        rw [if_pos last, found] at stored
        rw [expectedStart_given other stored]
        exact runner value found
      · rw [if_neg last] at stored
        rw [expectedStart_given other stored]
        exact congrArg some ((parseText_rstrip pair.2).mpr (blanks last))

/-- The runner overwrites two names everywhere. -/
theorem found_of_overwritten {pair : Str × Str}
    (set : pair.1 ∈ [str "case_number", str "logs_folder"]) :
    ∃ value, Found floats env name pairs pair value := by
  have same : ∃ value, ∀ (runtime : Params F) (line : Str),
      param floats (startParams env.root runtime 1 line) pair.1 none = some value := by
    simp only [List.mem_cons, List.not_mem_nil, or_false] at set
    rcases set with number | folder
    · refine ⟨.int 1, fun runtime line => ?_⟩
      rw [param_start, expectedStart, if_pos number]
      rfl
    · refine ⟨parseText floats (logsFolder env.root 1), fun runtime line => ?_⟩
      rw [param_start, expectedStart, if_neg (by rw [folder]; decide), if_pos folder]
      rfl
  obtain ⟨value, read⟩ := same
  exact ⟨value, read _ _, read _ _, read _ _⟩

/-! ## All places -/

theorem sameEverywhere_iff (only : FindsOnlyNames load) (isName : IsTestName name) :
    SameEverywhere floats load env name pairs ↔ ReadAlike floats env name pairs := by
  constructor
  · rintro ⟨line, sect, option, seen, read, given, same⟩
    obtain ⟨ending, star⟩ := observe_line_some only isName seen
    have found : ∀ pair ∈ pairs.pairs, (sect.lookup pair.1).isSome := by
      intro pair member
      obtain ⟨value, -, inside, -⟩ := same pair member
      rw [param] at inside
      cases stored : sect.lookup pair.1 with
      | none =>
        rw [stored] at inside
        cases inside
      | some stored => rfl
    have plain := section_plain only isName read ending found
    rw [onLine_eq isName ending star] at seen
    rw [inSection_eq isName plain] at read
    rw [inOption_eq isName] at given
    split at read
    · rename_i sectionAllowed
      split at given
      · rename_i optionAllowed
        cases seen
        cases read
        cases given
        refine ⟨star, fun pair member => ?_, fun pair member => ?_, fun pair member isGroup => ?_,
          fun pair member => ?_⟩
        · exact fun hash => plain pair member (.inl hash)
        · exact fun colon => plain pair member (.inr colon)
        · exact ⟨(allows_optionRuntime.mp optionAllowed pair member isGroup).2,
            allows_sectionParams.mp sectionAllowed pair member isGroup⟩
        · by_cases set : pair.1 ∈ [str "case_number", str "logs_folder"]
          · exact .inl set
          · obtain ⟨value, onLine, inSection, inOption⟩ := same pair member
            exact .inr ((found_iff_alike isName member set).mp ⟨value, onLine, inSection, inOption⟩)
      · cases given
    · cases read
  · intro alike
    have plain : ∀ pair ∈ pairs.pairs, ¬ Misread pair := by
      rintro pair member (hash | colon)
      · exact alike.hash pair member hash
      · exact alike.colon pair member colon
    have ending : EndsPlain pairs := fun last final =>
      alike.colon last (List.mem_of_getLast? final)
    have single : ∀ pair ∈ pairs.pairs, pair.1 = group → ',' ∉ pair.2 := by
      intro pair member isGroup
      rcases alike.alike pair member with set | ⟨single, -⟩
      · rw [isGroup] at set
        exact absurd set (by decide)
      · exact single
    have optionAllowed := (@allows_optionRuntime F pairs env).mpr fun pair member isGroup =>
      ⟨single pair member isGroup, (alike.everybody pair member isGroup).1⟩
    have sectionAllowed := (@allows_sectionParams F pairs env).mpr fun pair member isGroup =>
      (alike.everybody pair member isGroup).2
    refine ⟨_, _, _, onLine_eq isName ending alike.star,
      (inSection_eq isName plain).trans (if_pos sectionAllowed),
      (inOption_eq isName).trans (if_pos optionAllowed), fun pair member => ?_⟩
    have found : ∃ value, Found floats env name pairs pair value := by
      by_cases set : pair.1 ∈ [str "case_number", str "logs_folder"]
      · exact found_of_overwritten set
      · rcases alike.alike pair member with other | alike
        · exact absurd other set
        · exact (found_iff_alike isName member set).mpr alike
    obtain ⟨value, line, sect, option⟩ := found
    exact ⟨value, line, sect, option⟩

theorem overrides (only : FindsOnlyNames load) (isName : IsTestName name) (own given : Pairs) :
    Overrides F load env name own given := by
  intro line option both seen read joint key
  obtain ⟨ending, star⟩ := observe_line_some only isName seen
  rw [onLine_eq isName ending star] at seen
  rw [inOption_eq isName] at read
  rw [onLineAndInOption, observe_line isName ending star] at joint
  simp only at joint
  rw [← optionRuntime] at joint
  split at read
  · split at joint
    · cases seen
      cases read
      cases joint
      by_cases given' : key ∈ given.pairs.map Prod.fst
      · obtain ⟨pair, member, rfl⟩ := List.mem_map.mp given'
        rw [if_pos given', lookup_startParams, lookup_startParams, expectedStart, expectedStart,
          lookup_optionRuntime member]
        rfl
      · rw [if_neg given', lookup_startParams, lookup_startParams, expectedStart, expectedStart,
          lookup_optionRuntime_of_notMem given']
    · cases joint
  · cases read

/-- A parameter is read alike in all places and overridden from `-p` exactly for pairs that
    `ReadAlike` describes. -/
theorem param_same_everywhere_iff (floats : Floats F) (env : Env) {load : Loader}
    (only : FindsOnlyNames load) {name : Str} (isName : IsTestName name) (pairs : Pairs) :
    (SameEverywhere floats load env name pairs ∧
      ∀ given, Overrides F load env name pairs given) ↔ ReadAlike floats env name pairs := by
  rw [sameEverywhere_iff only isName]
  exact and_iff_left fun given => overrides only isName pairs given

/-- A loader that finds nothing, and a run without clients and servers -/
def noTests : Loader := fun _ => none

def plainEnv : Env where
  ini := str "a.ini"
  clusterName := str "a"
  filename := str "a.conf"
  spec := str "a"
  clients := 0
  servers := 0
  root := str "logs"

def singlePair (value : Str) (plain : '=' ∉ value) (oneLine : '\n' ∉ value) : Pairs where
  pairs := [(str "items", value)]
  distinct := List.nodup_singleton _
  readable := by
    intro pair member
    rw [List.mem_singleton.mp member]
    have isKey : IsKey (str "items") := by simp [IsKey, str, keyChar]
    exact ⟨isKey, plain⟩
  solid := by
    intro pair member
    rw [List.mem_singleton.mp member]
    show ∀ c ∈ str "items", blank c = false
    simp [str, blank]
  oneLine := by
    intro pair member
    rw [List.mem_singleton.mp member]
    exact oneLine

def twoPairs : Pairs where
  pairs := [(str "items", str "100"), (str "replicas", str "1")]
  distinct := by decide
  readable := by
    have isItems : IsKey (str "items") := by simp [IsKey, str, keyChar]
    have isReplicas : IsKey (str "replicas") := by simp [IsKey, str, keyChar]
    intro pair member
    rcases List.mem_pair.mp member with rfl | rfl
    · exact ⟨isItems, by decide⟩
    · exact ⟨isReplicas, by decide⟩
  solid := by
    intro pair member
    rcases List.mem_pair.mp member with rfl | rfl <;> simp [str, blank]
  oneLine := by decide

theorem isTestName_plain : IsTestName (str "a.B.c") := by
  simp [IsTestName, str, Char.isAlphanum, Char.isAlpha, Char.isUpper, Char.isLower]

theorem param_same_everywhere_two :
    SameEverywhere noFloats noTests plainEnv (str "a.B.c") twoPairs := by
  refine ((param_same_everywhere_iff noFloats plainEnv (fun _ _ => rfl) isTestName_plain _).mpr
    ⟨fun star => absurd star (by decide +kernel), ?_, ?_, ?_, ?_⟩).1
  all_goals
    intro pair member
    rcases List.mem_pair.mp member with rfl | rfl
  · decide
  · decide
  · decide
  · decide
  · exact fun isGroup => absurd isGroup (by decide)
  · exact fun isGroup => absurd isGroup (by decide)
  all_goals
    refine .inr ⟨by decide, fun value runner => ?_, fun _ => .inl (by decide)⟩
    rw [lookup_runnerParams] at runner
    cases runner

theorem param_raises_for_list :
    ¬ (SameEverywhere noFloats noTests plainEnv (str "a.B.c")
        (singlePair (str "a,b") (by decide) (by decide)) ∧
      ∀ given, Overrides Unit noTests plainEnv (str "a.B.c")
        (singlePair (str "a,b") (by decide) (by decide)) given) := by
  rintro ⟨⟨line, sect, option, -, -, given, same⟩, -⟩
  obtain ⟨value, -, -, read⟩ := same _ List.mem_cons_self
  rw [inOption_eq isTestName_plain] at given
  split at given
  · cases given
    rw [param_start, expectedStart_given (by decide) (lookup_optionRuntime List.mem_cons_self),
      optionValue_strip, if_pos (by decide)] at read
    cases read
  · cases given

end Taf.Runner
