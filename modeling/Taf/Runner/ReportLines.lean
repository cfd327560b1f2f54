import Taf.Lib.Fields
import Taf.Lib.OnePerClass
import Taf.Runner.TestInput

/-! # The lines of a report

`filter_fields`, which `testrunner.py` and `scripts/merge_reports.py` both have: the fields of a test
that start with one of some words are left out.  In the first of two forms the fields are written
with colons.  `testrunner.py` then takes a line to be there already if one with the same characters
is. -/

namespace Taf.Runner

open Taf.Lib

/-! ## `filter_fields` -/

/-- `fw.startswith(word)` for one of the words that are not empty -/
def filtered (words : List Str) (field : Str) : Bool :=
  words.any fun word => word ≠ [] ∧ word.isPrefixOf field

/-- `fw.replace(":", "=", 1)` -/
def colonToEquals : Str → Str
  | [] => []
  | c :: rest => if c = ':' then '=' :: rest else c :: colonToEquals rest

/-- `"logs_folder:" in testname` -/
def HasColons (testname : Str) : Prop := str "logs_folder:" <:+: testname

instance (testname : Str) : Decidable (HasColons testname) :=
  inferInstanceAs (Decidable (_ <:+: _))

/-- The branch with colons; a comma follows every field that is not equal to the last. -/
def colonLine (words : List Str) (testname : Str) : Str :=
  let testwords := testname.splitOn ','
  testwords.foldl (fun line field =>
    if filtered words field then line
    else line ++ colonToEquals field ++ (if some field ≠ testwords.getLast? then [','] else [])) []

/-- The other branch -/
def equalsLine (words : List Str) (testname : Str) : Str :=
  [','].intercalate ((testname.splitOn ',').filter fun field => !filtered words field)

/-- The names that both files filter; the first two stand without a colon. -/
def droppedNames : List Str :=
  [str "logs_folder", str "conf_file", str "cluster_name", str "ini", str "case_number",
    str "num_nodes", str "spec"]

def colonWords (names : List Str) : List Str := names.take 2 ++ (names.drop 2).map (· ++ [':'])

def equalsWords (names : List Str) : List Str := names.map (· ++ ['='])

/-- `filter_fields` of `testrunner.py` -/
def filterFields (testname : Str) : Str :=
  if HasColons testname then colonLine (colonWords droppedNames) testname
  else equalsLine (equalsWords droppedNames) testname

/-- `line.rstrip(",")` -/
def rstripCommas (line : Str) : Str := line.rdropWhile (· = ',')

/-- The line of a test in the lists of passed and failed tests -/
def lineOf (testname : Str) : Str := rstripCommas (filterFields testname)

/-! ## `check_if_exists` -/

/-- `''.join(sorted(line))` -/
def sortedChars (line : Str) : Str := line.mergeSort fun a b => a ≤ b

/-- `transform_and_write_to_file` -/
def transformAndWriteToFile (tests : List Str) : List Str :=
  (tests.map lineOf).foldl (keepNew sortedChars) []

/-- The lines of a list of tests are all there, up to the order of their fields, exactly when lines
    with the same characters have the same fields. -/
theorem transform_complete_iff {tests : List Str} :
    (∀ test ∈ tests, ∃ line ∈ transformAndWriteToFile tests, canon line = canon (lineOf test)) ↔
      ∀ test ∈ tests, ∀ other ∈ tests, (lineOf test).Perm (lineOf other) →
        canon (lineOf test) = canon (lineOf other) := by
  have finer : ∀ line other : Str, canon line = canon other → sortedChars line = sortedChars other :=
    fun line other same => mergeSort_eq_mergeSort_iff.mpr (perm_of_canon_eq same)
  have iff := (represents_foldl sortedChars (tests.map lineOf)).all_iff finer
  simp only [List.forall_mem_map] at iff
  rw [transformAndWriteToFile, iff]
  simp only [sortedChars, mergeSort_eq_mergeSort_iff]

theorem mem_transform {tests : List Str} {line : Str} (member : line ∈ transformAndWriteToFile tests) :
    ∃ test ∈ tests, line = lineOf test := by
  obtain ⟨test, inside, rfl⟩ := List.mem_map.mp ((represents_foldl sortedChars _).mem line member)
  exact ⟨test, inside, rfl⟩

/-! ## Lines that went through an attribute

An XML parser reads tabs and line ends in the value of an attribute as spaces. -/

def lineBreak (c : Char) : Bool := c ∈ ['\t', '\n', '\r']

/-- What is read of the value of an attribute -/
def attributeText : Str → Str
  | [] => []
  | '\r' :: '\n' :: rest => ' ' :: attributeText rest
  | c :: rest => (if lineBreak c then ' ' else c) :: attributeText rest

def Unbroken (text : Str) : Prop := ∀ c ∈ text, lineBreak c = false

/-- One character of a value, and where the next one starts -/
theorem attributeText_cons (c : Char) (rest : Str) :
    (lineBreak c = false ∧ attributeText (c :: rest) = c :: attributeText rest) ∨
      ∃ after, lineBreak c = true ∧ attributeText (c :: rest) = ' ' :: attributeText after ∧
        (rest = after ∨ rest = '\n' :: after) := by
  rw [attributeText.eq_def]
  split
  · rename_i impossible
    cases impossible
  · rename_i after same
    cases same
    exact .inr ⟨after, rfl, rfl, .inr rfl⟩
  · rename_i same
    cases same
    cases breaks : lineBreak c with
    | false => exact .inl ⟨rfl, by simp⟩
    | true => exact .inr ⟨rest, rfl, by simp, .inl rfl⟩

theorem attributeText_unbroken {text : Str} (unbroken : Unbroken text) : attributeText text = text := by
  induction text with
  | nil => rfl
  | cons c rest ih =>
    have solid := unbroken c List.mem_cons_self
    rcases attributeText_cons c rest with ⟨-, same⟩ | ⟨after, breaks, -⟩
    · rw [same, ih fun d member => unbroken d (List.mem_cons_of_mem _ member)]
    · rw [solid] at breaks
      cases breaks

theorem unbroken_attributeText (text : Str) : Unbroken (attributeText text) := by
  induction text using attributeText.induct with
  | case1 => simp [attributeText, Unbroken]
  | case2 rest ih =>
    rw [attributeText]
    intro c member
    rcases List.mem_cons.mp member with rfl | inside
    · rfl
    · exact ih c inside
  | case3 c rest single ih =>
    rw [attributeText]
    · intro d member
      rcases List.mem_cons.mp member with rfl | inside
      · cases breaks : lineBreak c with
        | false => rw [if_neg (by simp)]; exact breaks
        | true => rw [if_pos rfl]; rfl
      · exact ih d inside
    · exact single

/-- Words without spaces are found where they were. -/
theorem prefix_attributeText {word text : Str} (solid : ∀ c ∈ word, c ≠ ' ' ∧ lineBreak c = false) :
    word <+: attributeText text ↔ word <+: text := by
  induction word generalizing text with
  | nil => simp
  | cons w word ih =>
    obtain ⟨notSpace, notBreak⟩ := solid w List.mem_cons_self
    have inner := fun {text : Str} => @ih text fun c member => solid c (List.mem_cons_of_mem _ member)
    cases text with
    | nil => rfl
    | cons c rest =>
      rcases attributeText_cons c rest with ⟨-, same⟩ | ⟨after, breaks, same, -⟩
      · rw [same, List.cons_prefix_cons, List.cons_prefix_cons, inner]
      · rw [same, List.cons_prefix_cons, List.cons_prefix_cons]
        refine iff_of_false (fun found => notSpace found.1) fun found => ?_
        rw [found.1, breaks] at notBreak
        cases notBreak

theorem not_prefix_cons_lineBreak {word rest : Str} {c : Char} (nonempty : word ≠ [])
    (solid : ∀ c ∈ word, lineBreak c = false) (breaks : lineBreak c = true) : ¬ word <+: c :: rest := by
  cases word with
  | nil => exact absurd rfl nonempty
  | cons w word =>
    rw [List.cons_prefix_cons]
    rintro ⟨rfl, -⟩
    rw [solid w List.mem_cons_self] at breaks
    cases breaks

theorem infix_attributeText {word text : Str} (nonempty : word ≠ [])
    (solid : ∀ c ∈ word, c ≠ ' ' ∧ lineBreak c = false) :
    word <:+: attributeText text ↔ word <:+: text := by
  induction text using attributeText.induct with
  | case1 => rfl
  | case2 rest ih =>
    have first := @prefix_attributeText word ('\r' :: '\n' :: rest) solid
    have notBreak := @not_prefix_cons_lineBreak word rest '\n' nonempty
      fun c member => (solid c member).2
    rw [attributeText] at first
    rw [attributeText, List.infix_cons_iff, first, ih, List.infix_cons_iff, List.infix_cons_iff]
    constructor
    · rintro (found | found)
      · exact .inl found
      · exact .inr (.inr found)
    · rintro (found | found | found)
      · exact .inl found
      · exact absurd found (notBreak rfl)
      · exact .inr found
  | case3 c rest single ih =>
    have first := @prefix_attributeText word (c :: rest) solid
    have same : attributeText (c :: rest) =
        (if lineBreak c then ' ' else c) :: attributeText rest := attributeText.eq_3 c rest single
    rw [same] at first
    rw [same, List.infix_cons_iff, first, ih, List.infix_cons_iff]

theorem splitOn_attributeText (text : Str) :
    (attributeText text).splitOn ',' = (text.splitOn ',').map attributeText := by
  induction text using attributeText.induct with
  | case1 => rfl
  | case2 rest ih =>
    obtain ⟨first, others, fields⟩ := List.exists_cons_of_ne_nil (List.splitOn_ne_nil ',' rest)
    rw [attributeText, List.splitOn_cons_eq_if_modifyHead, List.splitOn_cons_eq_if_modifyHead,
      List.splitOn_cons_eq_if_modifyHead, ih, fields]
    rfl
  | case3 c rest single ih =>
    obtain ⟨first, others, fields⟩ := List.exists_cons_of_ne_nil (List.splitOn_ne_nil ',' rest)
    have same : attributeText (c :: rest) =
        (if lineBreak c then ' ' else c) :: attributeText rest := attributeText.eq_3 c rest single
    rw [same, List.splitOn_cons_eq_if_modifyHead, List.splitOn_cons_eq_if_modifyHead, ih, fields]
    by_cases comma : c = ','
    · subst comma
      rfl
    · have apart : (c == ',') = false := by simpa using comma
      have other : ((if lineBreak c then ' ' else c) == ',') = false := by
        cases lineBreak c with
        | false => exact apart
        | true => rfl
      rw [apart, other]
      -- A line end that is one character for the whole text is one for its field.
      have inField : ∀ after, c = '\r' → first = '\n' :: after → False := by
        rintro after rfl rfl
        have whole := @List.intercalate_splitOn _ rest _ _ ','
        rw [fields, intercalate_cons_eq] at whole
        exact single _ rfl whole.symm
      show _ :: _ = attributeText (c :: first) :: _
      rw [attributeText.eq_3 c first inField]

/-! ## The fields of a line -/

def lineWords (testname : Str) : List Str :=
  if HasColons testname then colonWords droppedNames else equalsWords droppedNames

def keptFields (testname : Str) : List Str :=
  (testname.splitOn ',').filter fun field => !filtered (lineWords testname) field

theorem colonLine_eq (words : List Str) (testname : Str) : colonLine words testname =
    ((testname.splitOn ',').filter fun field => !filtered words field).flatMap fun field =>
      colonToEquals field ++ if some field ≠ (testname.splitOn ',').getLast? then [','] else [] := by
  have folds : ∀ (fields : List Str) (line : Str), fields.foldl (fun line field =>
      if filtered words field then line else line ++ colonToEquals field ++
        (if some field ≠ (testname.splitOn ',').getLast? then [','] else [])) line =
      line ++ (fields.filter fun field => !filtered words field).flatMap fun field =>
        colonToEquals field ++ if some field ≠ (testname.splitOn ',').getLast? then [','] else [] := by
    intro fields
    induction fields with
    | nil => simp
    | cons field fields ih =>
      intro line
      rw [List.foldl_cons, ih]
      cases drops : filtered words field with
      | true => simp [drops]
      | false => simp [drops]
  rw [colonLine, folds, List.nil_append]

theorem mem_colonToEquals {c : Char} {field : Str} (breaks : lineBreak c = true) :
    c ∈ colonToEquals field ↔ c ∈ field := by
  induction field with
  | nil => rfl
  | cons d rest ih =>
    rw [colonToEquals]
    split
    · rename_i colon
      have notEquals : c ≠ '=' := by
        rintro rfl
        cases breaks
      have notColon : c ≠ d := by
        rintro rfl
        rw [colon] at breaks
        cases breaks
      simp [notEquals, notColon]
    · simp [ih]

theorem mem_intercalate {c : Char} (other : c ≠ ',') (fields : List Str) :
    c ∈ [','].intercalate fields ↔ ∃ field ∈ fields, c ∈ field := by
  cases fields with
  | nil => simp
  | cons first fields =>
    rw [intercalate_cons_eq]
    simp [other]

theorem mem_rstripCommas {c : Char} (other : c ≠ ',') (line : Str) :
    c ∈ rstripCommas line ↔ c ∈ line := by
  induction line using List.reverseRecOn with
  | nil => rfl
  | append_singleton line last ih =>
    rw [rstripCommas, List.rdropWhile_concat, ← rstripCommas]
    split
    · rename_i comma
      have different : c ≠ last := by
        rintro rfl
        exact other (by simpa using comma)
      simp [ih, different]
    · rfl

/-- The line breaks of a line are those of its fields. -/
theorem mem_lineOf {c : Char} (breaks : lineBreak c = true) (testname : Str) :
    c ∈ lineOf testname ↔ ∃ field ∈ keptFields testname, c ∈ field := by
  have other : c ≠ ',' := by
    rintro rfl
    cases breaks
  rw [lineOf, mem_rstripCommas other, filterFields, keptFields, lineWords]
  by_cases colons : HasColons testname
  · rw [if_pos colons, if_pos colons, colonLine_eq, List.mem_flatMap]
    have inPart : ∀ field : Str, (c ∈ colonToEquals field ++
        if some field ≠ (testname.splitOn ',').getLast? then [','] else []) ↔ c ∈ field := by
      intro field
      rw [List.mem_append, mem_colonToEquals breaks, or_iff_left]
      split
      · simp [other]
      · simp
    simp only [inPart]
  · rw [if_neg colons, if_neg colons, equalsLine, mem_intercalate other]

theorem unbroken_lineOf_iff (testname : Str) :
    Unbroken (lineOf testname) ↔ ∀ field ∈ keptFields testname, Unbroken field := by
  constructor
  · intro unbroken field member c inField
    rw [← Bool.not_eq_true]
    intro breaks
    have inLine := (mem_lineOf breaks testname).mpr ⟨field, member, inField⟩
    rw [unbroken c inLine] at breaks
    cases breaks
  · intro unbroken c inLine
    rw [← Bool.not_eq_true]
    intro breaks
    obtain ⟨field, member, inField⟩ := (mem_lineOf breaks testname).mp inLine
    rw [unbroken field member c inField] at breaks
    cases breaks

/-! ## The line that is read -/

theorem droppedNames_solid : ∀ name ∈ droppedNames, ∀ c ∈ name, c ≠ ' ' ∧ lineBreak c = false := by
  simp [droppedNames, str, lineBreak]

theorem lineWords_solid (testname : Str) :
    ∀ word ∈ lineWords testname, ∀ c ∈ word, c ≠ ' ' ∧ lineBreak c = false := by
  have ended : ∀ mark : Char, mark ≠ ' ' ∧ lineBreak mark = false → ∀ name ∈ droppedNames,
      ∀ c ∈ name ++ [mark], c ≠ ' ' ∧ lineBreak c = false := by
    intro mark solid name member c inside
    rcases List.mem_append.mp inside with inside | inside
    · exact droppedNames_solid name member c inside
    · rw [List.mem_singleton.mp inside]
      exact solid
  intro word member
  rw [lineWords] at member
  split at member
  · rcases List.mem_append.mp member with member | member
    · exact droppedNames_solid word (List.mem_of_mem_take member)
    · obtain ⟨name, inside, rfl⟩ := List.mem_map.mp member
      exact ended ':' (by decide) name (List.mem_of_mem_drop inside)
  · obtain ⟨name, inside, rfl⟩ := List.mem_map.mp member
    exact ended '=' (by decide) name inside

theorem hasColons_attributeText (testname : Str) :
    HasColons (attributeText testname) ↔ HasColons testname :=
  infix_attributeText (by decide) (by simp [str, lineBreak])

theorem lineWords_attributeText (testname : Str) :
    lineWords (attributeText testname) = lineWords testname := by
  simp only [lineWords, hasColons_attributeText]

theorem filtered_attributeText {words : List Str}
    (solid : ∀ word ∈ words, ∀ c ∈ word, c ≠ ' ' ∧ lineBreak c = false) (field : Str) :
    filtered words (attributeText field) = filtered words field := by
  rw [Bool.eq_iff_iff, filtered, filtered, List.any_eq_true, List.any_eq_true]
  apply exists_congr
  intro word
  apply and_congr_right
  intro member
  simp only [decide_eq_true_eq, List.isPrefixOf_iff_prefix, prefix_attributeText (solid word member)]

theorem keptFields_attributeText {testname : Str} (unbroken : Unbroken (lineOf testname)) :
    keptFields (attributeText testname) = keptFields testname := by
  have fields := (unbroken_lineOf_iff testname).mp unbroken
  have same : (fun field => !filtered (lineWords testname) (attributeText field)) =
      fun field => !filtered (lineWords testname) field := by
    funext field
    rw [filtered_attributeText (lineWords_solid testname)]
  rw [keptFields, lineWords_attributeText, splitOn_attributeText, List.filter_map]
  show ((testname.splitOn ',').filter fun field =>
    !filtered (lineWords testname) (attributeText field)).map attributeText = _
  rw [same, ← keptFields, List.map_congr_left fun field member => attributeText_unbroken (fields field member)]
  exact List.map_id _

/-- A field that is kept is the last one exactly if it was. -/
theorem kept_eq_last_iff {testname : Str} (unbroken : Unbroken (lineOf testname)) {field : Str}
    (kept : field ∈ keptFields testname) :
    some field = ((attributeText testname).splitOn ',').getLast? ↔
      some field = (testname.splitOn ',').getLast? := by
  have fields := (unbroken_lineOf_iff testname).mp unbroken
  rw [splitOn_attributeText, List.getLast?_map]
  constructor
  · intro same
    obtain ⟨last, isLast, read⟩ := Option.map_eq_some_iff.mp same.symm
    have notFiltered := (List.mem_filter.mp kept).2
    rw [← read, filtered_attributeText (lineWords_solid testname)] at notFiltered
    have lastKept : last ∈ keptFields testname :=
      List.mem_filter.mpr ⟨List.mem_of_getLast? isLast, notFiltered⟩
    rw [isLast, ← read, attributeText_unbroken (fields last lastKept)]
  · intro same
    rw [← same, Option.map_some, attributeText_unbroken (fields field kept)]

/-- A line without line breaks is read as it was. -/
theorem lineOf_attributeText {testname : Str} (unbroken : Unbroken (lineOf testname)) :
    lineOf (attributeText testname) = lineOf testname := by
  have kept := keptFields_attributeText unbroken
  rw [keptFields, keptFields, lineWords_attributeText] at kept
  rw [lineOf, lineOf, filterFields, filterFields]
  by_cases colons : HasColons testname
  · rw [lineWords, if_pos colons] at kept
    rw [if_pos ((hasColons_attributeText testname).mpr colons), if_pos colons, colonLine_eq,
      colonLine_eq, kept]
    congr 1
    apply List.flatMap_congr
    intro field member
    have inside : field ∈ keptFields testname := by
      rw [keptFields, lineWords, if_pos colons]
      exact member
    congr 1
    exact if_congr (not_congr (kept_eq_last_iff unbroken inside)) rfl rfl
  · rw [lineWords, if_neg colons] at kept
    rw [if_neg (mt (hasColons_attributeText testname).mp colons), if_neg colons, equalsLine,
      equalsLine, kept]

/-- What is read has no line breaks. -/
theorem unbroken_lineOf_attributeText (testname : Str) : Unbroken (lineOf (attributeText testname)) := by
  rw [unbroken_lineOf_iff]
  intro field member c inField
  have inText : field ∈ (attributeText testname).splitOn ',' := (List.mem_filter.mp member).1
  rw [splitOn_attributeText] at inText
  obtain ⟨own, -, rfl⟩ := List.mem_map.mp inText
  exact unbroken_attributeText own c inField

end Taf.Runner
