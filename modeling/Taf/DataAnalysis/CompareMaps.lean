import Taf.DataAnalysis.Comparison
import Taf.Lib.Split
import Taf.Lib.Visits

/-! # The two comparisons

`compare_data_maps` compares the lines of two documents column by column, and names a column that
differs by the header; `compare_maps` compares the statistics of two dictionaries.  The column by
column comparison misses nothing as a line is the join of its columns.  The other one cannot compare
a statistic that has no rule: it looks its value up in `ata2`, which is not defined. -/

namespace Taf.DataAnalysis

open Taf.Lib

universe u

/-! ## Lines -/

/-- `items[i]` -/
def itemAt {α : Type} (items : List α) (i : ℕ) : Except String α :=
  match items[i]? with
  | some item => .ok item
  | none => .error "IndexError"

/-- The rule for a column: `headerInfo[i]` is a character of the header and not a field. -/
def columnRule (headerInfo : String) (comparisonMap : Option (AList fun _ : String => Logic)) (i : ℕ) :
    Except String (Option Logic) :=
  match comparisonMap with
  | none => .ok none
  | some rules => do
    let c ← itemAt headerInfo.toList i
    return rules.lookup (String.singleton c)

def compareColumn {V : Type} (py : PyValues V) (headerInfo : String)
    (comparisonMap : Option (AList fun _ : String => Logic)) (reason : Reason String)
    (column : (String × String) × ℕ) : Except String (Reason String) := do
  let fields := splitText ',' headerInfo
  match ← columnRule headerInfo comparisonMap column.2 with
  | some logic =>
    let field ← itemAt fields column.2
    compareValues py (some (py.text column.1.1)) (some (py.text column.1.2)) field reason logic
  | none =>
    if column.1.1 = column.1.2 then return reason
    let field ← itemAt fields column.2
    return reason.insert field ("Expected " ++ column.1.1 ++ " :: Actual " ++ column.1.2)

/-- The reasons for two lines; `formatList` is how Python shows a list of texts. -/
def lineReason {V : Type} (py : PyValues V) (formatList : List String → String) (headerInfo : String)
    (comparisonMap : Option (AList fun _ : String => Logic)) (line1 line2 : String) :
    Except String (Reason String) :=
  let data1 := splitText ',' line1
  let data2 := splitText ',' line2
  if data1.length = data2.length then
    (data1.zip data2).zipIdx.foldlM (compareColumn py headerInfo comparisonMap) ∅
  else
    .ok ((∅ : Reason String).insert "number of value mismatch" ("Number of values mismatch :: Expected values " ++
      formatList data1 ++ " \n Actual values " ++ formatList data2))

/-- `mainKey` is not used. -/
def compareDataMaps {κ V : Type} [DecidableEq κ] (sets : KeyOrder κ) (py : PyValues V)
    (formatList : List String → String) (info1 info2 : AList fun _ : κ => String) (headerInfo _mainKey : String)
    (comparisonMap : Option (AList fun _ : String => Logic)) : Except String (ComparisonResult κ String) :=
  compareItems sets (lineReason py formatList headerInfo comparisonMap) info1 info2

/-- The rules that `compare_all_dataset` is given go nowhere. -/
def compareAllDataset {β κ V : Type} [DecidableEq β] [DecidableEq κ] (sets : KeyOrder κ) (py : PyValues V)
    (formatList : List String → String) (headerInfo : String)
    (sourceMap targetMap : AList fun _ : β => AList fun _ : κ => String)
    (_comparisonMap : Option (AList fun _ : String => Logic)) :
    Except String (AList fun _ : β => ComparisonResult κ String) :=
  sourceMap.entries.foldlM (fun result entry => do
    let info2 ← getItem targetMap entry.1
    let compared ← compareDataMaps sets py formatList entry.2 info2 headerInfo "key" none
    return result.insert entry.1 compared) ∅

/-! ## Statistics -/

/-- How a key of a message and a list of keys are written -/
structure PyKeys (ν : Type u) where
  text : String → ν
  format : List ν → String

abbrev StatMap (ν V : Type u) := AList fun _ : ν => Option V

section Stats

variable {κ ν V : Type u} [DecidableEq κ] [DecidableEq ν]

def ruleFor (comparisonMap : Option (AList fun _ : ν => Logic)) (vkey : ν) : Option Logic :=
  comparisonMap.bind (AList.lookup vkey)

def compareStat (py : PyValues V) (data2 : StatMap ν V) (comparisonMap : Option (AList fun _ : ν => Logic))
    (reason : Reason ν) (stat : Σ _ : ν, Option V) : Except String (Reason ν) :=
  match ruleFor comparisonMap stat.1 with
  | some logic => do
    let val2 ← getItem data2 stat.1
    compareValues py stat.2 val2 stat.1 reason logic
  -- `ata2[vkey]` stands there for `data2[vkey]`
  | none => .error "NameError: global name 'ata2' is not defined"

def statReason (py : PyValues V) (keys : PyKeys ν) (comparisonMap : Option (AList fun _ : ν => Logic))
    (data1 data2 : StatMap ν V) : Except String (Reason ν) :=
  if data1.keys.length = data2.keys.length then
    data1.entries.foldlM (compareStat py data2 comparisonMap) ∅
  else
    .ok ((∅ : Reason ν).insert (keys.text "number of key mismatch") ("Key Mismatch :: Expected keys " ++
      keys.format data1.keys ++ " \n Actual keys " ++ keys.format data2.keys))

def compareMaps (sets : KeyOrder κ) (py : PyValues V) (keys : PyKeys ν) (info1 info2 : AList fun _ : κ => StatMap ν V)
    (_mainKey : String) (comparisonMap : Option (AList fun _ : ν => Logic)) : Except String (ComparisonResult κ ν) :=
  compareItems sets (statReason py keys comparisonMap) info1 info2

end Stats

/-! ## Texts and integers as values -/

/-- `None` comes before the integers and these before the texts. -/
def rank : Option (String ⊕ ℤ) → ℕ ×ₗ ℤ ×ₗ String
  | none => toLex (0, toLex (0, ""))
  | some (.inr number) => toLex (1, toLex (number, ""))
  | some (.inl text) => toLex (2, toLex (0, text))

def toNumber : String ⊕ ℤ → Except String (String ⊕ ℤ)
  | .inr number => .ok (.inr number)
  | .inl text =>
    match text.toInt? with
    | some number => .ok (.inr number)
    | none => .error "ValueError"

/-- The values without fractions -/
def plainValues : PyValues (String ⊕ ℤ) where
  text := .inl
  toInt := toNumber
  toLong := toNumber
  toFloat := toNumber
  ge val1 val2 := rank val2 ≤ rank val1
  le val1 val2 := rank val1 ≤ rank val2
  gt val1 val2 := rank val2 < rank val1
  lt val1 val2 := rank val1 < rank val2
  eq val1 val2 := rank val1 = rank val2
  ne val1 val2 := rank val1 ≠ rank val2
  format
    | none => "None"
    | some (.inr number) => toString number
    | some (.inl text) => text

def formatNames (names : List String) : String :=
  "[" ++ ", ".intercalate (names.map fun name => "'" ++ name ++ "'") ++ "]"

/-! ## Lines that differ -/

def columns (line : String) : ℕ := (splitText ',' line).length

/-- The header has a field for every column. -/
def Headed {κ : Type} (headerInfo : String) (info : AList fun _ : κ => String) : Prop :=
  ∀ entry ∈ info.entries, columns entry.2 ≤ columns headerInfo

section Lines

variable {κ V : Type} [DecidableEq κ] {sets : KeyOrder κ} {py : PyValues V} {formatList : List String → String}
  {headerInfo line1 line2 : String}

/-- Without rules a column is compared as it stands. -/
theorem compareColumn_none {reason : Reason String} {column : (String × String) × ℕ} :
    compareColumn py headerInfo none reason column =
      if column.1.1 = column.1.2 then .ok reason
      else (itemAt (splitText ',' headerInfo) column.2).map fun field =>
        reason.insert field ("Expected " ++ column.1.1 ++ " :: Actual " ++ column.1.2) := by
  show (if _ then _ else _) = _
  split
  · rfl
  · cases itemAt (splitText ',' headerInfo) column.2 with
    | error e => rfl
    | ok field => rfl

theorem compareColumn_ok {reason next : Reason String} {column : (String × String) × ℕ}
    (stepped : compareColumn py headerInfo none reason column = .ok next) :
    next ≠ ∅ ↔ reason ≠ ∅ ∨ column.1.1 ≠ column.1.2 := by
  rw [compareColumn_none] at stepped
  by_cases same : column.1.1 = column.1.2
  · rw [if_pos same] at stepped
    cases stepped
    simp [same]
  · rw [if_neg same] at stepped
    cases field : itemAt (splitText ',' headerInfo) column.2 with
    | error e =>
      rw [field] at stepped
      cases stepped
    | ok field' =>
      rw [field] at stepped
      cases stepped
      simp [same, insert_ne_empty]

theorem compareColumn_returns {reason : Reason String} {column : (String × String) × ℕ}
    (headed : column.2 < columns headerInfo) : ∃ next, compareColumn py headerInfo none reason column = .ok next := by
  have field : itemAt (splitText ',' headerInfo) column.2 = .ok (splitText ',' headerInfo)[column.2] := by
    rw [itemAt, List.getElem?_eq_getElem headed]
  rw [compareColumn_none, field]
  split
  · exact ⟨reason, rfl⟩
  · exact ⟨_, rfl⟩

theorem zip_differs_iff {α : Type*} {items others : List α} (length : items.length = others.length) :
    (∃ pair ∈ items.zip others, pair.1 ≠ pair.2) ↔ items ≠ others := by
  induction items generalizing others with
  | nil =>
    cases others with
    | nil => simp
    | cons other others => cases length
  | cons item items ih =>
    cases others with
    | nil => cases length
    | cons other others =>
      have rest := ih (Nat.succ.inj length)
      simp only [List.zip_cons_cons, List.exists_mem_cons_iff, rest, Ne, List.cons.injEq, not_and_or]

theorem exists_mem_zipIdx {α : Type*} {pairs : List (α × α)} :
    (∃ item ∈ pairs.zipIdx, item.1.1 ≠ item.1.2) ↔ ∃ pair ∈ pairs, pair.1 ≠ pair.2 := by
  have firsts : pairs.zipIdx.map Prod.fst = pairs := List.zipIdx_map_fst 0 pairs
  constructor
  · rintro ⟨item, member, holds⟩
    exact ⟨item.1, firsts ▸ List.mem_map_of_mem member, holds⟩
  · rintro ⟨item, member, holds⟩
    rw [← firsts] at member
    obtain ⟨indexed, inside, rfl⟩ := List.mem_map.mp member
    exact ⟨indexed, inside, holds⟩

/-- There is a reason exactly if the lines differ. -/
theorem lineReason_none (headed : columns line1 ≤ columns headerInfo) :
    ∃ reason, lineReason py formatList headerInfo none line1 line2 = .ok reason ∧ (reason ≠ ∅ ↔ line1 ≠ line2) := by
  simp only [lineReason]
  by_cases length : (splitText ',' line1).length = (splitText ',' line2).length
  · rw [if_pos length]
    have inside : ∀ reason, ∀ column ∈ ((splitText ',' line1).zip (splitText ',' line2)).zipIdx,
        ∃ next, compareColumn py headerInfo none reason column = .ok next := by
      intro reason column member
      have bound := List.snd_lt_of_mem_zipIdx member
      rw [List.length_zip] at bound
      rw [columns] at headed
      exact compareColumn_returns (by omega)
    obtain ⟨reason, folded⟩ := foldlM_returns inside ∅
    have shown : reason ≠ ∅ ↔ ∃ column ∈ ((splitText ',' line1).zip (splitText ',' line2)).zipIdx,
        column.1.1 ≠ column.1.2 := by
      have added := foldlM_shows_iff (fun _ _ _ stepped => compareColumn_ok stepped) folded
      simpa using added
    refine ⟨reason, folded, ?_⟩
    rw [shown, ← splitText_injective.ne_iff, ← zip_differs_iff length]
    exact exists_mem_zipIdx
  · rw [if_neg length]
    refine ⟨_, rfl, iff_of_true insert_ne_empty ?_⟩
    rintro rfl
    exact length rfl

theorem lookup_headed {info : AList fun _ : κ => String} (headed : Headed headerInfo info) {key : κ} {line : String}
    (found : info.lookup key = some line) : columns line ≤ columns headerInfo :=
  headed ⟨key, line⟩ (AList.mem_lookup_iff.mp found)

theorem compareDataMaps_returns (sets : KeyOrder κ) (py : PyValues V) (formatList : List String → String)
    {info1 : AList fun _ : κ => String} (info2 : AList fun _ : κ => String) (mainKey : String) (headed : Headed headerInfo info1) : ∃ compared,
      compareDataMaps sets py formatList info1 info2 headerInfo mainKey none = .ok compared ∧
        Exact (· ≠ ·) info1 info2 compared := by
  have judged : ∀ key line1 line2, info1.lookup key = some line1 → info2.lookup key = some line2 →
      ∃ reason, lineReason py formatList headerInfo none line1 line2 = .ok reason ∧ (reason ≠ ∅ ↔ line1 ≠ line2) := by
    intro key line1 line2 found1 _
    exact lineReason_none (lookup_headed headed found1)
  have returns : ∃ compared, compareDataMaps sets py formatList info1 info2 headerInfo mainKey none = .ok compared :=
    compareItems_returns fun key line1 line2 found1 found2 => (judged key line1 line2 found1 found2).imp fun _ both => both.1
  obtain ⟨compared, returned⟩ := returns
  refine ⟨compared, returned, compareItems_exact returned ?_⟩
  intro key line1 line2 reason found1 found2 isReason
  obtain ⟨reason', isReason', differs⟩ := judged key line1 line2 found1 found2
  cases isReason.symm.trans isReason'
  exact differs

/-- The comparison of data sets is exact, and the second data set compared with the first one gives the
    same keys in exchanged parts. -/
theorem compareDataMaps_exact {info1 info2 : AList fun _ : κ => String} {mainKey : String}
    (headed1 : Headed headerInfo info1) (headed2 : Headed headerInfo info2) :
    ∃ compared swapped, compareDataMaps sets py formatList info1 info2 headerInfo mainKey none = .ok compared ∧
      compareDataMaps sets py formatList info2 info1 headerInfo mainKey none = .ok swapped ∧
      Exact (· ≠ ·) info1 info2 compared ∧ Exact (· ≠ ·) info2 info1 swapped ∧
      swapped.result.deletedItems.Perm compared.result.addedItems ∧
      swapped.result.addedItems.Perm compared.result.deletedItems ∧
      ∀ key, key ∈ swapped.result.updatedItems ↔ key ∈ compared.result.updatedItems := by
  obtain ⟨compared, returned, exact⟩ := compareDataMaps_returns sets py formatList info2 mainKey headed1
  obtain ⟨swapped, returned', exact'⟩ := compareDataMaps_returns sets py formatList info1 mainKey headed2
  refine ⟨compared, swapped, returned, returned', exact, exact', ?_, ?_, ?_⟩
  · refine (List.perm_ext_iff_of_nodup exact'.deletedOnce exact.addedOnce).mpr fun key => ?_
    rw [exact'.deleted, exact.added]
  · refine (List.perm_ext_iff_of_nodup exact'.addedOnce exact.deletedOnce).mpr fun key => ?_
    rw [exact'.added, exact.deleted]
  · intro key
    rw [exact'.updated, exact.updated]
    constructor
    · rintro ⟨line2, line1, found2, found1, differs⟩
      exact ⟨line1, line2, found1, found2, differs.symm⟩
    · rintro ⟨line1, line2, found1, found2, differs⟩
      exact ⟨line2, line1, found2, found1, differs.symm⟩

/-- A data set with one document -/
def oneLine (line : String) : AList fun _ : String => String := (∅ : AList fun _ : String => String).insert "k1" line

theorem compareDataMaps_exact_updated : ∃ compared swapped,
    compareDataMaps KeyOrder.plain plainValues formatNames (oneLine "k1,5") (oneLine "k1,6") "key,value" "key" none =
      .ok compared ∧
    compareDataMaps KeyOrder.plain plainValues formatNames (oneLine "k1,6") (oneLine "k1,5") "key,value" "key" none =
      .ok swapped ∧
    Exact (· ≠ ·) (oneLine "k1,5") (oneLine "k1,6") compared ∧ Exact (· ≠ ·) (oneLine "k1,6") (oneLine "k1,5") swapped ∧
    swapped.result.deletedItems.Perm compared.result.addedItems ∧
    swapped.result.addedItems.Perm compared.result.deletedItems ∧
    ∀ key, key ∈ swapped.result.updatedItems ↔ key ∈ compared.result.updatedItems := by
  have headed : ∀ line, columns line = 2 → Headed "key,value" (oneLine line) := by
    intro line two entry member
    have only : entry = ⟨"k1", line⟩ := List.mem_singleton.mp member
    rw [only, two]
    decide
  exact compareDataMaps_exact (headed "k1,5" (by decide)) (headed "k1,6" (by decide))

/-- Every bucket has an exact comparison. -/
theorem compareAllDataset_exact {β : Type} [DecidableEq β] {sourceMap targetMap : AList fun _ : β => AList fun _ : κ => String}
    {comparisonMap : Option (AList fun _ : String => Logic)}
    (headed : ∀ entry ∈ sourceMap.entries, Headed headerInfo entry.2)
    (targets : ∀ entry ∈ sourceMap.entries, entry.1 ∈ targetMap) :
    ∃ result, compareAllDataset sets py formatList headerInfo sourceMap targetMap comparisonMap = .ok result ∧
      ∀ bucket info1, sourceMap.lookup bucket = some info1 → ∃ info2 compared, targetMap.lookup bucket = some info2 ∧
        result.lookup bucket = some compared ∧ Exact (· ≠ ·) info1 info2 compared := by
  have inhabited : Nonempty (ComparisonResult κ String) := ⟨⟨⟨false, false, false⟩, [], [], ∅⟩⟩
  have each : ∀ entry : Σ _ : β, AList fun _ : κ => String, ∃ compared : ComparisonResult κ String,
      entry ∈ sourceMap.entries → ∃ info2, targetMap.lookup entry.1 = some info2 ∧
        compareDataMaps sets py formatList entry.2 info2 headerInfo "key" none = .ok compared ∧
        Exact (· ≠ ·) entry.2 info2 compared := by
    intro entry
    by_cases member : entry ∈ sourceMap.entries
    · obtain ⟨info2, found⟩ := Option.isSome_iff_exists.mp (AList.lookup_isSome.mpr (targets entry member))
      obtain ⟨compared, returned, exact⟩ := compareDataMaps_returns sets py formatList info2 "key" (headed entry member)
      exact ⟨compared, fun _ => ⟨info2, found, returned, exact⟩⟩
    · exact ⟨Classical.choice inhabited, fun impossible => absurd impossible member⟩
  choose comparedOf isCompared using each
  have folded : compareAllDataset sets py formatList headerInfo sourceMap targetMap comparisonMap = .ok
      (assignAll (sourceMap.entries.map fun entry => (entry.1, comparedOf entry)) ∅) := by
    rw [assignAll, List.foldl_map]
    refine foldlM_eq_ok (fun result entry member => ?_) ∅
    obtain ⟨info2, found, returned, _⟩ := isCompared entry member
    rw [getItem_eq_ok.mpr found]
    simp [returned, bind, Except.bind, pure, Except.pure]
  refine ⟨_, folded, fun bucket info1 found => ?_⟩
  have member : (⟨bucket, info1⟩ : Σ _ : β, AList fun _ : κ => String) ∈ sourceMap.entries := AList.mem_lookup_iff.mp found
  obtain ⟨info2, found2, _, exact⟩ := isCompared ⟨bucket, info1⟩ member
  refine ⟨info2, _, found2, ?_, exact⟩
  have distinct : ((sourceMap.entries.map fun entry => (entry.1, comparedOf entry)).map Prod.fst).Nodup := by
    rw [List.map_map]
    exact sourceMap.nodupKeys
  exact lookup_assignAll_of_mem distinct (List.mem_map_of_mem (f := fun entry => (entry.1, comparedOf entry)) member)

end Lines

/-! ## Statistics that differ -/

section Stats

variable {κ ν V : Type u} [DecidableEq κ] [DecidableEq ν] {sets : KeyOrder κ} {py : PyValues V} {keys : PyKeys ν}
  {comparisonMap : Option (AList fun _ : ν => Logic)} {data1 data2 : StatMap ν V}

/-- Two statistics differ: in their keys, in a value without a rule, or in a value that fails its rule. -/
def StatsDiffer (py : PyValues V) (comparisonMap : Option (AList fun _ : ν => Logic)) (data1 data2 : StatMap ν V) : Prop :=
  (∃ key, ¬ (key ∈ data1 ↔ key ∈ data2)) ∨ ∃ key val1 val2, data1.lookup key = some val1 ∧ data2.lookup key = some val2 ∧
    ((ruleFor comparisonMap key = none ∧ py.ne val1 val2 = true) ∨
      ∃ logic, ruleFor comparisonMap key = some logic ∧ Fails py logic val1 val2)

/-- If there are as many keys, each has a rule and is in the other dictionary, and the rule can convert
    both values. -/
def Comparable (py : PyValues V) (comparisonMap : Option (AList fun _ : ν => Logic)) (data1 data2 : StatMap ν V) : Prop :=
  data1.keys.length = data2.keys.length → ∀ key val1, data1.lookup key = some val1 →
    ∃ logic val2, ruleFor comparisonMap key = some logic ∧ data2.lookup key = some val2 ∧
      Converts py val1 logic.type ∧ Converts py val2 logic.type

theorem compareStat_returns (reason : Reason ν) (stat : Σ _ : ν, Option V) :
    (∃ next, compareStat py data2 comparisonMap reason stat = .ok next) ↔ ∃ logic val2,
      ruleFor comparisonMap stat.1 = some logic ∧ data2.lookup stat.1 = some val2 ∧
        Converts py stat.2 logic.type ∧ Converts py val2 logic.type := by
  rw [compareStat]
  cases rule : ruleFor comparisonMap stat.1 with
  | none => simp
  | some logic =>
    simp only [bind_eq_ok, getItem_eq_ok]
    constructor
    · rintro ⟨next, val2, found, stepped⟩
      exact ⟨logic, val2, rfl, found, compareValues_returns.mp ⟨next, stepped⟩⟩
    · rintro ⟨_, val2, same, found, converts⟩
      cases same
      have returns : ∃ next, compareValues py stat.2 val2 stat.1 reason logic = .ok next :=
        compareValues_returns.mpr converts
      obtain ⟨next, stepped⟩ := returns
      exact ⟨next, val2, found, stepped⟩

theorem compareStat_ok {reason next : Reason ν} {stat : Σ _ : ν, Option V}
    (stepped : compareStat py data2 comparisonMap reason stat = .ok next) : next ≠ ∅ ↔ reason ≠ ∅ ∨
      ∃ logic val2, ruleFor comparisonMap stat.1 = some logic ∧ data2.lookup stat.1 = some val2 ∧
        Fails py logic stat.2 val2 := by
  rw [compareStat] at stepped
  cases rule : ruleFor comparisonMap stat.1 with
  | none =>
    rw [rule] at stepped
    cases stepped
  | some logic =>
    simp only [rule, bind_eq_ok, getItem_eq_ok] at stepped
    obtain ⟨val2, found, stepped⟩ := stepped
    rw [compareValues_ok stepped]
    simp [found]

theorem compareStat_raises {stat : Σ _ : ν, Option V} (raises : ¬ ∃ next, compareStat py data2 comparisonMap ∅ stat = .ok next)
    (reason : Reason ν) : ∃ e, compareStat py data2 comparisonMap reason stat = .error e := by
  rw [compareStat_returns, ← compareStat_returns reason] at raises
  cases outcome : compareStat py data2 comparisonMap reason stat with
  | error e => exact ⟨e, rfl⟩
  | ok next => exact absurd ⟨next, outcome⟩ raises

theorem statReason_returns : (∃ reason, statReason py keys comparisonMap data1 data2 = .ok reason) ↔
    Comparable py comparisonMap data1 data2 := by
  rw [statReason, Comparable]
  by_cases length : data1.keys.length = data2.keys.length
  · rw [if_pos length, forall_prop_of_true length]
    constructor
    · rintro ⟨reason, folded⟩ key val1 found
      have member : (⟨key, val1⟩ : Σ _ : ν, Option V) ∈ data1.entries := AList.mem_lookup_iff.mp found
      refine (compareStat_returns ∅ ⟨key, val1⟩).mp ?_
      by_contra raises
      -- an entry is judged alike whatever the reasons before it
      obtain ⟨e, raised⟩ := foldlM_eq_error member (compareStat_raises raises) ∅
      cases raised.symm.trans folded
    · intro comparable
      refine foldlM_returns (fun reason stat member => ?_) ∅
      exact (compareStat_returns reason stat).mpr (comparable stat.1 stat.2 (AList.mem_lookup_iff.mpr member))
  · rw [if_neg length, forall_prop_of_false length]
    exact iff_of_true ⟨_, rfl⟩ trivial

omit [DecidableEq ν] in
/-- Two dictionaries with the same keys have as many. -/
theorem keys_length_eq (same : ∀ key, key ∈ data1 ↔ key ∈ data2) : data1.keys.length = data2.keys.length :=
  ((List.perm_ext_iff_of_nodup data1.nodupKeys data2.nodupKeys).mpr same).length_eq

omit [DecidableEq ν] in
/-- Keys that are as many as those they are among are all of them. -/
theorem keys_eq_of_subset (length : data1.keys.length = data2.keys.length) (subset : ∀ key ∈ data1, key ∈ data2)
    (key : ν) : key ∈ data1 ↔ key ∈ data2 :=
  ((List.subperm_of_subset data1.nodupKeys subset).perm_of_length_le length.ge).mem_iff

theorem statReason_ok {reason : Reason ν} (returned : statReason py keys comparisonMap data1 data2 = .ok reason) :
    reason ≠ ∅ ↔ StatsDiffer py comparisonMap data1 data2 := by
  have comparable := statReason_returns.mp ⟨reason, returned⟩
  rw [statReason] at returned
  by_cases length : data1.keys.length = data2.keys.length
  · rw [if_pos length] at returned
    have comparable := comparable length
    have shown : reason ≠ ∅ ↔ ∃ stat ∈ data1.entries, ∃ logic val2, ruleFor comparisonMap stat.1 = some logic ∧
        data2.lookup stat.1 = some val2 ∧ Fails py logic stat.2 val2 := by
      have added := foldlM_shows_iff (fun _ _ _ stepped => compareStat_ok stepped) returned
      simpa using added
    have sameKeys : ∀ key, key ∈ data1 ↔ key ∈ data2 := by
      refine keys_eq_of_subset length fun key member => ?_
      obtain ⟨val1, found1⟩ := Option.isSome_iff_exists.mp (AList.lookup_isSome.mpr member)
      obtain ⟨_, _, _, found2, _⟩ := comparable key val1 found1
      exact AList.lookup_isSome.mp (Option.isSome_of_eq_some found2)
    rw [shown]
    constructor
    · rintro ⟨stat, member, logic, val2, rule, found2, fails⟩
      exact .inr ⟨stat.1, stat.2, val2, AList.mem_lookup_iff.mpr member, found2, .inr ⟨logic, rule, fails⟩⟩
    · rintro (⟨key, impossible⟩ | ⟨key, val1, val2, found1, found2, either⟩)
      · exact absurd (sameKeys key) impossible
      · obtain ⟨logic, _, rule, _⟩ := comparable key val1 found1
        rcases either with ⟨unruled, _⟩ | ⟨logic', rule', fails⟩
        · cases unruled.symm.trans rule
        · exact ⟨⟨key, val1⟩, AList.mem_lookup_iff.mp found1, logic', val2, rule', found2, fails⟩
  · rw [if_neg length] at returned
    cases returned
    refine iff_of_true insert_ne_empty (.inl ?_)
    by_contra same
    rw [not_exists] at same
    exact length (keys_length_eq fun key => not_not.mp (same key))

/-- The comparison of statistics returns, and is exact then, if and only if all keys that both data sets have are
    comparable. -/
theorem compareMaps_exact_iff {info1 info2 : AList fun _ : κ => StatMap ν V} {mainKey : String} :
    (∃ compared, compareMaps sets py keys info1 info2 mainKey comparisonMap = .ok compared ∧
      Exact (StatsDiffer py comparisonMap) info1 info2 compared) ↔
      ∀ key data1 data2, info1.lookup key = some data1 → info2.lookup key = some data2 →
        Comparable py comparisonMap data1 data2 := by
  constructor
  · rintro ⟨compared, returned, _⟩ key data1 data2 found1 found2
    exact statReason_returns.mp (compareItems_ok_inv returned found1 found2)
  · intro comparable
    have returns : ∃ compared, compareMaps sets py keys info1 info2 mainKey comparisonMap = .ok compared :=
      compareItems_returns fun key data1 data2 found1 found2 => statReason_returns.mpr (comparable key data1 data2 found1 found2)
    obtain ⟨compared, returned⟩ := returns
    refine ⟨compared, returned, compareItems_exact returned ?_⟩
    intro key data1 data2 reason found1 found2 isReason
    exact statReason_ok isReason

/-- One statistic with the same value in both data sets, and no rules: the name `ata2` is looked up. -/
theorem no_rules_raise : ¬ ∃ compared, compareMaps KeyOrder.plain plainValues ⟨id, formatNames⟩
    ((∅ : AList fun _ : ℕ => StatMap String (String ⊕ ℤ)).insert 0 ((∅ : StatMap _ _).insert "seq" (some (.inr 1))))
    ((∅ : AList fun _ : ℕ => StatMap String (String ⊕ ℤ)).insert 0 ((∅ : StatMap _ _).insert "seq" (some (.inr 1))))
    "vbucket_id" none = .ok compared := by
  rintro ⟨compared, returned⟩
  cases returned

end Stats

end Taf.DataAnalysis
