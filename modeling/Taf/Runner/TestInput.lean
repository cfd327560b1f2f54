import Mathlib
import Taf.Lib.Dict
import Taf.Lib.Split

/-! # Test parameters

`TestInput.param` and the `-p` option of `TestInput.py`, and what `testrunner.py` puts together from
a test line and the parameters of the run.  `F` is the type of Python's floats. -/

namespace Taf.Runner

open Taf.Lib

/-- A string constant -/
def str (text : String) : Str := text.toList

/-- What `param` returns -/
inductive Param (F : Type) where
  | int (number : Int)
  | float (number : F)
  | bool (truth : Bool)
  | text (content : Str)

/-- An object that a test has put among its parameters: what `_parse_param` makes of it, its truth and
    its `str`; `none` stands for an exception. -/
structure Object (F : Type) where
  parsed : Option (Param F)
  truthy : Option Bool
  text : Option Str

/-- A value of `test_params` -/
inductive Value (F : Type) where
  | text (content : Str)
  | list (items : List Str)
  | int (number : Int)
  | bool (truth : Bool)
  | other (object : Object F)

abbrev Params (F : Type) := AList fun _ : Str => Value F

/-- Python's floats: the literals without the blanks around them, and which are not zero. -/
structure Floats (F : Type) where
  read : Str → Option F
  truthy : F → Bool

/-! ## `param` -/

def digits (text : Str) : Option Nat :=
  if text ≠ [] ∧ text.all Char.isDigit then some (Nat.ofDigitChars 10 text 0) else none

/-- `int` of a text without blanks around it -/
def intLiteral : Str → Option Int
  | '-' :: text => (digits text).map fun n => -(n : Int)
  | '+' :: text => (digits text).map Int.ofNat
  | text => (digits text).map Int.ofNat

variable {F : Type} (floats : Floats F)

/-- A number, if `int` or `float` accepts the text; both ignore blanks around it. -/
def number (value : Str) : Option (Param F) :=
  ((intLiteral (strip value)).map .int).or ((floats.read (strip value)).map .float)

def lower (value : Str) : Str := value.map Char.toLower

/-- `_parse_param` of a string -/
def parseText (value : Str) : Param F :=
  match number floats value with
  | some parsed => parsed
  | none =>
    if lower value = str "false" then .bool false
    else if lower value = str "true" then .bool true
    else .text value

/-- `_parse_param`; `none` stands for an exception other than a `ValueError`. -/
def parseParam : Value F → Option (Param F)
  | .text value => some (parseText floats value)
  | .list _ => none
  | .int number => some (.int number)
  | .bool truth => some (.int (if truth then 1 else 0))
  | .other object => object.parsed

/-- `param(name)` or `param(name, default)` -/
def param (params : Params F) (name : Str) (default : Option (Param F)) : Option (Param F) :=
  match params.lookup name with
  | some value => parseParam floats value
  | none => default

def Param.truthy : Param F → Bool
  | .int number => number ≠ 0
  | .float number => floats.truthy number
  | .bool truth => truth
  | .text content => content ≠ []

/-! ## Dictionaries from a text -/

/-- `dict(zip(argument_split[::2], argument_split[1::2]))` -/
def argumentPairs (text : Str) : AList fun _ : Str => Str :=
  assignAll ((splitKeys text).2.map fun pair => (strip pair.1, strip pair.2)) ∅

def Params.ofTexts (texts : AList fun _ : Str => Str) : Params F :=
  assignAll (texts.entries.map fun entry => (entry.1, Value.text entry.2)) ∅

/-- The value of one pair of `-p`: a list if it has a comma -/
def optionValue (value : Str) : Value F :=
  match (value.splitOn ',').map strip with
  | [single] => .text single
  | items => .list items

/-- The dictionary of `-p` -/
def optionParams (argument : Str) : Params F :=
  assignAll ((argumentPairs argument).entries.map fun entry => (entry.1, optionValue entry.2)) ∅

/-- `dict.update` -/
def update (params news : Params F) : Params F :=
  assignAll (news.entries.map fun entry => (entry.1, id entry.2)) params

def setDefault (params : Params F) (name : Str) (value : Value F) : Params F :=
  if name ∈ params then params else params.insert name value

/-- `get_test_input`: the clients and servers are counted in the ini file. -/
def getTestInput (clients servers : Nat) (argument : Str) : Params F :=
  let params := optionParams argument
  let params := if clients ≠ 0 then setDefault params (str "num_clients") (.int clients) else params
  if servers ≠ 0 then setDefault params (str "num_nodes") (.int servers) else params

/-! ## Lookups -/

variable {floats} {params news : Params F} {key name : Str}

theorem lookup_update : (update params news).lookup key = (news.lookup key).or (params.lookup key) := by
  rw [update, lookup_assignAll_entries]
  simp

theorem lookup_ofTexts {texts : AList fun _ : Str => Str} :
    (Params.ofTexts texts : Params F).lookup key = (texts.lookup key).map .text := by
  rw [Params.ofTexts, lookup_assignAll_entries]
  simp

theorem lookup_optionParams {argument : Str} : (optionParams argument : Params F).lookup key =
    ((argumentPairs argument).lookup key).map optionValue := by
  rw [optionParams, lookup_assignAll_entries]
  simp

theorem lookup_setDefault {value : Value F} : (setDefault params name value).lookup key =
    (params.lookup key).or (if key = name then some value else none) := by
  rw [setDefault]
  by_cases same : key = name
  · subst same
    split
    · rename_i present
      obtain ⟨found, known⟩ := Option.isSome_iff_exists.mp (AList.lookup_isSome.mpr present)
      rw [known]
      rfl
    · rename_i absent
      rw [AList.lookup_insert, AList.lookup_eq_none.mpr absent, if_pos rfl]
      rfl
  · rw [if_neg same, Option.or_none]
    split
    · rfl
    · exact AList.lookup_insert_ne same

end Taf.Runner
