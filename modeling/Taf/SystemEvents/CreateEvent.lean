import Taf.Lib.Dict
import Taf.Lib.JsonText

/-! # The text of an event

`create_event` posts an event as the text that its inner `get_str` writes.  The text is a JSON text
for the event unless an escape is needed, a dictionary has no keys, or an integer is not a plain `int`:
a boolean is one too and is written as Python spells it, and a `long` is none and gets quotes. -/

namespace Taf.SystemEvents

open Taf.Lib
open Taf.Lib.Json (Reads Denotes PlainCode codes numeral weight valueWeight fieldsWeight dictOf space
  EndsNumber)

inductive EventValue where
  | str (text : Str)
  | int (number : ℤ)
  | long (number : ℤ)
  | bool (truth : Bool)
  | dict (fields : List (Str × EventValue))

/-! ## The printer -/

mutual

/-- What the loop of `get_str` adds to the opening brace -/
def strData : List (Str × EventValue) → Str
  | [] => []
  | (key, value) :: fields => '"' :: (key ++ '"' :: ':' :: (valueText value ++ ',' :: strData fields))

/-- A value in its part of `kv_format` -/
def valueText : EventValue → Str
  | .str text => '"' :: (text ++ ['"'])
  | .int number => numeral number
  | .long number => '"' :: (numeral number ++ ['"'])
  -- `isinstance(True, int)`
  | .bool truth => if truth then ['T', 'r', 'u', 'e'] else ['F', 'a', 'l', 's', 'e']
  | .dict fields => ('{' :: strData fields).dropLast ++ ['}']

end

def getStr (dictObj : List (Str × EventValue)) : Str := ('{' :: strData dictObj).dropLast ++ ['}']

theorem valueText_dict (fields : List (Str × EventValue)) : valueText (.dict fields) = getStr fields := rfl

/-! ## Predicates on all values of an event -/

mutual

/-- Every value at every depth -/
def Every (good : EventValue → Prop) : EventValue → Prop
  | .str text => good (.str text)
  | .int number => good (.int number)
  | .long number => good (.long number)
  | .bool truth => good (.bool truth)
  | .dict fields => good (.dict fields) ∧ EveryField good fields

def EveryField (good : EventValue → Prop) : List (Str × EventValue) → Prop
  | [] => True
  | (_, value) :: fields => Every good value ∧ EveryField good fields

end

def DistinctKeys : EventValue → Prop
  | .dict fields => (fields.map Prod.fst).Nodup
  | _ => True

def Plain (text : Str) : Prop := ∀ c ∈ text, PlainCode c.toNat

/-- The texts of the value need no escape, and it has a key if it is a dictionary. -/
def Unescaped : EventValue → Prop
  | .str text => Plain text
  | .dict fields => fields ≠ [] ∧ ∀ field ∈ fields, Plain field.1
  | _ => True

def NotBool (value : EventValue) : Prop := ∀ truth, value ≠ .bool truth

def NotLong (value : EventValue) : Prop := ∀ number, value ≠ .long number

def Printable (value : EventValue) : Prop := (Unescaped value ∧ NotBool value) ∧ NotLong value

structure EventDict where
  fields : List (Str × EventValue)
  distinct : Every DistinctKeys (.dict fields)

/-! ## What a reader finds -/

mutual

/-- The JSON value is this value, up to the order of the keys. -/
inductive Same : EventValue → Json → Prop
  | str (text : Str) : Same (.str text) (.str (codes text))
  | int (number : ℤ) : Same (.int number) (.int number)
  | long (number : ℤ) : Same (.long number) (.int number)
  | bool (truth : Bool) : Same (.bool truth) (.bool truth)
  | dict {fields : List (Str × EventValue)} {pairs others : List (Codes × Json)} (perm : pairs.Perm others)
      (same : SameFields fields others) : Same (.dict fields) (.obj pairs)

inductive SameFields : List (Str × EventValue) → List (Codes × Json) → Prop
  | nil : SameFields [] []
  | cons {key : Str} {value : EventValue} {json : Json} {fields : List (Str × EventValue)}
      {pairs : List (Codes × Json)} (same : Same value json) (sameRest : SameFields fields pairs) :
      SameFields ((key, value) :: fields) ((codes key, json) :: pairs)

end

/-- The text of the event is a JSON text, and only for the event itself. -/
def RoundTrips (event : EventDict) : Prop :=
  (∃ json, Denotes (getStr event.fields) json) ∧
    ∀ json, Denotes (getStr event.fields) json → Same (.dict event.fields) json

mutual

/-- The value that the text of an event stands for, if it stands for one -/
def jsonOf : EventValue → Json
  | .str text => .str (codes text)
  | .int number => .int number
  | .long number => .str (codes (numeral number))
  | .bool truth => .bool truth
  | .dict fields => .obj (dictOf (pairsOf fields))

def pairsOf : List (Str × EventValue) → List (Codes × Json)
  | [] => []
  | (key, value) :: fields => (codes key, jsonOf value) :: pairsOf fields

end

section

variable {value : EventValue} {fields : List (Str × EventValue)} {field : Str × EventValue} {key : Str} {json : Json}
  {pairs : List (Codes × Json)} {rest after : Str}

/-! ## The comma at the end -/

/-- The pairs of a dictionary with the brace that closes it -/
def members (fields : List (Str × EventValue)) : Str := (strData fields).dropLast ++ ['}']

theorem getStr_cons : getStr (field :: fields) = '{' :: members (field :: fields) := rfl

theorem members_singleton : members [(key, value)] = '"' :: (key ++ '"' :: ':' :: (valueText value ++ ['}'])) := by
  have shape : strData [(key, value)] = ('"' :: (key ++ '"' :: ':' :: valueText value)) ++ [','] := by
    simp [strData]
  rw [members, shape, List.dropLast_concat]
  simp

theorem members_cons : members ((key, value) :: field :: fields) =
    '"' :: (key ++ '"' :: ':' :: (valueText value ++ ',' :: members (field :: fields))) := by
  have shape : strData ((key, value) :: field :: fields) =
      ('"' :: (key ++ '"' :: ':' :: (valueText value ++ [',']))) ++ strData (field :: fields) := by
    rw [strData]
    simp
  rw [members, shape, List.dropLast_append_of_ne_nil (by simp [strData]), members]
  simp

theorem members_head (field : Str × EventValue) (fields : List (Str × EventValue)) :
    ∃ tail, members (field :: fields) = '"' :: tail := by
  obtain ⟨key, value⟩ := field
  cases fields with
  | nil => exact ⟨_, members_singleton⟩
  | cons next fields => exact ⟨_, members_cons⟩

/-! ## The weight of an event -/

theorem weight_members (field : Str × EventValue) (fields : List (Str × EventValue)) :
    weight (members (field :: fields)) = weight (strData (field :: fields)) := by
  obtain ⟨key, value⟩ := field
  induction fields generalizing key value with
  | nil => simp [members_singleton, strData, weight]
  | cons next fields ih =>
    have front := ih next.1 next.2
    rw [members_cons, strData]
    simp only [Json.weight_quote, Json.weight_append, Json.weight_cons (show (':' : Char) ≠ '"' by decide),
      Json.weight_cons (show (',' : Char) ≠ '"' by decide), front]

theorem weight_getStr (field : Str × EventValue) (fields : List (Str × EventValue)) :
    weight (getStr (field :: fields)) = 1 + weight (strData (field :: fields)) := by
  rw [getStr_cons, Json.weight_cons (by decide), weight_members, Nat.add_comm]

mutual

/-- The text of a value is never longer than a text for the value has to be; it is shorter if an escape
    or a brace is missing. -/
theorem Same.weight {value : EventValue} {json : Json} (same : Same value json) :
    weight (valueText value) ≤ valueWeight json ∧
      (valueWeight json ≤ weight (valueText value) → Every Unescaped value) := by
  cases same with
  | str text =>
    have bound := Json.weight_le_codesWeight text
    have quotes : weight (valueText (.str text)) = weight text := by simp [valueText, Json.weight]
    rw [quotes, valueWeight]
    exact bound
  | int number => exact ⟨by rw [valueText, valueWeight], fun _ => trivial⟩
  | long number =>
    have quotes : weight (valueText (.long number)) = weight (numeral number) := by simp [valueText, Json.weight]
    rw [quotes, valueWeight]
    exact ⟨le_rfl, fun _ => trivial⟩
  | bool truth =>
    cases truth
    · exact ⟨by decide, fun _ => trivial⟩
    · exact ⟨by decide, fun _ => trivial⟩
  | @dict fields pairs others perm same =>
    have inner := same.weight
    have permuted := Json.fieldsWeight_perm perm
    rw [valueText_dict, valueWeight]
    cases same with
    | nil =>
      -- the only dictionary without keys is written `}`
      rw [List.Perm.eq_nil perm]
      exact ⟨by decide, fun impossible => absurd impossible (by decide)⟩
    | cons _ _ =>
      have nonempty : pairs.isEmpty = false := by
        cases pairs with
        | nil => cases perm.symm.eq_nil
        | cons _ _ => rfl
      rw [nonempty, if_neg Bool.false_ne_true, weight_getStr, permuted]
      refine ⟨by omega, fun bound => ⟨⟨List.cons_ne_nil _ _, (inner.2 (by omega)).1⟩, (inner.2 (by omega)).2⟩⟩

theorem SameFields.weight {fields : List (Str × EventValue)} {pairs : List (Codes × Json)}
    (same : SameFields fields pairs) : weight (strData fields) ≤ fieldsWeight pairs ∧
      (fieldsWeight pairs ≤ weight (strData fields) →
        (∀ field ∈ fields, Plain field.1) ∧ EveryField Unescaped fields) := by
  cases same with
  | nil => exact ⟨le_rfl, fun _ => ⟨fun field member => absurd member List.not_mem_nil, trivial⟩⟩
  | @cons key value json fields pairs same sameRest =>
    have keyWeight := Json.weight_le_codesWeight key
    have first := same.weight
    have others := sameRest.weight
    have shape : weight (strData ((key, value) :: fields)) =
        weight key + weight (valueText value) + 2 + weight (strData fields) := by
      rw [strData, Json.weight_quote, Json.weight_append, Json.weight_quote, Json.weight_cons (by decide),
        Json.weight_append, Json.weight_cons (by decide)]
      omega
    rw [shape, fieldsWeight]
    refine ⟨by omega, fun bound => ?_⟩
    have rest := others.2 (by omega)
    exact ⟨List.forall_mem_cons.mpr ⟨keyWeight.2 (by omega), rest.1⟩, first.2 (by omega), rest.2⟩

end

/-! ## Reading the text of an event -/

theorem valueText_head (value : EventValue) : ∃ c tail, valueText value = c :: tail ∧ space c = false := by
  have noNumber : ∀ c, Json.numberChar c → space c = false := by
    intro c isNumber
    by_contra blank
    simp only [space, Bool.not_eq_false, Bool.or_eq_true, decide_eq_true_eq] at blank
    rcases blank with ((rfl | rfl) | rfl) | rfl
    all_goals cases isNumber
  cases value with
  | str text => exact ⟨'"', text ++ ['"'], by rw [valueText], by decide⟩
  | int number =>
    obtain ⟨c, tail, shape, isNumber⟩ := Json.numeral_head number
    exact ⟨c, tail, by rw [valueText, shape], noNumber c isNumber⟩
  | long number => exact ⟨'"', numeral number ++ ['"'], by rw [valueText], by decide⟩
  | bool truth =>
    cases truth
    · exact ⟨'F', _, by rw [valueText, if_neg Bool.false_ne_true], by decide⟩
    · exact ⟨'T', _, by rw [valueText, if_pos rfl], by decide⟩
  | dict fields =>
    rw [valueText_dict]
    cases fields with
    | nil => exact ⟨'}', [], rfl, by decide⟩
    | cons field fields => exact ⟨'{', members (field :: fields), getStr_cons, by decide⟩

theorem plain_numeral (number : ℤ) : Plain (numeral number) := by
  intro c member
  cases Json.numeral_chars member with
  | inl digit =>
    simp only [Char.isDigit, Bool.and_eq_true, decide_eq_true_eq] at digit
    have low : 48 ≤ c.toNat := digit.1
    have high : c.toNat ≤ 57 := digit.2
    exact ⟨by omega, by omega, by omega⟩
  | inr minus =>
    rw [minus]
    decide

theorem no_blank : Json.Blank [] := fun _ member => absurd member List.not_mem_nil

theorem endsNumber_cons {c : Char} (strange : Json.numberChar c = false) : EndsNumber (c :: rest) := by
  intro d first
  cases first
  exact strange

mutual

/-- The text of an event without missing escapes has at most one reading, and none with a boolean. -/
theorem reads_valueText {value : EventValue} {json : Json} {rest after : Str} (unescaped : Every Unescaped value)
    (ends : EndsNumber rest) (read : Reads (valueText value ++ rest) (.value json) after) :
    Every NotBool value ∧ json = jsonOf value ∧ after = rest := by
  cases value with
  | str text =>
    rw [valueText, List.cons_append, List.append_assoc] at read
    exact ⟨fun _ impossible => EventValue.noConfusion impossible, read.str_inv unescaped⟩
  | int number => exact ⟨fun _ impossible => EventValue.noConfusion impossible, read.numeral_inv ends⟩
  | long number =>
    rw [valueText, List.cons_append, List.append_assoc] at read
    exact ⟨fun _ impossible => EventValue.noConfusion impossible, read.str_inv (plain_numeral number)⟩
  | bool truth =>
    cases truth
    · exact absurd read (Reads.not_start (by decide) (by decide))
    · exact absurd read (Reads.not_start (by decide) (by decide))
  | dict fields =>
    obtain ⟨⟨nonempty, keys⟩, inner⟩ := unescaped
    cases fields with
    | nil => exact absurd rfl nonempty
    | cons field fields =>
      obtain ⟨tail, quote⟩ := members_head field fields
      rw [valueText_dict, getStr_cons, quote, List.cons_append, List.cons_append] at read
      obtain ⟨pairs, readMembers, rfl⟩ := read.obj_inv
      rw [← List.cons_append, ← quote] at readMembers
      obtain ⟨noBool, rfl, same⟩ := reads_members nonempty keys inner readMembers
      exact ⟨⟨fun _ impossible => EventValue.noConfusion impossible, noBool⟩, rfl, same⟩

theorem reads_members {fields : List (Str × EventValue)} {pairs : List (Codes × Json)} {rest after : Str}
    (nonempty : fields ≠ []) (keys : ∀ field ∈ fields, Plain field.1) (unescaped : EveryField Unescaped fields)
    (read : Reads (members fields ++ rest) (.members pairs) after) :
    EveryField NotBool fields ∧ pairs = pairsOf fields ∧ after = rest := by
  match fields with
  | [] => exact absurd rfl nonempty
  | [(key, value)] =>
    obtain ⟨c, tail, shape, solid⟩ := valueText_head value
    have plainKey := keys (key, value) List.mem_cons_self
    rw [members_singleton, shape] at read
    simp only [List.cons_append, List.append_assoc] at read
    obtain ⟨json, left, readValue, either⟩ := Reads.members_inv plainKey solid read
    rw [← List.cons_append, ← shape] at readValue
    obtain ⟨noBool, rfl, rfl⟩ := reads_valueText unescaped.1 (endsNumber_cons (by decide)) readValue
    rcases either with ⟨blank, isBlank, same, rfl⟩ | ⟨blank, _, _, _, isBlank, _, same, _, _⟩
    · obtain ⟨_, behind⟩ := isBlank.eq_nil (by decide) same
      exact ⟨⟨noBool, trivial⟩, rfl, (List.cons.inj behind).2⟩
    · obtain ⟨_, behind⟩ := isBlank.eq_nil (by decide) same
      exact absurd (List.cons.inj behind).1 (by decide)
  | (key, value) :: next :: fields =>
    obtain ⟨c, tail, shape, solid⟩ := valueText_head value
    have plainKey := keys (key, value) List.mem_cons_self
    rw [members_cons, shape] at read
    simp only [List.cons_append, List.append_assoc] at read
    obtain ⟨json, left, readValue, either⟩ := Reads.members_inv plainKey solid read
    rw [← List.cons_append, ← shape] at readValue
    obtain ⟨noBool, rfl, rfl⟩ := reads_valueText unescaped.1 (endsNumber_cons (by decide)) readValue
    rcases either with ⟨blank, isBlank, same, _⟩ | ⟨blank, blank', more, others, isBlank, isBlank', same, readMore, rfl⟩
    · obtain ⟨_, behind⟩ := isBlank.eq_nil (by decide) same
      exact absurd (List.cons.inj behind).1 (by decide)
    · obtain ⟨_, behind⟩ := isBlank.eq_nil (by decide) same
      obtain ⟨tail', quote⟩ := members_head next fields
      have comma := (List.cons.inj behind).2
      rw [quote, List.cons_append] at comma
      obtain ⟨_, rfl⟩ := isBlank'.eq_nil (by decide) comma.symm
      rw [← List.cons_append, ← quote] at readMore
      obtain ⟨noBools, rfl, same⟩ := reads_members (List.cons_ne_nil _ _) (List.forall_mem_cons.mp keys).2 unescaped.2 readMore
      exact ⟨⟨noBool, noBools⟩, rfl, same⟩

end

mutual

theorem valueText_reads {value : EventValue} {rest : Str} (unescaped : Every Unescaped value)
    (noBool : Every NotBool value) (ends : EndsNumber rest) :
    Reads (valueText value ++ rest) (.value (jsonOf value)) rest := by
  cases value with
  | str text =>
    rw [valueText, List.cons_append, List.append_assoc]
    exact .str rfl (Json.readsString_plain unescaped rest)
  | int number => exact .int rfl (.inl rfl) ends
  | long number =>
    rw [valueText, List.cons_append, List.append_assoc]
    exact .str rfl (Json.readsString_plain (plain_numeral number) rest)
  | bool truth => exact absurd rfl (noBool truth)
  | dict fields =>
    obtain ⟨⟨nonempty, keys⟩, inner⟩ := unescaped
    cases fields with
    | nil => exact absurd rfl nonempty
    | cons field fields =>
      rw [valueText_dict, getStr_cons, List.cons_append]
      have brace : ∀ body : Str, '{' :: body = '{' :: ([] ++ body) := fun _ => rfl
      exact .obj (brace _) no_blank (members_reads nonempty keys inner noBool.2)

theorem members_reads {fields : List (Str × EventValue)} {rest : Str} (nonempty : fields ≠ [])
    (keys : ∀ field ∈ fields, Plain field.1) (unescaped : EveryField Unescaped fields)
    (noBool : EveryField NotBool fields) : Reads (members fields ++ rest) (.members (pairsOf fields)) rest := by
  match fields with
  | [] => exact absurd rfl nonempty
  | [(key, value)] =>
    have plainKey := keys (key, value) List.mem_cons_self
    rw [members_singleton]
    simp only [List.cons_append, List.append_assoc]
    have ends : EndsNumber ('}' :: rest) := endsNumber_cons (by decide)
    have readValue := valueText_reads unescaped.1 noBool.1 ends
    exact .lastMember rfl (Json.readsString_plain plainKey _) no_blank no_blank readValue no_blank
  | (key, value) :: next :: fields =>
    have plainKey := keys (key, value) List.mem_cons_self
    rw [members_cons]
    simp only [List.cons_append, List.append_assoc]
    have ends : EndsNumber (',' :: (members (next :: fields) ++ rest)) := endsNumber_cons (by decide)
    have readValue := valueText_reads unescaped.1 noBool.1 ends
    have readMore : Reads (members (next :: fields) ++ rest) (.members (pairsOf (next :: fields))) rest :=
      members_reads (List.cons_ne_nil _ _) (List.forall_mem_cons.mp keys).2 unescaped.2 noBool.2
    exact .member rfl (Json.readsString_plain plainKey _) no_blank no_blank readValue no_blank no_blank readMore

end

/-! ## The readings that are the event -/

theorem SameFields.keys {fields : List (Str × EventValue)} {pairs : List (Codes × Json)}
    (same : SameFields fields pairs) : pairs.map Prod.fst = fields.map fun field => codes field.1 := by
  induction fields generalizing pairs with
  | nil =>
    cases same
    rfl
  | cons field fields ih =>
    cases same with
    | cons same sameRest => rw [List.map_cons, List.map_cons, ih sameRest]

theorem keys_pairsOf (fields : List (Str × EventValue)) :
    (pairsOf fields).map Prod.fst = fields.map fun field => codes field.1 := by
  induction fields with
  | nil => rfl
  | cons field fields ih => rw [pairsOf, List.map_cons, ih, List.map_cons]

theorem nodup_keys (distinct : (fields.map Prod.fst).Nodup) : ((pairsOf fields).map Prod.fst).Nodup := by
  have shape : (fields.map fun field => codes field.1) = (fields.map Prod.fst).map codes := List.map_map.symm
  rw [keys_pairsOf, shape]
  exact distinct.map fun _ _ same => Json.codes_injective same

mutual

/-- The reading is the value itself unless an integer was quoted. -/
theorem same_jsonOf {value : EventValue} (distinct : Every DistinctKeys value) :
    Same value (jsonOf value) ↔ Every NotLong value := by
  cases value with
  | str text => exact ⟨fun _ _ impossible => EventValue.noConfusion impossible, fun _ => .str text⟩
  | int number => exact ⟨fun _ _ impossible => EventValue.noConfusion impossible, fun _ => .int number⟩
  | long number =>
    constructor
    · intro same
      cases same
    · intro noLong
      exact absurd rfl (noLong number)
  | bool truth => exact ⟨fun _ _ impossible => EventValue.noConfusion impossible, fun _ => .bool truth⟩
  | dict fields =>
    have inner := same_pairsOf distinct.2
    rw [jsonOf, Json.dictOf_eq_self (nodup_keys distinct.1)]
    constructor
    · intro same
      refine ⟨fun _ impossible => EventValue.noConfusion impossible, inner.mp ?_⟩
      cases same with
      | dict perm same =>
        have distinctKeys : ((pairsOf fields).map Prod.fst).Nodup := nodup_keys distinct.1
        rw [eq_of_perm_of_keys distinctKeys perm (same.keys.trans (keys_pairsOf fields).symm)]
        exact same
    · intro noLong
      exact .dict (List.Perm.refl _) (inner.mpr noLong.2)

theorem same_pairsOf {fields : List (Str × EventValue)} (distinct : EveryField DistinctKeys fields) :
    SameFields fields (pairsOf fields) ↔ EveryField NotLong fields := by
  cases fields with
  | nil => exact ⟨fun _ => trivial, fun _ => .nil⟩
  | cons field fields =>
    obtain ⟨key, value⟩ := field
    have first := same_jsonOf distinct.1
    have others := same_pairsOf distinct.2
    constructor
    · intro same
      cases same with
      | cons same sameRest => exact ⟨first.mp same, others.mp sameRest⟩
    · intro noLong
      exact .cons (first.mpr noLong.1) (others.mpr noLong.2)

end

mutual

theorem every_and (good good' : EventValue → Prop) (value : EventValue) :
    Every (fun value => good value ∧ good' value) value ↔ Every good value ∧ Every good' value := by
  cases value with
  | str | int | long | bool => simp only [Every]
  | dict fields =>
    have inner := everyField_and good good' fields
    simp only [Every, inner]
    exact and_and_and_comm

theorem everyField_and (good good' : EventValue → Prop) (fields : List (Str × EventValue)) :
    EveryField (fun value => good value ∧ good' value) fields ↔ EveryField good fields ∧ EveryField good' fields := by
  cases fields with
  | nil => simp only [EveryField, and_self]
  | cons field fields =>
    have first := every_and good good' field.2
    have others := everyField_and good good' fields
    simp only [EveryField, first, others]
    exact and_and_and_comm

end

theorem every_printable : Every Printable value ↔ (Every Unescaped value ∧ Every NotBool value) ∧ Every NotLong value := by
  have parts := every_and (fun value => Unescaped value ∧ NotBool value) NotLong value
  rw [every_and Unescaped] at parts
  exact parts

theorem denotes_iff (unescaped : Every Unescaped (.dict fields)) :
    Denotes (getStr fields) json ↔ Every NotBool (.dict fields) ∧ json = jsonOf (.dict fields) := by
  have noRest : EndsNumber [] := by
    intro c first
    cases first
  constructor
  · rintro ⟨blank, body, blank', same, isBlank, read, _⟩
    obtain ⟨c, tail, shape, solid⟩ := valueText_head (.dict fields)
    rw [← valueText_dict, shape] at same
    obtain ⟨_, rfl⟩ := isBlank.eq_nil solid same
    rw [← shape, ← List.append_nil (valueText _)] at read
    obtain ⟨noBool, isJson, _⟩ := reads_valueText unescaped noRest read
    exact ⟨noBool, isJson⟩
  · rintro ⟨noBool, rfl⟩
    have read := valueText_reads unescaped noBool noRest
    rw [List.append_nil] at read
    exact ⟨[], _, [], rfl, no_blank, read, no_blank⟩

theorem getStr_roundTrips (event : EventDict) : RoundTrips event ↔ Every Printable (.dict event.fields) := by
  rw [every_printable]
  constructor
  · rintro ⟨⟨json, denotes⟩, same⟩
    have isSame := same json denotes
    have unescaped := isSame.weight.2 (Json.weight_denotes denotes)
    obtain ⟨noBool, rfl⟩ := (denotes_iff unescaped).mp denotes
    exact ⟨⟨unescaped, noBool⟩, (same_jsonOf event.distinct).mp isSame⟩
  · rintro ⟨⟨unescaped, noBool⟩, noLong⟩
    refine ⟨⟨_, (denotes_iff unescaped).mpr ⟨noBool, rfl⟩⟩, fun json denotes => ?_⟩
    rw [((denotes_iff unescaped).mp denotes).2]
    exact (same_jsonOf event.distinct).mpr noLong

/-- Extra attributes without a key: the text is `{"extra_attributes":}}`. -/
theorem empty_dict_not_json : ∃ event : EventDict, ¬ RoundTrips event := by
  refine ⟨⟨[("extra_attributes".toList, .dict [])], by simp [Every, EveryField, DistinctKeys]⟩, ?_⟩
  rintro ⟨⟨json, blank, body, blank', same, isBlank, read, _⟩, _⟩
  rw [getStr_cons, members_singleton] at same
  obtain ⟨_, rfl⟩ := isBlank.eq_nil (by decide) same
  obtain ⟨pairs, readMembers, _⟩ := read.obj_inv
  have plainKey : Plain "extra_attributes".toList := by
    simp [Plain, PlainCode]
  obtain ⟨value, left, readValue, _⟩ := Reads.members_inv (c := '}') plainKey (by decide) readMembers
  exact Reads.not_start (by decide) (by decide) readValue

end

end Taf.SystemEvents
