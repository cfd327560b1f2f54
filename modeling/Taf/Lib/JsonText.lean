import Taf.Lib.Split

/-! # JSON texts

What a JSON text stands for, by its grammar.  A string is read as its code points, a number that is
not an integer is left as it is written, and of two pairs of an object with one key the later one
counts.

A text that stands for a value cannot be shorter than the value is: every quote, backslash and
control character of a string needs an escape.  Quotes are not counted, neither as characters of a
string nor around it, so that an integer weighs as much with quotes as without them. -/

namespace Taf.Lib

abbrev Codes := List ℕ

inductive Json where
  | null
  | bool (truth : Bool)
  | int (number : ℤ)
  | float (literal : Str)
  | str (codes : Codes)
  | arr (items : List Json)
  | obj (fields : List (Codes × Json))

namespace Json

def codes (text : Str) : Codes := text.map Char.toNat

/-! ## The grammar -/

def space (c : Char) : Bool := c = ' ' || c = '\t' || c = '\n' || c = '\r'

/-- Blanks between two tokens -/
def Blank (text : Str) : Prop := ∀ c ∈ text, space c

def numeral (number : ℤ) : Str := (toString number).toList

/-- A character that goes on with a number -/
def numberChar (c : Char) : Bool := c.isDigit || c = '-' || c = '+' || c = '.' || c = 'e' || c = 'E'

def EndsNumber (rest : Str) : Prop := ∀ c ∈ rest.head?, numberChar c = false

def IsInt (literal : Str) (number : ℤ) : Prop :=
  literal = numeral number ∨ (literal = ['-', '0'] ∧ number = 0)

def IsDigits (text : Str) : Prop := text ≠ [] ∧ ∀ c ∈ text, c.isDigit

def IsFraction (text : Str) : Prop := ∃ digits, IsDigits digits ∧ text = '.' :: digits

def IsExponent (text : Str) : Prop :=
  ∃ mark ∈ ['e', 'E'], ∃ sign ∈ [[], ['+'], ['-']], ∃ digits, IsDigits digits ∧
    text = mark :: (sign ++ digits)

/-- A number with a fraction, with an exponent, or with both -/
inductive IsFloat : Str → Prop
  | fraction {whole fraction} {number : ℤ} (isInt : IsInt whole number) (isFraction : IsFraction fraction) :
      IsFloat (whole ++ fraction)
  | exponent {whole exponent} {number : ℤ} (isInt : IsInt whole number) (isExponent : IsExponent exponent) :
      IsFloat (whole ++ exponent)
  | both {whole fraction exponent} {number : ℤ} (isInt : IsInt whole number) (isFraction : IsFraction fraction)
      (isExponent : IsExponent exponent) : IsFloat (whole ++ fraction ++ exponent)

/-- A code point that stands for itself in a string -/
def PlainCode (code : ℕ) : Prop := 32 ≤ code ∧ code ≠ 34 ∧ code ≠ 92

instance (code : ℕ) : Decidable (PlainCode code) :=
  inferInstanceAs (Decidable (32 ≤ code ∧ code ≠ 34 ∧ code ≠ 92))

/-- The character behind a backslash -/
def shortEscape (c : Char) : Option ℕ :=
  if c = '"' ∨ c = '\\' ∨ c = '/' then some c.toNat
  else if c = 'b' then some 8
  else if c = 'f' then some 12
  else if c = 'n' then some 10
  else if c = 'r' then some 13
  else if c = 't' then some 9
  else none

def hexDigit (c : Char) : Option ℕ :=
  if c.isDigit then some (c.toNat - '0'.toNat)
  else if 'a' ≤ c ∧ c ≤ 'f' then some (c.toNat - 'a'.toNat + 10)
  else if 'A' ≤ c ∧ c ≤ 'F' then some (c.toNat - 'A'.toNat + 10)
  else none

/-- An escape with four hexadecimal digits at the start of a text, and what comes after it -/
def unicodeEscape : Str → Option (ℕ × Str)
  | '\\' :: 'u' :: a :: b :: c :: d :: rest => do
    let a ← hexDigit a
    let b ← hexDigit b
    let c ← hexDigit c
    let d ← hexDigit d
    return (4096 * a + 256 * b + 16 * c + d, rest)
  | _ => none

def HighSurrogate (code : ℕ) : Prop := 0xD800 ≤ code ∧ code ≤ 0xDBFF

def LowSurrogate (code : ℕ) : Prop := 0xDC00 ≤ code ∧ code ≤ 0xDFFF

/-- The text behind the opening quote, the code points up to the closing one, and the text behind that -/
inductive ReadsString : Str → Codes → Str → Prop
  | close (rest : Str) : ReadsString ('"' :: rest) [] rest
  | plain {c text codes rest} (isPlain : PlainCode c.toNat) (read : ReadsString text codes rest) :
      ReadsString (c :: text) (c.toNat :: codes) rest
  | escape {c code text codes rest} (isEscape : shortEscape c = some code) (read : ReadsString text codes rest) :
      ReadsString ('\\' :: c :: text) (code :: codes) rest
  | unicode {text code after codes rest} (isEscape : unicodeEscape text = some (code, after))
      (alone : HighSurrogate code → ∀ low behind, unicodeEscape after = some (low, behind) → ¬ LowSurrogate low)
      (read : ReadsString after codes rest) : ReadsString text (code :: codes) rest
  | pair {text high after low behind codes rest} (isHigh : unicodeEscape text = some (high, after))
      (isLow : unicodeEscape after = some (low, behind)) (highRange : HighSurrogate high)
      (lowRange : LowSurrogate low) (read : ReadsString behind codes rest) :
      ReadsString text ((0x10000 + (high - 0xD800) * 0x400 + (low - 0xDC00)) :: codes) rest

/-- `dict(pairs)`, up to the order -/
def dictOf : List (Codes × Json) → List (Codes × Json)
  | [] => []
  | pair :: pairs => if pair.1 ∈ pairs.map Prod.fst then dictOf pairs else pair :: dictOf pairs

/-- What is read: a value, the pairs of an object with the closing brace, or the items of an array with
    the closing bracket. -/
inductive Node where
  | value (json : Json)
  | members (pairs : List (Codes × Json))
  | items (items : List Json)

inductive Reads : Str → Node → Str → Prop
  | nullWord {text rest} (same : text = ['n', 'u', 'l', 'l'] ++ rest) : Reads text (.value .null) rest
  | trueWord {text rest} (same : text = ['t', 'r', 'u', 'e'] ++ rest) : Reads text (.value (.bool true)) rest
  | falseWord {text rest} (same : text = ['f', 'a', 'l', 's', 'e'] ++ rest) :
      Reads text (.value (.bool false)) rest
  | int {text literal rest number} (same : text = literal ++ rest) (isInt : IsInt literal number)
      (ends : EndsNumber rest) : Reads text (.value (.int number)) rest
  | float {text literal rest} (same : text = literal ++ rest) (isFloat : IsFloat literal)
      (ends : EndsNumber rest) : Reads text (.value (.float literal)) rest
  | str {text body codes rest} (same : text = '"' :: body) (read : ReadsString body codes rest) :
      Reads text (.value (.str codes)) rest
  | emptyObj {text blank rest} (same : text = '{' :: (blank ++ '}' :: rest)) (isBlank : Blank blank) :
      Reads text (.value (.obj [])) rest
  | obj {text blank body pairs rest} (same : text = '{' :: (blank ++ body)) (isBlank : Blank blank)
      (read : Reads body (.members pairs) rest) : Reads text (.value (.obj (dictOf pairs))) rest
  | emptyArr {text blank rest} (same : text = '[' :: (blank ++ ']' :: rest)) (isBlank : Blank blank) :
      Reads text (.value (.arr [])) rest
  | arr {text blank body items rest} (same : text = '[' :: (blank ++ body)) (isBlank : Blank blank)
      (read : Reads body (.items items) rest) : Reads text (.value (.arr items)) rest
  | lastMember {text body key blank blank' inner value blank'' rest} (same : text = '"' :: body)
      (readKey : ReadsString body key (blank ++ ':' :: (blank' ++ inner))) (isBlank : Blank blank)
      (isBlank' : Blank blank') (read : Reads inner (.value value) (blank'' ++ '}' :: rest))
      (isBlank'' : Blank blank'') : Reads text (.members [(key, value)]) rest
  | member {text body key blank blank' inner value blank'' blankMore more pairs rest} (same : text = '"' :: body)
      (readKey : ReadsString body key (blank ++ ':' :: (blank' ++ inner))) (isBlank : Blank blank)
      (isBlank' : Blank blank') (read : Reads inner (.value value) (blank'' ++ ',' :: (blankMore ++ more)))
      (isBlank'' : Blank blank'') (isBlankMore : Blank blankMore) (readMore : Reads more (.members pairs) rest) :
      Reads text (.members ((key, value) :: pairs)) rest
  | lastItem {text value blank rest} (read : Reads text (.value value) (blank ++ ']' :: rest))
      (isBlank : Blank blank) : Reads text (.items [value]) rest
  | item {text value blank blank' more items rest} (read : Reads text (.value value) (blank ++ ',' :: (blank' ++ more)))
      (isBlank : Blank blank) (isBlank' : Blank blank') (readMore : Reads more (.items items) rest) :
      Reads text (.items (value :: items)) rest

/-- The whole text is a JSON text with this value. -/
def Denotes (text : Str) (json : Json) : Prop :=
  ∃ blank body blank', text = blank ++ body ∧ Blank blank ∧ Reads body (.value json) blank' ∧ Blank blank'

/-! ## The weight of a text -/

def weight (text : Str) : ℕ := text.countP (· ≠ '"')

def codeWeight (code : ℕ) : ℕ := if PlainCode code ∨ code = 34 then 1 else 2

def codesWeight (codes : Codes) : ℕ := (codes.map codeWeight).sum

mutual

/-- No text for the value weighs less. -/
def valueWeight : Json → ℕ
  | .null => 4
  | .bool truth => if truth then 4 else 5
  | .int number => weight (numeral number)
  | .float _ => 0
  | .str codes => codesWeight codes
  | .arr _ => 0
  | .obj fields => if fields.isEmpty then 2 else 1 + fieldsWeight fields

def fieldsWeight : List (Codes × Json) → ℕ
  | [] => 0
  | (key, value) :: fields => codesWeight key + valueWeight value + 2 + fieldsWeight fields

end

def nodeWeight : Node → ℕ
  | .value json => valueWeight json
  | .members pairs => fieldsWeight pairs
  | .items _ => 0

section

variable {text rest after : Str} {json : Json} {pairs : List (Codes × Json)} {code : ℕ} {c : Char}

@[simp] theorem weight_nil : weight [] = 0 := rfl

@[simp] theorem weight_quote : weight ('"' :: text) = weight text := by
  simp [weight]

theorem weight_cons (notQuote : c ≠ '"') : weight (c :: text) = weight text + 1 := by
  rw [weight, List.countP_cons_of_pos (by simpa using notQuote), weight]

theorem weight_le_cons (c : Char) (text : Str) : weight text ≤ weight (c :: text) :=
  (List.sublist_cons_self c text).countP_le

@[simp] theorem weight_append (front rest : Str) : weight (front ++ rest) = weight front + weight rest :=
  List.countP_append

theorem codeWeight_le (code : ℕ) : codeWeight code ≤ 2 := by
  rw [codeWeight]
  split
  · exact one_le_two
  · exact le_rfl

theorem codesWeight_cons (code : ℕ) (codes : Codes) :
    codesWeight (code :: codes) = codeWeight code + codesWeight codes := List.sum_cons

theorem weight_unicodeEscape (isEscape : unicodeEscape text = some (code, after)) :
    2 + weight after ≤ weight text := by
  rw [unicodeEscape.eq_def] at isEscape
  split at isEscape
  case h_1 a b c d rest =>
    simp only [Option.bind_eq_bind, Option.bind_eq_some_iff, Option.pure_def, Option.some.injEq,
      Prod.mk.injEq] at isEscape
    obtain ⟨_, _, _, _, _, _, _, _, _, rfl⟩ := isEscape
    rw [weight_cons (by decide), weight_cons (by decide)]
    have behind := ((weight_le_cons d rest).trans (weight_le_cons c _)).trans
      ((weight_le_cons b _).trans (weight_le_cons a _))
    omega
  case h_2 => cases isEscape

theorem weight_readsString {codes : Codes} (read : ReadsString text codes rest) :
    codesWeight codes + weight rest ≤ weight text := by
  induction read with
  | close rest => simp [codesWeight]
  | @plain c text codes rest isPlain read ih =>
    have notQuote : c ≠ '"' := by
      rintro rfl
      exact isPlain.2.1 rfl
    rw [codesWeight_cons, codeWeight, if_pos (.inl isPlain), weight_cons notQuote]
    omega
  | @escape c code text codes rest isEscape read ih =>
    rw [codesWeight_cons, weight_cons (by decide)]
    by_cases quote : c = '"'
    · -- the backslash pays for the quote, which has no weight in a text
      subst quote
      cases isEscape
      rw [weight_quote, show codeWeight '"'.toNat = 1 from rfl]
      omega
    · have bound := codeWeight_le code
      rw [weight_cons quote]
      omega
  | @unicode text code after codes rest isEscape alone read ih =>
    have bound := codeWeight_le code
    have behind := weight_unicodeEscape isEscape
    rw [codesWeight_cons]
    omega
  | @pair text high after low behind codes rest isHigh isLow highRange lowRange read ih =>
    have bound := codeWeight_le (0x10000 + (high - 0xD800) * 0x400 + (low - 0xDC00))
    have behindHigh := weight_unicodeEscape isHigh
    have behindLow := weight_unicodeEscape isLow
    rw [codesWeight_cons]
    omega

theorem fieldsWeight_dictOf (pairs : List (Codes × Json)) : fieldsWeight (dictOf pairs) ≤ fieldsWeight pairs := by
  induction pairs with
  | nil => exact le_rfl
  | cons pair pairs ih =>
    rw [dictOf]
    split
    · rw [fieldsWeight]
      omega
    · rw [fieldsWeight, fieldsWeight]
      omega

theorem valueWeight_dictOf (nonempty : pairs ≠ []) : valueWeight (.obj (dictOf pairs)) ≤ 1 + fieldsWeight pairs := by
  have bound := fieldsWeight_dictOf pairs
  rw [valueWeight]
  split
  · cases pairs with
    | nil => exact absurd rfl nonempty
    | cons pair pairs =>
      rw [fieldsWeight]
      omega
  · omega

theorem Reads.members_ne_nil (read : Reads text (.members pairs) rest) : pairs ≠ [] := by
  cases read with
  | lastMember => exact List.cons_ne_nil _ _
  | member => exact List.cons_ne_nil _ _

/-- No text for a value weighs less than the value. -/
theorem weight_reads {node : Node} (read : Reads text node rest) : nodeWeight node + weight rest ≤ weight text := by
  induction read with
  | nullWord same =>
    subst same
    rw [weight_append, nodeWeight, valueWeight]
    exact Nat.add_le_add_right (by decide) _
  | trueWord same =>
    subst same
    rw [weight_append, nodeWeight, valueWeight]
    exact Nat.add_le_add_right (by decide) _
  | falseWord same =>
    subst same
    rw [weight_append, nodeWeight, valueWeight]
    exact Nat.add_le_add_right (by decide) _
  | int same isInt =>
    subst same
    rw [weight_append, nodeWeight, valueWeight]
    cases isInt with
    | inl canonical => rw [canonical]
    | inr minusZero =>
      -- `-0` is read as 0, which weighs less
      rw [minusZero.1, minusZero.2]
      exact Nat.add_le_add_right (show weight (numeral 0) ≤ 2 by decide) _
  | float same =>
    subst same
    simp [nodeWeight, valueWeight]
  | str same read =>
    subst same
    rw [nodeWeight, valueWeight, weight_quote]
    exact weight_readsString read
  | emptyObj same =>
    subst same
    rw [weight_cons (by decide), weight_append, weight_cons (by decide), nodeWeight, valueWeight]
    simp only [List.isEmpty_nil, if_true]
    omega
  | obj same _ read ih =>
    subst same
    -- pairs that come again are left out of the dictionary, which is not heavier for it
    have bound := valueWeight_dictOf read.members_ne_nil
    rw [weight_cons (by decide), weight_append, nodeWeight]
    rw [nodeWeight] at ih
    omega
  | emptyArr same =>
    subst same
    rw [weight_cons (by decide), weight_append, weight_cons (by decide), nodeWeight, valueWeight]
    omega
  | arr same _ _ ih =>
    subst same
    rw [weight_cons (by decide), weight_append, nodeWeight, valueWeight]
    omega
  | lastMember same readKey _ _ _ _ ih =>
    subst same
    have keyWeight := weight_readsString readKey
    rw [weight_append, weight_cons (by decide), weight_append] at keyWeight
    rw [weight_append, weight_cons (by decide), nodeWeight] at ih
    rw [nodeWeight, fieldsWeight, fieldsWeight, weight_quote]
    omega
  | member same readKey _ _ _ _ _ _ ih ihMore =>
    subst same
    have keyWeight := weight_readsString readKey
    rw [weight_append, weight_cons (by decide), weight_append] at keyWeight
    rw [weight_append, weight_cons (by decide), weight_append, nodeWeight] at ih
    rw [nodeWeight] at ihMore
    rw [nodeWeight, fieldsWeight, weight_quote]
    omega
  | lastItem _ _ ih =>
    rw [weight_append, weight_cons (by decide)] at ih
    rw [nodeWeight]
    omega
  | item _ _ _ _ ih ihMore =>
    rw [weight_append, weight_cons (by decide), weight_append] at ih
    rw [nodeWeight] at ihMore ⊢
    omega

theorem weight_denotes (denotes : Denotes text json) : valueWeight json ≤ weight text := by
  obtain ⟨blank, body, blank', same, _, read, _⟩ := denotes
  have bound := weight_reads read
  rw [same, weight_append]
  rw [nodeWeight] at bound
  omega

/-! ## What plain texts are read as -/

theorem Blank.eq_nil {blank body : Str} (isBlank : Blank blank) (solid : space c = false)
    (same : c :: rest = blank ++ body) : blank = [] ∧ body = c :: rest := by
  cases blank with
  | nil => exact ⟨rfl, same.symm⟩
  | cons first blank =>
    have first' := isBlank first List.mem_cons_self
    rw [← (List.cons.inj same).1, solid] at first'
    cases first'

theorem not_unicodeEscape (plain : c ≠ '\\') : unicodeEscape (c :: text) = none := by
  rw [unicodeEscape.eq_def]
  split
  case h_1 same => exact absurd (List.cons.inj same).1 plain
  case h_2 => rfl

/-- A string of plain characters is read up to the quote behind it. -/
theorem ReadsString.plain_inv {body : Str} {read : Codes} (plain : ∀ c ∈ body, PlainCode c.toNat)
    (reads : ReadsString (body ++ '"' :: rest) read after) : read = codes body ∧ after = rest := by
  induction body generalizing read with
  | nil =>
    cases reads with
    | close => exact ⟨rfl, rfl⟩
    | plain isPlain => exact absurd rfl isPlain.2.1
    | unicode isEscape => cases (not_unicodeEscape (by decide)).symm.trans isEscape
    | pair isHigh => cases (not_unicodeEscape (by decide)).symm.trans isHigh
  | cons c body ih =>
    have isPlain := plain c List.mem_cons_self
    have noBackslash : c ≠ '\\' := by
      rintro rfl
      exact isPlain.2.2 rfl
    generalize whole : (c :: body) ++ '"' :: rest = text at reads
    cases reads with
    | close =>
      rw [(List.cons.inj whole).1] at isPlain
      exact absurd rfl isPlain.2.1
    | plain _ reads =>
      obtain ⟨rfl, rfl⟩ := List.cons.inj whole
      obtain ⟨rfl, same⟩ := ih (fun other member => plain other (List.mem_cons_of_mem c member)) reads
      exact ⟨rfl, same⟩
    | escape => exact absurd (List.cons.inj whole).1 noBackslash
    | unicode isEscape =>
      rw [← whole] at isEscape
      cases (not_unicodeEscape noBackslash).symm.trans isEscape
    | pair isHigh =>
      rw [← whole] at isHigh
      cases (not_unicodeEscape noBackslash).symm.trans isHigh

theorem readsString_plain {body : Str} (plain : ∀ c ∈ body, PlainCode c.toNat) (rest : Str) :
    ReadsString (body ++ '"' :: rest) (codes body) rest := by
  induction body with
  | nil => exact .close rest
  | cons c body ih =>
    exact .plain (plain c List.mem_cons_self) (ih fun other member => plain other (List.mem_cons_of_mem c member))

/-! Numbers are as long as they can be. -/

theorem literal_unique {literal literal' rest rest' : Str} (same : literal ++ rest = literal' ++ rest')
    (number : ∀ c ∈ literal, numberChar c) (number' : ∀ c ∈ literal', numberChar c)
    (ends : EndsNumber rest) (ends' : EndsNumber rest') : literal = literal' ∧ rest = rest' := by
  have stops : ∀ rest, EndsNumber rest → rest.takeWhile numberChar = [] := by
    intro rest ends
    cases rest with
    | nil => rfl
    | cons c rest => simpa [List.takeWhile_cons] using ends c rfl
  have fronts := congrArg (List.takeWhile numberChar) same
  rw [List.takeWhile_append_of_pos number, List.takeWhile_append_of_pos number', stops rest ends,
    stops rest' ends', List.append_nil, List.append_nil] at fronts
  subst fronts
  exact ⟨rfl, List.append_cancel_left same⟩

theorem numeral_cases (number : ℤ) : (∃ n : ℕ, number = n ∧ numeral number = Nat.toDigits 10 n) ∨
    ∃ n : ℕ, number = -(n + 1 : ℕ) ∧ numeral number = '-' :: Nat.toDigits 10 (n + 1) := by
  cases number with
  | ofNat n => exact .inl ⟨n, rfl, Nat.toList_repr⟩
  | negSucc n =>
    refine .inr ⟨n, rfl, ?_⟩
    show ("-" ++ Nat.repr (n + 1)).toList = _
    rw [String.toList_append, Nat.toList_repr]
    rfl

theorem numeral_chars {number : ℤ} (member : c ∈ numeral number) : c.isDigit ∨ c = '-' := by
  cases numeral_cases number with
  | inl natural =>
    obtain ⟨n, _, digits⟩ := natural
    rw [digits] at member
    exact .inl (Nat.isDigit_of_mem_toDigits (by decide) (by decide) member)
  | inr negative =>
    obtain ⟨n, _, digits⟩ := negative
    rw [digits, List.mem_cons] at member
    cases member with
    | inl minus => exact .inr minus
    | inr digit => exact .inl (Nat.isDigit_of_mem_toDigits (by decide) (by decide) digit)

theorem toDigits_ten_injective {m n : ℕ} (same : Nat.toDigits 10 m = Nat.toDigits 10 n) : m = n := by
  have values := congrArg (Nat.ofDigitChars 10 · 0) same
  simpa only [Nat.ofDigitChars_ten_toDigits] using values

theorem numeral_injective {number other : ℤ} (same : numeral number = numeral other) : number = other := by
  have digits : ∀ {m n : ℕ}, Nat.toDigits 10 m ≠ '-' :: Nat.toDigits 10 n := by
    intro m n impossible
    have minus := Nat.isDigit_of_mem_toDigits (b := 10) (n := m) (c := '-') (by decide) (by decide)
      (by rw [impossible]; exact List.mem_cons_self)
    exact absurd minus (by decide)
  cases numeral_cases number with
  | inl natural =>
    obtain ⟨n, rfl, first⟩ := natural
    cases numeral_cases other with
    | inl natural =>
      obtain ⟨m, rfl, second⟩ := natural
      rw [first, second] at same
      rw [toDigits_ten_injective same]
    | inr negative =>
      obtain ⟨m, rfl, second⟩ := negative
      rw [first, second] at same
      exact absurd same digits
  | inr negative =>
    obtain ⟨n, rfl, first⟩ := negative
    cases numeral_cases other with
    | inl natural =>
      obtain ⟨m, rfl, second⟩ := natural
      rw [first, second] at same
      exact absurd same.symm digits
    | inr negative =>
      obtain ⟨m, rfl, second⟩ := negative
      rw [first, second] at same
      rw [toDigits_ten_injective (List.cons.inj same).2]

theorem numeral_ne_minusZero {number : ℤ} : numeral number ≠ ['-', '0'] := by
  intro same
  cases numeral_cases number with
  | inl natural =>
    obtain ⟨n, _, digits⟩ := natural
    have minus := Nat.isDigit_of_mem_toDigits (b := 10) (n := n) (c := '-') (by decide) (by decide)
      (by rw [← digits, same]; exact List.mem_cons_self)
    exact absurd minus (by decide)
  | inr negative =>
    obtain ⟨n, _, digits⟩ := negative
    rw [digits] at same
    have zero : n + 1 = 0 := toDigits_ten_injective (List.cons.inj same).2
    exact absurd zero n.succ_ne_zero

theorem numeral_head (number : ℤ) : ∃ c tail, numeral number = c :: tail ∧ numberChar c := by
  cases shape : numeral number with
  | nil =>
    cases numeral_cases number with
    | inl natural =>
      obtain ⟨n, _, digits⟩ := natural
      exact absurd (digits.symm.trans shape) Nat.toDigits_ne_nil
    | inr negative =>
      obtain ⟨n, _, digits⟩ := negative
      cases digits.symm.trans shape
  | cons c tail =>
    refine ⟨c, tail, rfl, ?_⟩
    cases numeral_chars (show c ∈ numeral number by rw [shape]; exact List.mem_cons_self) with
    | inl digit => simp [numberChar, digit]
    | inr minus => simp [numberChar, minus]

theorem numberChar_numeral {number : ℤ} : ∀ c ∈ numeral number, numberChar c := by
  intro c member
  cases numeral_chars member with
  | inl digit => simp [numberChar, digit]
  | inr minus => simp [numberChar, minus]

theorem IsInt.numberChars {literal : Str} {number : ℤ} (isInt : IsInt literal number) :
    ∀ c ∈ literal, numberChar c := by
  cases isInt with
  | inl canonical =>
    rw [canonical]
    exact numberChar_numeral
  | inr minusZero =>
    rw [minusZero.1]
    simp [numberChar]

theorem IsFraction.numberChars {fraction : Str} (isFraction : IsFraction fraction) :
    (∀ c ∈ fraction, numberChar c) ∧ ∃ c ∈ fraction, ¬ (c.isDigit ∨ c = '-') := by
  obtain ⟨digits, isDigits, rfl⟩ := isFraction
  constructor
  · intro c member
    cases List.mem_cons.mp member with
    | inl point => simp [numberChar, point]
    | inr digit => simp [numberChar, isDigits.2 c digit]
  · exact ⟨'.', List.mem_cons_self, by decide⟩

theorem IsExponent.numberChars {exponent : Str} (isExponent : IsExponent exponent) :
    (∀ c ∈ exponent, numberChar c) ∧ ∃ c ∈ exponent, ¬ (c.isDigit ∨ c = '-') := by
  obtain ⟨mark, isMark, sign, isSign, digits, isDigits, rfl⟩ := isExponent
  constructor
  · intro c member
    simp only [List.mem_cons, List.mem_append, List.not_mem_nil, or_false] at member isMark isSign
    rcases member with rfl | signed | digit
    · rcases isMark with rfl | rfl <;> decide
    · rcases isSign with rfl | rfl | rfl
      · cases signed
      · rw [List.mem_singleton.mp signed]
        decide
      · rw [List.mem_singleton.mp signed]
        decide
    · simp [numberChar, isDigits.2 c digit]
  · refine ⟨mark, List.mem_cons_self, ?_⟩
    simp only [List.mem_cons, List.not_mem_nil, or_false] at isMark
    rcases isMark with rfl | rfl <;> decide

theorem IsFloat.numberChars {literal : Str} (isFloat : IsFloat literal) :
    (∀ c ∈ literal, numberChar c) ∧ ∃ c ∈ literal, ¬ (c.isDigit ∨ c = '-') := by
  cases isFloat with
  | fraction isInt isFraction =>
    obtain ⟨chars, c, member, strange⟩ := isFraction.numberChars
    exact ⟨List.forall_mem_append.mpr ⟨isInt.numberChars, chars⟩, c, List.mem_append_right _ member, strange⟩
  | exponent isInt isExponent =>
    obtain ⟨chars, c, member, strange⟩ := isExponent.numberChars
    exact ⟨List.forall_mem_append.mpr ⟨isInt.numberChars, chars⟩, c, List.mem_append_right _ member, strange⟩
  | both isInt isFraction isExponent =>
    obtain ⟨chars, c, member, strange⟩ := isExponent.numberChars
    refine ⟨?_, c, List.mem_append_right _ member, strange⟩
    exact List.forall_mem_append.mpr
      ⟨List.forall_mem_append.mpr ⟨isInt.numberChars, isFraction.numberChars.1⟩, chars⟩

/-! ## Reading a value back -/

/-- A text that starts like a number is read as a number. -/
theorem Reads.number_of_head {tail : Str} (isNumber : numberChar c)
    (read : Reads (c :: tail) (.value json) rest) : ∃ literal, c :: tail = literal ++ rest ∧ EndsNumber rest ∧
      ((∃ number, IsInt literal number ∧ json = .int number) ∨ IsFloat literal) := by
  have other : ∀ {first : Char} {behind : Str}, numberChar first = false → c :: tail ≠ first :: behind := by
    intro first behind notNumber same
    rw [(List.cons.inj same).1, notNumber] at isNumber
    cases isNumber
  cases read with
  | nullWord same => exact absurd same (other (by decide))
  | trueWord same => exact absurd same (other (by decide))
  | falseWord same => exact absurd same (other (by decide))
  | int same isInt ends => exact ⟨_, same, ends, .inl ⟨_, isInt, rfl⟩⟩
  | float same isFloat ends => exact ⟨_, same, ends, .inr isFloat⟩
  | str same => exact absurd same (other (by decide))
  | emptyObj same => exact absurd same (other (by decide))
  | obj same => exact absurd same (other (by decide))
  | emptyArr same => exact absurd same (other (by decide))
  | arr same => exact absurd same (other (by decide))

theorem Reads.numeral_inv {number : ℤ} (ends : EndsNumber rest)
    (read : Reads (numeral number ++ rest) (.value json) after) : json = .int number ∧ after = rest := by
  obtain ⟨c, tail, shape, isNumber⟩ := numeral_head number
  rw [shape, List.cons_append] at read
  obtain ⟨literal, same, ends', either⟩ := Reads.number_of_head isNumber read
  rw [← List.cons_append, ← shape] at same
  cases either with
  | inl isInt =>
    obtain ⟨other, isInt, isOther⟩ := isInt
    obtain ⟨sameLiteral, sameRest⟩ := literal_unique same numberChar_numeral isInt.numberChars ends ends'
    refine ⟨?_, sameRest.symm⟩
    cases isInt with
    | inl canonical => rw [isOther, numeral_injective (sameLiteral.trans canonical)]
    | inr minusZero => exact absurd (sameLiteral.trans minusZero.1) numeral_ne_minusZero
  | inr isFloat =>
    obtain ⟨chars, c, member, strange⟩ := isFloat.numberChars
    obtain ⟨sameLiteral, _⟩ := literal_unique same numberChar_numeral chars ends ends'
    rw [← sameLiteral] at member
    exact absurd (numeral_chars member) strange

theorem numberChar_of_literal {literal tail : Str} (same : c :: tail = literal ++ rest)
    (chars : ∀ d ∈ literal, numberChar d) (nonempty : literal ≠ []) : numberChar c := by
  cases literal with
  | nil => exact absurd rfl nonempty
  | cons first literal =>
    rw [(List.cons.inj same).1]
    exact chars first List.mem_cons_self

/-- What a value can begin with, and what it is if that is a quote or a brace -/
theorem Reads.head_cases {tail : Str} (read : Reads (c :: tail) (.value json) rest) :
    (c = '"' ∧ ∃ read, ReadsString tail read rest ∧ json = .str read) ∨
      (c = '{' ∧ ∃ blank body, tail = blank ++ body ∧ Blank blank ∧ ((body = '}' :: rest ∧ json = .obj []) ∨
        ∃ pairs, Reads body (.members pairs) rest ∧ json = .obj (dictOf pairs))) ∨
      numberChar c ∨ c = 'n' ∨ c = 't' ∨ c = 'f' ∨ c = '[' := by
  cases read with
  | nullWord same => simp [(List.cons.inj same).1]
  | trueWord same => simp [(List.cons.inj same).1]
  | falseWord same => simp [(List.cons.inj same).1]
  | int same isInt =>
    have nonempty : ∀ literal number, IsInt literal number → literal ≠ [] := by
      rintro literal number (rfl | ⟨rfl, rfl⟩)
      · obtain ⟨first, behind, shape, _⟩ := numeral_head number
        rw [shape]
        exact List.cons_ne_nil first behind
      · exact List.cons_ne_nil _ _
    exact .inr (.inr (.inl (numberChar_of_literal same isInt.numberChars (nonempty _ _ isInt))))
  | float same isFloat =>
    obtain ⟨chars, d, member, _⟩ := isFloat.numberChars
    exact .inr (.inr (.inl (numberChar_of_literal same chars (List.ne_nil_of_mem member))))
  | str same read =>
    obtain ⟨rfl, rfl⟩ := List.cons.inj same
    exact .inl ⟨rfl, _, read, rfl⟩
  | emptyObj same isBlank =>
    obtain ⟨rfl, rfl⟩ := List.cons.inj same
    exact .inr (.inl ⟨rfl, _, _, rfl, isBlank, .inl ⟨rfl, rfl⟩⟩)
  | obj same isBlank read =>
    obtain ⟨rfl, rfl⟩ := List.cons.inj same
    exact .inr (.inl ⟨rfl, _, _, rfl, isBlank, .inr ⟨_, read, rfl⟩⟩)
  | emptyArr same => simp [(List.cons.inj same).1]
  | arr same => simp [(List.cons.inj same).1]

theorem Reads.str_inv {body : Str} (plain : ∀ c ∈ body, PlainCode c.toNat)
    (read : Reads ('"' :: (body ++ '"' :: rest)) (.value json) after) :
    json = .str (codes body) ∧ after = rest := by
  rcases read.head_cases with string | ⟨impossible, _⟩ | number | word | word | word | word
  · obtain ⟨_, codes', readString, rfl⟩ := string
    obtain ⟨rfl, same⟩ := readString.plain_inv plain
    exact ⟨rfl, same⟩
  · exact absurd impossible (by decide)
  · exact absurd number (by decide)
  · exact absurd word (by decide)
  · exact absurd word (by decide)
  · exact absurd word (by decide)
  · exact absurd word (by decide)

/-- An object whose first pair follows the brace is read as its pairs. -/
theorem Reads.obj_inv {body : Str} (read : Reads ('{' :: '"' :: body) (.value json) after) :
    ∃ pairs, Reads ('"' :: body) (.members pairs) after ∧ json = .obj (dictOf pairs) := by
  rcases read.head_cases with ⟨impossible, _⟩ | object | number | word | word | word | word
  · exact absurd impossible (by decide)
  · obtain ⟨_, blank, inner, same, isBlank, either⟩ := object
    obtain ⟨_, rfl⟩ := isBlank.eq_nil (by decide) same
    cases either with
    | inl impossible => exact absurd (List.cons.inj impossible.1).1 (by decide)
    | inr pairs => exact pairs
  · exact absurd number (by decide)
  · exact absurd word (by decide)
  · exact absurd word (by decide)
  · exact absurd word (by decide)
  · exact absurd word (by decide)

/-- No value begins with any other character. -/
theorem Reads.not_start {tail : Str} (strange : c ∉ ['"', '{', 'n', 't', 'f', '[']) (notNumber : numberChar c = false) :
    ¬ Reads (c :: tail) (.value json) rest := by
  intro read
  simp only [List.mem_cons, List.not_mem_nil, or_false, not_or] at strange
  obtain ⟨quote, brace, n, t, f, bracket⟩ := strange
  rcases read.head_cases with ⟨start, _⟩ | ⟨start, _⟩ | number | start | start | start | start
  · exact quote start
  · exact brace start
  · rw [notNumber] at number
    cases number
  · exact n start
  · exact t start
  · exact f start
  · exact bracket start

/-- The first pair of an object, written without blanks: its key is the text between the quotes. -/
theorem Reads.members_inv {key inner : Str} (plain : ∀ d ∈ key, PlainCode d.toNat) (solid : space c = false)
    (read : Reads ('"' :: (key ++ '"' :: ':' :: c :: inner)) (.members pairs) after) :
    ∃ value left, Reads (c :: inner) (.value value) left ∧
      ((∃ blank, Blank blank ∧ left = blank ++ '}' :: after ∧ pairs = [(codes key, value)]) ∨
        ∃ blank blank' more others, Blank blank ∧ Blank blank' ∧ left = blank ++ ',' :: (blank' ++ more) ∧
          Reads more (.members others) after ∧ pairs = (codes key, value) :: others) := by
  have split : ∀ {body read blank blank' inner'}, '"' :: (key ++ '"' :: ':' :: c :: inner) = '"' :: body →
      ReadsString body read (blank ++ ':' :: (blank' ++ inner')) → Blank blank → Blank blank' →
      read = codes key ∧ inner' = c :: inner := by
    intro body read blank blank' inner' same readKey isBlank isBlank'
    rw [← (List.cons.inj same).2] at readKey
    obtain ⟨isKey, behind⟩ := readKey.plain_inv plain
    obtain ⟨_, colon⟩ := isBlank.eq_nil (by decide) behind.symm
    obtain ⟨_, isInner⟩ := isBlank'.eq_nil solid (List.cons.inj colon).2.symm
    exact ⟨isKey, isInner⟩
  cases read with
  | lastMember same readKey isBlank isBlank' read isBlank'' =>
    obtain ⟨rfl, rfl⟩ := split same readKey isBlank isBlank'
    exact ⟨_, _, read, .inl ⟨_, isBlank'', rfl, rfl⟩⟩
  | member same readKey isBlank isBlank' read isBlank'' isBlankMore readMore =>
    obtain ⟨rfl, rfl⟩ := split same readKey isBlank isBlank'
    exact ⟨_, _, read, .inr ⟨_, _, _, _, isBlank'', isBlankMore, rfl, readMore, rfl⟩⟩

/-! ## Keys and their order -/

theorem dictOf_eq_self (distinct : (pairs.map Prod.fst).Nodup) : dictOf pairs = pairs := by
  induction pairs with
  | nil => rfl
  | cons pair pairs ih =>
    rw [List.map_cons, List.nodup_cons] at distinct
    rw [dictOf, if_neg distinct.1, ih distinct.2]

theorem fieldsWeight_eq_sum (pairs : List (Codes × Json)) :
    fieldsWeight pairs = (pairs.map fun pair => codesWeight pair.1 + valueWeight pair.2 + 2).sum := by
  induction pairs with
  | nil => rfl
  | cons pair pairs ih => rw [fieldsWeight, ih, List.map_cons, List.sum_cons]

theorem fieldsWeight_perm {others : List (Codes × Json)} (perm : pairs.Perm others) :
    fieldsWeight pairs = fieldsWeight others := by
  rw [fieldsWeight_eq_sum, fieldsWeight_eq_sum]
  exact (perm.map _).sum_eq

theorem codes_injective {text other : Str} (same : codes text = codes other) : text = other :=
  List.map_injective_iff.mpr (fun _ _ sameCode => Char.toNat_inj.mp sameCode) same

/-- A text between quotes weighs as much as its code points only if none of them needs an escape. -/
theorem weight_le_codesWeight (text : Str) : weight text ≤ codesWeight (codes text) ∧
    (codesWeight (codes text) ≤ weight text → ∀ c ∈ text, PlainCode c.toNat) := by
  induction text with
  | nil => exact ⟨le_rfl, fun _ c member => absurd member List.not_mem_nil⟩
  | cons c text ih =>
    rw [codes, List.map_cons, codesWeight_cons, ← codes]
    by_cases quote : c = '"'
    · subst quote
      have one : codeWeight '"'.toNat = 1 := rfl
      rw [weight_quote]
      exact ⟨by omega, fun bound => by omega⟩
    · rw [weight_cons quote, codeWeight]
      by_cases plain : PlainCode c.toNat
      · rw [if_pos (.inl plain)]
        refine ⟨by omega, fun bound => List.forall_mem_cons.mpr ⟨plain, ih.2 (by omega)⟩⟩
      · have noQuote : c.toNat ≠ 34 := fun code => quote (Char.toNat_inj.mp code)
        rw [if_neg (not_or.mpr ⟨plain, noQuote⟩)]
        exact ⟨by omega, fun bound => by omega⟩

/-! ## Texts as a program may print them -/

theorem not_reads_nil : ¬ Reads [] (.value json) rest := by
  have noLiteral : ∀ literal : Str, literal ≠ [] → [] ≠ literal ++ rest := by
    intro literal some same
    exact some (List.append_eq_nil_iff.mp same.symm).1
  intro read
  cases read with
  | nullWord same | trueWord same | falseWord same | str same | emptyObj same | obj same | emptyArr same
  | arr same => cases same
  | int same isInt =>
    refine noLiteral _ ?_ same
    cases isInt with
    | inl canonical =>
      obtain ⟨c, tail, shape, _⟩ := numeral_head _
      rw [canonical, shape]
      exact List.cons_ne_nil c tail
    | inr minusZero =>
      rw [minusZero.1]
      exact List.cons_ne_nil _ _
  | float same isFloat =>
    obtain ⟨_, c, member, _⟩ := isFloat.numberChars
    exact noLiteral _ (List.ne_nil_of_mem member) same

theorem not_denotes_nil : ¬ Denotes [] json := by
  intro ⟨blank, body, blank', same, _, read, _⟩
  rw [(List.append_eq_nil_iff.mp same.symm).2] at read
  exact not_reads_nil read

theorem not_denotes_of_start {tail : Str} (strange : c ∉ ['"', '{', 'n', 't', 'f', '[']) (notNumber : numberChar c = false)
    (solid : space c = false) : ¬ Denotes (c :: tail) json := by
  intro ⟨blank, body, blank', same, isBlank, read, _⟩
  obtain ⟨_, rfl⟩ := isBlank.eq_nil solid same
  exact Reads.not_start strange notNumber read

theorem denotes_of_reads (read : Reads text (.value json) []) : Denotes text json :=
  ⟨[], text, [], rfl, fun _ member => absurd member List.not_mem_nil, read,
    fun _ member => absurd member List.not_mem_nil⟩

theorem denotes_numeral (number : ℤ) : Denotes (numeral number) (.int number) :=
  denotes_of_reads (.int (List.append_nil _).symm (.inl rfl) fun _ member => nomatch member)

/-- Quotes around a text make it a JSON text of its own characters exactly if none needs an escape. -/
theorem denotes_quoted_iff {body : Str} :
    Denotes ('"' :: (body ++ ['"'])) (.str (codes body)) ↔ ∀ c ∈ body, PlainCode c.toNat := by
  constructor
  · intro denotes
    have bound := weight_denotes denotes
    rw [weight_quote, weight_append, weight_quote, weight_nil, Nat.add_zero, valueWeight] at bound
    exact (weight_le_codesWeight body).2 bound
  · intro plain
    exact denotes_of_reads (.str rfl (readsString_plain plain []))

end

end Json

end Taf.Lib
