import Mathlib

/-! # Texts that are split at separators

`strip` and the split at the keys of a text `k1=v1,v2,k2=v3`, which a regular expression does: a key
is a longest run without `,` and `=` that stands in front of a `=`, and the comma in front of it
belongs to it.  A list of assignments is read back whatever commas its values have. -/

namespace Taf.Lib

abbrev Str := List Char

instance : LawfulBEq Str := inferInstance

/-! ## Blanks -/

def blank (c : Char) : Bool :=
  c ∈ [' ', '\t', '\n', '\r', '\x0b', '\x0c']

def rstrip (text : Str) : Str := text.rdropWhile blank

def strip (text : Str) : Str := rstrip (text.dropWhile blank)

theorem rstrip_eq_self {text : Str} (last : ∀ c ∈ text.getLast?, blank c = false) :
    rstrip text = text := by
  rw [rstrip, List.rdropWhile_eq_self_iff]
  intro nonempty
  rw [last _ (List.getLast?_eq_some_getLast nonempty ▸ rfl)]
  exact Bool.false_ne_true

theorem strip_eq_rstrip {text : Str} (first : ∀ c ∈ text.head?, blank c = false) :
    strip text = rstrip text := by
  cases text with
  | nil => rfl
  | cons c cs => rw [strip, List.dropWhile_cons_of_neg (by simp [first c rfl])]

theorem strip_eq_self {text : Str} (plain : ∀ c ∈ text, blank c = false) : strip text = text := by
  rw [strip_eq_rstrip fun c first => plain c (List.mem_of_mem_head? first)]
  exact rstrip_eq_self fun c last => plain c (List.mem_of_getLast? last)

theorem rstrip_append_cons {c : Char} (solid : blank c = false) (front rest : Str) :
    rstrip (front ++ c :: rest) = front ++ c :: rstrip rest := by
  induction rest using List.reverseRecOn with
  | nil =>
    rw [rstrip, List.rdropWhile_concat_neg _ _ _ (by simp [solid])]
    simp [rstrip]
  | append_singleton rest last ih =>
    have shape : front ++ c :: (rest ++ [last]) = (front ++ c :: rest) ++ [last] := by simp
    rw [shape, rstrip, rstrip, List.rdropWhile_concat, List.rdropWhile_concat, ← rstrip, ← rstrip, ih]
    split
    · rfl
    · simp

theorem rstrip_append_blank {text : Str} {blanks : Str} (all : ∀ c ∈ blanks, blank c) :
    rstrip (text ++ blanks) = rstrip text := by
  induction blanks using List.reverseRecOn with
  | nil => rw [List.append_nil]
  | append_singleton blanks last ih =>
    rw [← List.append_assoc, rstrip, List.rdropWhile_concat_pos _ _ _ (all last (by simp))]
    exact ih fun c member => all c (by simp [member])

theorem strip_append_blank {text : Str} {blanks : Str} (all : ∀ c ∈ blanks, blank c) :
    strip (text ++ blanks) = strip text := by
  rw [strip, strip, List.dropWhile_append]
  split
  · rename_i none
    have gone : blanks.dropWhile blank = [] := List.dropWhile_eq_nil_iff.mpr all
    rw [gone, List.isEmpty_iff.mp none]
  · exact rstrip_append_blank all

/-- Only blanks are taken away at the end. -/
theorem exists_rstrip_append (text : Str) :
    ∃ blanks, text = rstrip text ++ blanks ∧ ∀ c ∈ blanks, blank c := by
  induction text using List.reverseRecOn with
  | nil => exact ⟨[], rfl, by simp⟩
  | append_singleton text last ih =>
    obtain ⟨blanks, same, all⟩ := ih
    rw [rstrip, List.rdropWhile_concat, ← rstrip]
    split
    · rename_i isBlank
      refine ⟨blanks ++ [last], ?_, ?_⟩
      · rw [← List.append_assoc, ← same]
      · intro c member
        rcases List.mem_append.mp member with member | member
        · exact all c member
        · rw [List.mem_singleton.mp member]
          exact isBlank
    · exact ⟨[], by simp, by simp⟩

@[simp] theorem strip_rstrip (text : Str) : strip (rstrip text) = strip text := by
  obtain ⟨blanks, same, all⟩ := exists_rstrip_append text
  conv_rhs => rw [same, strip_append_blank all]

@[simp] theorem strip_strip (text : Str) : strip (strip text) = strip text := by
  calc strip (strip text) = strip (text.dropWhile blank) := strip_rstrip _
    _ = strip text := by rw [strip, strip, List.dropWhile_idempotent]

theorem mem_rstrip {text : Str} {c : Char} (member : c ∈ rstrip text) : c ∈ text :=
  (List.rdropWhile_prefix _ _).subset member

/-! ## Keys -/

def keyChar (c : Char) : Bool :=
  c ≠ ',' ∧ c ≠ '='

/-- `[,]?` at the start of a text -/
def afterComma : Str → Str
  | [] => []
  | c :: cs => if c = ',' then cs else c :: cs

/-- A match of `[,]?([^,=]+)=` at the start of a text: the group, and what follows. -/
def matchKey (text : Str) : Option (Str × Str) :=
  match (afterComma text).dropWhile keyChar with
  | '=' :: rest =>
    if (afterComma text).takeWhile keyChar = [] then none
    else some ((afterComma text).takeWhile keyChar, rest)
  | _ => none

theorem length_afterComma_le (text : Str) : (afterComma text).length ≤ text.length := by
  cases text with
  | nil => exact le_refl _
  | cons c cs =>
    rw [afterComma]
    split
    · exact Nat.le_succ _
    · exact le_refl _

theorem matchKey_eq_some {text key rest : Str} : matchKey text = some (key, rest) ↔
    (afterComma text).dropWhile keyChar = '=' :: rest ∧
      (afterComma text).takeWhile keyChar = key ∧ key ≠ [] := by
  unfold matchKey
  split
  · rename_i behind dropped
    split
    · rename_i none
      simp only [none]
      simp [eq_comm]
    · rename_i nonempty
      simp only [Option.some.injEq, Prod.mk.injEq, dropped, List.cons.injEq, true_and]
      constructor
      · rintro ⟨rfl, rfl⟩
        exact ⟨rfl, rfl, nonempty⟩
      · rintro ⟨rfl, rfl, -⟩
        exact ⟨rfl, rfl⟩
  · rename_i other
    simp only [reduceCtorEq, false_iff]
    rintro ⟨dropped, -⟩
    exact other rest dropped

theorem matchKey_length {text key rest : Str} (found : matchKey text = some (key, rest)) :
    rest.length < text.length := by
  obtain ⟨dropped, -, -⟩ := matchKey_eq_some.mp found
  have shorter := List.length_dropWhile_le keyChar (afterComma text)
  have whole := length_afterComma_le text
  rw [dropped, List.length_cons] at shorter
  omega

/-- `re.split("[,]?([^,=]+)=", text)`: the text in front of the first match, and then for each match
    its group and the text up to the next one. -/
def splitKeys : Str → Str × List (Str × Str)
  | [] => ([], [])
  | c :: cs =>
    match _found : matchKey (c :: cs) with
    | some (key, rest) =>
      let more := splitKeys rest
      ([], (key, more.1) :: more.2)
    | none =>
      let more := splitKeys cs
      (c :: more.1, more.2)
termination_by text => text.length
decreasing_by
  · exact matchKey_length _found
  · exact Nat.lt_succ_self _

theorem splitKeys_of_match {text key rest : Str} (found : matchKey text = some (key, rest)) :
    splitKeys text = ([], (key, (splitKeys rest).1) :: (splitKeys rest).2) := by
  cases text with
  | nil => cases found
  | cons c cs =>
    rw [splitKeys]
    split
    · rename_i key' rest' found'
      rw [found] at found'
      cases found'
      rfl
    · rename_i missing
      rw [found] at missing
      cases missing

theorem splitKeys_of_none {c : Char} {cs : Str} (missing : matchKey (c :: cs) = none) :
    splitKeys (c :: cs) = (c :: (splitKeys cs).1, (splitKeys cs).2) := by
  rw [splitKeys]
  split
  · rename_i key rest found
    rw [missing] at found
    cases found
  · rfl

/-- What may stand behind a value: nothing, or the comma in front of the next key. -/
def Fenced (rest : Str) : Prop := ∀ c ∈ rest.head?, c = ','

theorem dropWhile_fenced {text rest behind : Str} (fenced : Fenced rest)
    (dropped : (text ++ rest).dropWhile keyChar = '=' :: behind) :
    ∃ inside, text.dropWhile keyChar = '=' :: inside := by
  induction text with
  | nil =>
    cases rest with
    | nil => cases dropped
    | cons c cs =>
      have comma := fenced c rfl
      subst comma
      simp [keyChar] at dropped
  | cons c cs ih =>
    by_cases inKey : keyChar c
    · rw [List.cons_append, List.dropWhile_cons_of_pos inKey] at dropped
      rw [List.dropWhile_cons_of_pos inKey]
      exact ih dropped
    · rw [List.cons_append, List.dropWhile_cons_of_neg inKey] at dropped
      rw [List.dropWhile_cons_of_neg inKey, (List.cons.inj dropped).1]
      exact ⟨cs, rfl⟩

theorem afterComma_suffix (text : Str) : afterComma text <:+ text := by
  cases text with
  | nil => exact List.suffix_refl _
  | cons c cs =>
    rw [afterComma]
    split
    · exact List.suffix_cons c cs
    · exact List.suffix_refl _

/-- What stands behind a comma makes no key of the text in front of it. -/
theorem matchKey_append {text rest : Str} (nonempty : text ≠ []) (missing : matchKey text = none)
    (fenced : Fenced rest) : matchKey (text ++ rest) = none := by
  apply Option.eq_none_iff_forall_ne_some.mpr
  intro ⟨key, behind⟩ found
  obtain ⟨dropped, taken, filled⟩ := matchKey_eq_some.mp found
  have front : afterComma (text ++ rest) = afterComma text ++ rest := by
    cases text with
    | nil => exact absurd rfl nonempty
    | cons c cs =>
      rw [List.cons_append, afterComma, afterComma]
      split
      · rfl
      · rfl
  rw [front] at dropped taken
  obtain ⟨inside, own⟩ := dropWhile_fenced fenced dropped
  have some : matchKey text = some ((afterComma text).takeWhile keyChar, inside) := by
    refine matchKey_eq_some.mpr ⟨own, rfl, ?_⟩
    intro none
    have whole := @List.takeWhile_append_dropWhile _ keyChar (afterComma text)
    rw [none, own, List.nil_append] at whole
    rw [← whole] at taken
    exact filled taken.symm
  rw [missing] at some
  cases some

/-! ## Texts without keys -/

/-- No key begins inside the text. -/
def Inert (text : Str) : Prop := splitKeys text = (text, [])

theorem inert_cons_iff {c : Char} {cs : Str} :
    Inert (c :: cs) ↔ matchKey (c :: cs) = none ∧ Inert cs := by
  cases found : matchKey (c :: cs) with
  | some pair =>
    rw [Inert, splitKeys_of_match found]
    simp
  | none =>
    rw [Inert, splitKeys_of_none found, Inert, Prod.ext_iff, Prod.ext_iff]
    simp

theorem inert_of_plain {text : Str} (plain : '=' ∉ text) : Inert text := by
  induction text with
  | nil => rw [Inert, splitKeys]
  | cons c cs ih =>
    refine inert_cons_iff.mpr ⟨?_, ih fun member => plain (List.mem_cons_of_mem c member)⟩
    apply Option.eq_none_iff_forall_ne_some.mpr
    intro ⟨key, behind⟩ found
    obtain ⟨dropped, -, -⟩ := matchKey_eq_some.mp found
    have inside : '=' ∈ (afterComma (c :: cs)).dropWhile keyChar := by
      rw [dropped]
      exact List.mem_cons_self
    exact plain ((afterComma_suffix _).mem ((List.dropWhile_suffix _).mem inside))

theorem splitKeys_inert {text rest : Str} (inert : Inert text) (fenced : Fenced rest) :
    splitKeys (text ++ rest) = (text ++ (splitKeys rest).1, (splitKeys rest).2) := by
  induction text with
  | nil => rfl
  | cons c cs ih =>
    obtain ⟨missing, inert⟩ := inert_cons_iff.mp inert
    have still := matchKey_append (List.cons_ne_nil c cs) missing fenced
    rw [List.cons_append] at still
    rw [List.cons_append, splitKeys_of_none still, ih inert]
    rfl

theorem Inert.suffix {front rest : Str} (inert : Inert (front ++ rest)) : Inert rest := by
  induction front with
  | nil => exact inert
  | cons c cs ih => exact ih (inert_cons_iff.mp inert).2

def IsKey (key : Str) : Prop := key ≠ [] ∧ ∀ c ∈ key, keyChar c

theorem matchKey_key {key rest : Str} (isKey : IsKey key) :
    matchKey (key ++ '=' :: rest) = some (key, rest) ∧
      matchKey (',' :: (key ++ '=' :: rest)) = some (key, rest) := by
  obtain ⟨nonempty, plain⟩ := isKey
  have taken : (key ++ '=' :: rest).takeWhile keyChar = key := by
    rw [List.takeWhile_append_of_pos plain]
    simp [keyChar]
  have dropped : (key ++ '=' :: rest).dropWhile keyChar = '=' :: rest := by
    rw [List.dropWhile_append_of_pos plain]
    simp [keyChar]
  have first : afterComma (key ++ '=' :: rest) = key ++ '=' :: rest := by
    cases key with
    | nil => exact absurd rfl nonempty
    | cons c cs =>
      have other : c ≠ ',' := by
        have := plain c List.mem_cons_self
        simp only [keyChar, decide_eq_true_eq] at this
        exact this.1
      rw [List.cons_append, afterComma, if_neg other]
  constructor
  · rw [matchKey_eq_some, first]
    exact ⟨dropped, taken, nonempty⟩
  · rw [matchKey_eq_some, afterComma, if_pos rfl]
    exact ⟨dropped, taken, nonempty⟩

/-! ## Lists of assignments -/

/-- `key=value` -/
def assignment (pair : Str × Str) : Str := pair.1 ++ '=' :: pair.2

/-- `,k1=v1,k2=v2` -/
def followed (pairs : List (Str × Str)) : Str :=
  pairs.flatMap fun pair => ',' :: assignment pair

/-- `k1=v1,k2=v2` -/
def joined (pairs : List (Str × Str)) : Str := [','].intercalate (pairs.map assignment)

/-- Keys that can be told from the text around them, and values without `=`. -/
def Readable (pairs : List (Str × Str)) : Prop :=
  ∀ pair ∈ pairs, IsKey pair.1 ∧ '=' ∉ pair.2

/-- The same of the values as far as it matters -/
def Separable (pairs : List (Str × Str)) : Prop :=
  ∀ pair ∈ pairs, IsKey pair.1 ∧ Inert pair.2

theorem Readable.separable {pairs : List (Str × Str)} (readable : Readable pairs) :
    Separable pairs :=
  fun pair member => ⟨(readable pair member).1, inert_of_plain (readable pair member).2⟩

theorem followed_fenced (pairs : List (Str × Str)) : Fenced (followed pairs) := by
  cases pairs with
  | nil => exact fun c first => absurd first (by simp [followed])
  | cons pair pairs =>
    intro c first
    rw [followed, List.flatMap_cons] at first
    exact (Option.some.inj first).symm

theorem splitKeys_followed {pairs : List (Str × Str)} (separable : Separable pairs) :
    splitKeys (followed pairs) = ([], pairs) := by
  induction pairs with
  | nil => simp [followed, splitKeys]
  | cons pair pairs ih =>
    obtain ⟨isKey, inert⟩ := separable pair List.mem_cons_self
    have rest := ih fun other member => separable other (List.mem_cons_of_mem _ member)
    have found := (@matchKey_key pair.1 (pair.2 ++ followed pairs) isKey).2
    have text : followed (pair :: pairs) = ',' :: (pair.1 ++ '=' :: (pair.2 ++ followed pairs)) := by
      simp [followed, assignment]
    rw [text, splitKeys_of_match found, splitKeys_inert inert (followed_fenced pairs), rest]
    simp

theorem joined_cons (pair : Str × Str) (pairs : List (Str × Str)) :
    joined (pair :: pairs) = pair.1 ++ '=' :: (pair.2 ++ followed pairs) := by
  rw [joined, List.map_cons]
  induction pairs generalizing pair with
  | nil => simp [assignment, followed]
  | cons next pairs ih =>
    rw [List.map_cons, List.intercalate_cons_cons, ih]
    simp [assignment, followed]

theorem splitKeys_joined {pairs : List (Str × Str)} (separable : Separable pairs) :
    splitKeys (joined pairs) = ([], pairs) := by
  cases pairs with
  | nil => simp [joined, splitKeys]
  | cons pair pairs =>
    obtain ⟨isKey, inert⟩ := separable pair List.mem_cons_self
    have rest := splitKeys_followed fun other member => separable other (List.mem_cons_of_mem _ member)
    have found := (@matchKey_key pair.1 (pair.2 ++ followed pairs) isKey).1
    rw [joined_cons, splitKeys_of_match found, splitKeys_inert inert (followed_fenced pairs), rest]
    simp

/-- The assignments behind a name -/
theorem splitKeys_name_followed {name : Str} {pairs : List (Str × Str)} (inert : Inert name)
    (separable : Separable pairs) : splitKeys (name ++ followed pairs) = (name, pairs) := by
  rw [splitKeys_inert inert (followed_fenced pairs), splitKeys_followed separable]
  simp

/-! ## Names with separators -/

/-- No piece has the separator in it. -/
theorem notMem_of_mem_splitOn {α : Type*} [DecidableEq α] {sep : α} {line piece : List α}
    (member : piece ∈ line.splitOn sep) : sep ∉ piece := by
  induction line generalizing piece with
  | nil =>
    rw [List.splitOn_nil, List.mem_singleton] at member
    simp [member]
  | cons c cs ih =>
    obtain ⟨first, rest, pieces⟩ := List.exists_cons_of_ne_nil (List.splitOn_ne_nil sep cs)
    rw [List.splitOn_cons_eq_if_modifyHead, pieces] at member
    rw [pieces] at ih
    split at member
    · rcases List.mem_cons.mp member with rfl | member
      · simp
      · exact ih member
    · rename_i other
      rcases List.mem_cons.mp member with rfl | member
      · have inside := ih List.mem_cons_self
        rw [List.mem_cons]
        rintro (rfl | isSep)
        · exact other (by simp)
        · exact inside isSep
      · exact ih (List.mem_cons_of_mem _ member)

/-- `sep.join(parts)` -/
def joinText (sep : Char) (parts : List String) : String :=
  String.ofList ([sep].intercalate (parts.map String.toList))

/-- `text.split(sep)` -/
def splitText (sep : Char) (text : String) : List String :=
  (text.toList.splitOn sep).map String.ofList

section Names

variable {sep : Char} {parts others : List String}

theorem splitText_joinText (plain : ∀ part ∈ parts, sep ∉ part.toList) (nonempty : parts ≠ []) :
    splitText sep (joinText sep parts) = parts := by
  have pieces : ∀ piece ∈ parts.map String.toList, sep ∉ piece := by
    intro piece member
    obtain ⟨part, inside, rfl⟩ := List.mem_map.mp member
    exact plain part inside
  rw [splitText, joinText, String.toList_ofList, List.splitOn_intercalate sep pieces (by simpa using nonempty),
    List.map_map]
  simp [Function.comp_def]

/-- A text is told by its pieces. -/
theorem splitText_injective : Function.Injective (splitText sep) := by
  intro line1 line2 same
  have texts : line1.toList.splitOn sep = line2.toList.splitOn sep :=
    List.map_injective_iff.mpr (fun _ _ text => String.ofList_injective text) same
  have lines := congrArg (fun pieces => [sep].intercalate pieces) texts
  simp only [List.intercalate_splitOn] at lines
  exact String.toList_inj.mp lines

theorem mem_intercalate {c : Char} {piece : Str} {pieces : List Str} (inside : c ∈ piece) (member : piece ∈ pieces) :
    c ∈ [sep].intercalate pieces := by
  induction pieces with
  | nil => cases member
  | cons first pieces ih =>
    cases pieces with
    | nil =>
      rw [List.mem_singleton.mp member] at inside
      simpa using inside
    | cons second pieces =>
      rw [List.intercalate_cons_cons, List.mem_append, List.mem_append]
      rcases List.mem_cons.mp member with rfl | later
      · exact .inl (.inl inside)
      · exact .inr (ih later)

theorem mem_of_mem_splitText {c : Char} {part text : String} (inside : c ∈ part.toList)
    (member : part ∈ splitText sep text) : c ∈ text.toList := by
  obtain ⟨piece, isPiece, rfl⟩ := List.mem_map.mp member
  rw [String.toList_ofList] at inside
  have whole : [sep].intercalate (text.toList.splitOn sep) = text.toList := List.intercalate_splitOn sep
  rw [← whole]
  exact mem_intercalate inside isPiece

theorem count_intercalate (pieces : List Str) : ([sep].intercalate pieces).count sep =
    (pieces.map (List.count sep)).sum + (pieces.length - 1) := by
  induction pieces with
  | nil => rfl
  | cons first pieces ih =>
    cases pieces with
    | nil => simp
    | cons second pieces =>
      rw [List.intercalate_cons_cons, List.count_append, List.count_append, ih]
      simp
      omega

/-- Names without separators are told apart from all other ones. -/
theorem joinText_inj (plain : ∀ part ∈ parts, sep ∉ part.toList) (length : others.length = parts.length)
    (nonempty : parts ≠ []) : joinText sep others = joinText sep parts ↔ others = parts := by
  constructor
  · intro same
    have texts := congrArg String.toList same
    rw [joinText, joinText, String.toList_ofList, String.toList_ofList] at texts
    -- There are no more separators in the text than between the names.
    have counts := congrArg (List.count sep) texts
    rw [count_intercalate, count_intercalate, List.length_map, List.length_map, length,
      Nat.add_right_cancel_iff] at counts
    have none : ((parts.map String.toList).map (List.count sep)).sum = 0 := by
      apply List.sum_eq_zero
      intro number member
      obtain ⟨piece, inside, rfl⟩ := List.mem_map.mp member
      obtain ⟨part, listed, rfl⟩ := List.mem_map.mp inside
      exact List.count_eq_zero.mpr (plain part listed)
    have otherPlain : ∀ part ∈ others, sep ∉ part.toList := by
      intro part member
      rw [← List.count_eq_zero]
      exact List.sum_eq_zero_iff.mp (counts.trans none) _
        (List.mem_map_of_mem (List.mem_map_of_mem member))
    have otherNonempty : others ≠ [] := by
      rintro rfl
      exact nonempty (List.eq_nil_of_length_eq_zero length.symm)
    rw [← splitText_joinText otherPlain otherNonempty, same, splitText_joinText plain nonempty]
  · rintro rfl
    rfl

end Names

end Taf.Lib
