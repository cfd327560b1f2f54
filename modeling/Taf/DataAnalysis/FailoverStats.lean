import Taf.Lib.Dict
import Taf.Lib.Grouped
import Taf.Lib.PyJson
import Taf.Lib.Run
import Taf.Lib.Split

/-! # Failover statistics

`collect_failovers_stats` goes through the statistics of a vBucket, whose names are `num:key` or `key`, and
means to keep for every key the value of the highest number.  The number to compare with is the one
of the statistic that came first, and it is never replaced: what is kept depends on the order. -/

namespace Taf.DataAnalysis

open Taf.Lib

/-- A name and a value of `ovalue.items()` -/
abbrev StatItem := String × String

/-- What the name of a statistic says: its key and its number, `-1` without one -/
def parseName (ikey : String) : Option (String × ℤ) :=
  match splitText ':' ikey with
  | [num, key] => (PyJson.parseInt num).map fun num => (key, num)
  | key :: _ => some (key, -1)
  | [] => none

/-- `ivalue.split()[0]` -/
def firstWord (ivalue : String) : Option String :=
  match ivalue.toList.dropWhile blank with
  | [] => none
  | rest => some (String.ofList (rest.takeWhile fun c => !blank c))

structure FailoverMaps where
  mapData : AList fun _ : String => AList fun _ : String => String
  numMap : AList fun _ : String => ℤ

/-- A round of the inner loop; `none` is a `ValueError`, an `IndexError` or a `KeyError`. -/
def foldStat (vb : String) (maps : FailoverMaps) (item : StatItem) : Option FailoverMaps := do
  let name ← parseName item.1
  match maps.mapData.lookup vb with
  | some m => do
    -- the number is never written again: it stays that of the first statistic
    let num ← maps.numMap.lookup vb
    if name.2 = num ∨ num < name.2 then
      let word ← firstWord item.2
      return { maps with mapData := maps.mapData.insert vb (m.insert name.1 word) }
    else if name.1 = "num_entries" then
      let word ← firstWord item.2
      return { maps with mapData := maps.mapData.insert vb (m.insert name.1 word) }
    else return maps
  | none => do
    let word ← firstWord item.2
    let m := (∅ : AList fun _ : String => String).insert name.1 word
    return { mapData := maps.mapData.insert vb m, numMap := maps.numMap.insert vb name.2 }

/-- `map_data` and `num_map` for the statistics of one server -/
def foldServer (stats : List (String × List StatItem)) : Option FailoverMaps :=
  stats.foldlM (fun maps vbucket => vbucket.2.foldlM (foldStat ("vb_" ++ vbucket.1)) maps) ⟨∅, ∅⟩

abbrev MapData := AList fun _ : String => AList fun _ : String => String

section

variable {S β : Type} (ip : S → String) (failoverStats : String → S → List (String × List StatItem))

/-- The loop over the servers; `failoverStats` is what `Cbstats.failover_stats` returns. -/
def collectBucket (add : β → String → MapData → β) (empty : β) (servers : List S) (bucket : String) : Option β :=
  servers.foldlM (fun dataMap server =>
    (foldServer (failoverStats bucket server)).map fun maps => add dataMap (ip server) maps.mapData) empty

def collectWith (add : β → String → MapData → β) (empty : β) (buckets : List String) (servers : List S) :
    Option (AList fun _ : String => β) :=
  buckets.foldlM (fun bucketMap bucket =>
    (collectBucket ip failoverStats add empty servers bucket).map fun dataMap => bucketMap.insert bucket dataMap)
    (assignAll (buckets.map fun bucket => (bucket, empty)) ∅)

/-- `collect_failovers_stats` with `perNode` -/
def collectPerNode (buckets : List String) (servers : List S) :
    Option (AList fun _ : String => AList fun _ : String => MapData) :=
  collectWith ip failoverStats (fun dataMap ip mapData => dataMap.insert ip mapData) ∅ buckets servers

/-- `collect_failovers_stats` without `perNode` -/
def collectAll (buckets : List String) (servers : List S) : Option (AList fun _ : String => MapData) :=
  collectWith ip failoverStats (fun dataMap _ mapData =>
    assignAll (mapData.entries.map fun entry => (entry.1, entry.2)) dataMap) ∅ buckets servers

end

/-! ## What the statistics should become -/

/-- A name that the pattern of `failover_stats` lets through -/
def StatName (name : String) : Prop := ∀ c ∈ name.toList, c.isAlphanum ∨ c = ':' ∨ c = '_'

/-- The dictionary of dictionaries of one server, listed in some order -/
structure FailoverStats where
  items : List (String × List StatItem)
  distinct : (items.map Prod.fst).Nodup
  distinctNames : ∀ vbucket ∈ items, (vbucket.2.map Prod.fst).Nodup
  names : ∀ vbucket ∈ items, ∀ item ∈ vbucket.2, StatName item.1

/-- The same dictionary of dictionaries in another order -/
def SameDict (items others : List (String × List StatItem)) : Prop :=
  ∃ middle, items.Perm middle ∧ List.Forall₂ (fun first second => first.1 = second.1 ∧ first.2.Perm second.2) middle others

structure Entry where
  key : String
  num : ℤ
  word : String
deriving Inhabited

def entryOf (item : StatItem) : Option Entry := do
  let name ← parseName item.1
  let word ← firstWord item.2
  return ⟨name.1, name.2, word⟩

/-- The entry of a statistic that has one -/
def read (item : StatItem) : Entry := (entryOf item).getD default

def Numbered (item : StatItem) : Prop := (splitText ':' item.1).length = 2

/-- Every key has the value of its highest number, and `num_entries` its own. -/
structure KeepsHighest (stats : List StatItem) (kept : String → Option String) : Prop where
  highest : ∀ item ∈ stats, Numbered item → ∃ top ∈ stats, Numbered top ∧ (read top).key = (read item).key ∧
    kept (read item).key = firstWord top.2 ∧
    ∀ other ∈ stats, Numbered other → (read other).key = (read item).key → (read other).num ≤ (read top).num
  numEntries : ∀ item ∈ stats, item.1 = "num_entries" → kept "num_entries" = firstWord item.2

/-- Every order of the statistics gives the same values, and these are the highest ones. -/
def OrderFree (stats : FailoverStats) : Prop :=
  ∃ kept : String → String → Option String,
    (∀ listed, SameDict stats.items listed → ∃ maps, foldServer listed = some maps ∧
      ∀ vb key, (maps.mapData.lookup vb).bind (·.lookup key) = kept vb key) ∧
    ∀ vbucket ∈ stats.items, KeepsHighest vbucket.2 (kept ("vb_" ++ vbucket.1))

/-- No statistic of the key has a higher number. -/
def Highest (stats : List StatItem) (item : StatItem) : Prop :=
  ∀ other ∈ stats, (read other).key = (read item).key → (read other).num ≤ (read item).num

/-- Whatever statistic of the vBucket comes first, the other ones make up for it. -/
structure Settled (stats : List StatItem) : Prop where
  readable : ∀ item ∈ stats, ∃ entry, entryOf item = some entry
  complete : ∀ item ∈ stats, (read item).key ≠ "num_entries" → ∃ top ∈ stats, (read top).key = (read item).key ∧
    ∀ other ∈ stats, (read other).num ≤ (read top).num
  agreed : ∀ item ∈ stats, (∃ first ∈ stats, first ≠ item ∧
      ((read first).num ≤ (read item).num ∨ (read item).key = "num_entries")) →
    ∀ top ∈ stats, Highest stats top → (read top).key = (read item).key → (read top).word = (read item).word

section

variable {stats order rest : List StatItem} {item first : StatItem} {m : AList fun _ : String => String} {num : ℤ}

/-! ## One vBucket -/

/-- What the maps show for a vBucket -/
abbrev Shown := (AList fun _ : String => String) × Option ℤ

def FailoverMaps.look (maps : FailoverMaps) (vb : String) : Option Shown :=
  (maps.mapData.lookup vb).map fun m => (m, maps.numMap.lookup vb)

/-- What a round does to what is shown for the vBucket -/
def keepStat (shown : Option Shown) (item : StatItem) : Option Shown := do
  let name ← parseName item.1
  match shown with
  | some (m, num) => do
    let num ← num
    if num ≤ name.2 ∨ name.1 = "num_entries" then
      let word ← firstWord item.2
      return (m.insert name.1 word, some num)
    else return (m, some num)
  | none => do
    let word ← firstWord item.2
    return ((∅ : AList fun _ : String => String).insert name.1 word, some name.2)

theorem foldStat_spec {vb : String} {maps next : FailoverMaps} (stepped : foldStat vb maps item = some next) :
    ∃ shown, keepStat (maps.look vb) item = some shown ∧ next.look vb = some shown ∧
      ∀ other, other ≠ vb → next.look other = maps.look other := by
  obtain ⟨name, isName, stepped⟩ := Option.bind_eq_some_iff.mp stepped
  cases found : maps.mapData.lookup vb with
  | none =>
    simp only [found] at stepped
    obtain ⟨word, isWord, stepped⟩ := Option.bind_eq_some_iff.mp stepped
    cases stepped
    refine ⟨((∅ : AList fun _ : String => String).insert name.1 word, some name.2), ?_, ?_, ?_⟩
    · simp [keepStat, FailoverMaps.look, found, isName, isWord]
    · simp [FailoverMaps.look]
    · intro other different
      simp [FailoverMaps.look, AList.lookup_insert_ne different]
  | some m =>
    simp only [found] at stepped
    obtain ⟨num, isNum, stepped⟩ := Option.bind_eq_some_iff.mp stepped
    -- the two branches that store do the same
    have stored : (if num ≤ name.2 ∨ name.1 = "num_entries" then do
        let word ← firstWord item.2
        return { maps with mapData := maps.mapData.insert vb (m.insert name.1 word) }
      else return maps) = some next := by
      rw [← stepped]
      by_cases fresh : num ≤ name.2
      · rw [if_pos (.inl fresh), if_pos (by omega)]
      · by_cases entries : name.1 = "num_entries"
        · rw [if_pos (.inr entries), if_neg (by omega), if_pos entries]
        · rw [if_neg (by simp [fresh, entries]), if_neg (by omega), if_neg entries]
    by_cases stores : num ≤ name.2 ∨ name.1 = "num_entries"
    · rw [if_pos stores] at stored
      obtain ⟨word, isWord, stored⟩ := Option.bind_eq_some_iff.mp stored
      cases stored
      refine ⟨(m.insert name.1 word, some num), ?_, ?_, ?_⟩
      · simp [keepStat, FailoverMaps.look, found, isName, isNum, isWord, stores]
      · simp [FailoverMaps.look, isNum]
      · intro other different
        simp [FailoverMaps.look, AList.lookup_insert_ne different]
    · rw [if_neg stores] at stored
      cases stored
      refine ⟨(m, some num), ?_, ?_, fun _ _ => rfl⟩
      · simp [keepStat, FailoverMaps.look, found, isName, isNum, stores]
      · simp [FailoverMaps.look, found, isNum]

theorem foldStat_returns {vb : String} {maps : FailoverMaps} {shown : Shown}
    (kept : keepStat (maps.look vb) item = some shown) : ∃ next, foldStat vb maps item = some next := by
  obtain ⟨name, isName, kept⟩ := Option.bind_eq_some_iff.mp kept
  cases found : maps.mapData.lookup vb with
  | none =>
    simp only [FailoverMaps.look, found, Option.map_none] at kept
    obtain ⟨word, isWord, _⟩ := Option.bind_eq_some_iff.mp kept
    refine ⟨⟨maps.mapData.insert vb ((∅ : AList fun _ : String => String).insert name.1 word),
      maps.numMap.insert vb name.2⟩, ?_⟩
    simp [foldStat, isName, found, isWord]
  | some m =>
    simp only [FailoverMaps.look, found, Option.map_some] at kept
    obtain ⟨num, isNum, kept⟩ := Option.bind_eq_some_iff.mp kept
    by_cases stores : num ≤ name.2 ∨ name.1 = "num_entries"
    · rw [if_pos stores] at kept
      obtain ⟨word, isWord, _⟩ := Option.bind_eq_some_iff.mp kept
      refine ⟨{ maps with mapData := maps.mapData.insert vb (m.insert name.1 word) }, ?_⟩
      by_cases fresh : name.2 = num ∨ num < name.2
      · simp [foldStat, isName, found, isNum, isWord, fresh]
      · have entries : name.1 = "num_entries" := stores.resolve_left (by omega)
        simp [foldStat, isName, found, isNum, isWord, entries]
    · refine ⟨maps, ?_⟩
      have stale : ¬ (name.2 = num ∨ num < name.2) := by omega
      have other : name.1 ≠ "num_entries" := fun entries => stores (.inr entries)
      simp [foldStat, isName, found, isNum, stale, other]

theorem foldStat_keyed : Keyed FailoverMaps.look (fun named : String × StatItem => some named.1)
    (fun shown named => keepStat shown named.2) (fun maps named => foldStat named.1 maps named.2) := by
  constructor
  · intro maps named next stepped
    obtain ⟨shown, kept, isShown, others⟩ := foldStat_spec stepped
    exact ⟨named.1, shown, rfl, kept, isShown, others⟩
  · intro maps named vb shown isVb kept
    cases isVb
    exact foldStat_returns kept

/-! ## One order of the statistics of a vBucket -/

/-- The statistic is stored behind one with the number `num`. -/
def Stored (num : ℤ) (item : StatItem) : Prop := num ≤ (read item).num ∨ (read item).key = "num_entries"

instance (num : ℤ) (item : StatItem) : Decidable (Stored num item) := inferInstanceAs (Decidable (_ ∨ _))

def keptPair (item : StatItem) : String × String := ((read item).key, (read item).word)

/-- What is kept of statistics that all have an entry -/
def keptBy : List StatItem → AList fun _ : String => String
  | [] => ∅
  | first :: rest => assignAll ((rest.filter (Stored (read first).num)).map keptPair) (assignAll [keptPair first] ∅)

def lookupStat (shown : Option Shown) (key : String) : Option String := shown.bind (·.1.lookup key)

theorem entryOf_inv (readable : ∃ entry, entryOf item = some entry) :
    parseName item.1 = some ((read item).key, (read item).num) ∧ firstWord item.2 = some (read item).word := by
  obtain ⟨entry, isEntry⟩ := readable
  have isRead : read item = entry := by rw [read, isEntry, Option.getD_some]
  obtain ⟨name, isName, isEntry⟩ := Option.bind_eq_some_iff.mp isEntry
  obtain ⟨word, isWord, isEntry⟩ := Option.bind_eq_some_iff.mp isEntry
  cases isEntry
  rw [isRead]
  exact ⟨isName, isWord⟩

theorem fold_stored (readable : ∀ item ∈ rest, ∃ entry, entryOf item = some entry) :
    rest.foldlM (slot keepStat) (some (m, some num)) =
      some (some (assignAll ((rest.filter (Stored num)).map keptPair) m, some num)) := by
  induction rest generalizing m with
  | nil => rfl
  | cons item rest ih =>
    obtain ⟨here, later⟩ := List.forall_mem_cons.mp readable
    obtain ⟨isName, isWord⟩ := entryOf_inv here
    rw [List.foldlM_cons]
    by_cases stored : Stored num item
    · have stepped : slot keepStat (some (m, some num)) item =
          some (some (m.insert (read item).key (read item).word, some num)) := by
        simp [slot, keepStat, isName, isWord, show _ ∨ _ from stored]
      rw [stepped, List.filter_cons_of_pos (by simpa using stored)]
      exact ih later
    · have stepped : slot keepStat (some (m, some num)) item = some (some (m, some num)) := by
        simp [slot, keepStat, isName, show ¬ (_ ∨ _) from stored]
      rw [stepped, List.filter_cons_of_neg (by simpa using stored)]
      exact ih later

theorem fold_order (readable : ∀ item ∈ order, ∃ entry, entryOf item = some entry) :
    ∃ shown, order.foldlM (slot keepStat) none = some shown ∧ ∀ key, lookupStat shown key = (keptBy order).lookup key := by
  cases order with
  | nil => exact ⟨none, rfl, fun key => rfl⟩
  | cons first rest =>
    obtain ⟨here, later⟩ := List.forall_mem_cons.mp readable
    obtain ⟨isName, isWord⟩ := entryOf_inv here
    have stepped : slot keepStat none first =
        some (some ((∅ : AList fun _ : String => String).insert (read first).key (read first).word,
          some (read first).num)) := by
      simp [slot, keepStat, isName, isWord]
    rw [List.foldlM_cons, stepped]
    exact ⟨_, fold_stored later, fun key => rfl⟩

theorem readable_of_first {shown : Option Shown} (folded : (item :: rest).foldlM (slot keepStat) none = some shown) :
    ∃ entry, entryOf item = some entry := by
  rw [List.foldlM_cons] at folded
  obtain ⟨next, stepped, _⟩ := Option.bind_eq_some_iff.mp folded
  obtain ⟨kept, isKept, _⟩ := Option.map_eq_some_iff.mp stepped
  obtain ⟨name, isName, isKept⟩ := Option.bind_eq_some_iff.mp isKept
  obtain ⟨word, isWord, _⟩ := Option.bind_eq_some_iff.mp isKept
  exact ⟨⟨name.1, name.2, word⟩, by simp [entryOf, isName, isWord]⟩

theorem keptBy_first : ((keptBy (first :: rest)).lookup (read first).key).isSome := by
  rw [keptBy, lookup_assignAll_isSome]
  exact .inr (lookup_assignAll_isSome.mpr (.inl List.mem_cons_self))

theorem keptBy_stored (member : item ∈ rest) (stored : Stored (read first).num item) :
    ((keptBy (first :: rest)).lookup (read item).key).isSome := by
  rw [keptBy, lookup_assignAll_isSome]
  refine .inl ?_
  rw [List.map_map]
  exact List.mem_map.mpr ⟨item, List.mem_filter.mpr ⟨member, by simpa using stored⟩, rfl⟩

/-- The last statistic that is stored for a key stays. -/
theorem keptBy_last (stored : Stored (read first).num item) :
    (keptBy (first :: (rest ++ [item]))).lookup (read item).key = some (read item).word := by
  rw [keptBy, List.filter_append, List.map_append, assignAll_append, List.filter_cons_of_pos (by simpa using stored)]
  exact AList.lookup_insert _

theorem keptBy_cases {key word : String} (found : (keptBy (first :: rest)).lookup key = some word) :
    (∃ item ∈ rest, Stored (read first).num item ∧ (read item).key = key ∧ (read item).word = word) ∨
      ((read first).key = key ∧ (read first).word = word ∧
        ∀ item ∈ rest, Stored (read first).num item → (read item).key ≠ key) := by
  rw [keptBy] at found
  rcases lookup_assignAll_cases found with later | ⟨absent, here⟩
  · obtain ⟨item, member, same⟩ := List.mem_map.mp later
    obtain ⟨inside, stored⟩ := List.mem_filter.mp member
    obtain ⟨sameKey, sameWord⟩ := Prod.mk.inj same
    exact .inl ⟨item, inside, by simpa using stored, sameKey, sameWord⟩
  · rcases lookup_assignAll_cases here with only | ⟨_, impossible⟩
    · obtain ⟨sameKey, sameWord⟩ := Prod.mk.inj (List.mem_singleton.mp only)
      refine .inr ⟨sameKey.symm, sameWord.symm, fun item inside stored same => absent ?_⟩
      rw [List.map_map]
      exact List.mem_map.mpr ⟨item, List.mem_filter.mpr ⟨inside, by simpa using stored⟩, same⟩
    · cases impossible

/-! ## All orders of the statistics of a vBucket -/

theorem exists_highest (member : item ∈ stats) :
    ∃ top ∈ stats, Highest stats top ∧ (read top).key = (read item).key := by
  obtain ⟨top, inside, highest⟩ := Finset.exists_max_image (stats.toFinset.filter fun other => (read other).key = (read item).key)
    (fun other => (read other).num) ⟨item, by simp [member]⟩
  simp only [Finset.mem_filter, List.mem_toFinset] at inside highest
  exact ⟨top, inside.1, fun other isOther same => highest other ⟨isOther, same.trans inside.2⟩, inside.2⟩

theorem exists_order (isFirst : first ∈ stats) (member : item ∈ stats) (different : first ≠ item) :
    ∃ others, (first :: (others ++ [item])).Perm stats := by
  have inside : item ∈ stats.erase first := (List.mem_erase_of_ne different.symm).mpr member
  refine ⟨(stats.erase first).erase item, ?_⟩
  have last := (List.perm_append_singleton item ((stats.erase first).erase item)).trans (List.perm_cons_erase inside).symm
  exact (last.cons first).trans (List.perm_cons_erase isFirst).symm

/-- Highest statistics of one key agree. -/
theorem Settled.same_word (settled : Settled stats) {top other : StatItem} (isTop : top ∈ stats) (isOther : other ∈ stats)
    (highest : Highest stats top) (otherHighest : Highest stats other) (same : (read top).key = (read other).key) :
    (read top).word = (read other).word := by
  by_cases equal : top = other
  · rw [equal]
  · exact settled.agreed other isOther ⟨top, isTop, equal, .inl (otherHighest top isTop same)⟩ top isTop highest same

/-- In every order the highest statistic of a key is kept. -/
theorem Settled.keptBy_iff (settled : Settled stats) (distinct : stats.Nodup) (perm : order.Perm stats) {key word : String} :
    (keptBy order).lookup key = some word ↔
      ∃ top ∈ stats, Highest stats top ∧ (read top).key = key ∧ (read top).word = word := by
  have inStats : ∀ {item}, item ∈ order → item ∈ stats := fun member => perm.subset member
  have forward : ∀ {word}, (keptBy order).lookup key = some word →
      ∃ top ∈ stats, Highest stats top ∧ (read top).key = key ∧ (read top).word = word := by
    intro word found
    cases order with
    | nil => cases found
    | cons first rest =>
      have orderDistinct := perm.nodup_iff.mpr distinct
      rcases keptBy_cases found with ⟨item, member, stored, sameKey, sameWord⟩ | ⟨sameKey, sameWord, unstored⟩
      · have isItem := inStats (List.mem_cons_of_mem first member)
        have different : first ≠ item := by
          rintro rfl
          exact (List.nodup_cons.mp orderDistinct).1 member
        obtain ⟨top, isTop, highest, topKey⟩ := exists_highest isItem
        refine ⟨top, isTop, highest, topKey.trans sameKey, ?_⟩
        rw [← sameWord]
        exact settled.agreed item isItem ⟨first, inStats List.mem_cons_self, different, stored⟩ top isTop highest topKey
      · refine ⟨first, inStats List.mem_cons_self, fun other isOther same => ?_, sameKey, sameWord⟩
        rcases List.mem_cons.mp (perm.symm.subset isOther) with rfl | later
        · exact le_rfl
        · by_contra above
          exact unstored other later (.inl (by omega)) (same.trans sameKey)
  constructor
  · exact forward
  · rintro ⟨top, isTop, highest, rfl, rfl⟩
    have present : ((keptBy order).lookup (read top).key).isSome := by
      cases order with
      | nil => exact absurd (perm.symm.subset isTop) List.not_mem_nil
      | cons first rest =>
        -- the key is stored by the first statistic, by a `num_entries`, or by one above all others
        by_cases isFirst : (read first).key = (read top).key
        · rw [← isFirst]
          exact keptBy_first
        · by_cases entries : (read top).key = "num_entries"
          · rcases List.mem_cons.mp (perm.symm.subset isTop) with same | later
            · exact absurd (congrArg (fun item => (read item).key) same).symm isFirst
            · exact keptBy_stored later (.inr entries)
          · obtain ⟨best, isBest, sameKey, most⟩ := settled.complete top isTop entries
            rw [← sameKey]
            rcases List.mem_cons.mp (perm.symm.subset isBest) with same | later
            · exact absurd ((congrArg (fun item => (read item).key) same).symm.trans sameKey) isFirst
            · exact keptBy_stored later (.inl (most first (inStats List.mem_cons_self)))
    obtain ⟨word, found⟩ := Option.isSome_iff_exists.mp present
    obtain ⟨other, isOther, otherHighest, sameKey, rfl⟩ := forward found
    rw [found, settled.same_word isTop isOther highest otherHighest sameKey.symm]

/-- Statistics that every order treats alike are settled. -/
theorem settled_of_steady {kept : String → Option String} (steady : ∀ order : List StatItem, order.Perm stats →
    ∃ shown, order.foldlM (slot keepStat) none = some shown ∧ ∀ key, lookupStat shown key = kept key) : Settled stats := by
  have readable : ∀ item ∈ stats, ∃ entry, entryOf item = some entry := by
    intro item member
    obtain ⟨shown, folded, _⟩ := steady _ (List.perm_cons_erase member).symm
    exact readable_of_first folded
  have alike : ∀ order : List StatItem, order.Perm stats → ∀ key, (keptBy order).lookup key = kept key := by
    intro order perm key
    obtain ⟨shown, folded, isKept⟩ := steady order perm
    obtain ⟨shown', folded', isKeptBy⟩ := fold_order fun item member => readable item (perm.subset member)
    cases folded.symm.trans folded'
    rw [← isKeptBy, isKept]
  have last : ∀ {item first}, item ∈ stats → first ∈ stats → first ≠ item → Stored (read first).num item →
      kept (read item).key = some (read item).word := by
    intro item first member isFirst different stored
    obtain ⟨others, perm⟩ := exists_order isFirst member different
    rw [← alike _ perm, keptBy_last stored]
  constructor
  · exact readable
  · intro item member notEntries
    obtain ⟨top, isTop, most⟩ := Finset.exists_max_image stats.toFinset (fun other => (read other).num)
      ⟨item, List.mem_toFinset.mpr member⟩
    rw [List.mem_toFinset] at isTop
    simp only [List.mem_toFinset] at most
    -- the key is there if its statistic comes first, so it is there if `top` does
    have present : ((keptBy (item :: stats.erase item)).lookup (read item).key).isSome := keptBy_first
    rw [alike _ (List.perm_cons_erase member).symm, ← alike _ (List.perm_cons_erase isTop).symm] at present
    obtain ⟨word, found⟩ := Option.isSome_iff_exists.mp present
    rcases keptBy_cases found with ⟨other, isOther, stored, sameKey, _⟩ | ⟨sameKey, _⟩
    · have above : (read top).num ≤ (read other).num := stored.resolve_right (by rw [sameKey]; exact notEntries)
      exact ⟨other, List.mem_of_mem_erase isOther, sameKey, fun another isAnother => (most another isAnother).trans above⟩
    · exact ⟨top, isTop, sameKey, most⟩
  · rintro item member ⟨first, isFirst, different, stored⟩ top isTop highest sameKey
    by_cases same : top = item
    · rw [same]
    · have keptItem := last member isFirst different stored
      have keptTop := last isTop member (Ne.symm same) (.inl (highest item member sameKey.symm))
      rw [sameKey, keptItem] at keptTop
      exact (Option.some.inj keptTop).symm

/-! ## One server -/

/-- The statistics of all vBuckets, each with the vBucket's key -/
def named (listed : List (String × List StatItem)) : List (String × StatItem) :=
  listed.flatMap fun vbucket => vbucket.2.map fun item => ("vb_" ++ vbucket.1, item)

variable {listed : List (String × List StatItem)} {vbucket : String × List StatItem} {maps : FailoverMaps}

theorem foldServer_eq : foldServer listed = (named listed).foldlM (fun maps named => foldStat named.1 maps named.2) ⟨∅, ∅⟩ := by
  rw [foldServer, named, foldlM_flatMap]
  simp only [List.foldlM_map]

theorem vb_injective {vb other : String} (same : "vb_" ++ vb = "vb_" ++ other) : vb = other := by
  simpa using same

theorem ofKey_named_of_notMem {vb : String} (absent : ∀ vbucket ∈ listed, "vb_" ++ vbucket.1 ≠ vb) :
    ofKey (fun named : String × StatItem => some named.1) (named listed) vb = [] := by
  rw [ofKey, List.filter_eq_nil_iff]
  intro pair member
  obtain ⟨vbucket, isVbucket, inside⟩ := List.mem_flatMap.mp member
  obtain ⟨item, _, rfl⟩ := List.mem_map.mp inside
  simpa using absent vbucket isVbucket

theorem ofKey_named (distinct : (listed.map Prod.fst).Nodup) (member : vbucket ∈ listed) :
    ofKey (fun named : String × StatItem => some named.1) (named listed) ("vb_" ++ vbucket.1) =
      vbucket.2.map fun item => ("vb_" ++ vbucket.1, item) := by
  induction listed with
  | nil => cases member
  | cons first listed ih =>
    obtain ⟨absent, distinct⟩ := List.nodup_cons.mp distinct
    rw [named, List.flatMap_cons, ← named, ofKey, List.filter_append, ← ofKey, ← ofKey]
    rcases List.mem_cons.mp member with rfl | member
    · have others : ∀ other ∈ listed, "vb_" ++ other.1 ≠ "vb_" ++ vbucket.1 := by
        intro other isOther same
        exact absent (List.mem_map.mpr ⟨other, isOther, vb_injective same⟩)
      rw [ofKey_named_of_notMem others, List.append_nil, ofKey, List.filter_eq_self]
      intro pair inside
      obtain ⟨item, _, rfl⟩ := List.mem_map.mp inside
      simp
    · have elsewhere : first.1 ≠ vbucket.1 := fun same => absent (List.mem_map.mpr ⟨vbucket, member, same.symm⟩)
      have none : ofKey (fun named : String × StatItem => some named.1)
          (first.2.map fun item => ("vb_" ++ first.1, item)) ("vb_" ++ vbucket.1) = [] := by
        rw [ofKey, List.filter_eq_nil_iff]
        intro pair inside
        obtain ⟨item, _, rfl⟩ := List.mem_map.mp inside
        simpa using elsewhere
      rw [none, List.nil_append, ih distinct member]

theorem slot_named {vb : String} : (stats.map fun item => (vb, item)).foldlM
    (slot fun shown (named : String × StatItem) => keepStat shown named.2) none = stats.foldlM (slot keepStat) none := by
  rw [List.foldlM_map]
  rfl

theorem look_empty (vb : String) : FailoverMaps.look ⟨∅, ∅⟩ vb = none := rfl

theorem foldServer_look (distinct : (listed.map Prod.fst).Nodup) (returned : foldServer listed = some maps)
    (member : vbucket ∈ listed) : vbucket.2.foldlM (slot keepStat) none = some (maps.look ("vb_" ++ vbucket.1)) := by
  rw [foldServer_eq] at returned
  have shown := foldStat_keyed.lookup returned ("vb_" ++ vbucket.1)
  rw [ofKey_named distinct member, look_empty, slot_named] at shown
  exact shown

theorem foldServer_look_of_notMem {vb : String} (returned : foldServer listed = some maps)
    (absent : ∀ vbucket ∈ listed, "vb_" ++ vbucket.1 ≠ vb) : maps.look vb = none := by
  rw [foldServer_eq] at returned
  have shown := foldStat_keyed.lookup returned vb
  rw [ofKey_named_of_notMem absent] at shown
  exact (Option.some.inj shown).symm

theorem foldServer_returns (distinct : (listed.map Prod.fst).Nodup) : (∃ maps, foldServer listed = some maps) ↔
    ∀ vbucket ∈ listed, ∃ shown, vbucket.2.foldlM (slot keepStat) none = some shown := by
  constructor
  · rintro ⟨maps, returned⟩ vbucket member
    exact ⟨_, foldServer_look distinct returned member⟩
  · intro each
    rw [foldServer_eq, foldStat_keyed.returns_iff]
    refine ⟨fun named _ => ⟨named.1, rfl⟩, fun vb => ?_⟩
    by_cases present : ∃ vbucket ∈ listed, "vb_" ++ vbucket.1 = vb
    · obtain ⟨vbucket, member, rfl⟩ := present
      rw [ofKey_named distinct member]
      exact (each vbucket member).imp fun _ folded => slot_named.trans folded
    · push Not at present
      rw [ofKey_named_of_notMem present]
      exact ⟨_, rfl⟩

theorem lookup_look (maps : FailoverMaps) (vb key : String) :
    (maps.mapData.lookup vb).bind (·.lookup key) = lookupStat (maps.look vb) key := by
  rw [lookupStat, FailoverMaps.look]
  cases maps.mapData.lookup vb with
  | none => rfl
  | some m => rfl

/-! ## The dictionary in another order -/

theorem SameDict.symm_mem {items : List (String × List StatItem)} (same : SameDict items listed) (member : vbucket ∈ listed) :
    ∃ other ∈ items, other.1 = vbucket.1 ∧ vbucket.2.Perm other.2 := by
  obtain ⟨middle, perm, related⟩ := same
  obtain ⟨other, inside, sameVb, inner⟩ := exists_of_forall₂_mem related.flip member
  exact ⟨other, perm.symm.subset inside, sameVb, inner.symm⟩

theorem SameDict.keys {items : List (String × List StatItem)} (same : SameDict items listed) :
    (items.map Prod.fst).Perm (listed.map Prod.fst) := by
  obtain ⟨middle, perm, related⟩ := same
  have keys : middle.map Prod.fst = listed.map Prod.fst := by
    clear perm
    induction related with
    | nil => rfl
    | cons here _ ih => rw [List.map_cons, List.map_cons, here.1, ih]
  rw [← keys]
  exact perm.map Prod.fst

/-- One vBucket in another order -/
theorem sameDict_replace {items : List (String × List StatItem)} (distinct : (items.map Prod.fst).Nodup)
    (member : vbucket ∈ items) (perm : order.Perm vbucket.2) :
    ∃ listed, SameDict items listed ∧ (vbucket.1, order) ∈ listed := by
  refine ⟨items.map fun other => if other.1 = vbucket.1 then (vbucket.1, order) else other, ⟨items, List.Perm.refl _, ?_⟩, ?_⟩
  · rw [List.forall₂_map_right_iff, List.forall₂_same]
    intro other isOther
    by_cases same : other.1 = vbucket.1
    · rw [if_pos same, List.inj_on_of_nodup_map distinct isOther member same]
      exact ⟨rfl, perm.symm⟩
    · rw [if_neg same]
      exact ⟨rfl, List.Perm.refl _⟩
  · exact List.mem_map.mpr ⟨vbucket, member, if_pos rfl⟩

/-! ## The numbers of the names -/

theorem nonneg_of_numbered (isName : StatName item.1) (readable : ∃ entry, entryOf item = some entry)
    (numbered : Numbered item) : 0 ≤ (read item).num := by
  have parsed := (entryOf_inv readable).1
  obtain ⟨num, key, tokens⟩ := List.length_eq_two.mp numbered
  rw [parseName, tokens] at parsed
  obtain ⟨number, isNumber, same⟩ := Option.map_eq_some_iff.mp parsed
  rw [← (Prod.mk.inj same).2]
  refine PyJson.parseInt_nonneg isNumber fun sign => ?_
  have dash := isName '-' (mem_of_mem_splitText sign (by rw [tokens]; exact List.mem_cons_self))
  exact absurd dash (by decide)

theorem num_of_not_numbered (readable : ∃ entry, entryOf item = some entry) (plain : ¬ Numbered item) :
    (read item).num = -1 := by
  have parsed := (entryOf_inv readable).1
  rw [parseName] at parsed
  split at parsed
  case h_1 tokens => exact absurd (by rw [Numbered, tokens]; rfl) plain
  case h_2 => exact (Prod.mk.inj (Option.some.inj parsed)).2.symm
  case h_3 => cases parsed

theorem key_of_numEntries (readable : ∃ entry, entryOf item = some entry) (entries : item.1 = "num_entries") :
    (read item).key = "num_entries" := by
  have parsed := (entryOf_inv readable).1
  have plain : parseName "num_entries" = some ("num_entries", -1) := by decide
  rw [entries, plain] at parsed
  exact (Prod.mk.inj (Option.some.inj parsed)).1.symm

/-- What a settled vBucket keeps is what it should keep. -/
theorem Settled.keepsHighest (settled : Settled stats) (distinct : stats.Nodup) (names : ∀ item ∈ stats, StatName item.1) :
    KeepsHighest stats fun key => (keptBy stats).lookup key := by
  have kept : ∀ top ∈ stats, Highest stats top → (keptBy stats).lookup (read top).key = firstWord top.2 := by
    intro top isTop highest
    rw [(entryOf_inv (settled.readable top isTop)).2]
    exact (settled.keptBy_iff distinct (List.Perm.refl _)).mpr ⟨top, isTop, highest, rfl, rfl⟩
  constructor
  · intro item member numbered
    obtain ⟨top, isTop, highest, sameKey⟩ := exists_highest member
    have aboveItem := highest item member sameKey.symm
    have nonneg := nonneg_of_numbered (names item member) (settled.readable item member) numbered
    have topNumbered : Numbered top := by
      by_contra plain
      have negative := num_of_not_numbered (settled.readable top isTop) plain
      omega
    refine ⟨top, isTop, topNumbered, sameKey, ?_, fun other isOther _ same => highest other isOther (same.trans sameKey.symm)⟩
    rw [← sameKey]
    exact kept top isTop highest
  · intro item member entries
    have isKey := key_of_numEntries (settled.readable item member) entries
    obtain ⟨top, isTop, highest, sameKey⟩ := exists_highest member
    have keptTop := kept top isTop highest
    rw [sameKey, isKey] at keptTop
    rw [keptTop]
    by_cases same : top = item
    · rw [same]
    · have sameWord := settled.agreed item member ⟨top, isTop, same, .inr isKey⟩ top isTop highest sameKey
      rw [(entryOf_inv (settled.readable top isTop)).2, (entryOf_inv (settled.readable item member)).2, sameWord]

/-- The fold is order free exactly if every vBucket is settled. -/
theorem orderFree_iff (stats : FailoverStats) : OrderFree stats ↔ ∀ vbucket ∈ stats.items, Settled vbucket.2 := by
  have distinctItems : ∀ vbucket ∈ stats.items, vbucket.2.Nodup := fun vbucket member =>
    List.Nodup.of_map _ (stats.distinctNames vbucket member)
  constructor
  · rintro ⟨kept, alike, _⟩ vbucket member
    have steady : ∀ order : List StatItem, order.Perm vbucket.2 → ∃ shown, order.foldlM (slot keepStat) none = some shown ∧
        ∀ key, lookupStat shown key = kept ("vb_" ++ vbucket.1) key := by
      intro order perm
      obtain ⟨listed, same, isListed⟩ := sameDict_replace stats.distinct member perm
      obtain ⟨maps, returned, isKept⟩ := alike listed same
      refine ⟨_, foldServer_look (same.keys.nodup_iff.mp stats.distinct) returned isListed, fun key => ?_⟩
      rw [← lookup_look, isKept]
    exact settled_of_steady steady
  · intro settled
    have folds : ∀ listed, SameDict stats.items listed → ∃ maps, foldServer listed = some maps ∧
        (∀ vb, (∀ vbucket ∈ listed, "vb_" ++ vbucket.1 ≠ vb) → maps.look vb = none) ∧
        ∀ vbucket ∈ listed, ∀ key, lookupStat (maps.look ("vb_" ++ vbucket.1)) key = (keptBy vbucket.2).lookup key := by
      intro listed same
      have distinct := same.keys.nodup_iff.mp stats.distinct
      have each : ∀ vbucket ∈ listed, ∃ shown, vbucket.2.foldlM (slot keepStat) none = some shown ∧
          ∀ key, lookupStat shown key = (keptBy vbucket.2).lookup key := by
        intro vbucket member
        obtain ⟨other, isOther, _, perm⟩ := same.symm_mem member
        exact fold_order fun item inside => (settled other isOther).readable item (perm.subset inside)
      obtain ⟨maps, returned⟩ := (foldServer_returns distinct).mpr fun vbucket member =>
        (each vbucket member).imp fun _ both => both.1
      refine ⟨maps, returned, fun vb absent => foldServer_look_of_notMem returned absent, fun vbucket member key => ?_⟩
      obtain ⟨shown, folded, isKept⟩ := each vbucket member
      cases (foldServer_look distinct returned member).symm.trans folded
      exact isKept key
    have itself : SameDict stats.items stats.items :=
      ⟨stats.items, List.Perm.refl _, List.forall₂_same.mpr fun _ _ => ⟨rfl, List.Perm.refl _⟩⟩
    obtain ⟨maps, returned, absent, isKept⟩ := folds stats.items itself
    refine ⟨fun vb key => lookupStat (maps.look vb) key, fun listed same => ?_, fun vbucket member => ?_⟩
    · obtain ⟨maps', returned', absent', isKept'⟩ := folds listed same
      refine ⟨maps', returned', fun vb key => ?_⟩
      rw [lookup_look]
      show lookupStat (maps'.look vb) key = lookupStat (maps.look vb) key
      by_cases present : ∃ vbucket ∈ listed, "vb_" ++ vbucket.1 = vb
      · obtain ⟨vbucket, member, rfl⟩ := present
        obtain ⟨other, isOther, sameVb, perm⟩ := same.symm_mem member
        rw [isKept' vbucket member, ← sameVb, isKept other isOther]
        refine Option.ext fun word => ?_
        have settledOther := settled other isOther
        have distinct := distinctItems other isOther
        rw [settledOther.keptBy_iff distinct perm, settledOther.keptBy_iff distinct (List.Perm.refl _)]
      · push Not at present
        have none' : ∀ vbucket ∈ stats.items, "vb_" ++ vbucket.1 ≠ vb := by
          intro vbucket member isVb
          obtain ⟨other, isOther, sameVb⟩ := List.mem_map.mp (same.keys.subset (List.mem_map_of_mem member))
          exact present other isOther (by rw [sameVb, isVb])
        rw [absent' vb present, absent vb none']
    · have keeps := (settled vbucket member).keepsHighest (distinctItems vbucket member) (stats.names vbucket member)
      show KeepsHighest vbucket.2 fun key => lookupStat (maps.look ("vb_" ++ vbucket.1)) key
      rw [funext (isKept vbucket member)]
      exact keeps

/-! ## All buckets and nodes -/

/-- A loop that assigns one entry for each item -/
theorem assign_keyed {ι β γ : Type} (name : ι → String) (make : ι → Option γ) (value : γ → β) :
    Keyed (fun (dict : AList fun _ : String => β) key => dict.lookup key) (fun item => some (name item))
      (fun _ item => (make item).map value)
      (fun dict item => (make item).map fun made => dict.insert (name item) (value made)) := by
  constructor
  · intro dict item next stepped
    obtain ⟨made, isMade, rfl⟩ := Option.map_eq_some_iff.mp stepped
    exact ⟨name item, value made, rfl, by rw [isMade, Option.map_some], AList.lookup_insert _,
      fun _ other => AList.lookup_insert_ne other⟩
  · intro dict item key entry _ updated
    obtain ⟨made, isMade, _⟩ := Option.map_eq_some_iff.mp updated
    exact ⟨_, by rw [isMade, Option.map_some]⟩

/-- The collection returns exactly if the statistics of every node of every bucket are folded. -/
theorem collectWith_returns_iff {S β : Type} {ip : S → String}
    {failoverStats : String → S → List (String × List StatItem)} {add : β → String → MapData → β} {empty : β}
    {buckets : List String} {servers : List S} :
    (∃ bucketMap, collectWith ip failoverStats add empty buckets servers = some bucketMap) ↔
      ∀ bucket ∈ buckets, ∀ server ∈ servers, ∃ maps, foldServer (failoverStats bucket server) = some maps := by
  -- whether a round returns does not depend on what has been collected
  have mapped : ∀ {α γ : Type} {f : α → γ} {made : Option α}, (∃ next, made.map f = some next) ↔ ∃ a, made = some a := by
    intro α γ f made
    cases made <;> simp
  refine foldlM_isSome_iff (fun bucketMap bucket => mapped.trans ?_) _
  have each : ∀ (dataMap : β) (server : S), (∃ next, (foldServer (failoverStats bucket server)).map
      (fun maps => add dataMap (ip server) maps.mapData) = some next) ↔
      ∃ maps, foldServer (failoverStats bucket server) = some maps := fun _ _ => mapped
  exact foldlM_isSome_iff each empty

/-- For each node the result has what is folded from the statistics of the node. -/
theorem collectPerNode_entry {S : Type} {ip : S → String} {failoverStats : String → S → List (String × List StatItem)}
    {buckets : List String} {servers : List S} {bucketMap : AList fun _ : String => AList fun _ : String => MapData}
    (returned : collectPerNode ip failoverStats buckets servers = some bucketMap) (names : buckets.Nodup)
    (ips : (servers.map ip).Nodup) {bucket : String} (isBucket : bucket ∈ buckets) {server : S} (isServer : server ∈ servers) :
    ∃ maps, foldServer (failoverStats bucket server) = some maps ∧
      (bucketMap.lookup bucket).bind (·.lookup (ip server)) = some maps.mapData := by
  have distinctNames : (buckets.map some).Nodup := names.map (Option.some_injective String)
  have distinctIps : (servers.map fun server => some (ip server)).Nodup := by
    have mapped := ips.map (Option.some_injective String)
    rwa [List.map_map] at mapped
  let addNode : (AList fun _ : String => MapData) → String → MapData → AList fun _ : String => MapData :=
    fun dataMap ip mapData => dataMap.insert ip mapData
  obtain ⟨dataMap, collected, written⟩ := (assign_keyed (fun bucket => bucket)
    (fun bucket => collectBucket ip failoverStats addNode ∅ servers bucket) fun dataMap => dataMap).written
      distinctNames returned isBucket rfl
  replace collected : collectBucket ip failoverStats addNode ∅ servers bucket = some dataMap := by
    simpa using collected
  obtain ⟨mapData, folded, isMapData⟩ := (assign_keyed ip (fun server => foldServer (failoverStats bucket server))
    FailoverMaps.mapData).written distinctIps collected isServer rfl
  obtain ⟨maps, isMaps, rfl⟩ := Option.map_eq_some_iff.mp folded
  refine ⟨maps, isMaps, ?_⟩
  rw [written]
  exact isMapData

/-- Without nodes every vBucket has what is folded from the statistics of one of them. -/
theorem collectAll_entry {S : Type} {ip : S → String} {failoverStats : String → S → List (String × List StatItem)}
    {buckets : List String} {servers : List S} {bucketMap : AList fun _ : String => MapData}
    (returned : collectAll ip failoverStats buckets servers = some bucketMap) (names : buckets.Nodup)
    {bucket : String} (isBucket : bucket ∈ buckets) {vb : String} {m : AList fun _ : String => String}
    (found : (bucketMap.lookup bucket).bind (·.lookup vb) = some m) :
    ∃ server ∈ servers, ∃ maps, foldServer (failoverStats bucket server) = some maps ∧ maps.mapData.lookup vb = some m := by
  have distinctNames : (buckets.map some).Nodup := names.map (Option.some_injective String)
  let addAll : MapData → String → MapData → MapData :=
    fun dataMap _ mapData => assignAll (mapData.entries.map fun entry => (entry.1, entry.2)) dataMap
  obtain ⟨dataMap, collected, written⟩ := (assign_keyed (fun bucket => bucket)
    (fun bucket => collectBucket ip failoverStats addAll ∅ servers bucket) fun dataMap => dataMap).written
      distinctNames returned isBucket rfl
  replace collected : collectBucket ip failoverStats addAll ∅ servers bucket = some dataMap := by
    simpa using collected
  rw [written, Option.bind_some] at found
  have told : ∀ m, dataMap.lookup vb = some m → ∃ server ∈ servers, ∃ maps,
      foldServer (failoverStats bucket server) = some maps ∧ maps.mapData.lookup vb = some m := by
    refine foldlM_behind (R := fun behind dataMap => ∀ m, dataMap.lookup vb = some m → ∃ server ∈ behind, ∃ maps,
      foldServer (failoverStats bucket server) = some maps ∧ maps.mapData.lookup vb = some m) collected ?_ ?_
    · intro m impossible
      cases impossible
    · intro behind dataMap server _ next stepped told m found
      obtain ⟨maps, folded, rfl⟩ := Option.map_eq_some_iff.mp stepped
      -- what is found is the server's own entry, or one that an earlier server has left
      rw [lookup_assignAll_entries maps.mapData (fun m => m), Option.map_id', Option.or_eq_some_iff] at found
      cases found with
      | inl own => exact ⟨server, by simp, maps, folded, own⟩
      | inr earlier =>
        obtain ⟨other, isOther, others⟩ := told m earlier.2
        exact ⟨other, by simp [isOther], others⟩
  exact told m found

section Collected

variable {S : Type} {stats : String → S → FailoverStats} {buckets : List String} {servers : List S}

/-- What the statistics of every node are folded to, whatever order they are listed in -/
structure FoldsTo (stats : String → S → FailoverStats) (buckets : List String) (servers : List S)
    (kept : String → S → String → String → Option String) : Prop where
  folds : ∀ failoverStats : String → S → List (String × List StatItem),
    (∀ bucket server, SameDict (stats bucket server).items (failoverStats bucket server)) →
    ∀ bucket ∈ buckets, ∀ server ∈ servers, ∃ maps, foldServer (failoverStats bucket server) = some maps ∧
      ∀ vb key, (maps.mapData.lookup vb).bind (·.lookup key) = kept bucket server vb key
  highest : ∀ bucket ∈ buckets, ∀ server ∈ servers, ∀ vbucket ∈ (stats bucket server).items,
    KeepsHighest vbucket.2 (kept bucket server ("vb_" ++ vbucket.1))

theorem exists_foldsTo (free : ∀ bucket ∈ buckets, ∀ server ∈ servers, OrderFree (stats bucket server)) :
    ∃ kept, FoldsTo stats buckets servers kept := by
  have each : ∀ bucket server, ∃ kept : String → String → Option String, bucket ∈ buckets → server ∈ servers →
      (∀ listed, SameDict (stats bucket server).items listed → ∃ maps, foldServer listed = some maps ∧
        ∀ vb key, (maps.mapData.lookup vb).bind (·.lookup key) = kept vb key) ∧
      ∀ vbucket ∈ (stats bucket server).items, KeepsHighest vbucket.2 (kept ("vb_" ++ vbucket.1)) := by
    intro bucket server
    by_cases member : bucket ∈ buckets ∧ server ∈ servers
    · obtain ⟨kept, both⟩ := free bucket member.1 server member.2
      exact ⟨kept, fun _ _ => both⟩
    · exact ⟨fun _ _ => none, fun isBucket isServer => absurd ⟨isBucket, isServer⟩ member⟩
  choose kept both using each
  refine ⟨kept, ?_, ?_⟩
  · intro failoverStats same bucket isBucket server isServer
    exact (both bucket server isBucket isServer).1 _ (same bucket server)
  · intro bucket isBucket server isServer
    exact (both bucket server isBucket isServer).2

theorem FoldsTo.collect {kept : String → S → String → String → Option String} (foldsTo : FoldsTo stats buckets servers kept)
    {β : Type} (ip : S → String) (add : β → String → MapData → β) (empty : β)
    {failoverStats : String → S → List (String × List StatItem)}
    (same : ∀ bucket server, SameDict (stats bucket server).items (failoverStats bucket server)) :
    ∃ bucketMap, collectWith ip failoverStats add empty buckets servers = some bucketMap :=
  collectWith_returns_iff.mpr fun bucket isBucket server isServer =>
    (foldsTo.folds failoverStats same bucket isBucket server isServer).imp fun _ both => both.1

/-- Order free statistics of every node give one map for each node, whatever order they are listed in. -/
theorem collectPerNode_orderFree (ip : S → String)
    (free : ∀ bucket ∈ buckets, ∀ server ∈ servers, OrderFree (stats bucket server)) (names : buckets.Nodup)
    (ips : (servers.map ip).Nodup) : ∃ kept, FoldsTo stats buckets servers kept ∧
      ∀ failoverStats : String → S → List (String × List StatItem),
      (∀ bucket server, SameDict (stats bucket server).items (failoverStats bucket server)) →
        ∃ bucketMap, collectPerNode ip failoverStats buckets servers = some bucketMap ∧
          ∀ bucket ∈ buckets, ∀ server ∈ servers, ∃ mapData,
            (bucketMap.lookup bucket).bind (·.lookup (ip server)) = some mapData ∧
            ∀ vb key, (mapData.lookup vb).bind (·.lookup key) = kept bucket server vb key := by
  obtain ⟨kept, foldsTo⟩ := exists_foldsTo free
  refine ⟨kept, foldsTo, fun failoverStats same => ?_⟩
  obtain ⟨bucketMap, returned⟩ := foldsTo.collect ip _ _ same
  refine ⟨bucketMap, returned, ?_⟩
  intro bucket isBucket server isServer
  obtain ⟨maps, folded, found⟩ := collectPerNode_entry returned names ips isBucket isServer
  obtain ⟨maps', folded', shows⟩ := foldsTo.folds failoverStats same bucket isBucket server isServer
  cases folded.symm.trans folded'
  exact ⟨maps.mapData, found, shows⟩

/-- Without nodes every vBucket of the returned map has what its order free statistics of one node give. -/
theorem collectAll_orderFree (ip : S → String)
    (free : ∀ bucket ∈ buckets, ∀ server ∈ servers, OrderFree (stats bucket server)) (names : buckets.Nodup) :
    ∃ kept, FoldsTo stats buckets servers kept ∧
      ∀ failoverStats : String → S → List (String × List StatItem),
      (∀ bucket server, SameDict (stats bucket server).items (failoverStats bucket server)) →
        ∃ bucketMap, collectAll ip failoverStats buckets servers = some bucketMap ∧
          ∀ bucket ∈ buckets, ∀ vb m, (bucketMap.lookup bucket).bind (·.lookup vb) = some m →
            ∃ server ∈ servers, ∀ key, m.lookup key = kept bucket server vb key := by
  obtain ⟨kept, foldsTo⟩ := exists_foldsTo free
  refine ⟨kept, foldsTo, fun failoverStats same => ?_⟩
  obtain ⟨bucketMap, returned⟩ := foldsTo.collect ip _ _ same
  refine ⟨bucketMap, returned, ?_⟩
  intro bucket isBucket vb m found
  obtain ⟨server, isServer, maps, folded, own⟩ := collectAll_entry returned names isBucket found
  obtain ⟨maps', folded', shows⟩ := foldsTo.folds failoverStats same bucket isBucket server isServer
  cases folded.symm.trans folded'
  refine ⟨server, isServer, fun key => ?_⟩
  rw [← shows, own]
  rfl

end Collected

/-- Two entries of one vBucket -/
def twoEntries : List StatItem := [("0:seq", "0"), ("1:id", "22"), ("1:seq", "5"), ("0:id", "11")]

theorem twoEntries_names : ∀ item ∈ twoEntries, StatName item.1 := by
  rw [twoEntries]
  simp [StatName, Char.isAlphanum, Char.isAlpha, Char.isUpper, Char.isLower, Char.isDigit]

def twoEntriesStats : FailoverStats where
  items := [("0", twoEntries)]
  distinct := List.nodup_singleton "0"
  distinctNames vbucket member := by
    rw [List.mem_singleton.mp member]
    decide
  names vbucket member := by
    rw [List.mem_singleton.mp member]
    exact twoEntries_names

/-- If `0:seq` comes first and `0:id` last, the id of the older entry is kept. -/
theorem order_matters : ¬ OrderFree twoEntriesStats := by
  rintro ⟨kept, alike, _⟩
  have others : ∀ order : List StatItem, order.Perm twoEntries → SameDict twoEntriesStats.items [("0", order)] := by
    intro order perm
    exact ⟨_, List.Perm.refl _, .cons ⟨rfl, perm.symm⟩ .nil⟩
  obtain ⟨older, returnedOlder, isOlder⟩ := alike _ (others twoEntries (List.Perm.refl _))
  obtain ⟨newer, returnedNewer, isNewer⟩ := alike _ (others twoEntries.reverse (List.reverse_perm _))
  have olderId : (foldServer [("0", twoEntries)]).map (fun maps => (maps.mapData.lookup "vb_0").bind (·.lookup "id")) =
      some (some "11") := by decide
  have newerId : (foldServer [("0", twoEntries.reverse)]).map
      (fun maps => (maps.mapData.lookup "vb_0").bind (·.lookup "id")) = some (some "22") := by decide
  rw [returnedOlder, Option.map_some, isOlder, Option.some.injEq] at olderId
  rw [returnedNewer, Option.map_some, isNewer, olderId] at newerId
  exact absurd newerId (by decide)

end

end Taf.DataAnalysis
