import Taf.Loader.Thanosied

/-! # The workers of the stand-alone loader

The end of `thanosied.py` cuts the items of a run into one range for each worker, the remainder with
the last one, and strides over the documents to delete by the truncated share of a worker. -/

namespace Taf.Thanosied

open Taf.Lib Taf.Tasks

/-! ## The arguments of the workers -/

/-- The arguments that the split reads or writes -/
structure LoaderArgs where
  count : ℕ
  startDocument : ℤ
  delete : Bool
  numDelete : ℕ

/-- One round of the loop over the workers -/
def workerArgs (args : LoaderArgs) (numWorkers i : ℕ) : LoaderArgs :=
  let items := args.count / numWorkers
  { args with
    count := if i = numWorkers - 1 then args.count - items * i else items
    startDocument := items * i + args.startDocument }

def splitItems (args : LoaderArgs) (numWorkers : ℕ) : List LoaderArgs :=
  (List.range numWorkers).map (workerArgs args numWorkers)

/-- The number of documents that the worker of the round at `i` deletes -/
def deleteShare (numDelete itemsPerWorker i : ℕ) : ℕ :=
  if numDelete < itemsPerWorker then numDelete
  else if numDelete < i + itemsPerWorker then i + itemsPerWorker - numDelete
  else itemsPerWorker

/-- One round of the loop over the documents; `none` is the `IndexError` of `arguments[args_counter]`. -/
def deleteRound (numDelete itemsPerWorker : ℕ) (state : List LoaderArgs × ℕ) (i : ℕ) :
    Option (List LoaderArgs × ℕ) := do
  let (arguments, argsCounter) := state
  let arg ← arguments[argsCounter]?
  let share := deleteShare numDelete itemsPerWorker i
  some (arguments.set argsCounter { arg with numDelete := share }, argsCounter + 1)

/-- `range(0, num_delete, items_per_worker)`; `none` is the `ValueError` for a step of zero. -/
def deleteStarts (numDelete itemsPerWorker : ℕ) : Option (List ℕ) :=
  if itemsPerWorker = 0 then none
  else some ((List.range ((numDelete + itemsPerWorker - 1) / itemsPerWorker)).map fun k => itemsPerWorker * k)

def splitDeletes (args : LoaderArgs) (numWorkers : ℕ) (arguments : List LoaderArgs) :
    Option (List LoaderArgs) := do
  let itemsPerWorker := args.count / numWorkers
  let starts ← deleteStarts args.numDelete itemsPerWorker
  let (arguments, argsCounter) ← starts.foldlM (deleteRound args.numDelete itemsPerWorker) (arguments, 0)
  some (arguments.take argsCounter ++
    (arguments.drop argsCounter).map fun arg => { arg with delete := false, numDelete := 0 })

/-- The arguments of the workers, in their order -/
def splitArguments (args : LoaderArgs) (numWorkers : ℕ) : Option (List LoaderArgs) :=
  let arguments := splitItems args numWorkers
  if args.delete then splitDeletes args numWorkers arguments else some arguments

/-! ## What a worker deletes -/

/-- The generator of a worker -/
def Generator.withArgs (gen : Generator) (arg : LoaderArgs) : Generator :=
  { gen with startDocument := arg.startDocument, numItems := arg.count }

/-- `create_delete_batches` -/
def Generator.deleteBatches (gen : Generator) (numDelete : ℕ) : List (ℤ × ℤ) :=
  let numDelete : ℕ := if gen.numItems < numDelete then gen.numItems else numDelete
  let stop := gen.startDocument + numDelete
  (pyRange gen.startDocument stop gen.batchSize).map fun start =>
    (start, if start + gen.batchSize > stop then stop else start + gen.batchSize)

/-- The numbers of the documents that the delete pass of a worker deletes -/
def deletedBy (gen : Generator) (arg : LoaderArgs) : List ℤ :=
  if arg.delete then
    ((gen.withArgs arg).deleteBatches arg.numDelete).flatMap fun batch => Generator.range batch.1 batch.2
  else []

/-- The numbers of the documents of a worker -/
def itemsOf (arg : LoaderArgs) : List ℤ := window arg.startDocument arg.count

/-- The ranges of the workers follow each other and are the whole range, and so are the documents that
    they delete and the first documents. -/
structure SplitsExactly (gen : Generator) (args : LoaderArgs) (arguments : List LoaderArgs) : Prop where
  items : arguments.flatMap itemsOf = itemsOf args
  share : args.delete → ∀ arg ∈ arguments, arg.numDelete ≤ arg.count
  total : args.delete → (arguments.map LoaderArgs.numDelete).sum = args.numDelete
  first : args.delete → arguments.flatMap (deletedBy gen) = window args.startDocument args.numDelete

/-! ## The items -/

variable {gen : Generator} {args : LoaderArgs} {numWorkers : ℕ}

theorem workerArgs_startDocument (k : ℕ) : (workerArgs args numWorkers k).startDocument =
    args.startDocument + (args.count / numWorkers : ℕ) * k := Int.add_comm _ _

theorem count_before_last {k : ℕ} (before : k + 1 < numWorkers) :
    (workerArgs args numWorkers k).count = args.count / numWorkers := if_neg (by omega)

theorem count_last (others : ℕ) : (workerArgs args (others + 1) others).count =
    args.count - args.count / (others + 1) * others := if_pos rfl

/-- The items of all workers but the last one are used up by equal parts. -/
theorem equal_parts_le (others : ℕ) : args.count / (others + 1) * others ≤ args.count :=
  calc args.count / (others + 1) * others ≤ args.count / (others + 1) * (others + 1) :=
        Nat.mul_le_mul_left _ (Nat.le_succ others)
    _ ≤ args.count := Nat.div_mul_le_self _ _

theorem flatMap_workerArgs (positive : 0 < numWorkers) :
    (List.range numWorkers).flatMap (fun k => itemsOf (workerArgs args numWorkers k)) = itemsOf args := by
  obtain ⟨others, rfl⟩ : ∃ others, numWorkers = others + 1 := ⟨numWorkers - 1, by omega⟩
  have front : ∀ k ∈ List.range others, itemsOf (workerArgs args (others + 1) k) =
      window (args.startDocument + (args.count / (others + 1) : ℕ) * k) (args.count / (others + 1)) := by
    intro k inside
    have before : k + 1 < others + 1 := Nat.succ_lt_succ (List.mem_range.mp inside)
    rw [itemsOf, workerArgs_startDocument, count_before_last before]
  have joint := window_append args.startDocument (args.count / (others + 1) * others)
    (args.count - args.count / (others + 1) * others)
  rw [Nat.add_sub_cancel' (equal_parts_le others)] at joint
  rw [List.range_succ, List.flatMap_append, List.flatMap_singleton, List.flatMap_congr front, flatMap_window,
    itemsOf, workerArgs_startDocument, count_last, itemsOf, ← joint]
  push_cast
  rfl

/-! ## The rounds of the deletes -/

/-- A worker that has got its share -/
def withShare (numDelete itemsPerWorker i : ℕ) (arg : LoaderArgs) : LoaderArgs :=
  { arg with numDelete := deleteShare numDelete itemsPerWorker i }

/-- Each round takes the next worker, as long as there is one. -/
theorem foldlM_deleteRound (numDelete itemsPerWorker : ℕ) (starts : List ℕ) (front rest : List LoaderArgs) :
    starts.foldlM (deleteRound numDelete itemsPerWorker) (front ++ rest, front.length) =
      if starts.length ≤ rest.length then
        some (front ++ (List.zipWith (withShare numDelete itemsPerWorker) starts rest ++ rest.drop starts.length),
          front.length + starts.length)
      else none := by
  induction starts generalizing front rest with
  | nil => simp
  | cons i starts ih =>
    cases rest with
    | nil => simp [deleteRound]
    | cons arg rest =>
      have round : deleteRound numDelete itemsPerWorker (front ++ arg :: rest, front.length) i =
          some (front ++ [withShare numDelete itemsPerWorker i arg] ++ rest,
            (front ++ [withShare numDelete itemsPerWorker i arg]).length) := by
        simp [deleteRound, withShare]
      rw [List.foldlM_cons, round]
      refine (ih (front ++ [withShare numDelete itemsPerWorker i arg]) rest).trans ?_
      simp [Nat.add_assoc, Nat.add_comm 1]

/-- The workers with deletes, and behind them those without -/
def deleteArgs (args : LoaderArgs) (numWorkers rounds k : ℕ) : LoaderArgs :=
  if k < rounds then
    withShare args.numDelete (args.count / numWorkers) (args.count / numWorkers * k) (workerArgs args numWorkers k)
  else { workerArgs args numWorkers k with delete := false, numDelete := 0 }

/-- The number of rounds of the loop over the documents -/
def deleteRounds (args : LoaderArgs) (numWorkers : ℕ) : ℕ :=
  (args.numDelete + args.count / numWorkers - 1) / (args.count / numWorkers)

theorem splitDeletes_eq (share : 0 < args.count / numWorkers) :
    splitDeletes args numWorkers (splitItems args numWorkers) =
      if deleteRounds args numWorkers ≤ numWorkers then
        some ((List.range numWorkers).map (deleteArgs args numWorkers (deleteRounds args numWorkers)))
      else none := by
  have starts : deleteStarts args.numDelete (args.count / numWorkers) =
      some ((List.range (deleteRounds args numWorkers)).map fun k => args.count / numWorkers * k) :=
    if_neg share.ne'
  have folded := foldlM_deleteRound args.numDelete (args.count / numWorkers)
    ((List.range (deleteRounds args numWorkers)).map fun k => args.count / numWorkers * k) []
    (splitItems args numWorkers)
  simp only [List.nil_append, List.length_nil, List.length_map, List.length_range, splitItems] at folded
  rw [splitDeletes, starts]
  simp only [Option.bind_eq_bind, Option.bind_some, splitItems, folded]
  by_cases fits : deleteRounds args numWorkers ≤ numWorkers
  · rw [if_pos fits, if_pos fits]
    have rounds : (List.zipWith (withShare args.numDelete (args.count / numWorkers))
        ((List.range (deleteRounds args numWorkers)).map fun k => args.count / numWorkers * k)
        ((List.range numWorkers).map (workerArgs args numWorkers))).length = deleteRounds args numWorkers := by
      simp [fits]
    rw [Option.bind_some, Option.some_inj, Nat.zero_add, List.take_left' rounds, List.drop_left' rounds]
    refine List.ext_getElem ?_ fun k _ _ => ?_
    · simp
      omega
    · rw [List.getElem_append]
      by_cases before : k < deleteRounds args numWorkers
      · simp [deleteArgs, before, fits]
      · have behind : deleteRounds args numWorkers + (k - deleteRounds args numWorkers) = k := by omega
        simp [deleteArgs, before, fits, behind]
  · rw [if_neg fits, if_neg fits]
    rfl

/-! ## The shares -/

section Shares

variable {n q : ℕ}

theorem rounds_eq (positive : 0 < q) : (n + q - 1) / q = n / q + if n % q = 0 then 0 else 1 := by
  have parts := Nat.div_add_mod n q
  have shape : n + q - 1 = q * (n / q) + (n % q + q - 1) := by omega
  rw [shape, Nat.mul_add_div positive]
  by_cases whole : n % q = 0
  · have none : (0 + q - 1) / q = 0 := Nat.div_eq_of_lt (by omega)
    rw [if_pos whole, whole, none]
  · have carried : n % q + q - 1 = n % q - 1 + q := by omega
    have small := Nat.mod_lt n positive
    have none : (n % q - 1) / q = 0 := Nat.div_eq_of_lt (by omega)
    rw [if_neg whole, carried, Nat.add_div_right _ positive, none]

theorem deleteShare_full (positive : 0 < q) {k : ℕ} (inside : k < n / q) : deleteShare n q (q * k) = q := by
  have enough : q * k + q ≤ n := by
    have bound := (Nat.le_div_iff_mul_le positive).mp (Nat.succ_le_of_lt inside)
    rwa [Nat.mul_comm, Nat.mul_succ] at bound
  rw [deleteShare, if_neg (by omega), if_neg (by omega)]

/-- The last share is what is left only if that is all there is to delete, or half of a full share. -/
theorem deleteShare_last (positive : 0 < q) :
    deleteShare n q (q * (n / q)) = if n < q then n else q - n % q := by
  have parts := Nat.div_add_mod n q
  have small := Nat.mod_lt n positive
  rw [deleteShare]
  split
  · rfl
  · rw [if_pos (by omega)]
    omega

theorem sum_shares (positive : 0 < q) :
    ((List.range ((n + q - 1) / q)).map fun k => deleteShare n q (q * k)).sum =
      q * (n / q) + if n % q = 0 then 0 else if n < q then n else q - n % q := by
  have full : (List.range (n / q)).map (fun k => deleteShare n q (q * k)) = List.replicate (n / q) q := by
    refine List.eq_replicate_iff.mpr ⟨by simp, ?_⟩
    intro share member
    obtain ⟨k, inside, rfl⟩ := List.mem_map.mp member
    exact deleteShare_full positive (List.mem_range.mp inside)
  have sum : ((List.range (n / q)).map fun k => deleteShare n q (q * k)).sum = q * (n / q) := by
    rw [full, List.sum_replicate, smul_eq_mul, Nat.mul_comm]
  rw [rounds_eq positive]
  by_cases whole : n % q = 0
  · rw [if_pos whole, if_pos whole]
    exact sum
  · rw [if_neg whole, if_neg whole, List.range_succ, List.map_append, List.sum_append, sum, List.map_singleton,
      List.sum_singleton, deleteShare_last positive]

/-- The numbers of documents to delete that the shares add up to -/
def EvenShares (n q : ℕ) : Prop := n < q ∨ n % q = 0 ∨ 2 * (n % q) = q

theorem sum_shares_eq_iff (positive : 0 < q) :
    ((List.range ((n + q - 1) / q)).map fun k => deleteShare n q (q * k)).sum = n ↔ EvenShares n q := by
  have parts := Nat.div_add_mod n q
  have small := Nat.mod_lt n positive
  rw [sum_shares positive, EvenShares]
  by_cases whole : n % q = 0
  · rw [if_pos whole]
    omega
  · rw [if_neg whole]
    by_cases few : n < q
    · have none : n / q = 0 := Nat.div_eq_of_lt few
      simp [few, none]
    · rw [if_neg few]
      omega

theorem deleteShare_le {k : ℕ} (positive : 0 < q) (inside : k < (n + q - 1) / q) : deleteShare n q (q * k) ≤ q := by
  have begun : q * k ≤ n := by
    have bound := (Nat.lt_div_iff_mul_lt positive).mp inside
    rw [Nat.mul_comm] at bound
    omega
  rw [deleteShare]
  split_ifs <;> omega

end Shares

/-! ## The deletes of the workers -/

theorem Generator.flatMap_deleteBatches (gen : Generator) (numDelete : ℕ) :
    (gen.deleteBatches numDelete).flatMap (fun batch => Generator.range batch.1 batch.2) =
      window gen.startDocument (min gen.numItems numDelete) := by
  have clipped : (if gen.numItems < numDelete then gen.numItems else numDelete) = min gen.numItems numDelete := by
    split <;> omega
  have range := Generator.flatMap_batches { gen with numItems := min gen.numItems numDelete }
  rw [deleteBatches, clipped]
  refine Eq.trans range ?_
  rw [Generator.range, Generator.stop, add_sub_cancel_left, Int.toNat_natCast]

theorem deletedBy_eq (gen : Generator) (arg : LoaderArgs) :
    deletedBy gen arg = if arg.delete then window arg.startDocument (min arg.count arg.numDelete) else [] := by
  rw [deletedBy, Generator.flatMap_deleteBatches]
  rfl

theorem itemsOf_deleteArgs (rounds k : ℕ) :
    itemsOf (deleteArgs args numWorkers rounds k) = itemsOf (workerArgs args numWorkers k) := by
  rw [deleteArgs]
  split <;> rfl

/-- A worker has at least the items of an equal part. -/
theorem share_le_count {k : ℕ} (inside : k < numWorkers) :
    args.count / numWorkers ≤ (workerArgs args numWorkers k).count := by
  by_cases before : k + 1 < numWorkers
  · exact (count_before_last before).ge
  · obtain rfl : numWorkers = k + 1 := by omega
    have whole := Nat.div_mul_le_self args.count (k + 1)
    rw [Nat.mul_succ] at whole
    rw [count_last]
    omega

variable {rounds : ℕ}

theorem sum_deleteArgs (fits : rounds ≤ numWorkers) :
    (((List.range numWorkers).map (deleteArgs args numWorkers rounds)).map LoaderArgs.numDelete).sum =
      ((List.range rounds).map fun k =>
        deleteShare args.numDelete (args.count / numWorkers) (args.count / numWorkers * k)).sum := by
  have split : List.range numWorkers = List.range rounds ++ (List.range (numWorkers - rounds)).map (rounds + ·) := by
    rw [← List.range_add, Nat.add_sub_cancel' fits]
  have busy : ∀ k ∈ List.range rounds, (LoaderArgs.numDelete ∘ deleteArgs args numWorkers rounds) k =
      deleteShare args.numDelete (args.count / numWorkers) (args.count / numWorkers * k) := by
    intro k inside
    rw [Function.comp_apply, deleteArgs, if_pos (List.mem_range.mp inside)]
    rfl
  have idle : ((List.range (numWorkers - rounds)).map (rounds + ·)).map
      (LoaderArgs.numDelete ∘ deleteArgs args numWorkers rounds) = List.replicate (numWorkers - rounds) 0 := by
    simp [deleteArgs, List.eq_replicate_iff]
  rw [List.map_map, split, List.map_append, List.sum_append, idle, List.map_congr_left busy, List.sum_replicate]
  simp

theorem flatMap_deletedBy (gen : Generator) (deletes : args.delete) (fits : rounds ≤ numWorkers)
    (small : ∀ k < rounds, deleteShare args.numDelete (args.count / numWorkers) (args.count / numWorkers * k) ≤
      args.count / numWorkers) :
    ((List.range numWorkers).map (deleteArgs args numWorkers rounds)).flatMap (deletedBy gen) =
      (List.range rounds).flatMap fun k : ℕ => window (args.startDocument + (args.count / numWorkers : ℕ) * k)
        (deleteShare args.numDelete (args.count / numWorkers) (args.count / numWorkers * k)) := by
  have split : List.range numWorkers = List.range rounds ++ (List.range (numWorkers - rounds)).map (rounds + ·) := by
    rw [← List.range_add, Nat.add_sub_cancel' fits]
  have busy : ∀ k ∈ List.range rounds, deletedBy gen (deleteArgs args numWorkers rounds k) =
      window (args.startDocument + (args.count / numWorkers : ℕ) * k)
        (deleteShare args.numDelete (args.count / numWorkers) (args.count / numWorkers * k)) := by
    intro k member
    have inside := List.mem_range.mp member
    have bound := (small k inside).trans (share_le_count (inside.trans_le fits))
    rw [deletedBy_eq, deleteArgs, if_pos inside, ← workerArgs_startDocument]
    refine (if_pos deletes).trans ?_
    rw [withShare, Nat.min_eq_right bound]
  have idle : ((List.range (numWorkers - rounds)).map (rounds + ·)).flatMap
      (fun k => deletedBy gen (deleteArgs args numWorkers rounds k)) = [] := by
    simp [deletedBy_eq, deleteArgs]
  rw [List.flatMap_map, split, List.flatMap_append, idle, List.append_nil, List.flatMap_congr busy]

/-- Even shares are the beginning of the documents. -/
theorem flatMap_shares {n q : ℕ} (positive : 0 < q) (even : EvenShares n q) (start : ℤ) :
    (List.range ((n + q - 1) / q)).flatMap (fun k : ℕ => window (start + (q : ℕ) * k) (deleteShare n q (q * k))) =
      window start n := by
  have parts := Nat.div_add_mod n q
  have small := Nat.mod_lt n positive
  have full : ∀ k ∈ List.range (n / q), window (start + (q : ℕ) * k) (deleteShare n q (q * k)) =
      window (start + (q : ℕ) * k) q := by
    intro k inside
    rw [deleteShare_full positive (List.mem_range.mp inside)]
  have front : (List.range (n / q)).flatMap (fun k : ℕ => window (start + (q : ℕ) * k) (deleteShare n q (q * k))) =
      window start (q * (n / q)) := by
    rw [List.flatMap_congr full, flatMap_window]
  rw [rounds_eq positive]
  by_cases whole : n % q = 0
  · rw [if_pos whole, Nat.add_zero, front]
    congr 1
    omega
  · -- What is left behind the full shares is the remainder.
    have left : (if n < q then n else q - n % q) = n % q := by
      split
      · rename_i few
        exact (Nat.mod_eq_of_lt few).symm
      · rcases even with few | none | half <;> omega
    have joint := window_append start (q * (n / q)) (n % q)
    rw [parts] at joint
    rw [if_neg whole, List.range_succ, List.flatMap_append, front, List.flatMap_singleton,
      deleteShare_last positive, left, ← joint]
    push_cast
    rfl

/-! ## Which deletes are split exactly -/

theorem splitItems_exact (gen : Generator) (keeps : args.delete = false) (positive : 0 < numWorkers) :
    SplitsExactly gen args (splitItems args numWorkers) where
  items := by rw [splitItems, List.flatMap_map, flatMap_workerArgs positive]
  share := fun deletes => by simp [keeps] at deletes
  total := fun deletes => by simp [keeps] at deletes
  first := fun deletes => by simp [keeps] at deletes

theorem rounds_le_iff {n q numWorkers : ℕ} (positive : 0 < q) :
    (n + q - 1) / q ≤ numWorkers ↔ n ≤ q * numWorkers := by
  rw [← Nat.lt_succ_iff, Nat.div_lt_iff_lt_mul positive, Nat.succ_mul, Nat.mul_comm]
  omega

theorem deleteArgs_share (positive : 0 < args.count / numWorkers) :
    ∀ arg ∈ (List.range numWorkers).map (deleteArgs args numWorkers (deleteRounds args numWorkers)),
      arg.numDelete ≤ arg.count := by
  intro arg member
  obtain ⟨k, inside, rfl⟩ := List.mem_map.mp member
  rw [deleteArgs]
  split
  · rename_i before
    exact (deleteShare_le positive before).trans (share_le_count (List.mem_range.mp inside))
  · exact Nat.zero_le _

theorem splitArguments_of_deletes (deletes : args.delete) (share : 0 < args.count / numWorkers) :
    splitArguments args numWorkers = if deleteRounds args numWorkers ≤ numWorkers then
      some ((List.range numWorkers).map (deleteArgs args numWorkers (deleteRounds args numWorkers))) else none := by
  rw [splitArguments, if_pos deletes, splitDeletes_eq share]

theorem even_of_exact {arguments : List LoaderArgs} (deletes : args.delete) (share : 0 < args.count / numWorkers)
    (returned : splitArguments args numWorkers = some arguments) (exactly : SplitsExactly gen args arguments) :
    deleteRounds args numWorkers ≤ numWorkers ∧ EvenShares args.numDelete (args.count / numWorkers) := by
  rw [splitArguments_of_deletes deletes share] at returned
  split at returned
  · rename_i fits
    cases returned
    have total := exactly.total deletes
    rw [sum_deleteArgs fits] at total
    exact ⟨fits, (sum_shares_eq_iff share).mp total⟩
  · cases returned

/-- The split is exact if nothing is deleted, or the equal parts have enough documents and the last share
    is all there is to delete, a full one, or half of one. -/
theorem splitArguments_exact_iff (gen : Generator) (args : LoaderArgs) {numWorkers : ℕ} (positive : 0 < numWorkers)
    (enough : numWorkers ≤ args.count) :
    (∃ arguments, splitArguments args numWorkers = some arguments ∧ SplitsExactly gen args arguments) ↔
      (args.delete → args.numDelete ≤ args.count / numWorkers * numWorkers ∧
        (args.numDelete < args.count / numWorkers ∨ args.numDelete % (args.count / numWorkers) = 0 ∨
          2 * (args.numDelete % (args.count / numWorkers)) = args.count / numWorkers)) := by
  have share : 0 < args.count / numWorkers := Nat.div_pos enough positive
  cases deletes : args.delete with
  | false =>
    refine iff_of_true ⟨splitItems args numWorkers, ?_, splitItems_exact gen deletes positive⟩ (by simp)
    rw [splitArguments, deletes]
    rfl
  | true =>
    rw [← EvenShares, ← rounds_le_iff share, ← deleteRounds]
    constructor
    · intro split _
      obtain ⟨arguments, returned, exactly⟩ := split
      exact even_of_exact deletes share returned exactly
    · intro good
      obtain ⟨fits, even⟩ := good rfl
      refine ⟨_, (splitArguments_of_deletes deletes share).trans (if_pos fits), ?_, ?_, ?_, ?_⟩
      · rw [List.flatMap_map]
        simp only [itemsOf_deleteArgs]
        exact flatMap_workerArgs positive
      · exact fun _ => deleteArgs_share share
      · intro _
        rw [sum_deleteArgs fits]
        exact (sum_shares_eq_iff share).mpr even
      · intro _
        rw [flatMap_deletedBy gen deletes fits fun k inside => deleteShare_le share inside]
        exact flatMap_shares share even args.startDocument

def tenThousand (numDelete : ℕ) : LoaderArgs := ⟨10000, 0, true, numDelete⟩

def anyGenerator : Generator := ⟨"d_", 0, 1, 1, Nat.one_pos, 0⟩

/-- The example of the comment in the code -/
theorem splitArguments_2500 : ∃ arguments, splitArguments (tenThousand 2500) 10 = some arguments ∧
    SplitsExactly anyGenerator (tenThousand 2500) arguments :=
  (splitArguments_exact_iff anyGenerator (tenThousand 2500) (by decide) (by decide)).mpr (by decide)

/-- Of 2300 documents the third worker has 300 to delete, and it deletes 700. -/
theorem share_of_2300_is_complemented : ¬ ∃ arguments, splitArguments (tenThousand 2300) 10 = some arguments ∧
    SplitsExactly anyGenerator (tenThousand 2300) arguments := by
  intro split
  obtain ⟨arguments, returned, exactly⟩ := split
  have even := (even_of_exact rfl (by decide) returned exactly).2
  simp [EvenShares, tenThousand] at even

end Taf.Thanosied
