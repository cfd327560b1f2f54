import Mathlib

/-! # How a transaction load is split

`create_transaction_load_pattern_per_worker` gives every worker a number of transactions, each with one batch
of documents.  The workers with one transaction more are counted by a remainder of the number of
batches less the number of workers; Java's remainder has the sign of that difference, so that nobody
runs anything where there are fewer batches than workers. -/

namespace Taf.Loader

/-! ## The pattern of every worker -/

/-- `load_pattern` -/
structure LoadPattern (α : Type) where
  scopeName : String
  colName : String
  ops : α

/-- `t_pattern` -/
structure TransactionPattern (α : Type) where
  batchSize : Int32
  numTransactions : Int32
  loadPattern : LoadPattern α

/-- An element of the `transaction_pattern` of the settings -/
structure PatternSetting (α : Type) where
  scopeName : String
  colName : String
  crudPattern : List α

variable {α D σ : Type}

/-- The transactions of a worker -/
def iterationsOf (iterationsToRun batchWithExtraLoops : Int32) (index : ℕ) : Int32 :=
  if index < batchWithExtraLoops.toInt then iterationsToRun + 1 else iterationsToRun

/-- A round of the loop over the workers, with `pattern_index` -/
def addPattern (batchSize iterationsToRun batchWithExtraLoops : Int32) (pattern1 : PatternSetting α)
    (built : List (TransactionPattern α) × ℕ) (index : ℕ) : Option (List (TransactionPattern α) × ℕ) := do
  let ops ← pattern1.crudPattern[built.2]?
  let pattern : TransactionPattern α :=
    { batchSize := batchSize
      numTransactions := iterationsOf iterationsToRun batchWithExtraLoops index
      loadPattern := ⟨pattern1.scopeName, pattern1.colName, ops⟩ }
  return (built.1 ++ [pattern], if built.2 + 1 = pattern1.crudPattern.length then 0 else built.2 + 1)

/-- The quotient of floats is taken as a rational number, and a cast to `int` stops at the bounds; `none` is an
    `ArithmeticException` or an `IndexOutOfBoundsException`. -/
def createTransactionLoadPatternPerWorker (batchSize workers start last : Int32)
    (transactionPattern : List (PatternSetting α)) : Option (List (TransactionPattern α)) := do
  if batchSize = 0 ∨ workers = 0 then none
  let totalDocsToBeMutated := last - start
  let maxIterations : ℚ := ((totalDocsToBeMutated / batchSize).toInt : ℚ) / (workers.toInt : ℚ)
  let iterationsToRun := Int32.ofIntClamp ⌊maxIterations⌋
  let batchWithExtraLoops := Int32.ofIntClamp ⌈maxIterations * (workers.toInt : ℚ) - (workers.toInt : ℚ)⌉ % workers
  let pattern1 ← transactionPattern.head?
  let built ← (List.range workers.toNatClampNeg).foldlM
    (addPattern batchSize iterationsToRun batchWithExtraLoops pattern1) ([], 0)
  return built.1

/-! ## The workers -/

/-- A loop with a fixed number of rounds, each of which draws something -/
def draws {β : Type} (round : σ → β × σ) : ℕ → σ → List β × σ
  | 0, s => ([], s)
  | n + 1, s => ((round s).1 :: (draws round n (round s).2).1, (draws round n (round s).2).2)

/-- `get_docs` with the generator `next` -/
def getDocs (next : σ → D × σ) (batchSize : Int32) : σ → List D × σ := draws next batchSize.toNatClampNeg

/-- The batches that `run` takes, one for each transaction -/
def runTransactions (next : σ → D × σ) (pattern : TransactionPattern α) : σ → List (List D) × σ :=
  draws (getDocs next pattern.batchSize) pattern.numTransactions.toNatClampNeg

/-- The batches of all workers -/
def runWorkers (next : σ → D × σ) : List (TransactionPattern α) → σ → List (List D) × σ
  | [], s => ([], s)
  | pattern :: patterns, s =>
    let own := runTransactions next pattern s
    (own.1 ++ (runWorkers next patterns own.2).1, (runWorkers next patterns own.2).2)

/-- The batches between `start` and `last` -/
def batches (batchSize start last : Int32) : ℤ := (last.toInt - start.toInt) / batchSize.toInt

/-- The workers share the batches evenly, and together run all of them. -/
structure SplitComplete (batchSize start last : Int32) (patterns : List (TransactionPattern α)) : Prop where
  nonneg : ∀ pattern ∈ patterns, 0 ≤ pattern.numTransactions.toInt
  balanced : ∀ pattern ∈ patterns, ∀ other ∈ patterns, pattern.numTransactions.toInt ≤ other.numTransactions.toInt + 1
  total : (patterns.map fun pattern => pattern.numTransactions.toInt).sum = batches batchSize start last
  sizes : ∀ {D σ : Type} (next : σ → D × σ) (s : σ), ∀ batch ∈ (runWorkers next patterns s).1,
    batch.length = batchSize.toNatClampNeg
  ran : ∀ {D σ : Type} (next : σ → D × σ) (s : σ), ((runWorkers next patterns s).1.length : ℤ) = batches batchSize start last

section

variable {batchSize workers start last iterations extra : Int32} {pattern1 : PatternSetting α}
  {patterns : List (TransactionPattern α)}

/-! ## Runs -/

theorem draws_length {β : Type} (round : σ → β × σ) (n : ℕ) (s : σ) : (draws round n s).1.length = n := by
  induction n generalizing s with
  | zero => rfl
  | succ n ih => rw [draws, List.length_cons, ih]

theorem draws_forall {β : Type} {round : σ → β × σ} (good : β → Prop) (each : ∀ s, good (round s).1) (n : ℕ) (s : σ) :
    ∀ drawn ∈ (draws round n s).1, good drawn := by
  induction n generalizing s with
  | zero => exact fun drawn member => absurd member List.not_mem_nil
  | succ n ih => exact List.forall_mem_cons.mpr ⟨each s, ih (round s).2⟩

theorem runWorkers_length (next : σ → D × σ) (patterns : List (TransactionPattern α)) (s : σ) :
    (runWorkers next patterns s).1.length = (patterns.map fun pattern => pattern.numTransactions.toNatClampNeg).sum := by
  induction patterns generalizing s with
  | nil => rfl
  | cons pattern patterns ih =>
    rw [runWorkers, List.length_append, runTransactions, draws_length, ih, List.map_cons, List.sum_cons]

theorem runWorkers_sizes (next : σ → D × σ) (same : ∀ pattern ∈ patterns, pattern.batchSize = batchSize) (s : σ) :
    ∀ batch ∈ (runWorkers next patterns s).1, batch.length = batchSize.toNatClampNeg := by
  induction patterns generalizing s with
  | nil => exact fun batch member => absurd member List.not_mem_nil
  | cons pattern patterns ih =>
    obtain ⟨here, later⟩ := List.forall_mem_cons.mp same
    intro batch member
    rcases List.mem_append.mp member with own | others
    · rw [← here]
      exact draws_forall (fun docs => docs.length = _) (fun s => draws_length next _ s) _ s batch own
    · exact ih later _ batch others

/-! ## The loop over the workers -/

theorem addPattern_returns (batchSize iterations extra : Int32) (indices : List ℕ) (patterns : List (TransactionPattern α)) {patternIndex : ℕ}
    (inside : patternIndex < pattern1.crudPattern.length) :
    ∃ built, indices.foldlM (addPattern batchSize iterations extra pattern1) (patterns, patternIndex) = some built ∧
      built.1.map TransactionPattern.numTransactions =
        patterns.map TransactionPattern.numTransactions ++ indices.map (iterationsOf iterations extra) ∧
      built.1.map TransactionPattern.batchSize =
        patterns.map TransactionPattern.batchSize ++ indices.map fun _ => batchSize := by
  induction indices generalizing patterns patternIndex with
  | nil => exact ⟨_, rfl, by simp, by simp⟩
  | cons index indices ih =>
    have found : pattern1.crudPattern[patternIndex]? = some pattern1.crudPattern[patternIndex] :=
      List.getElem?_eq_getElem inside
    have nextInside : (if patternIndex + 1 = pattern1.crudPattern.length then 0 else patternIndex + 1) <
        pattern1.crudPattern.length := by
      split
      · omega
      · omega
    rw [List.foldlM_cons, addPattern, found]
    obtain ⟨built, folded, counts, sizes⟩ := ih (patterns ++ [⟨batchSize, iterationsOf iterations extra index,
      ⟨pattern1.scopeName, pattern1.colName, pattern1.crudPattern[patternIndex]⟩⟩]) nextInside
    exact ⟨built, folded, by simp [counts], by simp [sizes]⟩

/-- What the loop adds: a transaction more for the first workers -/
theorem create_eq (start last : Int32) (positiveBatch : 1 ≤ batchSize.toInt) (positiveWorkers : 1 ≤ workers.toInt)
    (crud : pattern1.crudPattern ≠ []) (more : List (PatternSetting α)) : ∃ patterns iterations extra,
      createTransactionLoadPatternPerWorker batchSize workers start last (pattern1 :: more) = some patterns ∧
      patterns.map TransactionPattern.numTransactions = (List.range workers.toNatClampNeg).map (iterationsOf iterations extra) ∧
      (∀ pattern ∈ patterns, pattern.batchSize = batchSize) ∧
      iterations = Int32.ofIntClamp (((last - start) / batchSize).toInt / workers.toInt) ∧
      extra = Int32.ofIntClamp (((last - start) / batchSize).toInt - workers.toInt) % workers := by
  have nonzero : ¬ (batchSize = 0 ∨ workers = 0) := by
    rintro (rfl | rfl)
    · exact absurd positiveBatch (by decide)
    · exact absurd positiveWorkers (by decide)
  have workersNonzero : (workers.toInt : ℚ) ≠ 0 := by
    exact_mod_cast (by omega : workers.toInt ≠ 0)
  have floor : ⌊((((last - start) / batchSize).toInt : ℚ) / (workers.toInt : ℚ))⌋ =
      ((last - start) / batchSize).toInt / workers.toInt := by
    rw [Int.floor_div_cast_of_nonneg (by omega), Int.floor_intCast]
  have ceil : ⌈((((last - start) / batchSize).toInt : ℚ) / (workers.toInt : ℚ) * (workers.toInt : ℚ) - (workers.toInt : ℚ))⌉ =
      ((last - start) / batchSize).toInt - workers.toInt := by
    rw [div_mul_cancel₀ _ workersNonzero, ← Int.cast_sub, Int.ceil_intCast]
  obtain ⟨built, folded, counts, sizes⟩ := addPattern_returns batchSize
    (Int32.ofIntClamp (((last - start) / batchSize).toInt / workers.toInt))
    (Int32.ofIntClamp (((last - start) / batchSize).toInt - workers.toInt) % workers)
    (List.range workers.toNatClampNeg) [] (List.length_pos_iff.mpr crud)
  refine ⟨built.1, _, _, ?_, counts, ?_, rfl, rfl⟩
  · simp only [createTransactionLoadPatternPerWorker, if_neg nonzero, floor, ceil, List.head?_cons]
    simp only [Option.bind_eq_bind, Option.bind_some, folded, Option.pure_def]
  · intro pattern member
    have inSizes := List.mem_map_of_mem (f := TransactionPattern.batchSize) member
    rw [sizes] at inSizes
    obtain ⟨_, _, same⟩ := List.mem_map.mp inSizes
    exact same.symm

/-! ## The numbers -/

/-- The numbers of a complete split -/
structure Even (count : ℕ → ℤ) (workers : ℕ) (total : ℤ) : Prop where
  nonneg : ∀ index < workers, 0 ≤ count index
  balanced : ∀ index < workers, ∀ other < workers, count index ≤ count other + 1
  total : ((List.range workers).map count).sum = total

theorem iterationsOf_toInt {index : ℕ} (safe : 0 < extra.toInt → iterations.toInt < 2 ^ 31 - 1) :
    (iterationsOf iterations extra index).toInt = iterations.toInt + if (index : ℤ) < extra.toInt then 1 else 0 := by
  rw [iterationsOf]
  split
  case isTrue below =>
    have lower := iterations.le_toInt
    have upper := safe (by omega)
    rw [Int32.toInt_add, Int32.toInt_one]
    exact Int.bmod_eq_of_le (by omega) (by omega)
  case isFalse => rw [Int.add_zero]

/-- All workers together -/
theorem sum_iterationsOf (safe : 0 < extra.toInt → iterations.toInt < 2 ^ 31 - 1) (n : ℕ) :
    ((List.range n).map fun index => (iterationsOf iterations extra index).toInt).sum =
      n * iterations.toInt + max 0 (min extra.toInt n) := by
  induction n with
  | zero => simp
  | succ n ih =>
    rw [List.range_succ, List.map_append, List.sum_append, ih, List.map_singleton, List.sum_singleton,
      iterationsOf_toInt safe, Nat.cast_succ, add_mul]
    split
    · omega
    · omega

theorem even_of_sum {n : ℕ} {total : ℤ} (safe : 0 < extra.toInt → iterations.toInt < 2 ^ 31 - 1)
    (nonneg : 0 ≤ iterations.toInt) (extraNonneg : 0 ≤ extra.toInt) (extraLe : extra.toInt ≤ n)
    (sum : n * iterations.toInt + extra.toInt = total) :
    Even (fun index => (iterationsOf iterations extra index).toInt) n total := by
  constructor
  · intro index _
    rw [iterationsOf_toInt safe]
    split <;> omega
  · intro index _ other _
    rw [iterationsOf_toInt safe, iterationsOf_toInt safe]
    split <;> split <;> omega
  · rw [sum_iterationsOf safe]
    omega

theorem tmod_nonpos {number divisor : ℤ} (nonpos : number ≤ 0) : number.tmod divisor ≤ 0 := by
  have flipped := Int.tmod_nonneg divisor (show 0 ≤ -number by omega)
  rw [Int.neg_tmod] at flipped
  omega

theorem clamp_nonpos {number : ℤ} (nonpos : number ≤ 0) : (Int32.ofIntClamp number).toInt ≤ 0 := by
  by_cases lower : Int32.minValue.toInt ≤ number
  · rw [Int32.toInt_ofIntClamp lower (nonpos.trans (by decide))]
    exact nonpos
  · rw [Int32.ofIntClamp, dif_neg lower]
    decide

theorem toNatClampNeg_cast (positive : 1 ≤ workers.toInt) : (workers.toNatClampNeg : ℤ) = workers.toInt := by
  rw [Int32.toNatClampNeg, Int.toNat_of_nonneg (by omega)]

/-- The number of batches as the code computes it: the difference may overflow. -/
theorem quotient_cases (positiveBatch : 1 ≤ batchSize.toInt) (ordered : start.toInt ≤ last.toInt) :
    (last.toInt - start.toInt < 2 ^ 31 ∧ ((last - start) / batchSize).toInt = batches batchSize start last ∧
      0 ≤ batches batchSize start last) ∨
    (2 ^ 31 ≤ last.toInt - start.toInt ∧ ((last - start) / batchSize).toInt ≤ 0 ∧ 1 ≤ batches batchSize start last) := by
  have lastUpper := last.toInt_lt
  have startLower := start.le_toInt
  have batchUpper := batchSize.toInt_lt
  have notMinusOne : batchSize ≠ -1 := by
    rintro rfl
    exact absurd positiveBatch (by decide)
  rw [Int32.toInt_div_of_ne_right _ _ notMinusOne, Int32.toInt_sub, batches]
  by_cases overflow : last.toInt - start.toInt < 2 ^ 31
  · rw [Int.bmod_eq_of_le (by omega) (by omega), Int.tdiv_eq_ediv_of_nonneg (by omega)]
    exact .inl ⟨overflow, rfl, Int.ediv_nonneg (by omega) (by omega)⟩
  · have wrapped : (last.toInt - start.toInt).bmod (2 ^ 32) = -(2 ^ 32 - (last.toInt - start.toInt)) := by
      rw [← Int.sub_bmod_right, Int.bmod_eq_of_le (by omega) (by omega)]
      omega
    rw [wrapped, Int.neg_tdiv, Int.tdiv_eq_ediv_of_nonneg (by omega)]
    have nonneg := Int.ediv_nonneg (a := 2 ^ 32 - (last.toInt - start.toInt)) (b := batchSize.toInt) (by omega) (by omega)
    refine .inr ⟨by omega, by omega, ?_⟩
    rw [Int.le_ediv_iff_mul_le (by omega)]
    omega

/-- The split is complete if the difference does not overflow and there is no batch, or one for every worker. -/
theorem split_iff (positiveBatch : 1 ≤ batchSize.toInt) (positiveWorkers : 1 ≤ workers.toInt)
    (ordered : start.toInt ≤ last.toInt)
    (isIterations : iterations = Int32.ofIntClamp (((last - start) / batchSize).toInt / workers.toInt))
    (isExtra : extra = Int32.ofIntClamp (((last - start) / batchSize).toInt - workers.toInt) % workers) :
    Even (fun index => (iterationsOf iterations extra index).toInt) workers.toNatClampNeg (batches batchSize start last) ↔
      last.toInt - start.toInt < 2 ^ 31 ∧
        (batches batchSize start last = 0 ∨ workers.toInt ≤ batches batchSize start last) := by
  have isWorkers := toNatClampNeg_cast positiveWorkers
  have extraValue : extra.toInt =
      (Int32.ofIntClamp (((last - start) / batchSize).toInt - workers.toInt)).toInt.tmod workers.toInt := by
    rw [isExtra, Int32.toInt_mod]
  rcases quotient_cases positiveBatch ordered with ⟨fits, isQuotient, nonneg⟩ | ⟨overflow, quotientNonpos, some⟩
  · rw [isQuotient] at isIterations extraValue
    have bound : batches batchSize start last < 2 ^ 31 := by
      rw [← isQuotient]
      exact Int32.toInt_lt _
    have workersBound := workers.toInt_lt
    have quotientLe := Int.ediv_le_self workers.toInt nonneg
    have quotientNonneg := Int.ediv_nonneg nonneg (show 0 ≤ workers.toInt by omega)
    have iterationsValue : iterations.toInt = batches batchSize start last / workers.toInt := by
      rw [isIterations, Int32.toInt_ofIntClamp (by rw [Int32.toInt_minValue]; omega) (by rw [Int32.toInt_maxValue]; omega)]
    rw [Int32.toInt_ofIntClamp (by rw [Int32.toInt_minValue]; omega) (by rw [Int32.toInt_maxValue]; omega)] at extraValue
    have condition : (last.toInt - start.toInt < 2 ^ 31 ∧
        (batches batchSize start last = 0 ∨ workers.toInt ≤ batches batchSize start last)) ↔
          (batches batchSize start last = 0 ∨ workers.toInt ≤ batches batchSize start last) := and_iff_right fits
    rw [condition]
    by_cases enough : workers.toInt ≤ batches batchSize start last
    · -- the remainder of a number that is not negative is the one that is meant
      refine iff_of_true ?_ (.inr enough)
      rw [Int.tmod_eq_emod_of_nonneg (by omega), Int.sub_emod_right] at extraValue
      have extraNonneg := Int.emod_nonneg (batches batchSize start last) (show workers.toInt ≠ 0 by omega)
      have extraLt := Int.emod_lt_of_pos (batches batchSize start last) (show 0 < workers.toInt by omega)
      have parts := Int.mul_ediv_add_emod (batches batchSize start last) workers.toInt
      refine even_of_sum ?_ (by omega) (by omega) (by omega) (by rw [isWorkers, iterationsValue, extraValue]; exact parts)
      intro positive
      have two : 2 * (batches batchSize start last / workers.toInt) ≤
          workers.toInt * (batches batchSize start last / workers.toInt) :=
        mul_le_mul_of_nonneg_right (by omega) quotientNonneg
      omega
    · -- no worker has a whole transaction, so that all of them would have to come from the remainder
      have noIterations : batches batchSize start last / workers.toInt = 0 :=
        Int.ediv_eq_zero_of_lt nonneg (by omega)
      by_cases empty : batches batchSize start last = 0
      · refine iff_of_true ?_ (.inl empty)
        rw [empty, Int.zero_sub, Int.neg_tmod_self] at extraValue
        exact even_of_sum (by omega) (by omega) (by omega) (by omega)
          (by rw [iterationsValue, noIterations, extraValue, empty]; simp)
      · -- fewer batches than workers: the remainder is negative
        refine iff_of_false (fun even => ?_) (not_or.mpr ⟨empty, enough⟩)
        have extraNonpos : extra.toInt ≤ 0 := by
          rw [extraValue]
          exact tmod_nonpos (by omega)
        have total := even.total
        rw [sum_iterationsOf (fun positive => absurd positive (by omega)), iterationsValue, noIterations] at total
        omega
  · -- nobody has a positive number
    refine iff_of_false (fun even => ?_) fun fits => absurd fits.1 (by omega)
    have extraNonpos : extra.toInt ≤ 0 := by
      rw [extraValue]
      exact tmod_nonpos (clamp_nonpos (by omega))
    have iterationsNonpos : iterations.toInt ≤ 0 := by
      rw [isIterations]
      exact clamp_nonpos ((Int.ediv_le_ediv (by omega) quotientNonpos).trans_eq (Int.zero_ediv _))
    have total := even.total
    rw [sum_iterationsOf (fun positive => absurd positive (by omega)), isWorkers] at total
    have product : workers.toInt * iterations.toInt ≤ 0 :=
      mul_nonpos_of_nonneg_of_nonpos (by omega) iterationsNonpos
    omega

end

end Taf.Loader
