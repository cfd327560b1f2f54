import Mathlib

/-! # Quotas that are served in order

Names wait in a queue, each with what it still may get.  Who is served is the first one; it leaves the queue
when what is left of its quota becomes zero.  A name whose quota is zero from the beginning never gets
there, so that it stays at the front and takes everything that the names behind it should have got. -/

namespace Taf.Lib

variable {α : Type*} {name : α} {left : ℤ} {quotas rest : List (α × ℤ)} {n : ℕ}

/-- Serves the first name. -/
def serve : List (α × ℤ) → Option (α × List (α × ℤ))
  | [] => none
  | (name, left) :: rest => some (name, if left - 1 = 0 then rest else (name, left - 1) :: rest)

/-- Who is served in `n` rounds -/
def served : ℕ → List (α × ℤ) → Option (List α)
  | 0, _ => some []
  | n + 1, quotas =>
    (serve quotas).bind fun first => (served n first.2).map (first.1 :: ·)

/-- What everybody is meant to get -/
def quotaNames (quotas : List (α × ℤ)) : List α :=
  quotas.flatMap fun quota => List.replicate quota.2.toNat quota.1

/-- What everybody gets in `n` rounds, if that is all there is. -/
def shares : List (α × ℤ) → ℕ → List α
  | [], _ => []
  | (name, left) :: rest, n =>
    if left = 0 then List.replicate n name
    else List.replicate left.toNat name ++ shares rest (n - left.toNat)

/-- No quota of zero stands before another one. -/
def ZerosLast (quotas : List (α × ℤ)) : Prop := quotas.Pairwise fun first second => first.2 = 0 → second.2 = 0

/-! ## The rounds -/

theorem served_nonpos (spent : left ≤ 0) : served n ((name, left) :: rest) = some (List.replicate n name) := by
  induction n generalizing left with
  | zero => rfl
  | succ n ih =>
    -- counted down from zero the quota never is zero again
    have stays : left - 1 ≠ 0 := by omega
    rw [served, serve, Option.bind_some, if_neg stays, ih (by omega)]
    rfl

/-- A positive quota is served to its end before the next one. -/
theorem served_through {count : ℕ} : served (count + 1 + n) ((name, ((count + 1 : ℕ) : ℤ)) :: rest) =
    (served n rest).map (List.replicate (count + 1) name ++ ·) := by
  induction count with
  | zero =>
    rw [Nat.zero_add, Nat.add_comm, served, serve]
    simp
  | succ count ih =>
    have one : ((count + 1 + 1 : ℕ) : ℤ) - 1 = (count + 1 : ℕ) := by omega
    have stays : ((count + 1 : ℕ) : ℤ) ≠ 0 := by omega
    rw [Nat.add_right_comm, served, serve, Option.bind_some, one, if_neg stays, ih, Option.map_map]
    rfl

theorem serve_isSome_of_served {zones : List α} (done : served (n + 1) quotas = some zones) :
    ∃ zone rest others, serve quotas = some (zone, rest) ∧ served n rest = some others ∧ zones = zone :: others := by
  rw [served, Option.bind_eq_some_iff] at done
  obtain ⟨⟨zone, rest⟩, first, done⟩ := done
  obtain ⟨others, later, rfl⟩ := Option.map_eq_some_iff.mp done
  exact ⟨zone, rest, others, first, later, rfl⟩

theorem length_of_served {zones : List α} (done : served n quotas = some zones) : zones.length = n := by
  induction n generalizing quotas zones with
  | zero =>
    cases done
    rfl
  | succ n ih =>
    obtain ⟨zone, rest, others, _, later, rfl⟩ := serve_isSome_of_served done
    rw [List.length_cons, ih later]

/-! ## All quotas together -/

/-- The rounds are as many as the quotas allow together. -/
structure Fills (quotas : List (α × ℤ)) (n : ℕ) : Prop where
  natural : ∀ quota ∈ quotas, 0 ≤ quota.2
  total : (n : ℤ) = (quotas.map Prod.snd).sum

namespace Fills

theorem here (fills : Fills ((name, left) :: rest) n) : 0 ≤ left := fills.natural (name, left) List.mem_cons_self

theorem tail_sum (fills : Fills ((name, left) :: rest) n) : 0 ≤ (rest.map Prod.snd).sum := by
  apply List.sum_nonneg
  simpa using fun count name member => fills.natural (name, count) (List.mem_cons_of_mem _ member)

theorem tail (fills : Fills ((name, left) :: rest) n) : left.toNat ≤ n ∧ Fills rest (n - left.toNat) := by
  have here := fills.here
  have later := fills.tail_sum
  have total : (n : ℤ) = left + (rest.map Prod.snd).sum := fills.total
  refine ⟨by omega, fun quota member => fills.natural quota (List.mem_cons_of_mem _ member), by omega⟩

theorem nil (fills : Fills ([] : List (α × ℤ)) n) : n = 0 := by simpa using fills.total

theorem of_zeros (fills : Fills quotas 0) : ∀ quota ∈ quotas, quota.2 = 0 := by
  induction quotas with
  | nil => simp
  | cons quota quotas ih =>
    obtain ⟨name, left⟩ := quota
    obtain ⟨within, tail⟩ := fills.tail
    have here := fills.here
    rw [Nat.zero_sub] at tail
    exact List.forall_mem_cons.mpr ⟨by dsimp only; omega, ih tail⟩

end Fills

/-- Nobody is missing in as many rounds as the quotas allow together. -/
theorem served_eq_shares (fills : Fills quotas n) : served n quotas = some (shares quotas n) := by
  induction quotas generalizing n with
  | nil =>
    rw [fills.nil]
    rfl
  | cons quota quotas ih =>
    obtain ⟨name, left⟩ := quota
    obtain ⟨within, tail⟩ := fills.tail
    have here := fills.here
    by_cases zero : left = 0
    · rw [shares, if_pos zero, served_nonpos zero.le]
    · obtain ⟨count, rfl⟩ : ∃ count : ℕ, left = (count + 1 : ℕ) := ⟨left.toNat - 1, by omega⟩
      obtain ⟨others, rfl⟩ := Nat.exists_eq_add_of_le within
      rw [Int.toNat_natCast, Nat.add_sub_cancel_left] at tail
      rw [Int.toNat_natCast, served_through, ih tail, shares, if_neg zero, Int.toNat_natCast, Nat.add_sub_cancel_left]
      rfl

/-- Where the zeros are last everybody gets the quota. -/
theorem shares_of_zerosLast (fills : Fills quotas n) (ordered : ZerosLast quotas) : shares quotas n = quotaNames quotas := by
  induction quotas generalizing n with
  | nil => rfl
  | cons quota quotas ih =>
    obtain ⟨name, left⟩ := quota
    obtain ⟨behind, ordered⟩ := List.pairwise_cons.mp ordered
    rw [quotaNames, List.flatMap_cons, ← quotaNames, ← ih fills.tail.2 ordered]
    by_cases zero : left = 0
    · -- nothing is left for those behind, so that there are no rounds
      have spent : ∀ count ∈ quotas.map Prod.snd, count = 0 := by
        simpa using fun count name member => behind (name, count) member zero
      have rounds : (n : ℤ) = left + (quotas.map Prod.snd).sum := fills.total
      rw [List.sum_eq_zero spent, zero, add_zero, Nat.cast_eq_zero] at rounds
      have others : quotaNames quotas = [] := List.flatMap_eq_nil_iff.mpr fun quota member => by
        simp [behind quota member zero]
      rw [ih fills.tail.2 ordered, others, shares, if_pos zero, rounds, zero]
      rfl
    · rw [shares, if_neg zero]

theorem mem_quotaNames {wanted : α} (member : wanted ∈ quotaNames quotas) : wanted ∈ quotas.map Prod.fst := by
  obtain ⟨quota, listed, repeated⟩ := List.mem_flatMap.mp member
  rw [List.eq_of_mem_replicate repeated]
  exact List.mem_map_of_mem listed

section

variable [DecidableEq α]

theorem count_quotaNames (distinct : (quotas.map Prod.fst).Nodup) {quota : α × ℤ} (member : quota ∈ quotas) :
    (quotaNames quotas).count quota.1 = quota.2.toNat := by
  induction quotas with
  | nil => cases member
  | cons first quotas ih =>
    rw [List.map_cons, List.nodup_cons] at distinct
    obtain ⟨new, distinct⟩ := distinct
    rw [quotaNames, List.flatMap_cons, List.count_append, ← quotaNames, List.count_replicate]
    rcases List.mem_cons.mp member with rfl | later
    · simp [List.count_eq_zero.mpr fun again => new (mem_quotaNames again)]
    · have other : first.1 ≠ quota.1 := fun same => new (same ▸ List.mem_map_of_mem later)
      simp [other, ih distinct later]

/-- Everybody gets the quota exactly where the zeros are last. -/
theorem shares_exact_iff (fills : Fills quotas n) (distinct : (quotas.map Prod.fst).Nodup) :
    (∀ quota ∈ quotas, ((shares quotas n).count quota.1 : ℤ) = quota.2) ↔ ZerosLast quotas := by
  constructor
  · intro exact
    induction quotas generalizing n with
    | nil => exact List.Pairwise.nil
    | cons quota quotas ih =>
      obtain ⟨name, left⟩ := quota
      obtain ⟨new, distinct⟩ := List.nodup_cons.mp distinct
      obtain ⟨own, others⟩ := List.forall_mem_cons.mp exact
      by_cases zero : left = 0
      · -- the first name takes all rounds, and it should take none
        rw [shares, if_pos zero, List.count_replicate_self, zero, Nat.cast_eq_zero] at own
        rw [own] at fills
        exact List.pairwise_of_forall_mem_list fun _ _ second member _ => fills.of_zeros second member
      · refine List.pairwise_cons.mpr ⟨fun quota member none => absurd none zero, ih fills.tail.2 distinct ?_⟩
        intro quota member
        have other : name ≠ quota.1 := by
          rintro rfl
          exact new (List.mem_map.mpr ⟨quota, member, rfl⟩)
        have whole := others quota member
        rw [shares, if_neg zero, List.count_append, List.count_replicate] at whole
        simpa [other] using whole
  · intro ordered quota member
    rw [shares_of_zerosLast fills ordered, count_quotaNames distinct member, Int.toNat_of_nonneg (fills.natural quota member)]

end

end Taf.Lib
