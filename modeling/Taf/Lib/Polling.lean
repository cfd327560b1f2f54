import Mathlib

/-! # Loops over an endless sequence of answers

A loop that polls has no bound of its own: it is a step over a stream of answers, and either it is still
going after a number of polls or it has ended with an outcome, which stays.  What is proved about such a
loop is an invariant of the polls that let it go on, the one poll at which it ends, and a potential that
runs out. -/

namespace Taf.Lib

variable {σ π ω : Type*} {step : σ → π → Except ω σ} {polls : ℕ → π} {s t : σ} {outcome : ω} {m n : ℕ}

/-- The loop after `n` polls: its state, or the outcome with which it has ended -/
def afterPolls (step : σ → π → Except ω σ) (polls : ℕ → π) (s : σ) : ℕ → Except ω σ
  | 0 => .ok s
  | n + 1 =>
    match afterPolls step polls s n with
    | .ok t => step t (polls n)
    | .error outcome => .error outcome

theorem afterPolls_succ (going : afterPolls step polls s n = .ok t) :
    afterPolls step polls s (n + 1) = step t (polls n) := by
  rw [afterPolls, going]

/-- An outcome stays. -/
theorem afterPolls_ended (ended : afterPolls step polls s m = .error outcome) (later : m ≤ n) :
    afterPolls step polls s n = .error outcome := by
  induction n, later using Nat.le_induction with
  | base => exact ended
  | succ n _ ih => rw [afterPolls, ih]

/-- A loop ends at one poll, from a state in which it was going on. -/
theorem afterPolls_ends_iff : afterPolls step polls s n = .error outcome ↔
    ∃ k < n, ∃ t, afterPolls step polls s k = .ok t ∧ step t (polls k) = .error outcome := by
  constructor
  · intro ended
    induction n with
    | zero => exact nomatch ended
    | succ n ih =>
      cases found : afterPolls step polls s n with
      | ok t =>
        rw [afterPolls_succ found] at ended
        exact ⟨n, Nat.lt_succ_self n, t, found, ended⟩
      | error other =>
        rw [afterPolls, found] at ended
        obtain ⟨k, earlier, ends⟩ := ih (found.trans ended)
        exact ⟨k, Nat.lt_succ_of_lt earlier, ends⟩
  · intro found
    obtain ⟨k, earlier, t, going, ends⟩ := found
    exact afterPolls_ended ((afterPolls_succ going).trans ends) earlier

/-- The poll that lets a loop go on. -/
theorem afterPolls_succ_eq_ok : afterPolls step polls s (n + 1) = .ok t ↔
    ∃ middle, afterPolls step polls s n = .ok middle ∧ step middle (polls n) = .ok t := by
  cases found : afterPolls step polls s n with
  | ok middle => simp [afterPolls, found]
  | error outcome => simp [afterPolls, found]

/-- What every poll keeps that lets the loop go on, in terms of the number of polls -/
theorem afterPolls_invariant (Inv : ℕ → σ → Prop) (start : Inv 0 s)
    (keeps : ∀ n t next, Inv n t → step t (polls n) = .ok next → Inv (n + 1) next)
    (going : afterPolls step polls s n = .ok t) : Inv n t := by
  induction n generalizing t with
  | zero =>
    cases going
    exact start
  | succ n ih =>
    obtain ⟨middle, before, taken⟩ := afterPolls_succ_eq_ok.mp going
    exact keeps n middle t (ih before) taken

/-- A loop with a potential that each poll lowers, from some poll on, ends. -/
theorem afterPolls_ends_of_potential (potential : σ → ℕ) (settled : ℕ)
    (lowers : ∀ n t next, settled ≤ n → afterPolls step polls s n = .ok t →
      step t (polls n) = .ok next → potential next < potential t) :
    ∃ n outcome, afterPolls step polls s n = .error outcome := by
  by_contra endless
  push Not at endless
  have going : ∀ n, ∃ t, afterPolls step polls s n = .ok t := by
    intro n
    cases found : afterPolls step polls s n with
    | ok t => exact ⟨t, rfl⟩
    | error outcome => exact absurd found (endless n outcome)
  obtain ⟨first, reached⟩ := going settled
  -- After as many polls as the potential has units it would be negative.
  have spent : ∀ k t, afterPolls step polls s (settled + k) = .ok t → potential t + k ≤ potential first := by
    intro k
    induction k with
    | zero =>
      intro t same
      cases reached.symm.trans same
      omega
    | succ k ih =>
      intro t later
      obtain ⟨middle, before, taken⟩ := afterPolls_succ_eq_ok.mp later
      have := ih middle before
      have := lowers (settled + k) middle t (by omega) before taken
      omega
  obtain ⟨last, reachedLast⟩ := going (settled + (potential first + 1))
  have := spent _ last reachedLast
  omega

end Taf.Lib
