import Mathlib
import Taf.Lib.Run

/-! # Loops that poll until something ends them

A poll changes the state of the loop or ends it with an outcome; the error of `Except` is the outcome.
A loop that has ended was going on before its last poll, and what every poll keeps that does not end the
loop holds of the polls behind it and the state they lead to.  The other sections have the loop that asks for
one thing a limited number of times, and polls of which the first that does not let a loop go on decides. -/

namespace Taf.Lib

variable {σ π ω : Type*} {step : σ → π → Except ω σ} {polls : List π} {s t : σ} {outcome : ω}

/-- A loop ends at the last poll that is made. -/
theorem foldlM_ends_iff : polls.foldlM step s = .error outcome ↔
    ∃ before last after t, polls = before ++ last :: after ∧ before.foldlM step s = .ok t ∧
      step t last = .error outcome := by
  induction polls generalizing s with
  | nil => simp [pure, Except.pure]
  | cons first polls ih =>
    rw [List.foldlM_cons, bind_eq_error]
    constructor
    · intro ended
      cases ended with
      | inl early => exact ⟨[], first, polls, s, rfl, rfl, early⟩
      | inr later =>
        obtain ⟨next, taken, ended⟩ := later
        obtain ⟨before, last, after, t, rfl, going, ends⟩ := ih.mp ended
        have reaches : (first :: before).foldlM step s = .ok t := bind_eq_ok.mpr ⟨next, taken, going⟩
        exact ⟨first :: before, last, after, t, rfl, reaches, ends⟩
    · intro found
      obtain ⟨before, last, after, t, same, going, ends⟩ := found
      cases before with
      | nil =>
        cases same
        cases going
        exact .inl ends
      | cons other before =>
        cases same
        obtain ⟨next, taken, going⟩ := bind_eq_ok.mp going
        exact .inr ⟨next, taken, ih.mpr ⟨before, last, after, t, rfl, going, ends⟩⟩

/-- What the polls that do not end the loop keep, in terms of the polls behind it. -/
theorem foldlM_reaches {R : List π → σ → Prop} (start : R [] s)
    (keeps : ∀ behind t poll next, R behind t → step t poll = .ok next → R (behind ++ [poll]) next)
    (going : polls.foldlM step s = .ok t) : R polls t := by
  induction polls using List.reverseRecOn generalizing t with
  | nil =>
    cases going
    exact start
  | append_singleton polls last ih =>
    rw [List.foldlM_append, bind_eq_ok] at going
    obtain ⟨middle, reached, going⟩ := going
    obtain ⟨next, taken, same⟩ := bind_eq_ok.mp going
    cases same
    exact keeps polls middle last t (ih reached) taken

/-! ## Asking a limited number of times -/

section WaitFor

variable {ε : Type*} {ask : ℕ → Except ε Bool} {tries first : ℕ}

/-- It asks from `first` on until the answer is yes or something is raised, `tries` times at most. -/
def waitFor (ask : ℕ → Except ε Bool) : ℕ → ℕ → Except ε Bool
  | 0, _ => .ok false
  | tries + 1, first => do if ← ask first then pure true else waitFor ask tries (first + 1)

/-- The question is asked: it is in time, and those before it have got a no. -/
def Asked (ask : ℕ → Except ε Bool) (tries first k : ℕ) : Prop :=
  k < tries ∧ ∀ earlier < k, ask (first + earlier) = .ok false

theorem asked_zero : Asked ask (tries + 1) first 0 := ⟨Nat.succ_pos tries, by simp⟩

theorem asked_succ_iff {k : ℕ} (no : ask first = .ok false) :
    Asked ask (tries + 1) first (k + 1) ↔ Asked ask tries (first + 1) k := by
  unfold Asked
  rw [Nat.succ_lt_succ_iff, Nat.forall_lt_succ_left, Nat.add_zero]
  simp only [no, true_and, Nat.add_assoc, Nat.add_comm 1]

theorem waitFor_no (no : ask first = .ok false) :
    waitFor ask (tries + 1) first = waitFor ask tries (first + 1) := by
  rw [waitFor, no]
  rfl

theorem waitFor_first {answer : Except ε Bool} (last : answer ≠ .ok false) (answered : ask first = answer) :
    waitFor ask (tries + 1) first = answer := by
  rw [waitFor, answered]
  cases answer with
  | error e => rfl
  | ok yes =>
    cases yes with
    | false => exact absurd rfl last
    | true => rfl

/-- An end of the wait other than giving up is the answer to the last question that is asked. -/
theorem waitFor_ends_iff {answer : Except ε Bool} (last : answer ≠ .ok false) :
    waitFor ask tries first = answer ↔ ∃ k, Asked ask tries first k ∧ ask (first + k) = answer := by
  induction tries generalizing first with
  | zero => exact iff_of_false (fun same => last same.symm) (by simp [Asked])
  | succ tries ih =>
    by_cases no : ask first = .ok false
    · rw [waitFor_no no, ih]
      constructor
      · intro ⟨k, asked, answered⟩
        exact ⟨k + 1, (asked_succ_iff no).mpr asked, by rw [← answered, Nat.add_comm k, Nat.add_assoc]⟩
      · intro ⟨k, asked, answered⟩
        cases k with
        | zero => exact absurd (answered.symm.trans no) last
        | succ k => exact ⟨k, (asked_succ_iff no).mp asked, by rw [← answered, Nat.add_comm k, Nat.add_assoc]⟩
    · rw [waitFor_first no rfl]
      constructor
      · intro answered
        exact ⟨0, asked_zero, answered⟩
      · intro ⟨k, asked, answered⟩
        cases k with
        | zero => exact answered
        | succ k => exact absurd (asked.2 0 (Nat.succ_pos k)) no

/-- The wait raises nothing exactly if none of the questions does that are asked. -/
theorem waitFor_returns_iff : (∃ answer, waitFor ask tries first = .ok answer) ↔
    ∀ k, Asked ask tries first k → ∃ answer, ask (first + k) = .ok answer := by
  constructor
  · intro ⟨answer, returned⟩ k asked
    cases here : ask (first + k) with
    | ok yes => exact ⟨yes, rfl⟩
    | error e =>
      rw [(waitFor_ends_iff (by simp)).mpr ⟨k, asked, here⟩] at returned
      cases returned
  · intro quiet
    cases outcome : waitFor ask tries first with
    | ok answer => exact ⟨answer, rfl⟩
    | error e =>
      obtain ⟨k, asked, raised⟩ := (waitFor_ends_iff (by simp)).mp outcome
      obtain ⟨answer, here⟩ := quiet k asked
      rw [raised] at here
      cases here

end WaitFor

/-! ## Polls that go on, and the one behind them -/

section Stopping

variable {α : Type*} {goesOn : α → Prop} {through : ℕ → Prop} {stops : ℕ → α → Prop} {list : List α} {a : α}

/-- The elements go on up to one that stops, or through to the end of the list. -/
def StopsAt (goesOn : α → Prop) (through : ℕ → Prop) (stops : ℕ → α → Prop) (list : List α) : Prop :=
  ∃ before after, list = before ++ after ∧ (∀ b ∈ before, goesOn b) ∧
    ((after = [] ∧ through before.length) ∨ ∃ b rest, after = b :: rest ∧ stops before.length b)

theorem stopsAt_nil : StopsAt goesOn through stops [] ↔ through 0 := by
  constructor
  · rintro ⟨before, after, same, -, ending⟩
    obtain ⟨rfl, rfl⟩ := List.append_eq_nil_iff.mp same.symm
    obtain ⟨-, ended⟩ | ⟨b, rest, same, -⟩ := ending
    · exact ended
    · cases same
  · intro ended
    exact ⟨[], [], rfl, by simp, .inl ⟨rfl, ended⟩⟩

theorem stopsAt_cons : StopsAt goesOn through stops (a :: list) ↔ stops 0 a ∨
    (goesOn a ∧ StopsAt goesOn (fun n => through (n + 1)) (fun n => stops (n + 1)) list) := by
  constructor
  · rintro ⟨before, after, same, going, ending⟩
    cases before with
    | nil =>
      rw [List.nil_append] at same
      subst same
      obtain ⟨empty, -⟩ | ⟨b, rest, same, stopped⟩ := ending
      · cases empty
      · cases same
        exact .inl stopped
    | cons b before =>
      rw [List.cons_append, List.cons.injEq] at same
      obtain ⟨rfl, rfl⟩ := same
      exact .inr ⟨going a List.mem_cons_self, before, after, rfl,
        fun b member => going b (List.mem_cons_of_mem a member), ending⟩
  · rintro (stopped | ⟨first, before, after, rfl, going, ending⟩)
    · exact ⟨[], a :: list, rfl, by simp, .inr ⟨a, list, rfl, stopped⟩⟩
    · exact ⟨a :: before, after, rfl, List.forall_mem_cons.mpr ⟨first, going⟩, ending⟩

end Stopping

end Taf.Lib
