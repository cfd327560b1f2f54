import Mathlib

/-! # Iterators

Objects with `has_next`, `next` and `reset`, as seen from outside by a sequence of calls, and those among them that
go through a range of indices. -/

namespace Taf.Lib

/-- What a call of `next` comes back with: `error` is any exception other than `StopIteration`. -/
inductive Answer (α : Type) where
  | value (a : α)
  | stopIteration
  | error
  deriving DecidableEq

structure Iterator (σ α : Type) where
  hasNext : σ → Bool
  next : σ → Answer α × σ
  reset : σ → σ
  length : σ → ℤ

variable {σ α : Type}

namespace Iterator

variable (it : Iterator σ α)

/-- So many calls of `next`, each with the `has_next` before it, and the state behind them -/
def calls : ℕ → σ → List (Bool × Answer α) × σ
  | 0, state => ([], state)
  | n + 1, state =>
    let rest := calls n (it.next state).2
    ((it.hasNext state, (it.next state).1) :: rest.1, rest.2)

/-- The next calls return these values, and `has_next` is true before each of them. -/
def Gives (state : σ) (values : List α) : Prop :=
  (it.calls values.length state).1 = values.map fun a => (true, .value a)

/-- `next` returns as many values as `len` says and then raises `StopIteration`, `has_next` tells when, and after
    a `reset` the same values come again. -/
def Follows (state : σ) : Prop :=
  ∃ values : List α, (values.length : ℤ) = it.length state ∧ it.Gives state values ∧
    it.hasNext (it.calls values.length state).2 = false ∧
    (it.next (it.calls values.length state).2).1 = .stopIteration ∧
    ∀ n, it.Gives (it.reset (it.calls n state).2) values

/-- `while has_next(): next()`, with so many rounds at most; `none` is a loop that is not through by then, or that
    was left by an exception. -/
def drain : ℕ → σ → Option (List α)
  | 0, _ => none
  | fuel + 1, state =>
    if it.hasNext state then
      match it.next state with
      | (.value a, state) => (drain fuel state).map (a :: ·)
      | _ => none
    else some []

variable {it}

theorem gives_cons {state : σ} {a : α} {values : List α} : it.Gives state (a :: values) ↔
    it.hasNext state = true ∧ (it.next state).1 = .value a ∧ it.Gives (it.next state).2 values := by
  rw [Gives, List.length_cons, calls, List.map_cons, List.cons_eq_cons, Prod.mk.injEq, and_assoc]
  rfl

/-! ## Two iterators that answer alike -/

/-- Related states have the same answers, and the calls lead from related states to related states. -/
structure Alike {τ : Type} (it : Iterator σ α) (it' : Iterator τ α) (R : σ → τ → Prop) : Prop where
  hasNext : ∀ {s t}, R s t → it.hasNext s = it'.hasNext t
  next : ∀ {s t}, R s t → (it.next s).1 = (it'.next t).1 ∧ R (it.next s).2 (it'.next t).2
  reset : ∀ {s t}, R s t → R (it.reset s) (it'.reset t)
  length : ∀ {s t}, R s t → it.length s = it'.length t

section Alike

variable {τ : Type} {it : Iterator σ α} {it' : Iterator τ α} {R : σ → τ → Prop} {s : σ} {t : τ}

theorem Alike.calls (alike : Alike it it' R) (related : R s t) (n : ℕ) :
    (it.calls n s).1 = (it'.calls n t).1 ∧ R (it.calls n s).2 (it'.calls n t).2 := by
  induction n generalizing s t with
  | zero => exact ⟨rfl, related⟩
  | succ n ih =>
    obtain ⟨answer, next⟩ := alike.next related
    obtain ⟨answers, last⟩ := ih next
    refine ⟨?_, last⟩
    rw [Iterator.calls, Iterator.calls, alike.hasNext related, answer, answers]

theorem Alike.gives (alike : Alike it it' R) (related : R s t) (values : List α) :
    it.Gives s values ↔ it'.Gives t values := by
  rw [Gives, Gives, (alike.calls related values.length).1]

theorem Alike.follows_iff (alike : Alike it it' R) (related : R s t) : it.Follows s ↔ it'.Follows t := by
  apply exists_congr
  intro values
  have last := (alike.calls related values.length).2
  apply and_congr (by rw [alike.length related])
  apply and_congr (alike.gives related values)
  apply and_congr (by rw [alike.hasNext last])
  apply and_congr (by rw [(alike.next last).1])
  apply forall_congr'
  intro n
  exact alike.gives (alike.reset (alike.calls related n).2) values

end Alike

end Iterator

/-- An iterator that stands at an index: `ended` is the test of `next`, and `valueAt` the value at an index, `none`
    if finding it raises an exception. -/
def indexed (start stop : ℤ) (ended : ℤ → Bool) (valueAt : ℤ → Option α) : Iterator ℤ α where
  hasNext itr := itr < stop
  next itr :=
    if ended itr then (.stopIteration, itr)
    else
      match valueAt itr with
      | some a => (.value a, itr + 1)
      | none => (.error, itr)
  reset _ := start
  length _ := stop - start

section Indexed

variable {start stop itr : ℤ} {ended : ℤ → Bool} {valueAt : ℤ → Option α}

theorem indexed_next {a : α} (answer : ((indexed start stop ended valueAt).next itr).1 = .value a) :
    valueAt itr = some a ∧ ((indexed start stop ended valueAt).next itr).2 = itr + 1 := by
  rw [indexed] at answer ⊢
  dsimp only at answer ⊢
  by_cases last : ended itr
  · rw [if_pos last] at answer
    cases answer
  · rw [if_neg last] at answer ⊢
    cases here : valueAt itr with
    | none =>
      rw [here] at answer
      cases answer
    | some b =>
      rw [here] at answer
      cases answer
      exact ⟨rfl, rfl⟩

theorem indexed_next_eq {a : α} (inside : ended itr = false) (here : valueAt itr = some a) :
    (indexed start stop ended valueAt).next itr = (.value a, itr + 1) := by
  rw [indexed]
  dsimp only
  rw [inside, if_neg Bool.false_ne_true, here]

theorem indexed_next_ended (last : ended itr = true) :
    (indexed start stop ended valueAt).next itr = (.stopIteration, itr) := by
  rw [indexed]
  dsimp only
  rw [last, if_pos rfl]

theorem indexed_next_none (inside : ended itr = false) (nothing : valueAt itr = none) :
    (indexed start stop ended valueAt).next itr = (.error, itr) := by
  rw [indexed]
  dsimp only
  rw [inside, if_neg Bool.false_ne_true, nothing]

/-- Every value that is given moves the index on by one. -/
theorem indexed_state {values : List α} (gives : (indexed start stop ended valueAt).Gives itr values) :
    ((indexed start stop ended valueAt).calls values.length itr).2 = itr + values.length := by
  induction values generalizing itr with
  | nil => exact (Int.add_zero itr).symm
  | cons a values ih =>
    obtain ⟨_, answer, rest⟩ := Iterator.gives_cons.mp gives
    rw [(indexed_next answer).2] at rest
    rw [List.length_cons, Iterator.calls, (indexed_next answer).2]
    show ((indexed start stop ended valueAt).calls values.length (itr + 1)).2 = _
    rw [ih rest]
    push_cast
    omega

theorem isSome_of_gives {values : List α} (gives : (indexed start stop ended valueAt).Gives itr values)
    {index : ℤ} (low : itr ≤ index) (high : index < itr + values.length) : (valueAt index).isSome := by
  induction values generalizing itr with
  | nil =>
    rw [List.length_nil] at high
    omega
  | cons a values ih =>
    obtain ⟨_, answer, rest⟩ := Iterator.gives_cons.mp gives
    obtain ⟨here, next⟩ := indexed_next answer
    by_cases first : index = itr
    · rw [first, here]
      rfl
    · rw [next] at rest
      rw [List.length_cons] at high
      push_cast at high
      exact ih rest (by omega) (by omega)

/-- While there are values, they are given one after the other. -/
theorem exists_gives (inside : ∀ index, itr ≤ index → index < stop → ended index = false)
    (there : ∀ index, itr ≤ index → index < stop → (valueAt index).isSome) {n : ℕ} (count : itr + n = stop) :
    ∃ values, values.length = n ∧ (indexed start stop ended valueAt).Gives itr values ∧
      ∀ a ∈ values, ∃ index, itr ≤ index ∧ index < stop ∧ valueAt index = some a := by
  induction n generalizing itr with
  | zero => exact ⟨[], rfl, rfl, fun a member => by cases member⟩
  | succ n ih =>
    push_cast at count
    obtain ⟨a, here⟩ := Option.isSome_iff_exists.mp (there itr (Int.le_refl itr) (by omega))
    have answer : (indexed start stop ended valueAt).next itr = (.value a, itr + 1) :=
      indexed_next_eq (inside itr (Int.le_refl itr) (by omega)) here
    obtain ⟨values, length, gives, found⟩ := @ih (itr + 1) (fun index low => inside index (by omega))
      (fun index low => there index (by omega)) (by omega)
    refine ⟨a :: values, by rw [List.length_cons, length], Iterator.gives_cons.mpr ⟨?_, ?_, ?_⟩, ?_⟩
    · exact decide_eq_true (show itr < stop by omega)
    · rw [answer]
    · rw [answer]
      exact gives
    · intro b member
      cases List.mem_cons.mp member with
      | inl first => exact ⟨itr, Int.le_refl itr, by omega, by rw [first, here]⟩
      | inr later =>
        obtain ⟨index, low, high, value⟩ := found b later
        exact ⟨index, by omega, high, value⟩

/-- An iterator whose `next` stops where its `has_next` does follows the protocol exactly if its range is one, and it
    has a value at every index of it. -/
theorem indexed_follows_iff (stops : ∀ index, ended index = decide (stop ≤ index)) :
    (indexed start stop ended valueAt).Follows start ↔
      start ≤ stop ∧ ∀ index, start ≤ index → index < stop → (valueAt index).isSome := by
  constructor
  · intro follows
    obtain ⟨values, length, gives, _⟩ := follows
    have count : (values.length : ℤ) = stop - start := length
    exact ⟨by omega, fun index low high => isSome_of_gives gives low (by omega)⟩
  · intro both
    obtain ⟨ordered, there⟩ := both
    have inside : ∀ index, start ≤ index → index < stop → ended index = false := by
      intro index _ high
      rw [stops, decide_eq_false_iff_not]
      omega
    obtain ⟨values, length, gives, _⟩ := exists_gives inside there
      (show start + ((stop - start).toNat : ℤ) = stop by omega)
    have last : ((indexed start stop ended valueAt).calls values.length start).2 = stop := by
      rw [indexed_state gives, length]
      omega
    refine ⟨values, ?_, gives, ?_, ?_, fun _ => gives⟩
    · show (values.length : ℤ) = stop - start
      rw [length]
      omega
    · rw [last]
      exact decide_eq_false (lt_irrefl stop)
    · rw [last, indexed_next_ended (by rw [stops]; exact decide_eq_true (le_refl stop))]

/-- An iterator whose `next` goes on at the end of its range, where it has nothing, does not follow the protocol. -/
theorem not_indexed_follows (late : ended stop = false) (nothing : valueAt stop = none) :
    ¬ (indexed start stop ended valueAt).Follows start := by
  intro follows
  obtain ⟨values, length, gives, _, stopped, _⟩ := follows
  have count : (values.length : ℤ) = stop - start := length
  have last : start + (values.length : ℤ) = stop := by omega
  rw [indexed_state gives, last, indexed_next_none late nothing] at stopped
  cases stopped

end Indexed

end Taf.Lib
