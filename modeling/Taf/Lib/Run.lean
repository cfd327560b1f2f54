import Mathlib

/-! # Guarded runs of a step function

A component that is driven by a list of calls is a step function `σ → ο → σ`; its
contract with the callers is a guard on the state in which each call is made.
`run` folds the calls, `Guarded` says that every call of the list meets the guard
in the state it really finds, and the rules below lift a fact about one guarded
step to every state and every call of a run.  The last section has such rules for a
loop whose body may raise, the monadic fold over `Except`. -/

namespace Taf.Lib

universe v

variable {σ τ ο : Type*}

/-- The state after the calls of the list, first to last. -/
def run (step : σ → ο → σ) (s : σ) (calls : List ο) : σ :=
  calls.foldl step s

/-- Every call of the list meets `guard` in the state in which it is made. -/
def Guarded (step : σ → ο → σ) (guard : σ → ο → Prop) : σ → List ο → Prop
  | _, [] => True
  | s, call :: calls => guard s call ∧ Guarded step guard (step s call) calls

@[simp] theorem run_nil (step : σ → ο → σ) (s : σ) : run step s [] = s := rfl

@[simp] theorem run_cons (step : σ → ο → σ) (s : σ) (call : ο) (calls : List ο) :
    run step s (call :: calls) = run step (step s call) calls := rfl

theorem run_append (step : σ → ο → σ) (s : σ) (before after : List ο) :
    run step s (before ++ after) = run step (run step s before) after :=
  List.foldl_append

instance guardedDecidable (step : σ → ο → σ) (guard : σ → ο → Prop)
    [∀ s call, Decidable (guard s call)] :
    ∀ s calls, Decidable (Guarded step guard s calls)
  | _, [] => .isTrue trivial
  | s, call :: calls =>
    @instDecidableAnd _ _ _ (guardedDecidable step guard (step s call) calls)

section Invariant

variable {step : σ → ο → σ} {guard : σ → ο → Prop} {Inv : σ → Prop}

/-- What each step adds to what shows, shows in the end. -/
theorem foldl_shows_iff {shows : σ → Prop} {adds : ο → Prop}
    (each : ∀ s call, shows (step s call) ↔ shows s ∨ adds call) (calls : List ο) (s : σ) :
    shows (calls.foldl step s) ↔ shows s ∨ ∃ call ∈ calls, adds call := by
  induction calls generalizing s with
  | nil => simp
  | cons first calls ih =>
    rw [List.foldl_cons, ih, each, List.exists_mem_cons_iff, or_assoc]

theorem Guarded.take {s : σ} {before after : List ο}
    (guarded : Guarded step guard s (before ++ after)) : Guarded step guard s before := by
  induction before generalizing s with
  | nil => trivial
  | cons first before ih => exact ⟨guarded.1, ih guarded.2⟩

/-- A guarded run that is cut after `before` is guarded up to there, and its next
    call meets the guard in the state reached. -/
theorem Guarded.split {s : σ} {before after : List ο} {call : ο}
    (guarded : Guarded step guard s (before ++ call :: after)) :
    Guarded step guard s before ∧ guard (run step s before) call := by
  refine ⟨guarded.take, ?_⟩
  induction before generalizing s with
  | nil => exact guarded.1
  | cons first before ih => exact ih guarded.2

/-- What every step preserves, every run preserves. -/
theorem run_invariant (preserved : ∀ s call, Inv s → Inv (step s call)) {s : σ} (start : Inv s)
    (calls : List ο) : Inv (run step s calls) := by
  induction calls generalizing s with
  | nil => exact start
  | cons call calls ih => exact ih (preserved s call start)

/-- What every guarded step preserves, every guarded run preserves. -/
theorem Guarded.invariant
    (preserved : ∀ s call, Inv s → guard s call → Inv (step s call))
    {s : σ} (start : Inv s) {calls : List ο} (guarded : Guarded step guard s calls) :
    Inv (run step s calls) := by
  induction calls generalizing s with
  | nil => exact start
  | cons call calls ih => exact ih (preserved s call start guarded.1) guarded.2

/-- What the invariant gives for one guarded call holds of every call of a guarded run. -/
theorem Guarded.forall_call {Post : σ → ο → Prop}
    (preserved : ∀ s call, Inv s → guard s call → Inv (step s call))
    (post : ∀ s call, Inv s → guard s call → Post s call)
    {s : σ} (start : Inv s) {before after : List ο} {call : ο}
    (guarded : Guarded step guard s (before ++ call :: after)) :
    Post (run step s before) call := by
  obtain ⟨prefixGuarded, allowed⟩ := guarded.split
  exact post _ call (prefixGuarded.invariant preserved start) allowed

/-- What every guarded call brings down by one, a guarded run brings down by its length. -/
theorem Guarded.potential_le (potential : σ → ℕ)
    (preserved : ∀ s call, Inv s → guard s call → Inv (step s call))
    (lowers : ∀ s call, Inv s → guard s call → potential (step s call) ≤ potential s - 1)
    {s : σ} (start : Inv s) {calls : List ο} (guarded : Guarded step guard s calls) :
    potential (run step s calls) ≤ potential s - calls.length := by
  induction calls generalizing s with
  | nil => exact le_rfl
  | cons call calls ih =>
    have first := lowers s call start guarded.1
    have rest := ih (preserved s call start guarded.1) guarded.2
    rw [run_cons, List.length_cons]
    omega

/-- A guarded run meets every guard that its invariant gives. -/
theorem Guarded.mono {cond : σ → ο → Prop}
    (preserved : ∀ s call, Inv s → guard s call → Inv (step s call))
    (gives : ∀ s call, Inv s → guard s call → cond s call)
    {s : σ} (start : Inv s) {calls : List ο} (guarded : Guarded step guard s calls) :
    Guarded step cond s calls := by
  induction calls generalizing s with
  | nil => trivial
  | cons call calls ih =>
    exact ⟨gives s call start guarded.1, ih (preserved s call start guarded.1) guarded.2⟩

/-- Where a call keeps `P` exactly if it meets `cond`, a run has `P` in every state it goes
    through exactly if each of its calls meets `cond`. -/
theorem Guarded.forall_prefix_iff {P : σ → Prop} {cond : σ → ο → Prop}
    (preserved : ∀ s call, Inv s → guard s call → Inv (step s call))
    (exact : ∀ s call, Inv s → guard s call → P s → (P (step s call) ↔ cond s call))
    {s : σ} (start : Inv s) (holds : P s) {calls : List ο} (guarded : Guarded step guard s calls) :
    (∀ before after, calls = before ++ after → P (run step s before)) ↔
      Guarded step cond s calls := by
  induction calls generalizing s with
  | nil =>
    refine iff_of_true ?_ trivial
    intro before after split
    rw [(List.append_eq_nil_iff.mp split.symm).1]
    exact holds
  | cons call calls ih =>
    have here := exact s call start guarded.1 holds
    constructor
    · intro throughout
      have kept : P (step s call) := throughout [call] calls rfl
      refine ⟨here.mp kept, (ih (preserved s call start guarded.1) kept guarded.2).mp ?_⟩
      intro before after split
      exact throughout (call :: before) after (by rw [split, List.cons_append])
    · intro ⟨met, rest⟩ before after split
      cases before with
      | nil => exact holds
      | cons first before =>
        obtain ⟨rfl, tailSplit⟩ := List.cons_eq_cons.mp split
        exact (ih (preserved s call start guarded.1) (here.mpr met) guarded.2).mpr rest
          before after tailSplit

theorem guarded_true (s : σ) (calls : List ο) : Guarded step (fun _ _ => True) s calls := by
  induction calls generalizing s with
  | nil => trivial
  | cons call calls ih => exact ⟨trivial, ih (step s call)⟩

/-- The same where every call is allowed. -/
theorem run_forall_prefix_iff {P : σ → Prop} {cond : σ → ο → Prop}
    (preserved : ∀ s call, Inv s → Inv (step s call))
    (exact : ∀ s call, Inv s → P s → (P (step s call) ↔ cond s call))
    {s : σ} (start : Inv s) (holds : P s) (calls : List ο) :
    (∀ before after, calls = before ++ after → P (run step s before)) ↔
      Guarded step cond s calls := by
  exact Guarded.forall_prefix_iff (fun s call inv _ => preserved s call inv)
    (fun s call inv _ => exact s call inv) start holds (guarded_true s calls)

end Invariant

/-- Two step functions that keep a relation between their states keep it along every run. -/
theorem run_simulation {step : σ → ο → σ} {step' : τ → ο → τ} {R : σ → τ → Prop}
    (simulates : ∀ s t call, R s t → R (step s call) (step' t call))
    {s : σ} {t : τ} (related : R s t) (calls : List ο) :
    R (run step s calls) (run step' t calls) := by
  induction calls generalizing s t with
  | nil => exact related
  | cons call calls ih => exact ih (simulates s t call related)

/-- A call that brings a measure down until the goal is met meets it when it is repeated. -/
theorem run_replicate_reaches {step : σ → ο → σ} {Inv Goal : σ → Prop} (measure : σ → Nat) (call : ο)
    (keeps : ∀ s, Inv s → Inv (step s call))
    (lowers : ∀ s, Inv s → ¬ Goal s → measure (step s call) < measure s) {s : σ} (start : Inv s) :
    ∃ rounds, Goal (run step s (List.replicate rounds call)) ∧
      Inv (run step s (List.replicate rounds call)) := by
  induction size : measure s using Nat.strong_induction_on generalizing s with
  | h size ih =>
    by_cases met : Goal s
    · exact ⟨0, met, start⟩
    · have lower := lowers s start met
      obtain ⟨rounds, reached⟩ := ih _ (size ▸ lower) (keeps s start) rfl
      exact ⟨rounds + 1, by rwa [List.replicate_succ, run_cons]⟩

section Partial

variable {step : σ → ο → Option σ} {calls : List ο}

/-- What a loop that returns has reached, in terms of the calls it has behind it. -/
theorem foldlM_behind {R : List ο → σ → Prop} {s last : σ}
    (returned : calls.foldlM step s = some last) (start : R [] s)
    (keeps : ∀ behind s, ∀ call ∈ calls, ∀ next, step s call = some next → R behind s →
      R (behind ++ [call]) next) :
    R calls last := by
  -- The calls behind are fixed at the empty list, so the induction is about every list of them.
  have general : ∀ (behind left : List ο) (s : σ), (∀ call ∈ left, call ∈ calls) →
      left.foldlM step s = some last → R behind s → R (behind ++ left) last := by
    intro behind left
    induction left generalizing behind with
    | nil =>
      intro s _ ended reached
      cases ended
      rw [List.append_nil]
      exact reached
    | cons call left ih =>
      intro s members folded reached
      rw [List.foldlM_cons] at folded
      obtain ⟨next, stepped, folded⟩ := Option.bind_eq_some_iff.mp folded
      have reachedNext := keeps behind s call (members call List.mem_cons_self) next stepped reached
      have whole := ih (behind ++ [call]) next
        (fun later member => members later (List.mem_cons_of_mem call member)) folded reachedNext
      rwa [List.append_assoc, List.singleton_append] at whole
  exact general [] calls s (fun _ member => member) returned start

theorem exists_of_forall₂_mem {α β : Type*} {R : α → β → Prop} {xs : List α} {ys : List β} {x : α}
    (related : List.Forall₂ R xs ys) (member : x ∈ xs) : ∃ y ∈ ys, R x y := by
  induction related with
  | nil => cases member
  | cons here _ ih =>
    cases member with
    | head => exact ⟨_, List.mem_cons_self, here⟩
    | tail _ member =>
      obtain ⟨y, inside, there⟩ := ih member
      exact ⟨y, List.mem_cons_of_mem _ inside, there⟩

/-- The results of a comprehension, paired with what they are made from. -/
theorem forall₂_of_mapM {α β : Type*} {f : α → Option β} {xs : List α} {ys : List β}
    (returned : xs.mapM f = some ys) : List.Forall₂ (fun x y => f x = some y) xs ys := by
  induction xs generalizing ys with
  | nil =>
    cases returned
    exact .nil
  | cons x xs ih =>
    rw [List.mapM_cons] at returned
    obtain ⟨y, made, returned⟩ := Option.bind_eq_some_iff.mp returned
    obtain ⟨rest, restMade, returned⟩ := Option.bind_eq_some_iff.mp returned
    cases returned
    exact .cons made (ih restMade)

theorem mapM_isSome_iff {α β : Type*} {f : α → Option β} {xs : List α} :
    (∃ ys, xs.mapM f = some ys) ↔ ∀ x ∈ xs, ∃ y, f x = some y := by
  constructor
  · rintro ⟨ys, returned⟩
    have pairs := forall₂_of_mapM returned
    clear returned
    induction pairs with
    | nil => simp
    | cons made rest ih => exact List.forall_mem_cons.mpr ⟨⟨_, made⟩, ih⟩
  · intro all
    induction xs with
    | nil => exact ⟨[], rfl⟩
    | cons x xs ih =>
      obtain ⟨y, made⟩ := all x List.mem_cons_self
      obtain ⟨ys, rest⟩ := ih fun next member => all next (List.mem_cons_of_mem x member)
      refine ⟨y :: ys, ?_⟩
      rw [List.mapM_cons, made, rest]
      rfl

theorem mapM_eq_some_map {α β : Type*} {f : α → Option β} {g : α → β} {xs : List α}
    (each : ∀ x ∈ xs, f x = some (g x)) : xs.mapM f = some (xs.map g) := by
  induction xs with
  | nil => rfl
  | cons x xs ih =>
    rw [List.mapM_cons, each x List.mem_cons_self, ih fun y member => each y (List.mem_cons_of_mem _ member)]
    rfl

theorem mem_of_mapM {α β : Type*} {f : α → Option β} {xs : List α} {ys : List β} {y : β}
    (returned : xs.mapM f = some ys) : y ∈ ys ↔ ∃ x ∈ xs, f x = some y := by
  have pairs := forall₂_of_mapM returned
  clear returned
  induction pairs with
  | nil => simp
  | cons made rest ih =>
    simp [ih, made, eq_comm]

/-- Nested loops are one loop. -/
theorem foldlM_flatMap {α : Type*} {f : α → List ο} {items : List α} {s : σ} :
    (items.flatMap f).foldlM step s = items.foldlM (fun s item => (f item).foldlM step s) s := by
  induction items generalizing s with
  | nil => rfl
  | cons item items ih =>
    rw [List.flatMap_cons, List.foldlM_append, List.foldlM_cons]
    exact congrArg _ (funext fun s => ih)

/-- A loop whose body raises on some elements only, whatever the state, returns exactly if these are absent. -/
theorem foldlM_isSome_iff {ok : ο → Prop} (each : ∀ s call, (∃ next, step s call = some next) ↔ ok call) (s : σ) :
    (∃ last, calls.foldlM step s = some last) ↔ ∀ call ∈ calls, ok call := by
  induction calls generalizing s with
  | nil => exact iff_of_true ⟨s, rfl⟩ fun _ member => absurd member List.not_mem_nil
  | cons call calls ih =>
    rw [List.foldlM_cons, List.forall_mem_cons, ← each s call]
    constructor
    · rintro ⟨last, returned⟩
      obtain ⟨next, stepped, rest⟩ := Option.bind_eq_some_iff.mp returned
      exact ⟨⟨next, stepped⟩, (ih next).mp ⟨last, rest⟩⟩
    · rintro ⟨⟨next, stepped⟩, others⟩
      obtain ⟨last, returned⟩ := (ih next).mpr others
      exact ⟨last, by rw [stepped]; exact returned⟩

/-- A loop that raises on some elements, whatever the state. -/
theorem foldlM_guard_eq_some {ok : ο → Prop} [DecidablePred ok] {pureStep : σ → ο → σ}
    {calls : List ο} {s after : σ} :
    calls.foldlM (fun s call => if ok call then some (pureStep s call) else none) s = some after ↔
      (∀ call ∈ calls, ok call) ∧ calls.foldl pureStep s = after := by
  induction calls generalizing s with
  | nil => simp [eq_comm]
  | cons call calls ih =>
    rw [List.foldlM_cons]
    by_cases proceeds : ok call
    · rw [if_pos proceeds]
      simp [ih, proceeds]
    · rw [if_neg proceeds]
      simp [proceeds]

end Partial

section Raising

variable {ε : Type*} {step : σ → ο → Except ε σ} {calls : List ο}

/-- A loop whose body raises on none of its elements is the plain fold of what the body does. -/
theorem foldlM_eq_ok {pureStep : σ → ο → σ}
    (proceeds : ∀ s, ∀ call ∈ calls, step s call = .ok (pureStep s call)) (s : σ) :
    calls.foldlM step s = .ok (run pureStep s calls) := by
  induction calls generalizing s with
  | nil => rfl
  | cons call calls ih =>
    have tailProceeds : ∀ s, ∀ next ∈ calls, step s next = .ok (pureStep s next) := by
      intro s next member
      exact proceeds s next (List.mem_cons_of_mem call member)
    rw [List.foldlM_cons, proceeds s call List.mem_cons_self]
    exact ih tailProceeds (pureStep s call)

/-- Two bodies that do the same on the elements of a loop are the same loop. -/
theorem foldlM_congr_of_mem {step' : σ → ο → Except ε σ}
    (same : ∀ s, ∀ call ∈ calls, step s call = step' s call) (s : σ) :
    calls.foldlM step s = calls.foldlM step' s := by
  induction calls generalizing s with
  | nil => rfl
  | cons call calls ih =>
    have tailSame : ∀ s, ∀ next ∈ calls, step s next = step' s next := by
      intro s next member
      exact same s next (List.mem_cons_of_mem call member)
    rw [List.foldlM_cons, List.foldlM_cons, same s call List.mem_cons_self]
    exact congrArg _ (funext (ih tailSame))

/-- A loop with an element on which the body always raises is left by an exception. -/
theorem foldlM_eq_error {call : ο} (member : call ∈ calls)
    (raises : ∀ s, ∃ e, step s call = .error e) (s : σ) :
    ∃ e, calls.foldlM step s = .error e := by
  induction calls generalizing s with
  | nil => cases member
  | cons first calls ih =>
    rw [List.foldlM_cons]
    cases outcome : step s first with
    | error e => exact ⟨e, rfl⟩
    | ok next =>
      cases member with
      | head =>
        obtain ⟨e, raised⟩ := raises s
        rw [raised] at outcome
        cases outcome
      | tail _ member => exact ih member next

/-- A loop whose body returns on each of its elements, in the states that it keeps to, returns. -/
theorem foldlM_returns_keeping (Inv : σ → Prop)
    (returns : ∀ s, ∀ call ∈ calls, Inv s → ∃ next, step s call = .ok next ∧ Inv next) {s : σ} (start : Inv s) :
    ∃ last, calls.foldlM step s = .ok last := by
  induction calls generalizing s with
  | nil => exact ⟨s, rfl⟩
  | cons call calls ih =>
    obtain ⟨next, stepped, kept⟩ := returns s call List.mem_cons_self start
    rw [List.foldlM_cons, stepped]
    exact ih (fun s later member => returns s later (List.mem_cons_of_mem call member)) kept

/-- A loop with an invariant returns exactly if every round can be made where the invariant holds. -/
theorem foldlM_returns_iff {Inv : σ → Prop} {ok : ο → Prop}
    (each : ∀ s call, Inv s → ((∃ next, step s call = .ok next) ↔ ok call))
    (keeps : ∀ s call next, step s call = .ok next → Inv s → Inv next) {s : σ} (start : Inv s) :
    (∃ last, calls.foldlM step s = .ok last) ↔ ∀ call ∈ calls, ok call := by
  constructor
  · intro ⟨last, returned⟩
    induction calls generalizing s with
    | nil => simp
    | cons call calls ih =>
      rw [List.foldlM_cons] at returned
      cases stepped : step s call with
      | error e =>
        rw [stepped] at returned
        cases returned
      | ok next =>
        rw [stepped] at returned
        exact List.forall_mem_cons.mpr
          ⟨(each s call start).mp ⟨next, stepped⟩, ih (keeps s call next stepped start) returned⟩
  · intro all
    refine foldlM_returns_keeping Inv ?_ start
    intro s call member inv
    obtain ⟨next, stepped⟩ := (each s call inv).mpr (all call member)
    exact ⟨next, stepped, keeps s call next stepped inv⟩

/-- A loop whose body returns on each of its elements, in whatever state, returns. -/
theorem foldlM_returns (returns : ∀ s, ∀ call ∈ calls, ∃ next, step s call = .ok next) (s : σ) :
    ∃ last, calls.foldlM step s = .ok last := by
  refine foldlM_returns_keeping (fun _ => True) ?_ trivial
  intro s call member _
  obtain ⟨next, stepped⟩ := returns s call member
  exact ⟨next, stepped, trivial⟩

/-- A change of the state that every round carries through, the loop carries through. -/
theorem foldlM_commute {change : σ → σ}
    (commutes : ∀ s call, step (change s) call = (step s call).map change) (s : σ) :
    calls.foldlM step (change s) = (calls.foldlM step s).map change := by
  induction calls generalizing s with
  | nil => rfl
  | cons call calls ih =>
    rw [List.foldlM_cons, List.foldlM_cons, commutes]
    cases step s call with
    | error e => rfl
    | ok next => exact ih next

/-- The bind rule: a computation that returns does so through its first part. -/
theorem bind_eq_ok {α β : Type v} {first : Except ε α} {second : α → Except ε β} {result : β} :
    (first >>= second) = .ok result ↔ ∃ value, first = .ok value ∧ second value = .ok result := by
  cases first with
  | error e => exact iff_of_false (fun impossible => by cases impossible) (by simp)
  | ok value =>
    constructor
    · intro returned
      exact ⟨value, rfl, returned⟩
    · intro ⟨_, same, returned⟩
      cases same
      exact returned

/-- A computation that raises does so in its first part, or behind it. -/
theorem bind_eq_error {α β : Type v} {first : Except ε α} {second : α → Except ε β} {e : ε} :
    (first >>= second) = .error e ↔ first = .error e ∨ ∃ value, first = .ok value ∧ second value = .error e := by
  cases first with
  | error e' =>
    constructor
    · intro raised
      cases raised
      exact .inl rfl
    · intro either
      cases either with
      | inl same =>
        cases same
        rfl
      | inr later =>
        obtain ⟨_, impossible, _⟩ := later
        cases impossible
  | ok value =>
    constructor
    · intro raised
      exact .inr ⟨value, rfl, raised⟩
    · intro either
      cases either with
      | inl impossible => cases impossible
      | inr later =>
        obtain ⟨_, same, raised⟩ := later
        cases same
        exact raised

theorem map_eq_ok {α β : Type*} {f : α → β} {result : Except ε α} {value : β} :
    result.map f = .ok value ↔ ∃ before, result = .ok before ∧ f before = value := by
  cases result <;> simp [Except.map]

/-- What is made of a result says nothing about whether there is one. -/
theorem exists_map_eq_ok {α β : Type*} {f : α → β} {result : Except ε α} :
    (∃ value, result.map f = .ok value) ↔ ∃ value, result = .ok value := by
  cases result <;> simp [Except.map]

theorem map_eq_error {α β : Type*} {f : α → β} {result : Except ε α} {e : ε} :
    result.map f = .error e ↔ result = .error e := by
  cases result <;> simp [Except.map]

theorem mapError_eq_ok {ε' α : Type*} {f : ε → ε'} {result : Except ε α} {value : α} :
    result.mapError f = .ok value ↔ result = .ok value := by
  cases result <;> simp [Except.mapError]

theorem mapM_eq_ok_map {α : Type*} {β : Type v} {f : α → Except ε β} {g : α → β} {xs : List α}
    (each : ∀ x ∈ xs, f x = .ok (g x)) : xs.mapM f = .ok (xs.map g) := by
  induction xs with
  | nil => rfl
  | cons x xs ih =>
    rw [List.mapM_cons, each x List.mem_cons_self, ih fun y member => each y (List.mem_cons_of_mem _ member)]
    rfl

/-- The results of a comprehension that returns, paired with what they are made from. -/
theorem forall₂_of_mapM_ok {α : Type*} {β : Type v} {f : α → Except ε β} {xs : List α} {ys : List β}
    (returned : xs.mapM f = .ok ys) : List.Forall₂ (fun x y => f x = .ok y) xs ys := by
  induction xs generalizing ys with
  | nil =>
    cases returned
    exact .nil
  | cons x xs ih =>
    rw [List.mapM_cons, bind_eq_ok] at returned
    obtain ⟨y, made, returned⟩ := returned
    rw [bind_eq_ok] at returned
    obtain ⟨rest, restMade, returned⟩ := returned
    cases returned
    exact .cons made (ih restMade)

theorem mem_of_mapM_ok {α : Type*} {β : Type v} {f : α → Except ε β} {xs : List α} {ys : List β} {y : β}
    (returned : xs.mapM f = .ok ys) (member : y ∈ ys) : ∃ x ∈ xs, f x = .ok y :=
  exists_of_forall₂_mem (forall₂_of_mapM_ok returned).flip member

/-- A comprehension raises what one of its results raises. -/
theorem mem_of_mapM_error {α : Type*} {β : Type v} {f : α → Except ε β} {xs : List α} {e : ε}
    (raised : xs.mapM f = .error e) : ∃ x ∈ xs, f x = .error e := by
  induction xs with
  | nil => cases raised
  | cons x xs ih =>
    rw [List.mapM_cons, bind_eq_error] at raised
    cases raised with
    | inl here => exact ⟨x, List.mem_cons_self, here⟩
    | inr later =>
      obtain ⟨y, _, later⟩ := later
      rw [bind_eq_error] at later
      cases later with
      | inl rest =>
        obtain ⟨other, member, same⟩ := ih rest
        exact ⟨other, List.mem_cons_of_mem x member, same⟩
      | inr impossible =>
        obtain ⟨_, _, impossible⟩ := impossible
        cases impossible

/-- What every round of a loop that returns keeps. -/
theorem foldlM_invariant {Inv : σ → Prop} {s last : σ}
    (returned : calls.foldlM step s = .ok last)
    (keeps : ∀ s call next, step s call = .ok next → Inv s → Inv next) (start : Inv s) :
    Inv last := by
  induction calls generalizing s with
  | nil =>
    cases returned
    exact start
  | cons call calls ih =>
    rw [List.foldlM_cons, bind_eq_ok] at returned
    obtain ⟨next, stepped, rest⟩ := returned
    exact ih rest (keeps s call next stepped start)

/-- What a loop that returns has reached, in terms of the rounds it has behind it. -/
theorem foldlM_ok_behind {R : List ο → σ → Prop} {s last : σ} (returned : calls.foldlM step s = .ok last)
    (start : R [] s)
    (keeps : ∀ behind s call next, step s call = .ok next → R behind s → R (behind ++ [call]) next) :
    R calls last := by
  have general : ∀ (behind left : List ο) (s : σ), left.foldlM step s = .ok last → R behind s →
      R (behind ++ left) last := by
    intro behind left
    induction left generalizing behind with
    | nil =>
      intro s ended reached
      cases ended
      rwa [List.append_nil]
    | cons call left ih =>
      intro s folded reached
      rw [List.foldlM_cons, bind_eq_ok] at folded
      obtain ⟨next, stepped, folded⟩ := folded
      have whole := ih (behind ++ [call]) next folded (keeps behind s call next stepped reached)
      rwa [List.append_assoc, List.singleton_append] at whole
  exact general [] calls s returned start

/-- What a loop that returns shows in the end is what its rounds have added. -/
theorem foldlM_shows_iff {shows : σ → Prop} {adds : ο → Prop}
    (each : ∀ s call next, step s call = .ok next → (shows next ↔ shows s ∨ adds call))
    {s last : σ} (returned : calls.foldlM step s = .ok last) :
    shows last ↔ shows s ∨ ∃ call ∈ calls, adds call := by
  induction calls generalizing s with
  | nil =>
    cases returned
    simp
  | cons call calls ih =>
    rw [List.foldlM_cons, bind_eq_ok] at returned
    obtain ⟨next, stepped, returned⟩ := returned
    rw [ih returned, each s call next stepped, List.exists_mem_cons_iff, or_assoc]

/-- A loop that raises does so in a round that begins with what the rounds before it kept. -/
theorem foldlM_raised {Inv : σ → Prop} {s : σ} {e : ε} (raised : calls.foldlM step s = .error e)
    (keeps : ∀ s call next, step s call = .ok next → Inv s → Inv next) (start : Inv s) :
    ∃ middle, ∃ call ∈ calls, Inv middle ∧ step middle call = .error e := by
  induction calls generalizing s with
  | nil => cases raised
  | cons call calls ih =>
    rw [List.foldlM_cons] at raised
    cases outcome : step s call with
    | error e' =>
      rw [outcome] at raised
      cases raised
      exact ⟨s, call, List.mem_cons_self, start, outcome⟩
    | ok next =>
      rw [outcome] at raised
      obtain ⟨middle, later, member, inv, outcome⟩ := ih raised (keeps s call next outcome start)
      exact ⟨middle, later, List.mem_cons_of_mem call member, inv, outcome⟩

/-- A loop that returns has added up what its rounds add to a measure of the state. -/
theorem foldlM_measure {M : Type*} [AddMonoid M] {measure : σ → M} {weight : ο → M}
    {s last : σ} (returned : calls.foldlM step s = .ok last)
    (adds : ∀ s call next, step s call = .ok next → measure next = measure s + weight call) :
    measure last = measure s + (calls.map weight).sum := by
  induction calls generalizing s with
  | nil =>
    cases returned
    simp
  | cons call calls ih =>
    rw [List.foldlM_cons, bind_eq_ok] at returned
    obtain ⟨next, stepped, rest⟩ := returned
    rw [ih rest, adds s call next stepped, List.map_cons, List.sum_cons, add_assoc]

/-- What every round of a loop that returns has found. -/
theorem forall_of_foldlM_ok {P : ο → Prop} {s last : σ}
    (returned : calls.foldlM step s = .ok last)
    (found : ∀ s call next, step s call = .ok next → P call) : ∀ call ∈ calls, P call := by
  induction calls generalizing s with
  | nil => simp
  | cons call calls ih =>
    rw [List.foldlM_cons, bind_eq_ok] at returned
    obtain ⟨next, stepped, rest⟩ := returned
    exact List.forall_mem_cons.mpr ⟨found s call next stepped, ih rest⟩

/-- A loop over a status that rounds can only take back. -/
theorem foldlM_status {step : Bool → ο → Except ε Bool} {P : ο → Prop} {status : Bool}
    (returned : calls.foldlM step status = .ok true)
    (checks : ∀ status call, step status call = .ok true → status = true ∧ P call) :
    status = true ∧ ∀ call ∈ calls, P call := by
  induction calls generalizing status with
  | nil =>
    cases returned
    simp
  | cons call calls ih =>
    rw [List.foldlM_cons, bind_eq_ok] at returned
    obtain ⟨next, stepped, rest⟩ := returned
    obtain ⟨still, others⟩ := ih rest
    rw [still] at stepped
    obtain ⟨before, this⟩ := checks status call stepped
    exact ⟨before, List.forall_mem_cons.mpr ⟨this, others⟩⟩

/-- A loop whose rounds keep the status exactly if they find `P` ends with `True` exactly if all of them do. -/
theorem foldlM_status_iff {step : Bool → ο → Except ε Bool} {P : ο → Prop} {status : Bool}
    (checks : ∀ status call, step status call = .ok true ↔ status = true ∧ P call) :
    calls.foldlM step status = .ok true ↔ status = true ∧ ∀ call ∈ calls, P call := by
  constructor
  · exact fun returned => foldlM_status returned fun status call => (checks status call).mp
  · induction calls generalizing status with
    | nil =>
      intro found
      rw [found.1]
      rfl
    | cons call calls ih =>
      intro found
      obtain ⟨this, rest⟩ := List.forall_mem_cons.mp found.2
      rw [List.foldlM_cons, (checks status call).mpr ⟨found.1, this⟩]
      exact ih ⟨rfl, rest⟩

/-- A loop without a state returns exactly if all its rounds do. -/
theorem foldlM_unit_ok {round : ο → Except ε Unit} :
    calls.foldlM (fun _ call => round call) () = .ok () ↔ ∀ call ∈ calls, round call = .ok () := by
  induction calls with
  | nil => exact iff_of_true rfl (by simp)
  | cons call calls ih =>
    rw [List.foldlM_cons, bind_eq_ok, List.forall_mem_cons, ← ih]
    constructor
    · intro ⟨_, this, rest⟩
      exact ⟨this, rest⟩
    · intro ⟨this, rest⟩
      exact ⟨(), this, rest⟩

/-- Where a related pair of states takes an allowed call exactly if the call meets `cond`, and then
    stays related, a run goes through and agrees with its specification after every call exactly if
    each call meets `cond` in the state of the specification. -/
theorem foldlM_agrees_iff {spec : τ → ο → τ} {R Agrees : σ → τ → Prop} {guard cond : τ → ο → Prop}
    (gives : ∀ s t, R s t → Agrees s t)
    (takes : ∀ s t call, R s t → guard t call → cond t call →
      ∃ next, step s call = .ok next ∧ R next (spec t call))
    (refuses : ∀ s t call, R s t → guard t call → ¬ cond t call →
      ∀ next, step s call = .ok next → ¬ Agrees next (spec t call))
    {s : σ} {t : τ} (related : R s t) {calls : List ο} (guarded : Guarded spec guard t calls) :
    (∀ before after, calls = before ++ after →
        ∃ last, before.foldlM step s = .ok last ∧ Agrees last (run spec t before)) ↔
      Guarded spec cond t calls := by
  induction calls generalizing s t with
  | nil =>
    refine iff_of_true ?_ trivial
    intro before after split
    rw [(List.append_eq_nil_iff.mp split.symm).1]
    exact ⟨s, rfl, gives s t related⟩
  | cons call calls ih =>
    by_cases met : cond t call
    · obtain ⟨next, stepped, kept⟩ := takes s t call related guarded.1 met
      rw [Guarded, ← ih kept guarded.2, and_iff_right met]
      constructor
      · intro throughout before after split
        obtain ⟨last, ran, agrees⟩ := throughout (call :: before) after (by rw [split]; rfl)
        rw [List.foldlM_cons, stepped] at ran
        exact ⟨last, ran, agrees⟩
      · intro throughout before after split
        cases before with
        | nil => exact ⟨s, rfl, gives s t related⟩
        | cons first before =>
          obtain ⟨rfl, tailSplit⟩ := List.cons_eq_cons.mp split
          obtain ⟨last, ran, agrees⟩ := throughout before after tailSplit
          exact ⟨last, by rw [List.foldlM_cons, stepped]; exact ran, agrees⟩
    · refine iff_of_false ?_ (fun every => met every.1)
      intro throughout
      obtain ⟨last, ran, agrees⟩ := throughout [call] calls rfl
      rw [List.foldlM_cons, bind_eq_ok] at ran
      obtain ⟨next, stepped, ended⟩ := ran
      cases ended
      exact refuses s t call related guarded.1 met _ stepped agrees

end Raising

end Taf.Lib
