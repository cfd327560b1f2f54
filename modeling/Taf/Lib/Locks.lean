import Mathlib

/-! # Threads that share locks

A thread takes and gives back locks, and reads and writes cells, each of which has a lock as its guard.
A monitor goes along with a thread: it knows which locks the thread holds, and says which ones the thread
may take now.  What a monitor allows is known of the whole thread before it starts (`Obeys`), so that
a result about all interleavings only needs the monitor.

Two monitors are here.  With `gated`, nobody who holds a lock and not the gate asks for another one, and
no interleaving comes to a standstill (`exists_step`).  With `twoPhase`, nobody asks for a lock after
giving one back, until it has none; then all that an interleaving does could have been done by one thread
after the other (`exists_turns`). -/

namespace Taf.Lib.Locks

universe v

variable {τ L C S M : Type*} {α β : Type v}

/-- What is left to do for a thread -/
inductive Code (L C S α : Type*) where
  | pure (result : α)
  | lock (id : L) (next : Code L C S α)
  | unlock (id : L) (next : Code L C S α)
  | read (cell : C) (next : S → Code L C S α)
  | write (cell : C) (value : S) (next : Code L C S α)

namespace Code

def bind : Code L C S α → (α → Code L C S β) → Code L C S β
  | pure result, next => next result
  | lock id rest, next => lock id (rest.bind next)
  | unlock id rest, next => unlock id (rest.bind next)
  | read cell rest, next => read cell fun value => (rest value).bind next
  | write cell value rest, next => write cell value (rest.bind next)

end Code

instance : Monad (Code L C S) where
  pure := Code.pure
  bind := Code.bind

/-! ## Monitors -/

/-- What is known of a thread, and what it may do -/
structure Monitor (L M : Type*) [DecidableEq L] where
  holds : M → List L
  lock : M → L → Option M
  unlock : M → L → Option M
  holds_lock : ∀ {m m' id}, lock m id = some m' → id ∉ holds m ∧ holds m' = id :: holds m
  holds_unlock : ∀ {m m' id}, unlock m id = some m' → id ∈ holds m ∧ holds m' = (holds m).erase id

variable [DecidableEq L] {monitor : Monitor L M} {guard : C → L}

/-- A thread does what its monitor allows, touches a cell only with its guard, and is left in `Post`. -/
def Obeys (monitor : Monitor L M) (guard : C → L) : M → Code L C S α → (M → α → Prop) → Prop
  | m, .pure result, Post => Post m result
  | m, .lock id next, Post => ∃ m', monitor.lock m id = some m' ∧ Obeys monitor guard m' next Post
  | m, .unlock id next, Post => ∃ m', monitor.unlock m id = some m' ∧ Obeys monitor guard m' next Post
  | m, .read cell next, Post =>
    guard cell ∈ monitor.holds m ∧ ∀ value, Obeys monitor guard m (next value) Post
  | m, .write cell _ next, Post => guard cell ∈ monitor.holds m ∧ Obeys monitor guard m next Post

theorem Obeys.bind {m : M} {code : Code L C S α} {next : α → Code L C S β} {Mid : M → α → Prop}
    {Post : M → β → Prop} (first : Obeys monitor guard m code Mid)
    (second : ∀ m' result, Mid m' result → Obeys monitor guard m' (next result) Post) :
    Obeys monitor guard m (code >>= next) Post := by
  induction code generalizing m with
  | pure result => exact second m result first
  | lock id rest ih =>
    obtain ⟨m', taken, first⟩ := first
    exact ⟨m', taken, ih first⟩
  | unlock id rest ih =>
    obtain ⟨m', given, first⟩ := first
    exact ⟨m', given, ih first⟩
  | read cell rest ih => exact ⟨first.1, fun value => ih value (first.2 value)⟩
  | write cell value rest ih => exact ⟨first.1, ih first.2⟩

theorem Obeys.mono {m : M} {code : Code L C S α} {Post Post' : M → α → Prop}
    (obeys : Obeys monitor guard m code Post) (weaker : ∀ m' result, Post m' result → Post' m' result) :
    Obeys monitor guard m code Post' := by
  induction code generalizing m with
  | pure result => exact weaker m result obeys
  | lock id rest ih =>
    obtain ⟨m', taken, obeys⟩ := obeys
    exact ⟨m', taken, ih obeys⟩
  | unlock id rest ih =>
    obtain ⟨m', given, obeys⟩ := obeys
    exact ⟨m', given, ih obeys⟩
  | read cell rest ih => exact ⟨obeys.1, fun value => ih value (obeys.2 value)⟩
  | write cell value rest ih => exact ⟨obeys.1, ih obeys.2⟩

theorem Obeys.foldlM {σ : Type v} {ι : Type*} {f : σ → ι → Code L C S σ} {Inv : M → σ → Prop}
    (each : ∀ m s item, Inv m s → Obeys monitor guard m (f s item) Inv) (items : List ι) {m : M} {s : σ}
    (start : Inv m s) : Obeys monitor guard m (items.foldlM f s) Inv := by
  induction items generalizing m s with
  | nil => exact start
  | cons item items ih => exact (each m s item start).bind fun m' s' inv => ih inv

/-- Code that takes and gives back no lock, and touches some cells only -/
def Touches (cells : Set C) : Code L C S α → Prop
  | .pure _ => True
  | .lock _ _ => False
  | .unlock _ _ => False
  | .read cell next => cell ∈ cells ∧ ∀ value, Touches cells (next value)
  | .write cell _ next => cell ∈ cells ∧ Touches cells next

theorem Touches.obeys {cells : Set C} {m : M} {code : Code L C S α} (touches : Touches cells code)
    (held : ∀ cell ∈ cells, guard cell ∈ monitor.holds m) :
    Obeys monitor guard m code fun m' _ => m' = m := by
  induction code with
  | pure result => rfl
  | lock id rest ih => exact touches.elim
  | unlock id rest ih => exact touches.elim
  | read cell rest ih => exact ⟨held cell touches.1, fun value => ih value (touches.2 value)⟩
  | write cell value rest ih => exact ⟨held cell touches.1, ih touches.2⟩

/-- A monitor that lets everybody take one lock, or some after the gate, and give them back -/
structure Admits (monitor : Monitor L M) (gate : L) (begin : M) (Growing : M → Prop) : Prop where
  holds_begin : monitor.holds begin = []
  growing : Growing begin
  lock : ∀ {m id}, Growing m → id ∉ monitor.holds m → (monitor.holds m = [] ∨ gate ∈ monitor.holds m) →
    ∃ m', monitor.lock m id = some m' ∧ Growing m'
  unlock : ∀ {m id}, id ∈ monitor.holds m → ∃ m', monitor.unlock m id = some m'
  last : ∀ {m m' id}, monitor.unlock m id = some m' → monitor.holds m' = [] → m' = begin

/-! ## Interleavings -/

/-- The threads, which locks are taken, and what is in the cells -/
@[ext] structure State (τ L C S α : Type*) where
  code : τ → Code L C S α
  locked : L → Bool
  cell : C → S

section

variable [DecidableEq τ] [DecidableEq C]

/-- The next step of a thread; `none` if it is over, if it waits for a lock, or if it gives back a lock
that nobody has taken. -/
def step (state : State τ L C S α) (thread : τ) : Option (State τ L C S α) :=
  match state.code thread with
  | .pure _ => none
  | .lock id next =>
    if state.locked id then none
    else some { state with
      code := Function.update state.code thread next, locked := Function.update state.locked id true }
  | .unlock id next =>
    if state.locked id then some { state with
      code := Function.update state.code thread next, locked := Function.update state.locked id false }
    else none
  | .read cell next =>
    some { state with code := Function.update state.code thread (next (state.cell cell)) }
  | .write cell value next =>
    some { state with
      code := Function.update state.code thread next, cell := Function.update state.cell cell value }

end

/-! ## What the monitors know of a state -/

/-- A lock is taken if one of the threads holds it, and never by two of them. -/
structure Watched (monitor : Monitor L M) (guard : C → L) (Post : M → α → Prop)
    (state : State τ L C S α) (m : τ → M) : Prop where
  obeys : ∀ thread, Obeys monitor guard (m thread) (state.code thread) Post
  nodup : ∀ thread, (monitor.holds (m thread)).Nodup
  locked : ∀ id, state.locked id = true ↔ ∃ thread, id ∈ monitor.holds (m thread)
  alone : ∀ id thread other, id ∈ monitor.holds (m thread) → id ∈ monitor.holds (m other) → thread = other

variable {Post : M → α → Prop} {state next : State τ L C S α} {m : τ → M} {thread : τ}

/-- No lock is taken at the start. -/
theorem Watched.start {begin : M} (nothing : monitor.holds begin = [])
    (obeys : ∀ thread, Obeys monitor guard begin (state.code thread) Post)
    (free : ∀ id, state.locked id = false) : Watched monitor guard Post state fun _ => begin where
  obeys := obeys
  nodup _ := by simp [nothing]
  locked id := by simp [nothing, free id]
  alone id _ _ member := by simp [nothing] at member

/-- Nobody gives back a lock that is free. -/
theorem Watched.locked_of_unlock (watched : Watched monitor guard Post state m) {id : L}
    {rest : Code L C S α} (this : state.code thread = .unlock id rest) : state.locked id = true := by
  have obeys := watched.obeys thread
  rw [this] at obeys
  obtain ⟨m', given, -⟩ := obeys
  exact (watched.locked id).mpr ⟨thread, (monitor.holds_unlock given).1⟩

section

variable [DecidableEq τ]

theorem Watched.lock (watched : Watched monitor guard Post state m) {id : L} {rest : Code L C S α} {m' : M}
    (free : state.locked id = false) (taken : monitor.lock (m thread) id = some m')
    (obeys : Obeys monitor guard m' rest Post) :
    Watched monitor guard Post
      { state with code := Function.update state.code thread rest
                   locked := Function.update state.locked id true }
      (Function.update m thread m') where
  obeys other := by
    by_cases same : other = thread
    · subst same; simpa using obeys
    · simpa [same] using watched.obeys other
  nodup other := by
    by_cases same : other = thread
    · subst same
      obtain ⟨absent, holds⟩ := monitor.holds_lock taken
      simpa [holds] using ⟨absent, watched.nodup other⟩
    · simpa [same] using watched.nodup other
  locked other := by
    obtain ⟨absent, holds⟩ := monitor.holds_lock taken
    by_cases same : other = id
    · subst same
      simp only [Function.update_self, true_iff]
      exact ⟨thread, by simp [holds]⟩
    · simp only [Function.update_of_ne same, watched.locked other]
      refine exists_congr fun someone => ?_
      by_cases this : someone = thread
      · subst this; simp [holds, same]
      · simp [this]
  alone other one two := by
    obtain ⟨absent, holds⟩ := monitor.holds_lock taken
    have nobody (someone : τ) : id ∉ monitor.holds (m someone) := fun member => by
      simp [(watched.locked id).mpr ⟨someone, member⟩] at free
    have grown (someone : τ) (different : other ≠ id) :
        other ∈ monitor.holds (Function.update m thread m' someone) ↔ other ∈ monitor.holds (m someone) := by
      by_cases this : someone = thread
      · subst this; simp [holds, different]
      · simp [this]
    intro first second
    by_cases same : other = id
    · subst same
      have only (someone : τ) (member : other ∈ monitor.holds (Function.update m thread m' someone)) :
          someone = thread := by
        by_contra this
        rw [Function.update_of_ne this] at member
        exact nobody someone member
      rw [only one first, only two second]
    · exact watched.alone other one two ((grown one same).mp first) ((grown two same).mp second)

theorem Watched.unlock (watched : Watched monitor guard Post state m) {id : L} {rest : Code L C S α} {m' : M}
    (given : monitor.unlock (m thread) id = some m') (obeys : Obeys monitor guard m' rest Post) :
    Watched monitor guard Post
      { state with code := Function.update state.code thread rest
                   locked := Function.update state.locked id false }
      (Function.update m thread m') := by
  obtain ⟨present, holds⟩ := monitor.holds_unlock given
  have fewer (someone : τ) (other : L) :
      other ∈ monitor.holds (Function.update m thread m' someone) ↔
        other ≠ id ∧ other ∈ monitor.holds (m someone) := by
    by_cases this : someone = thread
    · subst this
      rw [Function.update_self, holds, (watched.nodup someone).mem_erase_iff]
    · rw [Function.update_of_ne this]
      refine ⟨fun member => ⟨?_, member⟩, And.right⟩
      rintro rfl
      exact this (watched.alone other someone thread member present)
  refine ⟨fun other => ?_, fun other => ?_, fun other => ?_, fun other one two first second => ?_⟩
  · by_cases same : other = thread
    · subst same; simpa using obeys
    · simpa [same] using watched.obeys other
  · by_cases same : other = thread
    · subst same
      rw [Function.update_self, holds]
      exact (watched.nodup other).erase id
    · simpa [same] using watched.nodup other
  · by_cases same : other = id
    · subst same; simp [fewer]
    · simp [same, fewer, watched.locked other]
  · exact watched.alone other one two ((fewer one other).mp first).2 ((fewer two other).mp second).2

theorem Watched.advance (watched : Watched monitor guard Post state m) {rest : Code L C S α}
    (obeys : Obeys monitor guard (m thread) rest Post) (cell : C → S) :
    Watched monitor guard Post
      { state with code := Function.update state.code thread rest, cell := cell } m where
  obeys other := by
    by_cases same : other = thread
    · subst same; simpa using obeys
    · simpa [same] using watched.obeys other
  nodup := watched.nodup
  locked := watched.locked
  alone := watched.alone

variable [DecidableEq C]

/-- What a thread does, and what its monitor knows then -/
theorem Watched.of_step (watched : Watched monitor guard Post state m) (stepped : step state thread = some next) :
    ∃ m', Watched monitor guard Post next (Function.update m thread m') := by
  have obeys := watched.obeys thread
  rw [step] at stepped
  split at stepped
  · cases stepped
  · rename_i id rest this
    rw [this] at obeys
    obtain ⟨m', taken, obeys⟩ := obeys
    split at stepped
    · cases stepped
    · rename_i free
      obtain rfl := Option.some_inj.mp stepped
      exact ⟨m', watched.lock (by simpa using free) taken obeys⟩
  · rename_i id rest this
    rw [this] at obeys
    obtain ⟨m', given, obeys⟩ := obeys
    split at stepped
    · obtain rfl := Option.some_inj.mp stepped
      exact ⟨m', watched.unlock given obeys⟩
    · cases stepped
  · rename_i cell rest this
    rw [this] at obeys
    obtain rfl := Option.some_inj.mp stepped
    refine ⟨m thread, ?_⟩
    rw [Function.update_eq_self]
    exact watched.advance (obeys.2 _) _
  · rename_i cell value rest this
    rw [this] at obeys
    obtain rfl := Option.some_inj.mp stepped
    refine ⟨m thread, ?_⟩
    rw [Function.update_eq_self]
    exact watched.advance obeys.2 _

theorem Watched.of_run (watched : Watched monitor guard Post state m) {schedule : List τ}
    (ran : schedule.foldlM step state = some next) : ∃ m', Watched monitor guard Post next m' := by
  induction schedule generalizing state m with
  | nil =>
    obtain rfl := Option.some_inj.mp ran
    exact ⟨m, watched⟩
  | cons thread schedule ih =>
    obtain ⟨mid, stepped, ran⟩ := Option.bind_eq_some_iff.mp (by simpa [List.foldlM_cons] using ran)
    obtain ⟨m', watched⟩ := watched.of_step stepped
    exact ih watched ran

end

/-! ## Locks behind a gate -/

/-- A thread that holds locks takes another one only if the gate is among them. -/
def gated (gate : L) : Monitor L (List L) where
  holds := id
  lock held id := if id ∉ held ∧ (held = [] ∨ gate ∈ held) then some (id :: held) else none
  unlock held id := if id ∈ held then some (held.erase id) else none
  holds_lock taken := by
    split at taken
    · rename_i allowed
      exact ⟨allowed.1, (Option.some_inj.mp taken).symm⟩
    · cases taken
  holds_unlock given := by
    split at given
    · rename_i present
      exact ⟨present, (Option.some_inj.mp given).symm⟩
    · cases given

theorem gated_admits (gate : L) : Admits (gated gate) gate [] fun _ => True where
  holds_begin := rfl
  growing := trivial
  lock _ absent allowed := ⟨_, if_pos ⟨absent, allowed⟩, trivial⟩
  unlock present := ⟨_, if_pos present⟩
  last _ nothing := nothing

section

variable [DecidableEq τ] [DecidableEq C]

/-- A thread that cannot go on waits for a lock that somebody holds, or is over. -/
theorem Watched.waits (watched : Watched monitor guard Post state m) (stuck : step state thread = none) :
    (∃ result, state.code thread = .pure result) ∨
      ∃ id rest holder, state.code thread = .lock id rest ∧ id ∈ monitor.holds (m holder) := by
  cases this : state.code thread with
  | pure result => exact .inl ⟨result, rfl⟩
  | lock id rest =>
    right
    simp only [step, this, ite_eq_left_iff, reduceCtorEq, imp_false, Bool.not_eq_true,
      Bool.not_eq_false] at stuck
    obtain ⟨holder, member⟩ := (watched.locked id).mp stuck
    exact ⟨id, rest, holder, rfl, member⟩
  | unlock id rest => simp [step, this, watched.locked_of_unlock this] at stuck
  | read cell rest => simp [step, this] at stuck
  | write cell value rest => simp [step, this] at stuck

variable {gate : L} {m : τ → List L}

/-- A thread that holds a lock and cannot go on holds the gate. -/
theorem Watched.gate_mem (watched : Watched (gated gate) guard (fun held (_ : α) => held = []) state m)
    (stuck : step state thread = none) (holds : m thread ≠ []) :
    gate ∈ m thread ∧ ∃ id holder, id ∉ m thread ∧ id ∈ m holder := by
  have obeys := watched.obeys thread
  obtain ⟨result, this⟩ | ⟨id, rest, holder, this, member⟩ := watched.waits stuck
  · rw [this] at obeys
    exact absurd obeys holds
  · rw [this] at obeys
    obtain ⟨m', taken, -⟩ := obeys
    simp only [gated, Option.ite_none_right_eq_some] at taken
    obtain ⟨⟨absent, allowed⟩, -⟩ := taken
    exact ⟨allowed.resolve_left holds, id, holder, absent, member⟩

/-- The threads do not come to a standstill. -/
theorem Watched.exists_step (watched : Watched (gated gate) guard (fun held (_ : α) => held = []) state m) :
    (∀ thread, ∃ result, state.code thread = .pure result) ∨
      ∃ thread next, step state thread = some next := by
  by_contra this
  obtain ⟨unfinished, standstill⟩ := not_or.mp this
  obtain ⟨first, running⟩ := not_forall.mp unfinished
  have stuck (thread : τ) : step state thread = none :=
    Option.eq_none_iff_forall_ne_some.mpr fun next stepped => standstill ⟨thread, next, stepped⟩
  have busy {id : L} {thread : τ} (member : id ∈ m thread) : m thread ≠ [] := List.ne_nil_of_mem member
  -- The thread that is waited for waits itself, with the gate in its hands, and so does the next one.
  obtain ⟨result, finished⟩ | ⟨id, rest, holder, -, member⟩ := watched.waits (stuck first)
  · exact running ⟨result, finished⟩
  · obtain ⟨gate_mem, id', holder', absent, member'⟩ := watched.gate_mem (stuck holder) (busy member)
    obtain ⟨gate_mem', -⟩ := watched.gate_mem (stuck holder') (busy member')
    obtain rfl := watched.alone gate holder holder' gate_mem gate_mem'
    exact absent member'

/-- What a step leaves to do -/
inductive Code.Next : Code L C S α → Code L C S α → Prop
  | lock (id : L) (next : Code L C S α) : Next next (.lock id next)
  | unlock (id : L) (next : Code L C S α) : Next next (.unlock id next)
  | read (cell : C) (value : S) (next : S → Code L C S α) : Next (next value) (.read cell next)
  | write (cell : C) (value : S) (next : Code L C S α) : Next next (.write cell value next)

omit [DecidableEq L] [DecidableEq C] in
theorem Code.wellFounded_next : WellFounded (@Code.Next L C S α) := by
  refine ⟨fun code => ?_⟩
  induction code with
  | pure result => exact ⟨_, fun _ next => nomatch next⟩
  | lock id rest ih => exact ⟨_, fun _ next => by cases next; exact ih⟩
  | unlock id rest ih => exact ⟨_, fun _ next => by cases next; exact ih⟩
  | read cell rest ih => exact ⟨_, fun _ next => by cases next; exact ih _⟩
  | write cell value rest ih => exact ⟨_, fun _ next => by cases next; exact ih⟩

/-- One thread does one step. -/
theorem code_of_step (stepped : step state thread = some next) :
    ∃ rest, Code.Next rest (state.code thread) ∧ next.code = Function.update state.code thread rest := by
  rw [step] at stepped
  split at stepped
  · cases stepped
  · rename_i id rest this
    split at stepped
    · cases stepped
    · obtain rfl := Option.some_inj.mp stepped
      exact ⟨rest, this ▸ .lock id rest, rfl⟩
  · rename_i id rest this
    split at stepped
    · obtain rfl := Option.some_inj.mp stepped
      exact ⟨rest, this ▸ .unlock id rest, rfl⟩
    · cases stepped
  · rename_i cell rest this
    obtain rfl := Option.some_inj.mp stepped
    exact ⟨rest (state.cell cell), this ▸ .read cell _ rest, rfl⟩
  · rename_i cell value rest this
    obtain rfl := Option.some_inj.mp stepped
    exact ⟨rest, this ▸ .write cell value rest, rfl⟩

/-- What all the threads have left to do gets less with every step. -/
theorem cutExpand_of_step [Fintype τ] (stepped : step state thread = some next) :
    Relation.CutExpand Code.Next (∑ thread, {next.code thread}) (∑ thread, {state.code thread}) := by
  obtain ⟨rest, less, this⟩ := code_of_step stepped
  refine ⟨{rest}, state.code thread, by simpa using less, ?_⟩
  have others (someone : τ) (member : someone ∈ Finset.univ.erase thread) :
      ({next.code someone} : Multiset (Code L C S α)) = {state.code someone} := by
    rw [this, Function.update_of_ne (Finset.ne_of_mem_erase member)]
  rw [← Finset.add_sum_erase _ _ (Finset.mem_univ thread), ← Finset.add_sum_erase _ _ (Finset.mem_univ thread),
    Finset.sum_congr rfl others, this, Function.update_self]
  abel

/-- Whatever has happened so far, the threads can all be brought to their end. -/
theorem Watched.exists_finish [Fintype τ]
    (watched : Watched (gated gate) guard (fun held (_ : α) => held = []) state m) :
    ∃ (schedule : List τ) (final : State τ L C S α), schedule.foldlM step state = some final ∧
      ∀ thread, ∃ result, final.code thread = .pure result := by
  induction left : (∑ thread, {state.code thread} : Multiset (Code L C S α))
    using Code.wellFounded_next.cutExpand.induction generalizing state m with
  | _ left ih =>
    subst left
    obtain finished | ⟨thread, next, stepped⟩ := watched.exists_step
    · exact ⟨[], state, rfl, finished⟩
    · obtain ⟨m', watched⟩ := watched.of_step stepped
      obtain ⟨schedule, final, ran, finished⟩ := ih _ (cutExpand_of_step stepped) watched rfl
      exact ⟨thread :: schedule, final, by simp [List.foldlM_cons, stepped, ran], finished⟩

end

/-! ## Locks in two phases -/

/-- Whether a thread may still take locks, and the ones it has -/
def twoPhase : Monitor L (Bool × List L) where
  holds := Prod.snd
  lock m id := if m.1 = true ∧ id ∉ m.2 then some (true, id :: m.2) else none
  unlock m id := if id ∈ m.2 then some (decide (m.2.erase id = []), m.2.erase id) else none
  holds_lock taken := by
    split at taken
    · rename_i allowed
      obtain rfl := Option.some_inj.mp taken
      exact ⟨allowed.2, rfl⟩
    · cases taken
  holds_unlock given := by
    split at given
    · rename_i present
      obtain rfl := Option.some_inj.mp given
      exact ⟨present, rfl⟩
    · cases given

theorem twoPhase_admits (gate : L) : Admits twoPhase gate (true, []) fun m => m.1 = true where
  holds_begin := rfl
  growing := rfl
  lock growing absent _ := ⟨_, if_pos ⟨growing, absent⟩, rfl⟩
  unlock present := ⟨_, if_pos present⟩
  last given nothing := by
    obtain ⟨-, same⟩ := Option.ite_none_right_eq_some.mp given
    obtain rfl := Option.some_inj.mp same
    exact Prod.ext (decide_eq_true nothing) nothing

section

variable {Post : Bool × List L → α → Prop} {m : Bool × List L} {id : L} {rest : Code L C S α}

theorem twoPhase_lock : Obeys twoPhase guard m (.lock id rest) Post ↔
    (m.1 = true ∧ id ∉ m.2) ∧ Obeys twoPhase guard (true, id :: m.2) rest Post := by
  simp [Obeys, twoPhase]

theorem twoPhase_unlock : Obeys twoPhase guard m (.unlock id rest) Post ↔
    id ∈ m.2 ∧ Obeys twoPhase guard (decide (m.2.erase id = []), m.2.erase id) rest Post := by
  rw [Obeys]
  constructor
  · rintro ⟨m', given, obeys⟩
    obtain ⟨present, same⟩ := Option.ite_none_right_eq_some.mp given
    obtain rfl := Option.some_inj.mp same
    exact ⟨present, obeys⟩
  · rintro ⟨present, obeys⟩
    exact ⟨_, if_pos present, obeys⟩

end

section

variable [DecidableEq C]

/-- A thread alone, until it has given back all its locks -/
def solo : List L → Code L C S α → (C → S) → Code L C S α × (C → S)
  | _, .pure result, cells => (.pure result, cells)
  | held, .lock id next, cells => solo (id :: held) next cells
  | held, .unlock id next, cells =>
    if held.erase id = [] then (next, cells) else solo (held.erase id) next cells
  | held, .read cell next, cells => solo held (next (cells cell)) cells
  | held, .write cell value next, cells => solo held next (Function.update cells cell value)

/-- A thread that takes no more locks depends on what they guard, and changes nothing else. -/
theorem solo_frame {Post : Bool × List L → α → Prop} {held : List L} {code : Code L C S α}
    (obeys : Obeys twoPhase guard (false, held) code Post) {cells cells' : C → S}
    (agree : ∀ cell, guard cell ∈ held → cells cell = cells' cell) :
    (solo held code cells).1 = (solo held code cells').1 ∧
      (∀ cell, guard cell ∈ held → (solo held code cells).2 cell = (solo held code cells').2 cell) ∧
      ∀ cell, guard cell ∉ held → (solo held code cells).2 cell = cells cell := by
  induction code generalizing held cells cells' with
  | pure result => exact ⟨rfl, agree, fun _ _ => rfl⟩
  | lock id rest ih =>
    exact absurd (twoPhase_lock.mp obeys).1.1 Bool.false_ne_true
  | unlock id rest ih =>
    obtain ⟨-, obeys⟩ := twoPhase_unlock.mp obeys
    have fewer (cell : C) (member : guard cell ∈ held.erase id) : guard cell ∈ held :=
      List.mem_of_mem_erase member
    rw [solo, solo]
    by_cases last : held.erase id = []
    · rw [if_pos last, if_pos last]
      exact ⟨rfl, agree, fun _ _ => rfl⟩
    · rw [if_neg last, if_neg last]
      rw [decide_eq_false last] at obeys
      obtain ⟨codes, inside, outside⟩ := ih obeys fun cell member => agree cell (fewer cell member)
      refine ⟨codes, fun cell member => ?_, fun cell absent => ?_⟩
      swap
      · exact outside cell fun member => absent (fewer cell member)
      by_cases still : guard cell ∈ held.erase id
      · exact inside cell still
      · have given : (solo (held.erase id) rest cells').2 cell = cells' cell :=
          (ih obeys fun _ _ => rfl).2.2 cell still
        rw [outside cell still, given, agree cell member]
  | read cell rest ih =>
    rw [solo, solo, agree cell obeys.1]
    exact ih _ (obeys.2 _) agree
  | write cell value rest ih =>
    rw [solo, solo]
    have agree' (other : C) (member : guard other ∈ held) :
        Function.update cells cell value other = Function.update cells' cell value other := by
      simp only [Function.update_apply, agree other member]
    obtain ⟨codes, inside, outside⟩ := ih obeys.2 agree'
    refine ⟨codes, inside, fun other absent => ?_⟩
    have different : other ≠ cell := fun same => absent (same ▸ obeys.1)
    rw [outside other absent, Function.update_of_ne different]

/-- Some cells from one store, the others from another one -/
def withHeld (guard : C → L) (held : List L) (cells others : C → S) (cell : C) : S :=
  if guard cell ∈ held then cells cell else others cell

/-- How a thread in an interleaving is related to the same thread where one comes after the other.  A thread
that still takes locks has not begun there.  One that does not has ended there, with all that it does with
the locks it has. -/
def Tracks (guard : C → L) (serialCode : Code L C S α) (serial : C → S) (code : Code L C S α) (cells : C → S) :
    Bool × List L → Prop
  | (true, held) =>
    (held = [] → serialCode = code) ∧
      ∀ others, (∀ cell, guard cell ∈ held → others cell = serial cell) →
        solo [] serialCode others = solo held code (withHeld guard held cells others)
  | (false, held) =>
    held ≠ [] ∧ (solo held code cells).1 = serialCode ∧
      ∀ cell, guard cell ∈ held → (solo held code cells).2 cell = serial cell

variable {Post : Bool × List L → α → Prop} {held : List L} {m : Bool × List L} {id : L}
  {serialCode code rest : Code L C S α} {serial serial' cells cells' : C → S}

omit [DecidableEq C] in
theorem withHeld_nil (others : C → S) : withHeld guard [] cells others = others := by
  funext cell
  simp [withHeld]

theorem Tracks.refl (code : Code L C S α) (cells : C → S) : Tracks guard code cells code cells (true, []) :=
  ⟨fun _ => rfl, fun others _ => by rw [withHeld_nil]⟩

/-- What the others do -/
theorem Tracks.frame (tracks : Tracks guard serialCode serial code cells m)
    (obeys : Obeys twoPhase guard m code Post)
    (same : ∀ cell, guard cell ∈ m.2 → serial' cell = serial cell)
    (kept : ∀ cell, guard cell ∈ m.2 → cells' cell = cells cell) :
    Tracks guard serialCode serial' code cells' m := by
  obtain ⟨growing, held⟩ := m
  cases growing with
  | true =>
    refine ⟨tracks.1, fun others agree => ?_⟩
    have same_cells : withHeld guard held cells' others = withHeld guard held cells others := by
      funext cell
      by_cases member : guard cell ∈ held <;> simp [withHeld, member, kept]
    rw [same_cells]
    exact tracks.2 others fun cell member => (agree cell member).trans (same cell member)
  | false =>
    obtain ⟨busy, ends, agree⟩ := tracks
    obtain ⟨codes, inside, -⟩ := solo_frame obeys kept
    refine ⟨busy, codes.trans ends, fun cell member => ?_⟩
    rw [inside cell member, agree cell member, same cell member]

theorem Tracks.lock (tracks : Tracks guard serialCode serial (.lock id rest) cells (true, held))
    (free : ∀ cell, guard cell = id → serial cell = cells cell) :
    Tracks guard serialCode serial rest cells (true, id :: held) := by
  refine ⟨fun none => by simp at none, fun others agree => ?_⟩
  rw [tracks.2 others fun cell member => agree cell (List.mem_cons_of_mem id member), solo]
  congr 1
  funext cell
  by_cases this : guard cell = id
  · simp [withHeld, this, agree cell (this ▸ List.mem_cons_self), free cell this]
  · simp [withHeld, this]

theorem Tracks.read {cell : C} {next : S → Code L C S α}
    (tracks : Tracks guard serialCode serial (.read cell next) cells m) (member : guard cell ∈ m.2) :
    Tracks guard serialCode serial (next (cells cell)) cells m := by
  obtain ⟨growing, held⟩ := m
  cases growing with
  | true =>
    refine ⟨fun none => by simp [none] at member, fun others agree => ?_⟩
    rw [tracks.2 others agree, solo, withHeld, if_pos member]
  | false => simpa only [Tracks, solo] using tracks

theorem Tracks.write {cell : C} {value : S}
    (tracks : Tracks guard serialCode serial (.write cell value rest) cells m) (member : guard cell ∈ m.2) :
    Tracks guard serialCode serial rest (Function.update cells cell value) m := by
  obtain ⟨growing, held⟩ := m
  cases growing with
  | true =>
    refine ⟨fun none => by simp [none] at member, fun others agree => ?_⟩
    rw [tracks.2 others agree, solo]
    congr 1
    funext other
    by_cases same : other = cell
    · subst same; simp_all [withHeld]
    · simp [withHeld, same]
  | false => simpa only [Tracks, solo] using tracks

/-- The first lock that a thread gives back: now all that it does has been done at once. -/
theorem Tracks.unlock_growing (tracks : Tracks guard serialCode serial (.unlock id rest) cells (true, held))
    (obeys : Obeys twoPhase guard (true, held) (.unlock id rest) Post) (nodup : held.Nodup) :
    let ran := solo [] serialCode serial
    Tracks guard ran.1 ran.2 rest cells (decide (held.erase id = []), held.erase id) ∧
      (∀ cell, guard cell ∉ held → ran.2 cell = serial cell) ∧
      ∀ cell, guard cell = id → ran.2 cell = cells cell := by
  obtain ⟨present, obeys⟩ := twoPhase_unlock.mp obeys
  have inside (cell : C) (member : guard cell ∈ held) : withHeld guard held cells serial cell = cells cell :=
    if_pos member
  have outside (cell : C) (absent : guard cell ∉ held) : withHeld guard held cells serial cell = serial cell :=
    if_neg absent
  simp only [tracks.2 serial fun _ _ => rfl, solo]
  by_cases last : held.erase id = []
  · rw [if_pos last, decide_eq_true last, last]
    have only (cell : C) (this : guard cell = id) : guard cell ∈ held := this ▸ present
    refine ⟨?_, outside, fun cell this => inside cell (only cell this)⟩
    exact ⟨fun _ => rfl, fun others _ => by rw [withHeld_nil]⟩
  · rw [if_neg last, decide_eq_false last]
    rw [decide_eq_false last] at obeys
    have given (cell : C) (this : guard cell = id) : guard cell ∉ held.erase id :=
      this ▸ nodup.not_mem_erase
    have alike (cell : C) (member : guard cell ∈ held.erase id) :
        withHeld guard held cells serial cell = cells cell :=
      inside cell (List.mem_of_mem_erase member)
    obtain ⟨codes, agree, frame⟩ := solo_frame obeys alike
    refine ⟨⟨last, codes.symm, fun cell member => (agree cell member).symm⟩, fun cell absent => ?_,
      fun cell this => ?_⟩
    · rw [frame cell fun member => absent (List.mem_of_mem_erase member), outside cell absent]
    · rw [frame cell (given cell this), inside cell (this ▸ present)]

/-- The other locks that a thread gives back -/
theorem Tracks.unlock_shrinking (tracks : Tracks guard serialCode serial (.unlock id rest) cells (false, held))
    (obeys : Obeys twoPhase guard (false, held) (.unlock id rest) Post) (nodup : held.Nodup) :
    Tracks guard serialCode serial rest cells (decide (held.erase id = []), held.erase id) ∧
      ∀ cell, guard cell = id → serial cell = cells cell := by
  obtain ⟨present, obeys⟩ := twoPhase_unlock.mp obeys
  obtain ⟨-, ends, agree⟩ := tracks
  simp only [solo] at ends agree
  by_cases last : held.erase id = []
  · rw [if_pos last] at ends
    simp only [if_pos last] at agree
    rw [decide_eq_true last, last]
    refine ⟨⟨fun _ => ends.symm, fun others _ => by rw [withHeld_nil, ← ends]⟩, fun cell this => ?_⟩
    exact (agree cell (this ▸ present)).symm
  · rw [if_neg last] at ends
    simp only [if_neg last] at agree
    rw [decide_eq_false last] at obeys ⊢
    refine ⟨⟨last, ends, fun cell member => agree cell (List.mem_of_mem_erase member)⟩, fun cell this => ?_⟩
    rw [← agree cell (this ▸ present)]
    exact (solo_frame obeys fun _ _ => rfl).2.2 cell (this ▸ nodup.not_mem_erase)

end

/-! ## One thread after the other -/

section

variable [DecidableEq τ] [DecidableEq C]

/-- A thread that has no locks goes on until it has none again, and the others wait. -/
def turn (state : State τ L C S α) (thread : τ) : State τ L C S α :=
  { state with
    code := Function.update state.code thread (solo [] (state.code thread) state.cell).1
    cell := (solo [] (state.code thread) state.cell).2 }

/-- An interleaving, and the turns that have the same effect -/
structure Follows (guard : C → L) (serial state : State τ L C S α) (m : τ → Bool × List L) : Prop where
  watched : Watched twoPhase guard (fun m _ => m.2 = []) state m
  free : ∀ cell, state.locked (guard cell) = false → serial.cell cell = state.cell cell
  tracks : ∀ thread,
    Tracks guard (serial.code thread) serial.cell (state.code thread) state.cell (m thread)

variable {serial : State τ L C S α} {m : τ → Bool × List L} {id : L} {rest : Code L C S α}

theorem Follows.lock (follows : Follows guard serial state m) (this : state.code thread = .lock id rest)
    (free : state.locked id = false) :
    Follows guard serial
      { state with code := Function.update state.code thread rest
                   locked := Function.update state.locked id true }
      (Function.update m thread (true, id :: (m thread).2)) := by
  have obeys := follows.watched.obeys thread
  rw [this] at obeys
  obtain ⟨allowed, obeys⟩ := twoPhase_lock.mp obeys
  refine ⟨follows.watched.lock free (if_pos allowed) obeys, fun cell unlocked => ?_, fun other => ?_⟩
  · by_cases same : guard cell = id
    · simp [same] at unlocked
    · exact follows.free cell (by simpa [same] using unlocked)
  · by_cases same : other = thread
    · subst same
      have tracks := follows.tracks other
      rw [this, show m other = (true, (m other).2) from Prod.ext allowed.1 rfl] at tracks
      simpa using tracks.lock fun cell same => follows.free cell (same ▸ free)
    · simpa [same] using follows.tracks other

theorem Follows.unlock (follows : Follows guard serial state m) (this : state.code thread = .unlock id rest) :
    ∃ serial', (serial' = serial ∨ serial' = turn serial thread) ∧
      Follows guard serial'
        { state with code := Function.update state.code thread rest
                     locked := Function.update state.locked id false }
        (Function.update m thread (decide ((m thread).2.erase id = []), (m thread).2.erase id)) := by
  have tracks := follows.tracks thread
  have obeys := follows.watched.obeys thread
  have nodup := follows.watched.nodup thread
  rw [this] at obeys tracks
  obtain ⟨present, after⟩ := twoPhase_unlock.mp obeys
  have watched := follows.watched.unlock (if_pos present) after
  have foreign {other : τ} (different : other ≠ thread) {cell : C} (member : guard cell ∈ (m other).2) :
      guard cell ∉ (m thread).2 := fun both =>
    different (follows.watched.alone _ other thread member both)
  generalize held_eq : m thread = held at *
  obtain ⟨growing, held⟩ := held
  cases growing with
  | true =>
    obtain ⟨tracks, outside, given⟩ := tracks.unlock_growing obeys nodup
    refine ⟨turn serial thread, .inr rfl, watched, fun cell unlocked => ?_, fun other => ?_⟩
    · by_cases same : guard cell = id
      · exact given cell same
      · have unlocked : state.locked (guard cell) = false := by simpa [same] using unlocked
        have absent : guard cell ∉ held := fun member => by
          have := (follows.watched.locked (guard cell)).mpr ⟨thread, by rw [held_eq]; exact member⟩
          simp [this] at unlocked
        exact (outside cell absent).trans (follows.free cell unlocked)
    · by_cases same : other = thread
      · subst same
        simpa [turn] using tracks
      · simp only [turn, Function.update_of_ne same]
        exact (follows.tracks other).frame (follows.watched.obeys other)
          (fun cell member => outside cell (foreign same member)) fun _ _ => rfl
  | false =>
    obtain ⟨tracks, given⟩ := tracks.unlock_shrinking obeys nodup
    refine ⟨serial, .inl rfl, watched, fun cell unlocked => ?_, fun other => ?_⟩
    · by_cases same : guard cell = id
      · exact given cell same
      · exact follows.free cell (by simpa [same] using unlocked)
    · by_cases same : other = thread
      · subst same
        simpa using tracks
      · simpa [same] using follows.tracks other

theorem Follows.read (follows : Follows guard serial state m) {cell : C} {next : S → Code L C S α}
    (this : state.code thread = .read cell next) :
    Follows guard serial
      { state with code := Function.update state.code thread (next (state.cell cell)) } m := by
  have obeys := follows.watched.obeys thread
  rw [this] at obeys
  refine ⟨follows.watched.advance (obeys.2 _) state.cell, follows.free, fun other => ?_⟩
  by_cases same : other = thread
  · subst same
    have tracks := follows.tracks other
    rw [this] at tracks
    simpa using tracks.read obeys.1
  · simpa [same] using follows.tracks other

theorem Follows.write (follows : Follows guard serial state m) {cell : C} {value : S}
    (this : state.code thread = .write cell value rest) :
    Follows guard serial
      { state with code := Function.update state.code thread rest
                   cell := Function.update state.cell cell value } m := by
  have obeys := follows.watched.obeys thread
  rw [this] at obeys
  have elsewhere {other : C} (different : guard other ≠ guard cell) : other ≠ cell := fun same =>
    different (same ▸ rfl)
  refine ⟨follows.watched.advance obeys.2 _, fun other unlocked => ?_, fun other => ?_⟩
  · have different : guard other ≠ guard cell := fun same => by
      rw [same, (follows.watched.locked _).mpr ⟨thread, obeys.1⟩] at unlocked
      cases unlocked
    exact (follows.free other unlocked).trans (Function.update_of_ne (elsewhere different) _ _).symm
  · by_cases same : other = thread
    · subst same
      have tracks := follows.tracks other
      rw [this] at tracks
      simpa using tracks.write obeys.1
    · simp only [Function.update_of_ne same]
      refine (follows.tracks other).frame (follows.watched.obeys other) (fun _ _ => rfl) fun other' member => ?_
      refine Function.update_of_ne (elsewhere fun guards => same ?_) _ _
      exact follows.watched.alone _ other thread member (guards ▸ obeys.1)

theorem Follows.of_step (follows : Follows guard serial state m) (stepped : step state thread = some next) :
    ∃ serial' m', (serial' = serial ∨ serial' = turn serial thread) ∧ Follows guard serial' next m' := by
  rw [step] at stepped
  split at stepped
  · cases stepped
  · rename_i id rest this
    split at stepped
    · cases stepped
    · rename_i free
      obtain rfl := Option.some_inj.mp stepped
      exact ⟨serial, _, .inl rfl, follows.lock this (by simpa using free)⟩
  · rename_i id rest this
    split at stepped
    · obtain rfl := Option.some_inj.mp stepped
      obtain ⟨serial', turned, follows⟩ := follows.unlock this
      exact ⟨serial', _, turned, follows⟩
    · cases stepped
  · rename_i cell next this
    obtain rfl := Option.some_inj.mp stepped
    exact ⟨serial, m, .inl rfl, follows.read this⟩
  · rename_i cell value rest this
    obtain rfl := Option.some_inj.mp stepped
    exact ⟨serial, m, .inl rfl, follows.write this⟩

theorem locked_foldl_turn (order : List τ) (state : State τ L C S α) :
    (order.foldl turn state).locked = state.locked := by
  induction order generalizing state with
  | nil => rfl
  | cons thread order ih => exact ih (turn state thread)

theorem Follows.of_run (follows : Follows guard serial state m) {schedule : List τ}
    (ran : schedule.foldlM step state = some next) :
    ∃ (order : List τ) (m' : τ → Bool × List L), Follows guard (order.foldl turn serial) next m' := by
  induction schedule generalizing state serial m with
  | nil =>
    obtain rfl := Option.some_inj.mp ran
    exact ⟨[], m, follows⟩
  | cons thread schedule ih =>
    obtain ⟨mid, stepped, ran⟩ := Option.bind_eq_some_iff.mp (by simpa [List.foldlM_cons] using ran)
    obtain ⟨serial', m', turned, after⟩ := follows.of_step stepped
    obtain ⟨order, m', last⟩ := ih after ran
    obtain rfl | rfl := turned
    · exact ⟨order, m', last⟩
    · exact ⟨thread :: order, m', last⟩

theorem exists_replicate_of_step {mid : State τ L C S α} (stepped : step state thread = some mid)
    (others : ∃ n, (List.replicate n thread).foldlM step mid = some next) :
    ∃ n, (List.replicate n thread).foldlM step state = some next := by
  obtain ⟨n, ran⟩ := others
  exact ⟨n + 1, by simp [List.replicate_succ, List.foldlM_cons, stepped, ran]⟩

/-- What a thread does alone are steps of it. -/
theorem solo_run {m : Bool × List L} {code : Code L C S α} {state : State τ L C S α}
    (obeys : Obeys twoPhase guard m code fun m _ => m.2 = []) (this : state.code thread = code)
    (locked : ∀ id, state.locked id = decide (id ∈ m.2)) (nodup : m.2.Nodup) :
    Obeys twoPhase guard (true, []) (solo m.2 code state.cell).1 (fun m _ => m.2 = []) ∧
      ∃ n, (List.replicate n thread).foldlM step state = some
        { code := Function.update state.code thread (solo m.2 code state.cell).1
          locked := fun _ => false
          cell := (solo m.2 code state.cell).2 } := by
  induction code generalizing m state with
  | pure result =>
    have nothing : m.2 = [] := obeys
    refine ⟨rfl, 0, congrArg some (State.ext ?_ (funext fun id => by simp [locked, nothing]) rfl)⟩
    simp [solo, ← this]
  | lock id rest ih =>
    obtain ⟨allowed, obeys⟩ := twoPhase_lock.mp obeys
    let mid : State τ L C S α := { state with
      code := Function.update state.code thread rest, locked := Function.update state.locked id true }
    have stepped : step state thread = some mid := by simp [step, this, locked, allowed.2, mid]
    have taken (other : L) : mid.locked other = decide (other ∈ id :: m.2) := by
      by_cases same : other = id <;> simp [mid, same, locked]
    have codes : mid.code thread = rest := by simp [mid]
    obtain ⟨ends, others⟩ := ih obeys codes taken (List.nodup_cons.mpr ⟨allowed.2, nodup⟩)
    rw [solo]
    simp only [mid, Function.update_idem] at ends others
    exact ⟨ends, exists_replicate_of_step stepped others⟩
  | unlock id rest ih =>
    obtain ⟨present, obeys⟩ := twoPhase_unlock.mp obeys
    let mid : State τ L C S α := { state with
      code := Function.update state.code thread rest, locked := Function.update state.locked id false }
    have stepped : step state thread = some mid := by simp [step, this, locked, present, mid]
    have left (other : L) : mid.locked other = decide (other ∈ m.2.erase id) := by
      by_cases same : other = id <;> simp [mid, same, locked, nodup.mem_erase_iff]
    rw [solo]
    by_cases last : m.2.erase id = []
    · rw [if_pos last]
      simp only [last, decide_true] at obeys left
      have nothing : mid.locked = fun _ => false := funext fun other => by simpa using left other
      exact ⟨obeys, exists_replicate_of_step stepped ⟨0, congrArg some (State.ext rfl nothing rfl)⟩⟩
    · rw [if_neg last]
      have codes : mid.code thread = rest := by simp [mid]
      obtain ⟨ends, others⟩ := ih obeys codes left (nodup.erase id)
      simp only [mid, Function.update_idem] at ends others
      exact ⟨ends, exists_replicate_of_step stepped others⟩
  | read cell rest ih =>
    let mid : State τ L C S α := { state with code := Function.update state.code thread (rest (state.cell cell)) }
    have stepped : step state thread = some mid := by simp [step, this, mid]
    have codes : mid.code thread = rest (state.cell cell) := by simp [mid]
    obtain ⟨ends, others⟩ := ih (state.cell cell) (obeys.2 _) codes locked nodup
    rw [solo]
    simp only [mid, Function.update_idem] at ends others
    exact ⟨ends, exists_replicate_of_step stepped others⟩
  | write cell value rest ih =>
    let mid : State τ L C S α := { state with
      code := Function.update state.code thread rest, cell := Function.update state.cell cell value }
    have stepped : step state thread = some mid := by simp [step, this, mid]
    have codes : mid.code thread = rest := by simp [mid]
    obtain ⟨ends, others⟩ := ih obeys.2 codes locked nodup
    rw [solo]
    simp only [mid, Function.update_idem] at ends others
    exact ⟨ends, exists_replicate_of_step stepped others⟩

/-- One thread goes on alone until no lock is taken. -/
def Turn (state next : State τ L C S α) : Prop :=
  ∃ thread n, (List.replicate n thread).foldlM step state = some next ∧ ∀ id, next.locked id = false

/-- Threads that one after the other do what they do alone -/
theorem turns_run {order : List τ} {state : State τ L C S α}
    (obeys : ∀ thread, Obeys twoPhase guard (true, []) (state.code thread) fun m _ => m.2 = [])
    (free : ∀ id, state.locked id = false) : Relation.ReflTransGen Turn state (order.foldl turn state) := by
  induction order generalizing state with
  | nil => exact .refl
  | cons thread order ih =>
    obtain ⟨ends, n, ran⟩ := solo_run (obeys thread) rfl (by simpa using free) List.nodup_nil
    have same : turn state thread =
        { code := Function.update state.code thread (solo [] (state.code thread) state.cell).1
          locked := fun _ => false
          cell := (solo [] (state.code thread) state.cell).2 } :=
      State.ext rfl (funext free) rfl
    refine .head ⟨thread, n, ran.trans (congrArg some same.symm), free⟩ (ih (fun other => ?_) free)
    by_cases this : other = thread
    · subst this
      simpa [turn] using ends
    · simpa [turn, this] using obeys other

/-- An interleaving that leaves no lock taken has the effect of turns. -/
theorem exists_turns {Post : Bool × List L → α → Prop} (post : ∀ m result, Post m result → m.2 = [])
    (obeys : ∀ thread, Obeys twoPhase guard (true, []) (state.code thread) Post)
    (start : ∀ id, state.locked id = false) {schedule : List τ} (ran : schedule.foldlM step state = some next)
    (free : ∀ id, next.locked id = false) : Relation.ReflTransGen Turn state next := by
  replace obeys thread := (obeys thread).mono post
  have follows : Follows guard state state fun _ => (true, []) :=
    ⟨.start rfl obeys start, fun _ _ => rfl, fun thread => .refl _ _⟩
  obtain ⟨order, m, follows⟩ := follows.of_run ran
  have same : order.foldl turn state = next := by
    refine State.ext (funext fun thread => ?_) (funext fun id => ?_) (funext fun cell => ?_)
    · have nothing : (m thread).2 = [] := List.eq_nil_iff_forall_not_mem.mpr fun id member => by
        simpa [free id] using (follows.watched.locked id).mpr ⟨thread, member⟩
      have tracks := follows.tracks thread
      generalize m thread = held at *
      obtain ⟨growing, held⟩ := held
      cases growing with
      | true => exact tracks.1 nothing
      | false => exact absurd nothing tracks.1
    · rw [locked_foldl_turn, start, free]
    · exact follows.free cell (free _)
  exact same ▸ turns_run obeys start

end

end Taf.Lib.Locks
