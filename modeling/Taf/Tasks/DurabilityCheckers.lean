import Taf.Tasks.DurabilityLoader

/-! # What the reader and the persistence check see

The reader's offset moves by one document a round, so it is the number of documents it has
inspected and stays behind the write offset.  The offset of the persistence check is set to
the write offset instead: it has come to the end of the range while documents are left, unless
the loader never was more than one document ahead. -/

namespace Taf.Tasks.Durability

open Taf.Lib

namespace Loader

variable {loader : Loader} {s : State} {c : Checker} {writeOffset : Int} {advance : Int → Int}
  {raises : Bool}

/-! ## The trail of a checker -/

/-- A checker has looked at the documents in front of its generator, in order. -/
structure Trail (loader : Loader) (c : Checker) : Prop where
  started : loader.start ≤ c.itr
  visited : c.visited = window loader.start (c.itr - loader.start).toNat
  fresh : c.phase = .setup → c.itr = loader.start

theorem Trail.length_visited (trail : loader.Trail c) :
    loader.start + c.visited.length = c.itr := by
  have started := trail.started
  rw [trail.visited, length_window]
  omega

theorem Trail.visited_eq (trail : loader.Trail c) :
    c.visited = window loader.start c.visited.length := by
  have started := trail.started
  rw [trail.visited, length_window]

/-- One more document behind the ones of the trail. -/
theorem Trail.visit (trail : loader.Trail c) (phase : CheckPhase) (begun : phase ≠ .setup) :
    loader.Trail { c with phase := phase, itr := c.itr + 1, visited := c.visited ++ [c.itr] } where
  started := by
    have started := trail.started
    simp only
    omega
  visited := by
    have started := trail.started
    have next : (c.itr + 1 - loader.start).toNat = (c.itr - loader.start).toNat + 1 := by omega
    have last : c.itr = loader.start + ((c.itr - loader.start).toNat : Int) := by omega
    simp only
    rw [next, ← window_append, window_one, ← last, trail.visited]
  fresh := fun setup => absurd setup begun

theorem Trail.follow (trail : loader.Trail c) :
    loader.Trail (loader.follow writeOffset advance raises c) := by
  cases phase : c.phase with
  | setup =>
    have still := trail.fresh phase
    simp only [Loader.follow, phase]
    exact { started := le_refl _, visited := by rw [trail.visited, still], fresh := by simp }
  | test =>
    simp only [Loader.follow, phase]
    split
    · exact { trail with fresh := by simp }
    · exact trail
  | inspect =>
    simp only [Loader.follow, phase]
    split
    · refine trail.visit _ ?_
      cases raises <;> simp
    · exact { trail with fresh := by simp }
  | leave =>
    simp only [Loader.follow, phase]
    split
    · exact { trail with fresh := by simp }
    · exact { trail with fresh := by simp }
  | broken =>
    simp only [Loader.follow, phase]
    exact trail
  | raised =>
    simp only [Loader.follow, phase]
    exact trail

/-- The step that looks at a document is the one in the phase `inspect`. -/
theorem follow_visits {index : Int}
    (visits : (loader.follow writeOffset advance raises c).visited = c.visited ++ [index]) :
    c.phase = .inspect ∧ c.itr < loader.stop ∧ index = c.itr := by
  cases phase : c.phase with
  | inspect =>
    simp only [follow, phase] at visits
    split at visits
    case isTrue more => exact ⟨rfl, more, by simpa using visits.symm⟩
    case isFalse => simp at visits
  | setup => simp [follow, phase] at visits
  | test =>
    simp only [follow, phase] at visits
    split at visits <;> simp at visits
  | leave =>
    simp only [follow, phase] at visits
    split at visits <;> simp at visits
  | broken => simp [follow, phase] at visits
  | raised => simp [follow, phase] at visits

/-! ## Offset and generator -/

/-- The offset of a checker is at least the position of its generator: a round moves the generator
    by one document and the offset by one or more. -/
def Pace (loader : Loader) (writeOffset : Int) (c : Checker) : Prop :=
  match c.phase with
  | .setup => c.itr = c.offset ∧ c.offset = loader.start
  | .test => c.itr ≤ c.offset
  | .inspect => c.itr ≤ c.offset ∧ (c.offset < writeOffset ∨ c.offset = loader.stop)
  | .leave =>
    (c.itr ≤ c.offset + 1 ∧ c.offset < writeOffset) ∨
      (c.itr ≤ loader.stop ∧ c.offset = loader.stop)
  | .broken => c.itr ≤ loader.stop ∧ c.offset = loader.stop
  | .raised => c.itr ≤ writeOffset

structure CheckerInv (loader : Loader) (writeOffset : Int) (c : Checker) : Prop where
  trail : loader.Trail c
  begun : loader.start ≤ c.offset
  behind : c.offset ≤ writeOffset
  pace : loader.Pace writeOffset c

theorem CheckerInv.mono {grown : Int} (inv : loader.CheckerInv writeOffset c)
    (grows : writeOffset ≤ grown) : loader.CheckerInv grown c := by
  have pace := inv.pace
  have behind := inv.behind
  refine { trail := inv.trail, begun := inv.begun, behind := by omega, pace := ?_ }
  unfold Pace at pace ⊢
  cases phase : c.phase <;> simp only [phase] at pace ⊢ <;> omega

/-- A round keeps the checker behind the loader, whichever offset in between it ends with. -/
theorem CheckerInv.follow (inv : loader.CheckerInv writeOffset c)
    (started : loader.start ≤ writeOffset)
    (bounded : writeOffset = loader.start ∨ writeOffset ≤ loader.stop)
    (advances : c.offset < writeOffset → c.offset < advance c.offset ∧ advance c.offset ≤ writeOffset) :
    loader.CheckerInv writeOffset (loader.follow writeOffset advance raises c) := by
  have begun := inv.begun
  have behind := inv.behind
  have pace := inv.pace
  -- All that is left is arithmetic on the offsets and the generator, phase by phase.
  have offsets : loader.start ≤ (loader.follow writeOffset advance raises c).offset ∧
      (loader.follow writeOffset advance raises c).offset ≤ writeOffset ∧
      loader.Pace writeOffset (loader.follow writeOffset advance raises c) := by
    cases phase : c.phase with
    | setup =>
      simp only [Loader.follow, phase, Pace]
      exact ⟨le_refl _, started, le_refl _⟩
    | test =>
      simp only [Pace, phase] at pace
      simp only [Loader.follow, phase]
      split
      case isTrue enters => exact ⟨begun, behind, pace, enters⟩
      case isFalse =>
        refine ⟨begun, behind, ?_⟩
        simp only [Pace, phase]
        exact pace
    | inspect =>
      simp only [Pace, phase] at pace
      simp only [Loader.follow, phase]
      split
      case isTrue more =>
        refine ⟨begun, behind, ?_⟩
        cases raises <;> simp only [Pace, Bool.false_eq_true, if_false, if_true] <;> omega
      case isFalse done =>
        refine ⟨begun, behind, ?_⟩
        simp only [Pace]
        omega
    | leave =>
      simp only [Pace, phase] at pace
      simp only [Loader.follow, phase, Pace]
      split
      case isTrue atEnd => exact ⟨begun, behind, by simp only; omega, atEnd⟩
      case isFalse going =>
        have entered : c.offset < writeOffset := by omega
        obtain ⟨moved, within⟩ := advances entered
        exact ⟨by simp only; omega, within, by simp only; omega⟩
    | broken =>
      simp only [Loader.follow, phase]
      exact ⟨begun, behind, pace⟩
    | raised =>
      simp only [Loader.follow, phase]
      exact ⟨begun, behind, pace⟩
  obtain ⟨begun, behind, pace⟩ := offsets
  exact { trail := inv.trail.follow, begun, behind, pace }

/-! ## The three threads together -/

structure Inv (loader : Loader) (s : State) : Prop where
  writes : loader.WriteInv s
  reader : loader.CheckerInv s.writeOffset s.reader
  persistence : loader.CheckerInv s.writeOffset s.persistence

theorem checkerInv_init (loader : Loader) :
    loader.CheckerInv loader.start { offset := loader.start, itr := loader.start } where
  trail := { started := le_refl _, visited := by simp, fresh := fun _ => rfl }
  begun := le_refl _
  behind := le_refl _
  pace := ⟨rfl, rfl⟩

theorem inv_init (loader : Loader) : loader.Inv loader.init where
  writes := writeInv_init loader
  reader := checkerInv_init loader
  persistence := checkerInv_init loader

theorem step_loader_checkers (loader : Loader) (s : State) (fDocs : List String) :
    (loader.step s (.loader fDocs)).reader = s.reader ∧
      (loader.step s (.loader fDocs)).persistence = s.persistence := by
  cases phase : s.phase <;> simp only [step, next, phase, and_self]
  split <;> exact ⟨rfl, rfl⟩

theorem Inv.step (inv : loader.Inv s) (action : Action) : loader.Inv (loader.step s action) := by
  have started := inv.writes.started
  have bounded := inv.writes.writeOffset_le
  cases action with
  | loader fDocs =>
    have grown := writeOffset_mono loader s (.loader fDocs)
    obtain ⟨sameReader, samePersistence⟩ := step_loader_checkers loader s fDocs
    refine { writes := inv.writes.next fDocs, reader := ?_, persistence := ?_ }
    · rw [sameReader]
      exact inv.reader.mono grown
    · rw [samePersistence]
      exact inv.persistence.mono grown
  | reader raises =>
    have reader : loader.CheckerInv s.writeOffset (loader.readerStep s raises) :=
      inv.reader.follow started bounded (fun entered => ⟨by omega, by omega⟩)
    exact { inv with writes := { inv.writes with }, reader }
  | persistence raises =>
    have persistence : loader.CheckerInv s.writeOffset (loader.persistenceStep s raises) :=
      inv.persistence.follow started bounded (fun entered => ⟨entered, le_refl _⟩)
    exact { inv with writes := { inv.writes with }, persistence }

theorem inv_run (loader : Loader) (schedule : List Action) :
    loader.Inv (run loader.step loader.init schedule) :=
  run_invariant (fun _ action inv => inv.step action) (inv_init loader) schedule

theorem CheckerInv.itr_le (inv : loader.CheckerInv writeOffset c) : c.itr ≤ writeOffset := by
  have behind := inv.behind
  have pace := inv.pace
  unfold Pace at pace
  cases phase : c.phase <;> simp only [phase] at pace <;> omega

theorem CheckerInv.visited_lt (inv : loader.CheckerInv s.writeOffset c) (writes : loader.WriteInv s)
    {index : Int} (member : index ∈ c.visited) : index < loader.stop := by
  have bounded := writes.writeOffset_le
  have reached := inv.itr_le
  rw [inv.trail.visited, mem_window] at member
  omega

/-- What a checker is about to look at is behind the write offset. -/
theorem CheckerInv.recorded (inv : loader.CheckerInv s.writeOffset c) (writes : loader.WriteInv s)
    (phase : c.phase = .inspect) (more : c.itr < loader.stop) : s.Recorded c.itr := by
  have behind := inv.behind
  have pace := inv.pace
  simp only [Pace, phase] at pace
  exact writes.behind _ inv.trail.started (by omega)

/-- A checker that has broken out of its loop has seen the whole range if its generator has. -/
theorem CheckerInv.visited_eq_iff (inv : loader.CheckerInv writeOffset c)
    (broken : c.phase = .broken) :
    c.visited = window loader.start (loader.stop - loader.start).toNat ↔ loader.stop ≤ c.itr := by
  have pace := inv.pace
  have begun := inv.begun
  have started := inv.trail.started
  simp only [Pace, broken] at pace
  constructor
  · intro all
    have lengths := congrArg List.length all
    have reached := inv.trail.length_visited
    rw [length_window] at lengths
    omega
  · intro reached
    have same : c.itr = loader.stop := by omega
    rw [inv.trail.visited, same]

/-! ## The reader -/

/-- At most `slack` documents lie between the generator of a checker and its offset. -/
def Lag (loader : Loader) (slack : Int) (c : Checker) : Prop :=
  match c.phase with
  | .setup => True
  | .test => c.offset ≤ c.itr + slack
  | .inspect => c.offset ≤ c.itr + slack
  | .leave => if c.offset = loader.stop then loader.stop ≤ c.itr else c.offset + 1 ≤ c.itr + slack
  | .broken => loader.stop ≤ c.itr
  | .raised => True

/-- A round that inspects one document makes up for one document of the offset, and with one
    document between them the last round still comes to the end of the range. -/
theorem Lag.follow {slack : Int} (lag : loader.Lag slack c) (small : slack ≤ 1)
    (inv : loader.CheckerInv writeOffset c)
    (bounded : writeOffset = loader.start ∨ writeOffset ≤ loader.stop)
    (advances : c.phase = .leave → c.offset ≠ loader.stop → advance c.offset ≤ c.itr + slack)
    (nonneg : 0 ≤ slack) : loader.Lag slack (loader.follow writeOffset advance raises c) := by
  have begun := inv.begun
  have pace := inv.pace
  cases phase : c.phase with
  | setup =>
    simp only [Loader.follow, phase, Lag]
    omega
  | test =>
    simp only [Lag, phase] at lag
    simp only [Loader.follow, phase]
    split
    · exact lag
    · simp only [Lag, phase]
      exact lag
  | inspect =>
    simp only [Lag, phase] at lag
    simp only [Pace, phase] at pace
    simp only [Loader.follow, phase]
    split
    case isTrue more =>
      cases raises with
      | true => exact trivial
      | false =>
        simp only [Lag, Bool.false_eq_true, if_false]
        split <;> omega
    case isFalse done =>
      have atEnd : c.offset = loader.stop := by omega
      simp only [Lag, if_pos atEnd]
      omega
  | leave =>
    simp only [Lag, phase] at lag
    simp only [Loader.follow, phase]
    split
    case isTrue atEnd => simpa only [Lag, if_pos atEnd] using lag
    case isFalse going =>
      simp only [Lag]
      exact advances phase going
  | broken =>
    simp only [Loader.follow, phase]
    exact lag
  | raised =>
    simp only [Loader.follow, phase]
    exact lag

/-- The offset of the reader is the position of its generator. -/
theorem reader_lag_run (loader : Loader) (schedule : List Action) :
    loader.Lag 0 (run loader.step loader.init schedule).reader := by
  have both : loader.Inv (run loader.step loader.init schedule) ∧
      loader.Lag 0 (run loader.step loader.init schedule).reader := by
    refine @run_invariant _ _ _ (fun s => loader.Inv s ∧ loader.Lag 0 s.reader) ?_ _
      ⟨inv_init loader, trivial⟩ schedule
    intro s action kept
    obtain ⟨inv, lag⟩ := kept
    refine ⟨inv.step action, ?_⟩
    cases action with
    | loader fDocs =>
      rw [(step_loader_checkers loader s fDocs).1]
      exact lag
    | persistence raises => exact lag
    | reader raises =>
      refine lag.follow (by omega) inv.reader inv.writes.writeOffset_le ?_ (le_refl _)
      intro phase going
      simp only [Lag, phase, if_neg going] at lag
      omega
  exact both.2

theorem readerStep_alive (alive : s.reader.phase ≠ .raised) :
    (loader.step s (.reader false)).reader.phase ≠ .raised := by
  cases phase : s.reader.phase with
  | raised => exact absurd phase alive
  | setup => simp [step, readerStep, follow, phase]
  | test =>
    simp only [step, readerStep, follow, phase]
    split <;> simp [phase]
  | inspect =>
    simp only [step, readerStep, follow, phase]
    split <;> simp
  | leave =>
    simp only [step, readerStep, follow, phase]
    split <;> simp
  | broken => simp [step, readerStep, follow, phase]

/-! ### The reader comes to its end -/

def WritePhase.rank : WritePhase → Nat
  | .head => 0
  | .taken _ => 1
  | .written _ _ => 2
  | .recorded _ => 3

/-- What is left to write, in steps of the loader. -/
def writesLeft (loader : Loader) (s : State) : Nat :=
  4 * (loader.stop - s.writeOffset).toNat - WritePhase.rank s.phase

theorem WriteInv.writesLeft_next (inv : loader.WriteInv s) (unfinished : s.writeOffset < loader.stop) :
    loader.writesLeft (loader.next s []) < loader.writesLeft s := by
  have ahead := inv.ahead
  have bounded := inv.bounded
  have started := inv.started
  cases phase : s.phase with
  | head =>
    have position : s.itr = s.writeOffset := by simpa [batchOf, phase] using ahead
    simp only [Loader.next, phase, position, if_pos unfinished, writesLeft, WritePhase.rank]
    omega
  | taken batch =>
    simp only [Loader.next, phase, writesLeft, WritePhase.rank]
    omega
  | written batch reports =>
    simp only [Loader.next, phase, writesLeft, WritePhase.rank]
    omega
  | recorded batch =>
    have nonempty := inv.nonempty (by simp [phase])
    simp only [batchOf, phase] at nonempty
    simp only [Loader.next, phase, writesLeft, WritePhase.rank]
    omega

/-- Left to itself, the loader writes all there is. -/
theorem loader_finishes (inv : loader.Inv s) (forward : loader.start ≤ loader.stop)
    (alive : s.reader.phase ≠ .raised) :
    ∃ rounds, (run loader.step s (List.replicate rounds (.loader []))).writeOffset = loader.stop ∧
      loader.Inv (run loader.step s (List.replicate rounds (.loader []))) ∧
      (run loader.step s (List.replicate rounds (.loader []))).reader.phase ≠ .raised := by
  obtain ⟨rounds, finished, kept⟩ := @run_replicate_reaches _ _ loader.step
    (fun s => loader.Inv s ∧ s.reader.phase ≠ .raised) (fun s => loader.stop ≤ s.writeOffset)
    loader.writesLeft (.loader [])
    (fun s kept => ⟨kept.1.step _, by rw [(step_loader_checkers loader s []).1]; exact kept.2⟩)
    (fun s kept unfinished => kept.1.writes.writesLeft_next (by omega)) s ⟨inv, alive⟩
  have bounded := kept.1.writes.writeOffset_le
  exact ⟨rounds, by omega, kept⟩

def CheckPhase.rank : CheckPhase → Nat
  | .setup => 4
  | .test => 3
  | .inspect => 2
  | .leave => 1
  | .broken => 0
  | .raised => 0

/-- What is left to read, in steps of the reader. -/
def readsLeft (loader : Loader) (s : State) : Nat :=
  4 * (loader.stop - s.reader.offset).toNat + CheckPhase.rank s.reader.phase

theorem Inv.readsLeft_step (inv : loader.Inv s) (written : s.writeOffset = loader.stop)
    (alive : s.reader.phase ≠ .raised) (going : s.reader.phase ≠ .broken) :
    loader.readsLeft (loader.step s (.reader false)) < loader.readsLeft s := by
  have behind := inv.reader.behind
  have pace := inv.reader.pace
  cases phase : s.reader.phase with
  | setup =>
    simp only [Pace, phase] at pace
    simp only [readsLeft, Loader.step, Loader.readerStep, follow, phase, CheckPhase.rank]
    omega
  | test =>
    have enters : s.reader.offset < s.writeOffset ∨ s.reader.offset = loader.stop := by omega
    simp only [readsLeft, Loader.step, Loader.readerStep, follow, phase, CheckPhase.rank, if_pos enters]
    omega
  | inspect =>
    simp only [readsLeft, Loader.step, Loader.readerStep, follow, phase, CheckPhase.rank]
    split <;> simp
  | leave =>
    simp only [readsLeft, Loader.step, Loader.readerStep, follow, phase]
    split
    case isTrue atEnd => simp [CheckPhase.rank]
    case isFalse going =>
      simp only [CheckPhase.rank]
      omega
  | broken => exact absurd phase going
  | raised => exact absurd phase alive

/-- A reader that has not been stopped by an exception breaks out of its loop if the loader goes
    on to the end of the range. -/
theorem Inv.breaks (inv : loader.Inv s) (forward : loader.start ≤ loader.stop)
    (alive : s.reader.phase ≠ .raised) :
    ∃ rest, (run loader.step s rest).reader.phase = .broken := by
  obtain ⟨writes, written, inv, alive⟩ := loader_finishes inv forward alive
  obtain ⟨reads, broken, _⟩ := @run_replicate_reaches _ _ loader.step
    (fun s => loader.Inv s ∧ s.writeOffset = loader.stop ∧ s.reader.phase ≠ .raised)
    (fun s => s.reader.phase = .broken) loader.readsLeft (.reader false)
    (fun s kept => ⟨kept.1.step _, kept.2.1, readerStep_alive kept.2.2⟩)
    (fun s kept going => kept.1.readsLeft_step kept.2.1 kept.2.2 going) _ ⟨inv, written, alive⟩
  exact ⟨_, by rwa [run_append]⟩

/-- Over every interleaving the reader inspects the documents of its range in order, each one
    after its batch is written and the failures of the batch are recorded, and all of them
    before it breaks out of its loop; and it does break out unless an inspection raises. -/
theorem reader_inspects_range (loader : Loader) (schedule : List Action) :
    let s := run loader.step loader.init schedule
    s.reader.visited = window loader.start s.reader.visited.length ∧
      (∀ index ∈ s.reader.visited, index < loader.stop) ∧
      s.reader.offset ≤ s.writeOffset ∧
      (∀ raises index,
        (loader.step s (.reader raises)).reader.visited = s.reader.visited ++ [index] →
          s.Recorded index) ∧
      (s.reader.phase = .broken →
        s.reader.visited = window loader.start (loader.stop - loader.start).toNat) ∧
      (loader.start ≤ loader.stop → s.reader.phase ≠ .raised →
        ∃ rest, (run loader.step s rest).reader.phase = .broken) := by
  intro s
  have inv : loader.Inv s := inv_run loader schedule
  have lag : loader.Lag 0 s.reader := reader_lag_run loader schedule
  refine ⟨inv.reader.trail.visited_eq, fun index member => inv.reader.visited_lt inv.writes member,
    inv.reader.behind, ?_, ?_, inv.breaks⟩
  · intro raises index visits
    obtain ⟨phase, more, rfl⟩ := follow_visits visits
    exact inv.reader.recorded inv.writes phase more
  · intro broken
    simp only [Lag, broken] at lag
    exact (inv.reader.visited_eq_iff broken).mpr lag

/-! ## The persistence check -/

/-- As the check takes the write offset over, the loader is at most one document ahead of what
    has been checked. -/
def KeepsPace (loader : Loader) (s : State) : Action → Prop
  | .persistence _ =>
    s.persistence.phase = .leave → s.persistence.offset ≠ loader.stop →
      s.writeOffset ≤ loader.start + s.persistence.visited.length + 1
  | .loader _ => True
  | .reader _ => True

/-- Two or more documents lie between the generator and the offset: they are not made up for. -/
def Late (loader : Loader) (c : Checker) : Prop :=
  match c.phase with
  | .setup => False
  | .test => c.itr + 2 ≤ c.offset
  | .inspect => c.itr + 2 ≤ c.offset
  | .leave => c.itr + 1 ≤ c.offset
  | .broken => c.itr < loader.stop
  | .raised => True

theorem Late.follow (late : loader.Late c) (inv : loader.CheckerInv writeOffset c)
    (advances : c.offset < writeOffset → c.offset < advance c.offset) :
    loader.Late (loader.follow writeOffset advance raises c) := by
  have pace := inv.pace
  cases phase : c.phase with
  | setup =>
    simp only [Late, phase] at late
  | test =>
    simp only [Late, phase] at late
    simp only [Loader.follow, phase]
    split
    · exact late
    · simp only [Late, phase]
      exact late
  | inspect =>
    simp only [Late, phase] at late
    simp only [Loader.follow, phase]
    split
    case isTrue more =>
      cases raises with
      | true => exact trivial
      | false =>
        simp only [Late, Bool.false_eq_true, if_false]
        omega
    case isFalse done =>
      simp only [Late]
      omega
  | leave =>
    simp only [Late, phase] at late
    simp only [Pace, phase] at pace
    simp only [Loader.follow, phase]
    split
    case isTrue atEnd =>
      simp only [Late]
      omega
    case isFalse going =>
      have moved := advances (by omega)
      simp only [Late]
      omega
  | broken =>
    simp only [Loader.follow, phase]
    exact late
  | raised =>
    simp only [Loader.follow, phase]
    exact late

theorem persistence_lag_run {schedule : List Action}
    (paced : Guarded loader.step loader.KeepsPace loader.init schedule) :
    loader.Lag 1 (run loader.step loader.init schedule).persistence := by
  have both : loader.Inv (run loader.step loader.init schedule) ∧
      loader.Lag 1 (run loader.step loader.init schedule).persistence := by
    refine @Guarded.invariant _ _ _ _ (fun s => loader.Inv s ∧ loader.Lag 1 s.persistence) ?_ _
      ⟨inv_init loader, trivial⟩ _ paced
    intro s action kept allowed
    obtain ⟨inv, lag⟩ := kept
    refine ⟨inv.step action, ?_⟩
    cases action with
    | loader fDocs =>
      rw [(step_loader_checkers loader s fDocs).2]
      exact lag
    | reader raises => exact lag
    | persistence raises =>
      refine lag.follow (le_refl _) inv.persistence inv.writes.writeOffset_le ?_ (by omega)
      intro phase going
      have checked := inv.persistence.trail.length_visited
      have ahead := allowed phase going
      omega
  exact both.2

theorem Late.step (late : loader.Late s.persistence) (inv : loader.Inv s) (action : Action) :
    loader.Late (loader.step s action).persistence := by
  cases action with
  | loader fDocs =>
    rw [(step_loader_checkers loader s fDocs).2]
    exact late
  | reader raises => exact late
  | persistence raises => exact late.follow inv.persistence (fun entered => entered)

/-- The step that does not keep pace leaves two documents between the generator and the offset. -/
theorem late_of_not_keepsPace {action : Action} (inv : loader.Inv s)
    (hurried : ¬ loader.KeepsPace s action) : loader.Late (loader.step s action).persistence := by
  cases action with
  | loader fDocs => exact absurd trivial hurried
  | reader raises => exact absurd trivial hurried
  | persistence raises =>
    simp only [KeepsPace, Classical.not_imp] at hurried
    obtain ⟨phase, going, ahead⟩ := hurried
    have checked := inv.persistence.trail.length_visited
    simp only [step, persistenceStep, follow, phase, if_neg going, Late]
    omega

theorem guarded_of_not_late {schedule : List Action} (inv : loader.Inv s)
    (never : ¬ loader.Late (run loader.step s schedule).persistence) :
    Guarded loader.step loader.KeepsPace s schedule := by
  induction schedule generalizing s with
  | nil => trivial
  | cons action schedule ih =>
    refine ⟨?_, ih (inv.step action) never⟩
    by_contra hurried
    have late := late_of_not_keepsPace inv hurried
    have stays : loader.Inv (run loader.step (loader.step s action) schedule) ∧
        loader.Late (run loader.step (loader.step s action) schedule).persistence :=
      @run_invariant _ _ _ (fun s => loader.Inv s ∧ loader.Late s.persistence)
        (fun _ action kept => ⟨kept.1.step action, kept.2.step kept.1 action⟩) _
        ⟨inv.step action, late⟩ schedule
    exact never stays.2

/-- Over every interleaving the persistence check looks at documents in order and only behind the
    write offset; when it breaks out of its loop it has seen the whole range exactly if the
    loader never was more than one document ahead of it as it took the write offset over. -/
theorem persistence_checks_range_iff (loader : Loader) (schedule : List Action) :
    let s := run loader.step loader.init schedule
    s.persistence.visited = window loader.start s.persistence.visited.length ∧
      (∀ raises index,
        (loader.step s (.persistence raises)).persistence.visited =
          s.persistence.visited ++ [index] → s.Recorded index) ∧
      (s.persistence.phase = .broken →
        (s.persistence.visited = window loader.start (loader.stop - loader.start).toNat ↔
          Guarded loader.step loader.KeepsPace loader.init schedule)) := by
  intro s
  have inv : loader.Inv s := inv_run loader schedule
  refine ⟨inv.persistence.trail.visited_eq, ?_, ?_⟩
  · intro raises index visits
    obtain ⟨phase, more, rfl⟩ := follow_visits visits
    exact inv.persistence.recorded inv.writes phase more
  · intro broken
    rw [inv.persistence.visited_eq_iff broken]
    constructor
    · intro reached
      refine guarded_of_not_late (inv_init loader) ?_
      simp only [Late, s, broken] at reached ⊢
      omega
    · intro paced
      have lag := persistence_lag_run paced
      simp only [Lag, s, broken] at lag
      exact lag

/-- One batch of three creates, checked by a thread that runs after it. -/
def threeCreates : Loader where
  start := 0
  stop := 3
  batchSize := 3
  positive := Nat.zero_lt_succ 2
  opType := .create

def checkedAfterwards : List Action :=
  List.replicate 4 (.loader []) ++ List.replicate 7 (.persistence false)

/-- The check breaks out of its loop and has not looked at the last document. -/
theorem persistence_misses_document :
    let s := run threeCreates.step threeCreates.init checkedAfterwards
    s.persistence.phase = .broken ∧ s.persistence.visited = [0, 1] ∧
      s.persistence.visited ≠ window threeCreates.start (threeCreates.stop - threeCreates.start).toNat := by
  decide

end Loader

end Taf.Tasks.Durability
