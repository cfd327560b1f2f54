import Mathlib

/-! # Operations on a store that take turns

A client of a store inserts, reads, replaces and removes values; an operation fails where its value is
there already or is missing.  Several clients take turns in any order.  Whatever the order is, what is
left is known if each client knows what it writes last (`Leads`), and no value is inserted or removed by
two of them (`Flips`). -/

namespace Taf.Lib

variable {ι V : Type*}

/-- What is left to do -/
inductive Actions (ι V : Type*) where
  | done
  | insert (id : ι) (value : V) (next : Actions ι V)
  | get (id : ι) (next : V → Actions ι V)
  | replace (id : ι) (value : V) (next : Actions ι V)
  | remove (id : ι) (next : Actions ι V)

namespace Actions

def isDone : Actions ι V → Bool
  | done => true
  | _ => false

variable [DecidableEq ι]

/-- The next operation; `none` if it fails -/
def step (store : ι → Option V) : Actions ι V → Option (Actions ι V × (ι → Option V))
  | done => some (done, store)
  | insert id value next =>
    if (store id).isSome then none else some (next, Function.update store id (some value))
  | get id next => (store id).map fun value => (next value, store)
  | replace id value next =>
    if (store id).isSome then some (next, Function.update store id (some value)) else none
  | remove id next => if (store id).isSome then some (next, Function.update store id none) else none

/-- All operations, without a pause -/
def run : Actions ι V → (ι → Option V) → Option (ι → Option V)
  | done, store => some store
  | insert id value next, store =>
    if (store id).isSome then none else next.run (Function.update store id (some value))
  | get id next, store =>
    match store id with
    | some value => (next value).run store
    | none => none
  | replace id value next, store =>
    if (store id).isSome then next.run (Function.update store id (some value)) else none
  | remove id next, store => if (store id).isSome then next.run (Function.update store id none) else none

/-- The clients take turns in an order, until all of them are done. -/
def interleave : List ℕ → List (Actions ι V) → (ι → Option V) → Option (ι → Option V)
  | [], actions, store => if actions.all isDone then some store else none
  | i :: order, actions, store =>
    match actions[i]? with
    | none => interleave order actions store
    | some first =>
      match first.step store with
      | some (next, store) => interleave order (actions.set i next) store
      | none => none

/-! ## One client after the other -/

theorem interleave_of_run {before after : List (Actions ι V)} {order : List ℕ} {last : ι → Option V}
    (first : Actions ι V) : ∀ {store store' : ι → Option V}, first.run store = some store' →
      interleave order (before ++ done :: after) store' = some last →
        ∃ order, interleave order (before ++ first :: after) store = some last := by
  -- The client takes every turn until it is done.
  have turn {first next : Actions ι V} {store store' : ι → Option V}
      (stepped : first.step store = some (next, store'))
      (rest : ∃ order, interleave order (before ++ next :: after) store' = some last) :
      ∃ order, interleave order (before ++ first :: after) store = some last := by
    obtain ⟨order, finished⟩ := rest
    refine ⟨before.length :: order, ?_⟩
    simp [interleave, stepped, finished]
  induction first with
  | done =>
    intro store store' ran finished
    obtain rfl := Option.some_inj.mp ran
    exact ⟨order, finished⟩
  | insert id value next ih =>
    intro store store' ran finished
    rw [run] at ran
    split at ran
    · cases ran
    · rename_i absent
      exact turn (by rw [step, if_neg absent]) (ih ran finished)
  | get id next ih =>
    intro store store' ran finished
    rw [run] at ran
    split at ran
    · rename_i value found
      exact turn (by rw [step, found, Option.map_some]) (ih value ran finished)
    · cases ran
  | replace id value next ih =>
    intro store store' ran finished
    rw [run] at ran
    split at ran
    · rename_i present
      exact turn (by rw [step, if_pos present]) (ih ran finished)
    · cases ran
  | remove id next ih =>
    intro store store' ran finished
    rw [run] at ran
    split at ran
    · rename_i present
      exact turn (by rw [step, if_pos present]) (ih ran finished)
    · cases ran

/-- The clients may come one after the other. -/
theorem exists_interleave (actions finished : List (Actions ι V)) {store last : ι → Option V}
    (idle : ∀ client ∈ finished, client.isDone = true)
    (ran : actions.foldlM (fun store first => first.run store) store = some last) :
    ∃ order, interleave order (finished ++ actions) store = some last := by
  induction actions generalizing store finished with
  | nil =>
    refine ⟨[], ?_⟩
    rw [List.append_nil, interleave, if_pos (List.all_eq_true.mpr idle)]
    simpa using ran
  | cons first actions ih =>
    rw [List.foldlM_cons] at ran
    obtain ⟨store', one, rest⟩ := Option.bind_eq_some_iff.mp ran
    have idle' : ∀ client ∈ finished ++ [done], client.isDone = true := by
      intro client member
      rcases List.mem_append.mp member with before | last
      · exact idle client before
      · rw [List.mem_singleton.mp last]
        rfl
    obtain ⟨order, ended⟩ := ih (finished ++ [done]) idle' rest
    rw [List.append_assoc] at ended
    exact interleave_of_run first one ended

theorem interleave_shift (order : List ℕ) (actions : List (Actions ι V)) (store : ι → Option V) :
    interleave (order.map (· + 1)) (done :: actions) store = interleave order actions store := by
  induction order generalizing actions store with
  | nil => simp [interleave, isDone]
  | cons i order ih =>
    rw [List.map_cons, interleave, interleave, List.getElem?_cons_succ]
    cases actions[i]? with
    | none => exact ih actions store
    | some first =>
      simp only [List.set_cons_succ]
      cases first.step store with
      | none => rfl
      | some stepped => exact ih (actions.set i stepped.1) stepped.2

/-- A client that comes first may as well take its turns among the others. -/
theorem interleave_first {first : Actions ι V} {actions : List (Actions ι V)} {order : List ℕ}
    {store store' last : ι → Option V} (one : first.run store = some store')
    (rest : interleave order actions store' = some last) :
    ∃ order, interleave order (first :: actions) store = some last := by
  rw [← interleave_shift] at rest
  exact @interleave_of_run _ _ _ [] _ _ _ first _ _ one rest

/-! ## What the clients leave behind -/

/-- Operations that write only what is allowed, and at last what is wanted of each of the documents -/
inductive Leads (allowed : ι → Option V → Prop) (target : ι → Option V) : Actions ι V → List ι → Prop
  | done : Leads allowed target done []
  | insert {id value next ids} (fine : allowed id (some value)) (last : id ∈ ids ∨ target id = some value)
    (rest : Leads allowed target next ids) : Leads allowed target (insert id value next) (id :: ids)
  | get {id next ids} (rest : ∀ value, allowed id (some value) → Leads allowed target (next value) ids) :
    Leads allowed target (get id next) ids
  | replace {id value next ids} (fine : allowed id (some value)) (last : id ∈ ids ∨ target id = some value)
    (rest : Leads allowed target next ids) : Leads allowed target (replace id value next) (id :: ids)
  | remove {id next ids} (fine : allowed id none) (last : id ∈ ids ∨ target id = none)
    (rest : Leads allowed target next ids) : Leads allowed target (remove id next) (id :: ids)

variable {allowed : ι → Option V → Prop} {target : ι → Option V}

/-- A write that is one of those to be made, and what it leaves to the rest -/
theorem leads_write {id : ι} {value : Option V} {ids : List ι} {store : ι → Option V}
    (proper : ∀ id, allowed id (store id)) (fine : allowed id value) (last : id ∈ ids ∨ target id = value) :
    (∀ other, allowed other (Function.update store id value other)) ∧
      (∀ other ∈ id :: ids, other ∈ ids ∨ Function.update store id value other = target other) ∧
        ∀ other ∉ id :: ids, other ∉ ids ∧ Function.update store id value other = store other := by
  refine ⟨?_, ?_, ?_⟩
  · intro other
    by_cases same : other = id
    · rw [same, Function.update_self]
      exact fine
    · rw [Function.update_of_ne same]
      exact proper other
  · intro other member
    rcases List.mem_cons.mp member with same | later
    · rw [same, Function.update_self]
      exact last.imp_right Eq.symm
    · exact Or.inl later
  · intro other outside
    rw [List.mem_cons, not_or] at outside
    exact ⟨outside.2, Function.update_of_ne outside.1 value store⟩

theorem Leads.step {first next : Actions ι V} {ids : List ι} {store store' : ι → Option V}
    (leads : Leads allowed target first ids) (proper : ∀ id, allowed id (store id))
    (stepped : first.step store = some (next, store')) : ∃ ids', Leads allowed target next ids' ∧
      (∀ id, allowed id (store' id)) ∧ (∀ id ∈ ids, id ∈ ids' ∨ store' id = target id) ∧
        ∀ id ∉ ids, id ∉ ids' ∧ store' id = store id := by
  cases leads with
  | done =>
    obtain ⟨rfl, rfl⟩ := Prod.mk.inj (Option.some_inj.mp stepped)
    exact ⟨[], .done, proper, by simp, by simp⟩
  | insert fine last rest =>
    rw [Actions.step] at stepped
    split at stepped
    · cases stepped
    · obtain ⟨rfl, rfl⟩ := Prod.mk.inj (Option.some_inj.mp stepped)
      exact ⟨_, rest, leads_write proper fine last⟩
  | get rest =>
    obtain ⟨value, found, same⟩ := Option.map_eq_some_iff.mp stepped
    obtain ⟨rfl, rfl⟩ := Prod.mk.inj same
    exact ⟨_, rest value (found ▸ proper _), proper, fun id member => Or.inl member,
      fun id outside => ⟨outside, rfl⟩⟩
  | replace fine last rest =>
    rw [Actions.step] at stepped
    split at stepped
    · obtain ⟨rfl, rfl⟩ := Prod.mk.inj (Option.some_inj.mp stepped)
      exact ⟨_, rest, leads_write proper fine last⟩
    · cases stepped
  | remove fine last rest =>
    rw [Actions.step] at stepped
    split at stepped
    · obtain ⟨rfl, rfl⟩ := Prod.mk.inj (Option.some_inj.mp stepped)
      exact ⟨_, rest, leads_write proper fine last⟩
    · cases stepped

/-- What one turn does to the clients and the store -/
theorem interleave_cons {β : Type*} {i : ℕ} {order : List ℕ} {clients : List (Actions ι V × β)}
    {store last : ι → Option V} (ended : interleave (i :: order) (clients.map Prod.fst) store = some last) :
    interleave order (clients.map Prod.fst) store = some last ∨
      ∃ before first about after next store', clients = before ++ (first, about) :: after ∧
        Actions.step store first = some (next, store') ∧ ∀ about',
          interleave order ((before ++ (next, about') :: after).map Prod.fst) store' = some last := by
  rw [interleave, List.getElem?_map] at ended
  cases found : clients[i]? with
  | none =>
    rw [found] at ended
    exact Or.inl ended
  | some client =>
    rw [found] at ended
    simp only [Option.map_some] at ended
    split at ended
    · rename_i next store' stepped
      obtain ⟨inside, rfl⟩ := List.getElem?_eq_some_iff.mp found
      obtain ⟨before, after, split, _, changed⟩ := @List.exists_of_set _ i (next, clients[i].2) clients inside
      refine Or.inr ⟨before, _, _, after, next, store', split, stepped, ?_⟩
      intro about'
      have names : (clients.map Prod.fst).set i next = (before ++ (next, about') :: after).map Prod.fst := by
        have mapped := congrArg (List.map Prod.fst) changed
        rw [List.map_set] at mapped
        rw [mapped]
        simp
      rw [← names]
      exact ended
    · cases ended

/-- Whatever the order of the turns is, the documents that are written have their last values, and no
    other document has changed. -/
theorem interleave_leads (order : List ℕ) {clients : List (Actions ι V × List ι)}
    (leads : ∀ client ∈ clients, Leads allowed target client.1 client.2) {store last : ι → Option V}
    (proper : ∀ id, allowed id (store id))
    (ended : interleave order (clients.map Prod.fst) store = some last) :
    (∀ id, allowed id (last id)) ∧ (∀ id ∈ clients.flatMap Prod.snd, last id = target id) ∧
      ∀ id ∉ clients.flatMap Prod.snd, last id = store id := by
  induction order generalizing clients store with
  | nil =>
    rw [interleave] at ended
    split at ended
    · rename_i idle
      obtain rfl := Option.some_inj.mp ended
      refine ⟨proper, ?_, fun _ _ => rfl⟩
      intro id member
      obtain ⟨⟨first, ids⟩, inside, own⟩ := List.mem_flatMap.mp member
      have ended := List.all_eq_true.mp idle first (List.mem_map_of_mem inside)
      -- A client that is done has nothing left to write.
      have lead : Leads allowed target first ids := leads (first, ids) inside
      cases lead with
      | done => cases own
      | _ => cases ended
    · cases ended
  | cons i order ih =>
    rcases interleave_cons ended with skipped | ⟨before, first, ids, after, next, store', rfl, stepped, rest⟩
    · exact ih leads proper skipped
    · obtain ⟨ids', lead, proper', written, kept⟩ :=
        (leads (first, ids) (by simp)).step proper stepped
      have leads' : ∀ client ∈ before ++ (next, ids') :: after, Leads allowed target client.1 client.2 := by
        intro client member
        rcases List.mem_append.mp member with inside | inside
        · exact leads client (by simp [inside])
        · rcases List.mem_cons.mp inside with rfl | inside
          · exact lead
          · exact leads client (by simp [inside])
      obtain ⟨allowed, wanted, unchanged⟩ := ih leads' proper' (rest ids')
      simp only [List.flatMap_append, List.flatMap_cons, List.mem_append] at wanted unchanged ⊢
      refine ⟨allowed, ?_, ?_⟩
      · intro id member
        by_cases later : id ∈ before.flatMap Prod.snd ∨ id ∈ ids' ∨ id ∈ after.flatMap Prod.snd
        · exact wanted id later
        · have own : id ∈ ids := by tauto
          rw [unchanged id later]
          exact (written id own).resolve_left (by tauto)
      · intro id outside
        obtain ⟨missing, same⟩ := kept id (by tauto)
        rw [unchanged id (by tauto), same]

/-! ## Documents that are inserted or removed twice -/

/-- The documents that the operations insert (`true`) or remove (`false`), whatever they read -/
inductive Flips : Actions ι V → List (ι × Bool) → Prop
  | done : Flips done []
  | insert {id value next flips} (rest : Flips next flips) : Flips (insert id value next) ((id, true) :: flips)
  | get {id next flips} (rest : ∀ value, Flips (next value) flips) : Flips (get id next) flips
  | replace {id value next flips} (rest : Flips next flips) : Flips (replace id value next) flips
  | remove {id next flips} (rest : Flips next flips) : Flips (remove id next) ((id, false) :: flips)

theorem Flips.step {first next : Actions ι V} {flips : List (ι × Bool)} {store store' : ι → Option V}
    (shape : Flips first flips) (stepped : first.step store = some (next, store')) :
    (Flips next flips ∧ ∀ id, (store' id).isSome = (store id).isSome) ∨
      ∃ id created rest, flips = (id, created) :: rest ∧ Flips next rest ∧
        (store id).isSome = !created ∧ (store' id).isSome = created ∧ ∀ other ≠ id, store' other = store other := by
  cases shape with
  | done =>
    obtain ⟨rfl, rfl⟩ := Prod.mk.inj (Option.some_inj.mp stepped)
    exact Or.inl ⟨.done, fun _ => rfl⟩
  | @insert id value _ _ rest =>
    rw [Actions.step] at stepped
    split at stepped
    · cases stepped
    · rename_i absent
      obtain ⟨rfl, rfl⟩ := Prod.mk.inj (Option.some_inj.mp stepped)
      refine Or.inr ⟨_, true, _, rfl, rest, ?_, ?_, fun other apart => Function.update_of_ne apart _ _⟩
      · simpa using absent
      · rw [Function.update_self, Option.isSome_some]
  | get rest =>
    obtain ⟨value, _, same⟩ := Option.map_eq_some_iff.mp stepped
    obtain ⟨rfl, rfl⟩ := Prod.mk.inj same
    exact Or.inl ⟨rest value, fun _ => rfl⟩
  | @replace id value _ _ rest =>
    rw [Actions.step] at stepped
    split at stepped
    · rename_i present
      obtain ⟨rfl, rfl⟩ := Prod.mk.inj (Option.some_inj.mp stepped)
      refine Or.inl ⟨rest, ?_⟩
      intro other
      by_cases same : other = id
      · rw [same, Function.update_self, present, Option.isSome_some]
      · rw [Function.update_of_ne same]
    · cases stepped
  | @remove id _ _ rest =>
    rw [Actions.step] at stepped
    split at stepped
    · rename_i present
      obtain ⟨rfl, rfl⟩ := Prod.mk.inj (Option.some_inj.mp stepped)
      refine Or.inr ⟨_, false, _, rfl, rest, present, ?_, fun other apart => Function.update_of_ne apart _ _⟩
      rw [Function.update_self, Option.isSome_none]
    · cases stepped

/-- A document that is only inserted, or only removed, is so once: afterwards it fails. -/
theorem interleave_flips (order : List ℕ) {clients : List (Actions ι V × List (ι × Bool))}
    (shapes : ∀ client ∈ clients, Flips client.1 client.2) {store last : ι → Option V} {id : ι} {created : Bool}
    (single : (id, !created) ∉ clients.flatMap Prod.snd)
    (ended : interleave order (clients.map Prod.fst) store = some last) :
    (clients.flatMap Prod.snd).count (id, created) ≤ if (store id).isSome = created then 0 else 1 := by
  induction order generalizing clients store with
  | nil =>
    rw [interleave] at ended
    split at ended
    · rename_i idle
      have none : (id, created) ∉ clients.flatMap Prod.snd := by
        intro member
        obtain ⟨⟨first, flips⟩, inside, own⟩ := List.mem_flatMap.mp member
        have ended := List.all_eq_true.mp idle first (List.mem_map_of_mem inside)
        have shape : Flips first flips := shapes (first, flips) inside
        cases shape with
        | done => cases own
        | _ => cases ended
      rw [List.count_eq_zero_of_not_mem none]
      exact Nat.zero_le _
    · cases ended
  | cons i order ih =>
    rcases interleave_cons ended with skipped | ⟨before, first, flips, after, next, store', rfl, stepped, rest⟩
    · exact ih shapes single skipped
    · have shapes' (flips' : List (ι × Bool)) (shape : Flips next flips') :
          ∀ client ∈ before ++ (next, flips') :: after, Flips client.1 client.2 := by
        intro client member
        rcases List.mem_append.mp member with inside | inside
        · exact shapes client (by simp [inside])
        · rcases List.mem_cons.mp inside with rfl | inside
          · exact shape
          · exact shapes client (by simp [inside])
      have count (flips' : List (ι × Bool)) (client : Actions ι V) :
          ((before ++ (client, flips') :: after).flatMap Prod.snd).count (id, created) =
            (before.flatMap Prod.snd).count (id, created) + flips'.count (id, created) +
              (after.flatMap Prod.snd).count (id, created) := by
        simp [List.flatMap_append, List.count_append, Nat.add_assoc]
      rcases (shapes (first, flips) (by simp)).step stepped with ⟨shape, same⟩ | ⟨other, made, left, own, shape, was, now, frame⟩
      · have rest := ih (shapes' flips shape) (by simpa using single) (rest flips)
        rw [same] at rest
        rw [count] at rest ⊢
        exact rest
      · obtain rfl : flips = (other, made) :: left := own
        have left := ih (shapes' left shape) (by
          intro member
          apply single
          simp only [List.flatMap_append, List.flatMap_cons, List.mem_append, List.mem_cons] at member ⊢
          tauto) (rest left)
        rw [count] at left ⊢
        by_cases same : other = id
        · subst same
          have direction : made = created := by
            by_contra apart
            apply single
            rw [← Bool.eq_not.mpr apart]
            simp
          subst direction
          rw [if_pos now] at left
          rw [List.count_cons_self, if_neg (by rw [was]; cases made <;> decide)]
          omega
        · rw [frame id (Ne.symm same)] at left
          rw [List.count_cons_of_ne fun equal => same (Prod.mk.inj equal).1]
          exact left

/-- Where no document is both inserted and removed, none is so twice. -/
theorem interleave_nodup (order : List ℕ) {clients : List (Actions ι V × List (ι × Bool))}
    (shapes : ∀ client ∈ clients, Flips client.1 client.2) {store last : ι → Option V}
    (single : ∀ id created, (id, created) ∈ clients.flatMap Prod.snd → (id, !created) ∉ clients.flatMap Prod.snd)
    (ended : interleave order (clients.map Prod.fst) store = some last) : (clients.flatMap Prod.snd).Nodup := by
  rw [List.nodup_iff_count_le_one]
  intro ⟨id, created⟩
  by_cases member : (id, created) ∈ clients.flatMap Prod.snd
  · have once := interleave_flips order shapes (single id created member) ended
    split at once
    · omega
    · exact once
  · rw [List.count_eq_zero_of_not_mem member]
    omega

/-- Clients that all insert, or all remove, one document each -/
theorem interleave_map_nodup {β : Type*} {items : List β} {make : β → Actions ι V} {name : β → ι} {created : Bool}
    (shape : ∀ item, Flips (make item) [(name item, created)]) {order : List ℕ} {store last : ι → Option V}
    (ended : interleave order (items.map make) store = some last) : (items.map name).Nodup := by
  let clients : List (Actions ι V × List (ι × Bool)) := items.map fun item => (make item, [(name item, created)])
  have names : clients.map Prod.fst = items.map make := by
    simp [clients, Function.comp_def]
  have flips : clients.flatMap Prod.snd = items.map fun item => (name item, created) := by
    show (items.map _).flatMap Prod.snd = _
    rw [List.flatMap_map, List.map_eq_flatMap]
  have distinct : (clients.flatMap Prod.snd).Nodup := by
    rw [← names] at ended
    apply interleave_nodup order _ _ ended
    · intro client member
      obtain ⟨item, _, rfl⟩ := List.mem_map.mp member
      exact shape item
    · intro id made member opposite
      rw [flips] at member opposite
      obtain ⟨_, _, same⟩ := List.mem_map.mp member
      obtain ⟨_, _, other⟩ := List.mem_map.mp opposite
      have equal := (Prod.mk.inj same).2.symm.trans (Prod.mk.inj other).2
      cases made <;> cases equal
  rw [flips] at distinct
  have paired : ((items.map name).map fun id => (id, created)).Nodup := by
    rw [List.map_map]
    exact distinct
  exact paired.of_map _

/-! ## Clients that do not fail -/

/-- The operations take a document from being there or not to being there or not, and nothing else. -/
def Moves (was will : Bool) (id : ι) (first : Actions ι V) : Prop :=
  ∀ store : ι → Option V, (store id).isSome = was → ∃ store', first.run store = some store' ∧
    (store' id).isSome = will ∧ ∀ other ≠ id, store' other = store other

theorem exists_run {was will : Bool} {clients : List (ι × Actions ι V)}
    (moves : ∀ client ∈ clients, Moves was will client.1 client.2)
    (distinct : was = will ∨ (clients.map Prod.fst).Nodup) {store : ι → Option V}
    (ready : ∀ client ∈ clients, (store client.1).isSome = was) : ∃ last,
      (clients.map Prod.snd).foldlM (fun store first => first.run store) store = some last ∧
        (∀ id ∈ clients.map Prod.fst, (last id).isSome = will) ∧
          ∀ id ∉ clients.map Prod.fst, last id = store id := by
  induction clients generalizing store with
  | nil => exact ⟨store, rfl, by simp, fun _ _ => rfl⟩
  | cons client clients ih =>
    obtain ⟨store', one, changed, frame⟩ := moves client List.mem_cons_self store (ready client List.mem_cons_self)
    have ready' : ∀ other ∈ clients, (store' other.1).isSome = was := by
      intro other member
      by_cases same : other.1 = client.1
      · rcases distinct with equal | nodup
        · rw [same, changed, equal]
        · rw [List.map_cons, List.nodup_cons] at nodup
          exact absurd (same ▸ List.mem_map_of_mem member) nodup.1
      · rw [frame other.1 same]
        exact ready other (List.mem_cons_of_mem client member)
    obtain ⟨last, rest, moved, kept⟩ := ih (fun other member => moves other (List.mem_cons_of_mem client member))
      (distinct.imp_right fun nodup => (List.nodup_cons.mp nodup).2) ready'
    refine ⟨last, ?_, ?_, ?_⟩
    · rw [List.map_cons, List.foldlM_cons, one]
      exact rest
    · intro id member
      by_cases later : id ∈ clients.map Prod.fst
      · exact moved id later
      · obtain rfl : id = client.1 := by simpa [later] using member
        rw [kept client.1 later, changed]
    · intro id outside
      rw [List.map_cons, List.mem_cons, not_or] at outside
      rw [kept id outside.2, frame id outside.1]

/-- Clients that all take their documents the same way -/
structure Batch (ι V : Type*) where
  was : Bool
  will : Bool
  clients : List (ι × Actions ι V)

namespace Batch

def names (batch : Batch ι V) : List ι := batch.clients.map Prod.fst

def actions (batch : Batch ι V) : List (Actions ι V) := batch.clients.map Prod.snd

/-- The batch can run on the store. -/
structure Fits (batch : Batch ι V) (store : ι → Option V) : Prop where
  moves : ∀ client ∈ batch.clients, Moves batch.was batch.will client.1 client.2
  distinct : batch.was = batch.will ∨ batch.names.Nodup
  ready : ∀ id ∈ batch.names, (store id).isSome = batch.was

/-- The first batch is not in the way of the second one. -/
def Before (first second : Batch ι V) : Prop :=
  first.was = first.will ∨ first.names.Disjoint second.names

/-- A batch that fits runs, and those that come after it still fit. -/
theorem Fits.run {batch : Batch ι V} {store : ι → Option V} (fits : batch.Fits store) : ∃ last,
    batch.actions.foldlM (fun store first => first.run store) store = some last ∧
      ∀ later : Batch ι V, batch.Before later → later.Fits store → later.Fits last := by
  obtain ⟨last, ran, moved, kept⟩ := exists_run fits.moves fits.distinct
    (fun client member => fits.ready client.1 (List.mem_map_of_mem member))
  refine ⟨last, ran, ?_⟩
  intro later before fitsLater
  refine ⟨fitsLater.moves, fitsLater.distinct, ?_⟩
  intro id member
  by_cases touched : id ∈ batch.names
  · rcases before with same | apart
    · rw [moved id touched, ← same, ← fits.ready id touched]
      exact fitsLater.ready id member
    · exact absurd member (apart touched)
  · rw [kept id touched]
    exact fitsLater.ready id member

end Batch

end Actions

end Taf.Lib
