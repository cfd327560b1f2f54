import Taf.Transactions.SimpleTransaction

/-! # What both modes of a transaction leave

A synchronous call and the reactive transactions leave the same content exactly if nothing depends on
the number of updates. -/

namespace Taf.SimpleTransaction

open Taf.Lib Taf.Lib.Actions

variable {κ α : Type}

/-! ## Transactions one after the other -/

theorem transact_done {commit : Bool} {lambda : List ℕ → Content κ α → Option (Content κ α)}
    {state : Progress κ α} (success : (transact commit lambda state).1.failed = false) :
    state.failed = false ∧ ∃ staged, lambda (state.fates 0).order state.content = some staged ∧
      (transact commit lambda state).1.content = if commit then staged else state.content := by
  rw [transact] at success ⊢
  cases fault : (state.fates 0).fault with
  | true => simp [fault] at success
  | false =>
    cases staged : lambda (state.fates 0).order state.content with
    | none => simp [fault, staged] at success
    | some last =>
      simp only [fault, staged] at success ⊢
      exact ⟨success, last, rfl, rfl⟩

theorem transact_failed {commit : Bool} {lambda : List ℕ → Content κ α → Option (Content κ α)}
    {state : Progress κ α} (before : state.failed = false)
    (failure : (transact commit lambda state).1.failed = true) : (transact commit lambda state).2 ≠ [] := by
  rw [transact] at failure ⊢
  cases fault : (state.fates 0).fault with
  | true => exact (state.fates 0).logged
  | false =>
    cases staged : lambda (state.fates 0).order state.content with
    | none => exact (state.fates 0).logged
    | some last =>
      simp only [fault, staged, before] at failure
      cases failure

variable [DecidableEq κ]

/-- A reactive transaction, where there is something to do -/
def runStep (commit : Bool) (state : Progress κ α × List String)
    (batch : List (Actions (κ × String) (JsonObject α))) : Progress κ α × List String :=
  match batch with
  | [] => state
  | firstDoc :: remainingDocs => transact commit (reactive firstDoc remainingDocs) state.1

omit [DecidableEq κ] in
/-- A transaction that cannot succeed is reported. -/
theorem transact_stuck {commit : Bool} {lambda : List ℕ → Content κ α → Option (Content κ α)}
    {state : Progress κ α} (stuck : ∀ order, lambda order state.content = none) :
    (transact commit lambda state).2 ≠ [] := by
  rw [transact, stuck]
  cases (state.fates 0).fault <;> exact (state.fates 0).logged

/-- The first document may as well be taken together with the others. -/
theorem reactive_interleave {firstDoc : Actions (κ × String) (JsonObject α)}
    {remainingDocs : List (Actions (κ × String) (JsonObject α))} {order : List ℕ} {content staged : Content κ α}
    (success : reactive firstDoc remainingDocs order content = some staged) :
    ∃ order, interleave order (firstDoc :: remainingDocs) content = some staged := by
  rw [reactive] at success
  obtain ⟨next, one, rest⟩ := Option.bind_eq_some_iff.mp success
  split at rest
  · rename_i alone
    have rest : interleave [] remainingDocs next = some staged := by
      rw [List.length_eq_zero_iff.mp alone]
      exact rest
    exact interleave_first one rest
  · exact interleave_first one rest

theorem reactive_of_runAll {firstDoc : Actions (κ × String) (JsonObject α)}
    {remainingDocs : List (Actions (κ × String) (JsonObject α))} {content staged : Content κ α}
    (success : runAll (firstDoc :: remainingDocs) content = some staged) :
    ∃ order, reactive firstDoc remainingDocs order content = some staged := by
  rw [runAll, List.foldlM_cons] at success
  obtain ⟨next, one, rest⟩ := Option.bind_eq_some_iff.mp success
  obtain ⟨order, ended⟩ := exists_interleave remainingDocs [] (by simp) rest
  refine ⟨order, ?_⟩
  rw [reactive, one]
  show (if remainingDocs.length = 0 then some next else _) = _
  split
  · rename_i alone
    rw [List.length_eq_zero_iff.mp alone] at rest
    exact rest
  · exact ended

theorem runStep_failed {commit : Bool} {state : Progress κ α × List String}
    {batch : List (Actions (κ × String) (JsonObject α))}
    (success : (runStep commit state batch).1.failed = false) : state.1.failed = false := by
  cases batch with
  | nil => exact success
  | cons firstDoc remainingDocs => exact (transact_done success).1

theorem foldl_runStep_failed {commit : Bool} {batches : List (List (Actions (κ × String) (JsonObject α)))}
    {state : Progress κ α × List String}
    (success : (batches.foldl (runStep commit) state).1.failed = false) : state.1.failed = false := by
  induction batches generalizing state with
  | nil => exact success
  | cons batch batches ih => exact runStep_failed (ih success)

/-- Without a commit nothing changes. -/
theorem foldl_runStep_rollback {batches : List (List (Actions (κ × String) (JsonObject α)))}
    {state : Progress κ α × List String}
    (success : (batches.foldl (runStep false) state).1.failed = false) :
    (batches.foldl (runStep false) state).1.content = state.1.content := by
  induction batches generalizing state with
  | nil => rfl
  | cons batch batches ih =>
    rw [List.foldl_cons] at success ⊢
    rw [ih success]
    cases batch with
    | nil => rfl
    | cons firstDoc remainingDocs =>
      obtain ⟨_, _, _, same⟩ := transact_done (foldl_runStep_failed success)
      exact same

section

variable {allowed : κ × String → Option (JsonObject α) → Prop} {target : Content κ α}

/-- Committed batches leave every document that they write with its last value. -/
theorem foldl_runStep_leads {batches : List (List (Actions (κ × String) (JsonObject α) × List (κ × String)))}
    (leads : ∀ batch ∈ batches, ∀ client ∈ batch, Leads allowed target client.1 client.2)
    {state : Progress κ α × List String} (proper : ∀ id, allowed id (state.1.content id))
    (success : ((batches.map (List.map Prod.fst)).foldl (runStep true) state).1.failed = false) :
    (∀ id ∈ batches.flatten.flatMap Prod.snd,
      ((batches.map (List.map Prod.fst)).foldl (runStep true) state).1.content id = target id) ∧
    ∀ id ∉ batches.flatten.flatMap Prod.snd,
      ((batches.map (List.map Prod.fst)).foldl (runStep true) state).1.content id = state.1.content id := by
  induction batches generalizing state with
  | nil => exact ⟨by simp, fun _ _ => rfl⟩
  | cons batch batches ih =>
    rw [List.map_cons, List.foldl_cons] at success ⊢
    have one : (∀ id, allowed id ((runStep true state (batch.map Prod.fst)).1.content id)) ∧
        (∀ id ∈ batch.flatMap Prod.snd, (runStep true state (batch.map Prod.fst)).1.content id = target id) ∧
          ∀ id ∉ batch.flatMap Prod.snd,
            (runStep true state (batch.map Prod.fst)).1.content id = state.1.content id := by
      cases batch with
      | nil => exact ⟨proper, by simp, fun _ _ => rfl⟩
      | cons client clients =>
        obtain ⟨_, staged, ran, same⟩ := transact_done (foldl_runStep_failed success)
        obtain ⟨order, ended⟩ := reactive_interleave ran
        have effect := interleave_leads order (leads (client :: clients) List.mem_cons_self) proper ended
        have now : (runStep true state ((client :: clients).map Prod.fst)).1.content = staged := same
        rw [now]
        exact effect
    obtain ⟨proper', wanted, kept⟩ := one
    obtain ⟨later, frame⟩ := ih (fun other member => leads other (List.mem_cons_of_mem batch member)) proper' success
    refine ⟨?_, ?_⟩
    · intro id member
      by_cases rest : id ∈ batches.flatten.flatMap Prod.snd
      · exact later id rest
      · rw [frame id rest]
        apply wanted
        simpa [rest] using member
    · intro id outside
      rw [List.flatten_cons, List.flatMap_append, List.mem_append, not_or] at outside
      rw [frame id outside.2, kept id outside.1]

end

namespace Call

variable (call : Call κ α)

/-- The reactive transactions of a collection -/
def batches (collection : κ) : List (List (Actions (κ × String) (JsonObject α))) :=
  [call.createkeys.map (insertOne collection), call.updatekeys.map (replaceOne collection),
    call.deletekeys.map (removeOne collection)]

theorem runTransaction_async (fates : ℕ → Fate κ α) : call.runTransaction false fates =
    (call.collections.flatMap call.batches).foldl (runStep call.commit) (⟨call.content, fates, false⟩, []) := by
  have body (state : Progress κ α × List String) (collection : κ) :
      call.runCollection state collection = (call.batches collection).foldl (runStep call.commit) state := by
    rw [runCollection, batches]
    cases call.createkeys <;> cases call.updatekeys <;> cases call.deletekeys <;> rfl
  rw [runTransaction, List.foldl_flatMap]
  show call.collections.foldl call.runCollection _ = _
  congr 1
  funext state collection
  exact body state collection

theorem runTransaction_sync (fates : ℕ → Fate κ α) : call.runTransaction true fates =
    transact call.commit (fun _ => call.lambda) ⟨call.content, fates, false⟩ := rfl

/-! ## The last values of the documents -/

/-- What a committed call leaves, if documents are updated so many times -/
def target (count : ℕ) : Content κ α := fun id =>
  if id.1 ∈ call.collections then
    match call.createkeys.find? fun document => document.1 = id.2 with
    | some document => some document.2
    | none =>
      if id.2 ∈ call.updatekeys then (call.content id).map (putMutated count)
      else if id.2 ∈ call.deletekeys then none
      else call.content id
  else call.content id

/-- An updated document differs only in the number of its updates. -/
def Allowed (id : κ × String) (value : Option (JsonObject α)) : Prop :=
  id.2 ∈ call.updatekeys → ∀ count, value.map (putMutated count) = (call.content id).map (putMutated count)

variable {call} {collection : κ} {count : ℕ}

omit [DecidableEq κ] in
theorem fresh_iff {document : String × JsonObject α} (member : document ∈ call.createkeys) :
    document.1 ∉ call.updatekeys ∧ document.1 ∉ call.deletekeys := by
  have fresh := call.fresh document member
  rw [List.mem_append, not_or] at fresh
  exact fresh

omit [DecidableEq κ] in
theorem find?_none {key : String} (other : key ∈ call.updatekeys ++ call.deletekeys) :
    (call.createkeys.find? fun document => document.1 = key) = none := by
  rw [List.find?_eq_none]
  intro document member same
  exact call.fresh document member (of_decide_eq_true same ▸ other)

theorem target_created (distinct : (call.createkeys.map Prod.fst).Nodup) (inside : collection ∈ call.collections)
    {document : String × JsonObject α} (member : document ∈ call.createkeys) :
    call.target count (collection, document.1) = some document.2 := by
  rw [target, if_pos inside]
  show (match call.createkeys.find? fun other => other.1 = document.1 with | some other => _ | none => _) = _
  rw [find?_named distinct member]

theorem target_updated (inside : collection ∈ call.collections) {key : String} (member : key ∈ call.updatekeys) :
    call.target count (collection, key) = (call.content (collection, key)).map (putMutated count) := by
  rw [target, if_pos inside]
  simp only [find?_none (List.mem_append_left _ member), if_pos member]

theorem target_deleted (inside : collection ∈ call.collections) {key : String} (member : key ∈ call.deletekeys) :
    call.target count (collection, key) = none := by
  have other : key ∉ call.updatekeys := fun updated => call.apart key updated member
  rw [target, if_pos inside]
  simp only [find?_none (List.mem_append_right _ member), if_neg other, if_pos member]

/-- The documents that a call is about -/
def Touches (call : Call κ α) (id : κ × String) : Prop :=
  id.1 ∈ call.collections ∧
    (id.2 ∈ call.createkeys.map Prod.fst ∨ id.2 ∈ call.updatekeys ∨ id.2 ∈ call.deletekeys)

theorem target_other {id : κ × String} (outside : ¬ call.Touches id) : call.target count id = call.content id := by
  rw [target]
  split
  · rename_i inside
    have missing : id.2 ∉ call.createkeys.map Prod.fst ∧ id.2 ∉ call.updatekeys ∧ id.2 ∉ call.deletekeys := by
      rw [Touches] at outside
      tauto
    have none : (call.createkeys.find? fun document => document.1 = id.2) = none := by
      rw [List.find?_eq_none]
      intro document member same
      exact missing.1 (List.mem_map.mpr ⟨document, member, of_decide_eq_true same⟩)
    simp only [none, if_neg missing.2.1, if_neg missing.2.2]
  · rfl

@[simp] theorem putMutated_twice (first second : ℕ) (content : JsonObject α) :
    putMutated second (putMutated first content) = putMutated second content := by
  simp [putMutated]

omit [DecidableEq κ] in
theorem allowed_initial (id : κ × String) : call.Allowed id (call.content id) := fun _ _ => rfl

omit [DecidableEq κ] in
theorem allowed_other {id : κ × String} (other : id.2 ∉ call.updatekeys) (value : Option (JsonObject α)) :
    call.Allowed id value := fun updated => absurd updated other

omit [DecidableEq κ] in
theorem allowed_put {id : κ × String} {value : JsonObject α} (proper : call.Allowed id (some value)) (i : ℕ) :
    call.Allowed id (some (putMutated i value)) := by
  intro updated count
  rw [← proper updated count]
  simp

/-! ## What each client writes -/

theorem leads_insertAndRead (distinct : (call.createkeys.map Prod.fst).Nodup)
    (inside : collection ∈ call.collections) {document : String × JsonObject α} (member : document ∈ call.createkeys) :
    Leads call.Allowed (call.target count) (insertAndRead (collection, document.1) document.2)
      [(collection, document.1)] :=
  .insert (allowed_other (fresh_iff member).1 _) (Or.inr (target_created distinct inside member))
    (.get fun _ _ => .done)

theorem leads_insertOne (distinct : (call.createkeys.map Prod.fst).Nodup)
    (inside : collection ∈ call.collections) {document : String × JsonObject α} (member : document ∈ call.createkeys) :
    Leads call.Allowed (call.target count) (insertOne collection document) [(collection, document.1)] :=
  .insert (allowed_other (fresh_iff member).1 _) (Or.inr (target_created distinct inside member)) .done

theorem leads_replaceEach {id : κ × String} {value : JsonObject α} (proper : call.Allowed id (some value))
    (target : call.target count id = some (putMutated count value)) (counts : List ℕ)
    (last : counts.getLast? = some count) :
    Leads call.Allowed (call.target count) (replaceEach id value counts) (List.replicate counts.length id) := by
  induction counts with
  | nil => cases last
  | cons i counts ih =>
    cases counts with
    | nil =>
      obtain rfl : i = count := by simpa using last
      exact .replace (allowed_put proper i) (Or.inr target) .done
    | cons next counts =>
      have rest := ih (by simpa using last)
      exact .replace (allowed_put proper i) (Or.inl (by simp)) rest

theorem leads_replaceCounted (inside : collection ∈ call.collections) {key : String}
    (member : key ∈ call.updatekeys) :
    Leads call.Allowed (call.target call.updatecount) (replaceCounted call.updatecount (collection, key))
      (List.replicate call.updatecount (collection, key)) := by
  apply Leads.get
  intro value proper
  have last : (List.range' 1 call.updatecount).getLast? = some call.updatecount := by
    have counted := call.counted
    rw [List.getLast?_range', if_neg (by omega)]
    congr 1
    omega
  have leads := leads_replaceEach proper (by
    rw [target_updated inside member, ← proper member]
    rfl) (List.range' 1 call.updatecount) last
  rwa [List.length_range'] at leads

theorem leads_replaceOne (inside : collection ∈ call.collections) {key : String}
    (member : key ∈ call.updatekeys) :
    Leads call.Allowed (call.target 1) (replaceOne collection key) [(collection, key)] := by
  apply Leads.get
  intro value proper
  refine .replace (allowed_put proper 1) (Or.inr ?_) .done
  rw [target_updated inside member, ← proper member]
  rfl

/-- Both modes remove a document in the same way. -/
theorem leads_getAndRemove (inside : collection ∈ call.collections) {key : String}
    (member : key ∈ call.deletekeys) :
    Leads call.Allowed (call.target count) (getAndRemove (collection, key)) [(collection, key)] := by
  have other : key ∉ call.updatekeys := fun updated => call.apart key updated member
  exact .get fun _ _ => .remove (allowed_other other none) (Or.inr (target_deleted inside member)) .done

/-! ## The synchronous mode -/

theorem lambda_some {content staged : Content κ α} (success : call.lambda content = some staged) :
    runAll (call.creates ++ call.updates ++ call.deletes) content = some staged ∧
      (call.updates = [] ∨ call.updatecount < intMax) := by
  rw [lambda] at success
  obtain ⟨first, created, rest⟩ := Option.bind_eq_some_iff.mp success
  simp only at rest
  split at rest
  · rename_i ends
    obtain ⟨second, updated, deleted⟩ := Option.bind_eq_some_iff.mp rest
    refine ⟨?_, by simpa using ends⟩
    rw [runAll] at created updated deleted ⊢
    simp only [List.foldlM_append, created, updated, deleted, Option.bind_eq_bind, Option.bind_some]
  · cases rest

/-- No document is created twice or deleted twice. -/
theorem nodup_of_lambda {content staged : Content κ α} (success : call.lambda content = some staged) :
    call.created.Nodup ∧ call.deleted.Nodup := by
  obtain ⟨order, ended⟩ := exists_interleave _ [] (by simp) (lambda_some success).1
  let clients : List (Actions (κ × String) (JsonObject α) × List ((κ × String) × Bool)) :=
    (call.collections.flatMap fun bucket => call.createkeys.map fun document =>
      (insertAndRead (bucket, document.1) document.2, [((bucket, document.1), true)])) ++
    (call.updatekeys.flatMap fun key => call.collections.map fun bucket =>
      (replaceCounted call.updatecount (bucket, key), [])) ++
    (call.deletekeys.flatMap fun key => call.collections.map fun bucket =>
      (getAndRemove (bucket, key), [((bucket, key), false)]))
  have names : clients.map Prod.fst = [] ++ (call.creates ++ call.updates ++ call.deletes) := by
    simp [clients, creates, updates, deletes, List.map_flatMap, Function.comp_def]
  have flips : clients.flatMap Prod.snd =
      call.created.map (fun id => (id, true)) ++ call.deleted.map (fun id => (id, false)) := by
    simp only [clients, List.flatMap_append, List.flatMap_assoc, List.flatMap_map]
    simp [created, deleted, List.flatMap_assoc, List.map_eq_flatMap]
  have replaces (id : κ × String) (value : JsonObject α) (counts : List ℕ) :
      Flips (replaceEach id value counts) [] := by
    induction counts with
    | nil => exact .done
    | cons i counts ih => exact .replace ih
  have shapes : ∀ client ∈ clients, Flips client.1 client.2 := by
    intro client member
    simp only [clients, List.mem_append, List.mem_flatMap, List.mem_map] at member
    rcases member with (⟨_, _, _, _, rfl⟩ | ⟨_, _, _, _, rfl⟩) | ⟨_, _, _, _, rfl⟩
    · exact .insert (.get fun _ => .done)
    · exact .get fun _ => replaces _ _ _
    · exact .get fun _ => .remove .done
  rw [← names] at ended
  have distinct := interleave_nodup order shapes (by
    intro id made member
    rw [flips] at member ⊢
    -- A created document is not deleted.
    have apart : id ∈ call.created → id ∉ call.deleted := by
      intro created deleted
      obtain ⟨_, _, document, inside, rfl⟩ := by simpa only [Call.created, List.mem_flatMap, List.mem_map] using created
      simp only [Call.deleted, List.mem_flatMap, List.mem_map, Prod.mk.injEq] at deleted
      obtain ⟨key, gone, _, _, _, rfl⟩ := deleted
      exact (fresh_iff inside).2 gone
    cases made <;> simp at member ⊢ <;> tauto) ended
  rw [flips] at distinct
  exact ⟨(List.nodup_append.mp distinct).1.of_map _, (List.nodup_append.mp distinct).2.1.of_map _⟩

omit [DecidableEq κ] in
theorem names_nodup (distinct : call.created.Nodup) (inside : collection ∈ call.collections) :
    (call.createkeys.map Prod.fst).Nodup := by
  have own := (List.nodup_flatMap.mp distinct).1 collection inside
  have mapped : ((call.createkeys.map Prod.fst).map fun key => (collection, key)).Nodup := by
    rw [List.map_map]
    exact own
  exact mapped.of_map _

/-- Documents that are written have their last values, all others are as they were. -/
theorem eq_target {last : Content κ α} (wanted : ∀ id, call.Touches id → last id = call.target count id)
    (kept : ∀ id, ¬ call.Touches id → last id = call.content id) : last = call.target count := by
  funext id
  by_cases touched : call.Touches id
  · exact wanted id touched
  · rw [kept id touched, target_other touched]

theorem sync_content {staged : Content κ α} (success : call.lambda call.content = some staged) :
    staged = call.target call.updatecount := by
  have distinct := (nodup_of_lambda success).1
  obtain ⟨order, ended⟩ := exists_interleave _ [] (by simp) (lambda_some success).1
  let clients : List (Actions (κ × String) (JsonObject α) × List (κ × String)) :=
    (call.collections.flatMap fun bucket => call.createkeys.map fun document =>
      (insertAndRead (bucket, document.1) document.2, [(bucket, document.1)])) ++
    (call.updatekeys.flatMap fun key => call.collections.map fun bucket =>
      (replaceCounted call.updatecount (bucket, key), List.replicate call.updatecount (bucket, key))) ++
    (call.deletekeys.flatMap fun key => call.collections.map fun bucket =>
      (getAndRemove (bucket, key), [(bucket, key)]))
  have names : clients.map Prod.fst = [] ++ (call.creates ++ call.updates ++ call.deletes) := by
    simp [clients, creates, updates, deletes, List.map_flatMap, Function.comp_def]
  have leads : ∀ client ∈ clients, Leads call.Allowed (call.target call.updatecount) client.1 client.2 := by
    intro client member
    simp only [clients, List.mem_append, List.mem_flatMap, List.mem_map] at member
    rcases member with (⟨_, inside, _, document, rfl⟩ | ⟨_, key, _, inside, rfl⟩) | ⟨_, key, _, inside, rfl⟩
    · exact leads_insertAndRead (names_nodup distinct inside) inside document
    · exact leads_replaceCounted inside key
    · exact leads_getAndRemove inside key
  have ids (id : κ × String) : id ∈ clients.flatMap Prod.snd ↔ call.Touches id := by
    obtain ⟨collection, key⟩ := id
    have counted : call.updatecount ≠ 0 := Nat.ne_of_gt call.counted
    simp only [clients, List.flatMap_append, List.flatMap_assoc, List.flatMap_map, List.mem_append, List.mem_flatMap,
      List.mem_replicate, List.mem_singleton, Prod.mk.injEq, Touches, List.mem_map]
    grind
  rw [← names] at ended
  obtain ⟨_, wanted, kept⟩ := interleave_leads order leads allowed_initial ended
  simp only [ids] at wanted kept
  exact eq_target wanted kept

/-! ## The reactive mode -/

theorem async_content (commits : call.commit = true) (distinct : call.created.Nodup) {fates : ℕ → Fate κ α}
    (success : (call.runTransaction false fates).1.failed = false) :
    (call.runTransaction false fates).1.content = call.target 1 := by
  rw [runTransaction_async, commits] at success ⊢
  let clients (collection : κ) : List (List (Actions (κ × String) (JsonObject α) × List (κ × String))) :=
    [call.createkeys.map fun document => (insertOne collection document, [(collection, document.1)]),
      call.updatekeys.map fun key => (replaceOne collection key, [(collection, key)]),
      call.deletekeys.map fun key => (removeOne collection key, [(collection, key)])]
  have names : (call.collections.flatMap clients).map (List.map Prod.fst) = call.collections.flatMap call.batches := by
    rw [List.map_flatMap]
    congr 1
    funext collection
    simp [clients, batches, Function.comp_def]
  have leads : ∀ batch ∈ call.collections.flatMap clients, ∀ client ∈ batch,
      Leads call.Allowed (call.target 1) client.1 client.2 := by
    intro batch member client own
    obtain ⟨collection, inside, part⟩ := List.mem_flatMap.mp member
    simp only [clients, List.mem_cons, List.not_mem_nil, or_false] at part
    rcases part with rfl | rfl | rfl
    · obtain ⟨document, listed, rfl⟩ := List.mem_map.mp own
      exact leads_insertOne (names_nodup distinct inside) inside listed
    · obtain ⟨key, listed, rfl⟩ := List.mem_map.mp own
      exact leads_replaceOne inside listed
    · obtain ⟨key, listed, rfl⟩ := List.mem_map.mp own
      exact leads_getAndRemove inside listed
  have ids (id : κ × String) : id ∈ (call.collections.flatMap clients).flatten.flatMap Prod.snd ↔ call.Touches id := by
    obtain ⟨collection, key⟩ := id
    rw [List.flatten_eq_flatMap, List.flatMap_assoc, List.flatMap_assoc]
    simp only [clients, List.flatMap_cons, List.flatMap_nil, List.flatMap_map, id, List.append_nil,
      List.mem_flatMap, List.mem_append, List.mem_singleton, Prod.mk.injEq, Touches, List.mem_map]
    grind
  rw [← names] at success ⊢
  obtain ⟨wanted, kept⟩ := foldl_runStep_leads leads allowed_initial success
  simp only [ids] at wanted kept
  exact eq_target wanted kept

/-! ## Calls that do not fail -/

end Call

theorem moves_insertAndRead (id : κ × String) (document : JsonObject α) :
    Moves false true id (insertAndRead id document) := by
  intro content absent
  refine ⟨Function.update content id (some document), ?_, ?_, fun other apart => Function.update_of_ne apart _ _⟩
  · rw [insertAndRead, Actions.run, if_neg (by rw [absent]; decide), Actions.run, Function.update_self]
    rfl
  · rw [Function.update_self, Option.isSome_some]

theorem moves_insertOne (collection : κ) (document : String × JsonObject α) :
    Moves false true (collection, document.1) (insertOne collection document) := by
  intro content absent
  refine ⟨Function.update content _ (some document.2), ?_, ?_, fun other apart => Function.update_of_ne apart _ _⟩
  · rw [insertOne, Actions.run, if_neg (by rw [absent]; decide), Actions.run]
  · rw [Function.update_self, Option.isSome_some]

theorem moves_replaceEach (id : κ × String) (value : JsonObject α) (counts : List ℕ) :
    Moves true true id (replaceEach id value counts) := by
  induction counts with
  | nil => exact fun content present => ⟨content, rfl, present, fun _ _ => rfl⟩
  | cons i counts ih =>
    intro content present
    obtain ⟨last, ran, still, kept⟩ := ih (Function.update content id (some (putMutated i value)))
      (by rw [Function.update_self, Option.isSome_some])
    refine ⟨last, ?_, still, ?_⟩
    · rw [replaceEach, Actions.run, if_pos present]
      exact ran
    · intro other apart
      rw [kept other apart, Function.update_of_ne apart]

/-- A document that is read first is there. -/
theorem moves_get {will : Bool} {id : κ × String} {next : JsonObject α → Actions (κ × String) (JsonObject α)}
    (rest : ∀ value, Moves true will id (next value)) : Moves true will id (.get id next) := by
  intro content present
  obtain ⟨value, found⟩ := Option.isSome_iff_exists.mp present
  obtain ⟨last, ran, moved, kept⟩ := rest value content present
  refine ⟨last, ?_, moved, kept⟩
  rw [Actions.run, found]
  exact ran

theorem moves_replaceOne (collection : κ) (key : String) :
    Moves true true (collection, key) (@replaceOne _ α collection key) :=
  moves_get fun value => moves_replaceEach (collection, key) value [1]

theorem moves_getAndRemove (id : κ × String) : Moves true false id (@getAndRemove _ α id) := by
  apply moves_get
  intro value content present
  refine ⟨Function.update content id none, ?_, ?_, fun other apart => Function.update_of_ne apart _ _⟩
  · rw [Actions.run, if_pos present, Actions.run]
  · rw [Function.update_self, Option.isSome_none]

/-- Batches that fit and are not in each other's way all run, in some order of the turns. -/
theorem exists_fates (batches : List (Batch (κ × String) (JsonObject α))) {content : Content κ α}
    (fits : ∀ batch ∈ batches, batch.Fits content) (order : batches.Pairwise Batch.Before) (res : List String) :
    ∃ fates, ((batches.map Batch.actions).foldl (runStep true) (⟨content, fates, false⟩, res)).1.failed = false := by
  induction batches generalizing content res with
  | nil => exact ⟨fun _ => ⟨[], false, [""], by simp, content⟩, rfl⟩
  | cons batch batches ih =>
    obtain ⟨before, order⟩ := List.pairwise_cons.mp order
    obtain ⟨last, ran, still⟩ := (fits batch List.mem_cons_self).run
    have later : ∀ other ∈ batches, other.Fits last := fun other member =>
      still other (before other member) (fits other (List.mem_cons_of_mem batch member))
    rw [List.map_cons]
    cases actions : batch.actions with
    | nil =>
      rw [actions] at ran
      obtain rfl : content = last := Option.some_inj.mp ran
      exact ih later order res
    | cons firstDoc remainingDocs =>
      rw [actions] at ran
      obtain ⟨turns, ended⟩ := reactive_of_runAll ran
      obtain ⟨fates, success⟩ := ih later order []
      -- This transaction has no fault, those after it have the fates of the hypothesis.
      obtain ⟨all, first, rest⟩ : ∃ all : ℕ → Fate κ α,
          all 0 = ⟨turns, false, [""], by simp, content⟩ ∧ (fun n => all (n + 1)) = fates :=
        ⟨fun n => @Nat.casesOn (fun _ => Fate κ α) n _ fates, rfl, rfl⟩
      refine ⟨all, ?_⟩
      rw [List.foldl_cons, runStep, transact]
      simp only [first, rest, ended]
      exact success

namespace Call

variable {call : Call κ α}

omit [DecidableEq κ] in
theorem isSome_created {id : κ × String} (member : id ∈ call.created) : (call.content id).isSome = false := by
  simp only [Call.created, List.mem_flatMap, List.mem_map] at member
  obtain ⟨collection, inside, document, listed, rfl⟩ := member
  rw [call.absent collection inside document listed, Option.isSome_none]

omit [DecidableEq κ] in
theorem isSome_deleted {id : κ × String} (member : id ∈ call.deleted) : (call.content id).isSome = true := by
  simp only [Call.deleted, List.mem_flatMap, List.mem_map] at member
  obtain ⟨key, listed, collection, inside, rfl⟩ := member
  exact call.present collection inside key (List.mem_append_right _ listed)

theorem exists_lambda (created : call.created.Nodup) (deleted : call.deleted.Nodup)
    (ends : call.updatecount < intMax) : ∃ staged, call.lambda call.content = some staged := by
  let first : Batch (κ × String) (JsonObject α) :=
    ⟨false, true, call.collections.flatMap fun bucket => call.createkeys.map fun document =>
      ((bucket, document.1), insertAndRead (bucket, document.1) document.2)⟩
  let second : Batch (κ × String) (JsonObject α) :=
    ⟨true, true, call.updatekeys.flatMap fun key => call.collections.map fun bucket =>
      ((bucket, key), replaceCounted call.updatecount (bucket, key))⟩
  let third : Batch (κ × String) (JsonObject α) :=
    ⟨true, false, call.deletekeys.flatMap fun key => call.collections.map fun bucket =>
      ((bucket, key), getAndRemove (bucket, key))⟩
  have names : first.names = call.created ∧ third.names = call.deleted := by
    simp [first, third, Batch.names, Call.created, Call.deleted, List.map_flatMap, Function.comp_def]
  have actions : first.actions = call.creates ∧ second.actions = call.updates ∧ third.actions = call.deletes := by
    simp [first, second, third, Batch.actions, creates, updates, deletes, List.map_flatMap, Function.comp_def]
  have fitsFirst : first.Fits call.content := by
    refine ⟨?_, Or.inr (names.1 ▸ created), ?_⟩
    · intro client member
      simp only [first, List.mem_flatMap, List.mem_map] at member
      obtain ⟨bucket, _, document, _, rfl⟩ := member
      exact moves_insertAndRead (bucket, document.1) document.2
    · intro id member
      rw [names.1] at member
      exact isSome_created member
  have fitsSecond : second.Fits call.content := by
    refine ⟨?_, Or.inl rfl, ?_⟩
    · intro client member
      simp only [second, List.mem_flatMap, List.mem_map] at member
      obtain ⟨key, _, bucket, _, rfl⟩ := member
      exact moves_get fun value => moves_replaceEach (bucket, key) value _
    · intro id member
      simp only [second, Batch.names, List.mem_map, List.mem_flatMap] at member
      obtain ⟨_, ⟨key, listed, bucket, inside, rfl⟩, rfl⟩ := member
      exact call.present bucket inside key (List.mem_append_left _ listed)
  have fitsThird : third.Fits call.content := by
    refine ⟨?_, Or.inr (names.2 ▸ deleted), ?_⟩
    · intro client member
      simp only [third, List.mem_flatMap, List.mem_map] at member
      obtain ⟨key, _, bucket, _, rfl⟩ := member
      exact moves_getAndRemove (bucket, key)
    · intro id member
      rw [names.2] at member
      exact isSome_deleted member
  -- A created document is absent, all others are present.
  have apart (other : Batch (κ × String) (JsonObject α)) (was : other.was = true) (fits : other.Fits call.content) :
      first.Before other := by
    right
    intro id made taken
    have absent := fitsFirst.ready id made
    rw [fits.ready id taken, was] at absent
    cases absent
  obtain ⟨one, ranFirst, after⟩ := fitsFirst.run
  obtain ⟨two, ranSecond, after'⟩ := (after second (apart second rfl fitsSecond) fitsSecond).run
  obtain ⟨three, ranThird, _⟩ := (after' third (Or.inl rfl) (after third (apart third rfl fitsThird) fitsThird)).run
  rw [actions.1] at ranFirst
  rw [actions.2.1] at ranSecond
  rw [actions.2.2] at ranThird
  refine ⟨three, ?_⟩
  rw [lambda]
  simp only [runAll, ranFirst, ranSecond, ranThird, ends, or_true, if_true, Option.bind_eq_bind, Option.bind_some]

/-! The reactive transactions of a collection, with the documents they are about -/

def createBatch (call : Call κ α) (collection : κ) : Batch (κ × String) (JsonObject α) :=
  ⟨false, true, call.createkeys.map fun document => ((collection, document.1), insertOne collection document)⟩

def updateBatch (call : Call κ α) (collection : κ) : Batch (κ × String) (JsonObject α) :=
  ⟨true, true, call.updatekeys.map fun key => ((collection, key), replaceOne collection key)⟩

def deleteBatch (call : Call κ α) (collection : κ) : Batch (κ × String) (JsonObject α) :=
  ⟨true, false, call.deletekeys.map fun key => ((collection, key), removeOne collection key)⟩

omit [DecidableEq κ] in
theorem batches_eq (collection : κ) : call.batches collection =
    [call.createBatch collection, call.updateBatch collection, call.deleteBatch collection].map Batch.actions := by
  simp [createBatch, updateBatch, deleteBatch, batches, Batch.actions, Function.comp_def]

theorem fits_createBatch (inside : collection ∈ call.collections)
    (distinct : (call.createkeys.map Prod.fst).Nodup) : (call.createBatch collection).Fits call.content := by
  have named : Function.Injective fun key : String => (collection, key) := fun _ _ same => (Prod.mk.inj same).2
  have names : (call.createBatch collection).names =
      (call.createkeys.map Prod.fst).map fun key => (collection, key) := by
    simp [createBatch, Batch.names, Function.comp_def]
  refine ⟨?_, Or.inr (names ▸ distinct.map named), ?_⟩
  · intro client own
    obtain ⟨document, _, rfl⟩ := List.mem_map.mp own
    exact moves_insertOne collection document
  · intro id own
    rw [names, List.map_map] at own
    obtain ⟨document, listed, rfl⟩ := List.mem_map.mp own
    show (call.content (collection, document.1)).isSome = false
    rw [call.absent collection inside document listed, Option.isSome_none]

theorem fits_updateBatch (inside : collection ∈ call.collections) :
    (call.updateBatch collection).Fits call.content := by
  refine ⟨?_, Or.inl rfl, ?_⟩
  · intro client own
    obtain ⟨key, _, rfl⟩ := List.mem_map.mp own
    exact moves_replaceOne collection key
  · intro id own
    simp only [updateBatch, Batch.names, List.map_map, List.mem_map] at own
    obtain ⟨key, listed, rfl⟩ := own
    exact call.present collection inside key (List.mem_append_left _ listed)

theorem fits_deleteBatch (inside : collection ∈ call.collections) (distinct : call.deletekeys.Nodup) :
    (call.deleteBatch collection).Fits call.content := by
  have named : Function.Injective fun key : String => (collection, key) := fun _ _ same => (Prod.mk.inj same).2
  have names : (call.deleteBatch collection).names = call.deletekeys.map fun key => (collection, key) := by
    simp [deleteBatch, Batch.names, Function.comp_def]
  refine ⟨?_, Or.inr (names ▸ distinct.map named), ?_⟩
  · intro client own
    obtain ⟨key, _, rfl⟩ := List.mem_map.mp own
    exact moves_getAndRemove (collection, key)
  · intro id own
    rw [names] at own
    obtain ⟨key, listed, rfl⟩ := List.mem_map.mp own
    exact call.present collection inside key (List.mem_append_right _ listed)

omit [DecidableEq κ] in
/-- The batches of one collection are not in each other's way. -/
theorem before_batches (collection : κ) :
    [call.createBatch collection, call.updateBatch collection, call.deleteBatch collection].Pairwise
      Batch.Before := by
  have apart (keys : List String) (fresh : ∀ document ∈ call.createkeys, document.1 ∉ keys)
      (later : Batch (κ × String) (JsonObject α)) (names : later.names = keys.map fun key => (collection, key)) :
      (call.createBatch collection).Before later := by
    right
    intro id made taken
    rw [names] at taken
    simp only [createBatch, Batch.names, List.map_map, List.mem_map] at made taken
    obtain ⟨document, listed, rfl⟩ := made
    obtain ⟨key, own, same⟩ := taken
    obtain rfl : key = document.1 := (Prod.mk.inj same).2
    exact fresh document listed own
  refine .cons ?_ (.cons ?_ (.cons (by simp) .nil))
  · intro later member
    simp only [List.mem_cons, List.not_mem_nil, or_false] at member
    rcases member with rfl | rfl
    · exact apart call.updatekeys (fun document listed => (fresh_iff listed).1) _
        (by simp [updateBatch, Batch.names, Function.comp_def])
    · exact apart call.deletekeys (fun document listed => (fresh_iff listed).2) _
        (by simp [deleteBatch, Batch.names, Function.comp_def])
  · intro later _
    exact Or.inl rfl

omit [DecidableEq κ] in
/-- Where documents are created or deleted, no collection is given twice. -/
theorem collections_nodup (created : call.created.Nodup) (deleted : call.deleted.Nodup)
    (some : call.createkeys ≠ [] ∨ call.deletekeys ≠ []) : call.collections.Nodup := by
  rcases some with makes | removes
  · obtain ⟨document, listed⟩ := List.exists_mem_of_ne_nil _ makes
    apply (List.nodup_flatMap.mp created).2.imp
    intro first second apart same
    subst same
    have own : (first, document.1) ∈ call.createkeys.map fun document => (first, document.1) :=
      List.mem_map_of_mem listed
    exact apart own own
  · obtain ⟨key, listed⟩ := List.exists_mem_of_ne_nil _ removes
    exact ((List.nodup_flatMap.mp deleted).1 key listed).of_map _

omit [DecidableEq κ] in
theorem deletekeys_nodup (deleted : call.deleted.Nodup) (inside : collection ∈ call.collections) :
    call.deletekeys.Nodup := by
  apply (List.nodup_flatMap.mp deleted).2.imp
  intro first second apart same
  subst same
  have own : (collection, first) ∈ call.collections.map fun collection => (collection, first) :=
    List.mem_map_of_mem inside
  exact apart own own

omit [DecidableEq κ] in
/-- The batches of two collections are not in each other's way, either. -/
theorem before_later (created : call.created.Nodup) (deleted : call.deleted.Nodup) :
    call.collections.Pairwise fun first second =>
      ∀ batch ∈ [call.createBatch first, call.updateBatch first, call.deleteBatch first],
        ∀ later ∈ [call.createBatch second, call.updateBatch second, call.deleteBatch second],
          batch.Before later := by
  have own (collection : κ) : ∀ batch ∈ [call.createBatch collection, call.updateBatch collection,
      call.deleteBatch collection], ∀ id ∈ batch.names, id.1 = collection := by
    intro batch member id listed
    simp only [List.mem_cons, List.not_mem_nil, or_false] at member
    rcases member with rfl | rfl | rfl <;>
      simp only [createBatch, updateBatch, deleteBatch, Batch.names, List.map_map, List.mem_map] at listed <;>
      obtain ⟨_, _, rfl⟩ := listed <;> rfl
  by_cases some : call.createkeys ≠ [] ∨ call.deletekeys ≠ []
  · apply (collections_nodup created deleted some).imp
    intro first second apart batch member later memberLater
    right
    intro id made taken
    exact apart ((own first batch member id made).symm.trans (own second later memberLater id taken))
  · -- Nothing but updates is made.
    apply List.pairwise_of_forall
    intro first second batch member later _
    simp only [not_or, not_not] at some
    simp only [List.mem_cons, List.not_mem_nil, or_false] at member
    rcases member with rfl | rfl | rfl
    · right
      simp [createBatch, Batch.names, some.1]
    · exact Or.inl rfl
    · right
      simp [deleteBatch, Batch.names, some.2]

theorem exists_async (created : call.created.Nodup) (deleted : call.deleted.Nodup) (commits : call.commit = true) :
    ∃ fates, (call.runTransaction false fates).1.failed = false := by
  let groups (collection : κ) :=
    [call.createBatch collection, call.updateBatch collection, call.deleteBatch collection]
  have fits : ∀ batch ∈ call.collections.flatMap groups, batch.Fits call.content := by
    intro batch member
    obtain ⟨collection, inside, own⟩ := List.mem_flatMap.mp member
    simp only [groups, List.mem_cons, List.not_mem_nil, or_false] at own
    rcases own with rfl | rfl | rfl
    · exact fits_createBatch inside (names_nodup created inside)
    · exact fits_updateBatch inside
    · exact fits_deleteBatch inside (deletekeys_nodup deleted inside)
  have order : (call.collections.flatMap groups).Pairwise Batch.Before := by
    rw [List.pairwise_flatMap]
    exact ⟨fun collection _ => before_batches collection, before_later created deleted⟩
  obtain ⟨fates, success⟩ := exists_fates _ fits order []
  refine ⟨fates, ?_⟩
  rw [runTransaction_async, commits]
  rw [List.map_flatMap] at success
  have same : call.batches = fun collection => (groups collection).map Batch.actions := by
    funext collection
    exact batches_eq collection
  rw [same]
  exact success

/-! ## When the modes agree -/

theorem sync_done {fates : ℕ → Fate κ α} (success : (call.runTransaction true fates).1.failed = false) :
    ∃ staged, call.lambda call.content = some staged ∧
      (call.runTransaction true fates).1.content = if call.commit then staged else call.content := by
  rw [runTransaction_sync] at success ⊢
  obtain ⟨_, staged, ran, same⟩ := transact_done success
  exact ⟨staged, ran, same⟩

theorem exists_sync {staged : Content κ α} (ran : call.lambda call.content = some staged) :
    ∃ fates, (call.runTransaction true fates).1.failed = false := by
  refine ⟨fun _ => ⟨[], false, [""], by simp, call.content⟩, ?_⟩
  rw [runTransaction_sync, transact]
  simp only [ran]

/-- Something is updated, and the updates are counted differently. -/
theorem target_ne (some : call.collections ≠ []) (updated : call.updatekeys ≠ []) (more : call.updatecount ≠ 1) :
    call.target call.updatecount ≠ call.target 1 := by
  obtain ⟨collection, inside⟩ := List.exists_mem_of_ne_nil _ some
  obtain ⟨key, listed⟩ := List.exists_mem_of_ne_nil _ updated
  intro same
  have own := congrFun same (collection, key)
  rw [target_updated inside listed, target_updated inside listed] at own
  obtain ⟨document, found⟩ := Option.isSome_iff_exists.mp
    (call.present collection inside key (List.mem_append_left _ listed))
  rw [found, Option.map_some, Option.map_some, Option.some_inj] at own
  have numbers := congrArg (Finmap.lookup "mutated") own
  simp only [putMutated, Finmap.lookup_insert, Option.some_inj, Json.int.injEq] at numbers
  exact more numbers

theorem target_eq (one : call.collections = [] ∨ call.updatekeys = [] ∨ call.updatecount = 1) :
    call.target call.updatecount = call.target 1 := by
  rcases one with none | none | one
  · funext id
    simp [target, none]
  · funext id
    simp [target, none]
  · rw [one]

theorem agrees_iff (call : Call κ α) : call.Agrees ↔ call.SameUpdates := by
  constructor
  · intro agrees
    by_contra different
    simp only [SameUpdates, not_or, not_not, Bool.not_eq_false] at different
    obtain ⟨commits, some, updated, more, ends, created, deleted⟩ := different
    obtain ⟨staged, ran⟩ := exists_lambda created deleted (lt_of_le_of_ne call.int ends)
    obtain ⟨fates, success⟩ := exists_sync ran
    obtain ⟨fates', success'⟩ := exists_async created deleted commits
    have same := (agrees fates fates' success success').1
    obtain ⟨staged', ran', content⟩ := sync_done success
    rw [content, commits, if_pos rfl, sync_content ran', async_content commits created success'] at same
    exact target_ne some updated more same
  · intro condition fates fates' success success'
    obtain ⟨staged, ran, content⟩ := sync_done success
    obtain ⟨created, deleted⟩ := nodup_of_lambda ran
    rw [content]
    by_cases commits : call.commit = true
    · refine ⟨?_, fun rollback => by rw [commits] at rollback; cases rollback⟩
      rw [if_pos commits, sync_content ran, async_content commits created success']
      rcases condition with rollback | none | none | one | endless | twice | twice
      · rw [commits] at rollback
        cases rollback
      · exact target_eq (Or.inl none)
      · exact target_eq (Or.inr (Or.inl none))
      · exact target_eq (Or.inr (Or.inr one))
      · -- The loop over the updates has ended, so there are none.
        apply target_eq
        rcases (lambda_some ran).2 with none | ends
        · rw [updates, List.flatMap_eq_nil_iff] at none
          by_cases updated : call.updatekeys = []
          · exact Or.inr (Or.inl updated)
          · obtain ⟨key, listed⟩ := List.exists_mem_of_ne_nil _ updated
            exact Or.inl (List.map_eq_nil_iff.mp (none key listed))
        · omega
      · exact absurd created twice
      · exact absurd deleted twice
    · have rollback : call.commit = false := by simpa using commits
      refine ⟨?_, fun _ => if_neg commits⟩
      rw [if_neg commits]
      rw [runTransaction_async, rollback] at success' ⊢
      exact (foldl_runStep_rollback success').symm

end Call

end Taf.SimpleTransaction
