import Taf.Lib.Run

/-! # The test dispatcher

`testDispatcher.py` launches a list of tests as Jenkins jobs.  It asks the server manager how many
servers are free, acquires servers for the first test that fits, asks for the servers of a second
pool if the test needs some, and sends the job.  Other dispatchers compete for the same servers,
and every request may fail; an exception goes back to the start of the loop.

One step of the model is one request and its answer, so that a run is a list of answers of any
kind.  A test leaves the list only when its job was sent. -/

namespace Taf.Runner.Dispatcher

open Taf.Lib

/-! ## Requests and answers -/

/-- What the loop reads of an entry of `tests_to_launch` -/
structure Test where
  component : String
  subcomponent : String
  serverCount : ℕ
  addPoolServerCount : ℕ
  deriving DecidableEq

structure Options where
  -- `serverType` is Docker and not VM
  docker : Bool
  noLaunch : Bool

/-- The content of a response: a number for `int`, what has a length after `json.loads`, or neither.  The elements
    of a list and the values of an object are as `json.dumps` writes them. -/
inductive Content where
  | number (value : ℤ)
  | servers (names : List String)
  | object (entries : List (String × String))
  | string (value : String)
  | text (other : String)
  deriving DecidableEq

/-- `len(json.loads(content))`; `none` is the exception. -/
def Content.len : Content → Option ℕ
  | .servers names => some names.length
  | .object entries => some entries.length
  | .string value => some value.length
  | .number _ | .text _ => none

structure Response where
  status : ℕ
  content : Content
  deriving DecidableEq

/-- What comes back of a request, which may raise -/
inductive Answer where
  | raised
  | response (response : Response)
  deriving DecidableEq

/-- The job of a test with the servers that are written into its URL -/
structure Launch where
  test : Test
  servers : Option Content
  addPoolServers : Option Content
  deriving DecidableEq

inductive Request where
  | availableCount
  | availableInAddPool
  | getServers (test : Test)
  | getAddPoolServers (test : Test)
  | launch (launch : Launch)
  | release (launch : Launch)
  deriving DecidableEq

/-! ## The loop -/

/-- Where the loop is; `i` is its index into `tests_to_launch` and `serverCount` the number of free servers. -/
inductive Phase where
  | poll
  | search (serverCount : ℤ) (i : ℕ)
  | acquire (i : ℕ)
  | acquireMore (i : ℕ) (response : Response)
  | launch (i : ℕ) (launch : Launch)
  | release (i : ℕ) (launch : Launch)
  | done

structure State where
  phase : Phase
  testsToLaunch : List Test
  summary : List Launch
  -- the requests that were sent and their answers
  log : List (Request × Answer)

/-- The first test from `i` on with no more servers than there are -/
def firstFit (serverCount : ℤ) (tests : List Test) (i : ℕ) : Option ℕ :=
  ((tests.drop i).findIdx? fun test => test.serverCount ≤ serverCount).map (i + ·)

/-- The inner loop up to its next request -/
def search (serverCount : ℤ) (tests : List Test) (i : ℕ) : Phase :=
  match firstFit serverCount tests i with
  | none => .poll
  | some j =>
    match tests[j]? with
    | none => .poll
    | some test => if test.addPoolServerCount ≠ 0 then .search serverCount j else .acquire j

/-- `len(json.loads(content)) != serverCount`, or an exception -/
def incomplete (test : Test) (content : Content) : Bool :=
  content.len ≠ some test.serverCount

/-- The parameters `servers` and `addPoolServers` of the URL -/
def jobOf (options : Options) (test : Test) (first : Response) (second : Option Response) : Launch where
  test := test
  servers := if options.docker then none else some first.content
  addPoolServers := if options.docker then none else second.map Response.content

section Step

variable (options : Options)

/-- `tests_to_launch.pop(i)`, and back to the head of the outer loop -/
def pop (s : State) (i : ℕ) (launch : Launch) : State :=
  let tests := s.testsToLaunch.eraseIdx i
  { s with
    phase := if tests = [] then .done else .poll
    testsToLaunch := tests
    summary := s.summary ++ [launch] }

/-- The loop when the servers are there: without a launch they are released, except for Docker. -/
def dispatch (s : State) (i : ℕ) (launch : Launch) : State :=
  if options.noLaunch then
    if options.docker then pop s i launch else { s with phase := .release i launch }
  else { s with phase := .launch i launch }

/-- What the loop does with a response -/
def respond (s : State) (response : Response) : State :=
  match s.phase with
  | .poll =>
    if response.status ≠ 200 then { s with phase := .poll }
    else
      match response.content with
      | .number count =>
        if count = 0 then { s with phase := .poll } else { s with phase := search count s.testsToLaunch 0 }
      | _ => { s with phase := .poll }
  | .search serverCount i =>
    -- An invalid response is asked for again at once, without a look at the next test.
    if response.status ≠ 200 then { s with phase := .search serverCount i }
    else
      match response.content with
      | .number count =>
        if count = 0 then { s with phase := search serverCount s.testsToLaunch (i + 1) }
        else { s with phase := .acquire i }
      | _ => { s with phase := .poll }
  | .acquire i =>
    match s.testsToLaunch[i]? with
    | none => { s with phase := .poll }
    | some test =>
      if !options.docker && incomplete test response.content then { s with phase := .poll }
      else if test.addPoolServerCount ≠ 0 then { s with phase := .acquireMore i response }
      else if response.status = 499 then { s with phase := .poll }
      else dispatch options s i (jobOf options test response none)
  | .acquireMore i first =>
    match s.testsToLaunch[i]? with
    | none => { s with phase := .poll }
    | some test =>
      if first.status = 499 || response.status = 499 then { s with phase := .poll }
      else dispatch options s i (jobOf options test first (some response))
  | .launch i launch => pop s i launch
  | .release i launch => pop s i launch
  | .done => s

/-- The request that the loop sends next -/
def request (s : State) : Option Request :=
  match s.phase with
  | .poll => some .availableCount
  | .search _ _ => some .availableInAddPool
  | .acquire i => s.testsToLaunch[i]?.map .getServers
  | .acquireMore i _ => s.testsToLaunch[i]?.map .getAddPoolServers
  | .launch _ launch => some (.launch launch)
  | .release _ launch => some (.release launch)
  | .done => none

def step (s : State) (answer : Answer) : State :=
  match request s with
  | none => s
  | some request =>
    let s := { s with log := s.log ++ [(request, answer)] }
    match answer with
    | .raised => { s with phase := .poll }
    | .response response => respond options s response

def start (tests : List Test) : State where
  phase := if tests = [] then .done else .poll
  testsToLaunch := tests
  summary := []
  log := []

end Step

/-! ## What a run keeps -/

/-- The server manager reported enough servers for the test, and some of the second pool if it needs these. -/
def Offered (log : List (Request × Answer)) (test : Test) : Prop :=
  (∃ count : ℤ, count ≠ 0 ∧ test.serverCount ≤ count ∧
    (.availableCount, .response ⟨200, .number count⟩) ∈ log) ∧
  (test.addPoolServerCount ≠ 0 → ∃ count : ℤ, count ≠ 0 ∧
    (.availableInAddPool, .response ⟨200, .number count⟩) ∈ log)

/-- The servers of a job are as many as its test asks for. -/
def Launch.Filled (options : Options) (launch : Launch) : Prop :=
  if options.docker then launch.servers = none ∧ launch.addPoolServers = none
  else (∃ content, launch.servers = some content ∧ content.len = some launch.test.serverCount) ∧
    (launch.addPoolServers.isSome ↔ launch.test.addPoolServerCount ≠ 0)

/-- The servers that were granted for a test, in the order of the grants -/
def grants (log : List (Request × Answer)) : List (Test × Option Content) :=
  log.filterMap fun
    | (.getServers test, .response response) => some (test, some response.content)
    | _ => none

/-- The jobs whose last request was answered -/
def answered (log : List (Request × Answer)) : List Launch :=
  log.filterMap fun
    | (.launch launch, .response _) => some launch
    | (.release launch, .response _) => some launch
    | _ => none

section Runs

variable (options : Options)

/-- What holds of the place in the loop -/
def Sound (log : List (Request × Answer)) (tests : List Test) : Phase → Prop
  | .poll => tests ≠ []
  | .search count i => ∃ test, tests[i]? = some test ∧ test.serverCount ≤ count ∧ count ≠ 0 ∧
      (.availableCount, .response ⟨200, .number count⟩) ∈ log
  | .acquire i => ∃ test, tests[i]? = some test ∧ Offered log test
  | .acquireMore i first => ∃ test, tests[i]? = some test ∧ Offered log test ∧ test.addPoolServerCount ≠ 0 ∧
      (options.docker = false → first.content.len = some test.serverCount)
  | .launch i launch | .release i launch =>
      tests[i]? = some launch.test ∧ Offered log launch.test ∧ launch.Filled options ∧
        (options.docker && options.noLaunch) = false
  | .done => tests = []

/-- The grant that the loop holds and has not written into a job that was sent -/
def held (tests : List Test) : Phase → List (Test × Option Content)
  | .acquireMore i first => tests[i]?.toList.map fun test => (test, some first.content)
  | .launch _ launch | .release _ launch => [(launch.test, launch.servers)]
  | _ => []

/-- The invariant of the loop -/
structure Valid (tests : List Test) (s : State) : Prop where
  sound : Sound options s.log s.testsToLaunch s.phase
  sublist : s.testsToLaunch.Sublist tests
  perm : (s.summary.map Launch.test ++ s.testsToLaunch).Perm tests
  offered : ∀ launch ∈ s.summary, Offered s.log launch.test ∧ launch.Filled options
  sent : answered s.log = if options.docker && options.noLaunch then [] else s.summary
  granted : options.docker = false →
    (s.summary.map (fun launch => (launch.test, launch.servers)) ++ held s.testsToLaunch s.phase).Sublist (grants s.log)

variable {options} {tests : List Test} {s : State}

theorem Offered.append {log : List (Request × Answer)} {test : Test} (offered : Offered log test)
    (more : List (Request × Answer)) : Offered (log ++ more) test := by
  obtain ⟨⟨count, free, fits, reported⟩, second⟩ := offered
  refine ⟨⟨count, free, fits, List.mem_append_left more reported⟩, fun needed => ?_⟩
  obtain ⟨count, free, reported⟩ := second needed
  exact ⟨count, free, List.mem_append_left more reported⟩

theorem firstFit_eq_some {serverCount : ℤ} {i j : ℕ} (found : firstFit serverCount tests i = some j) :
    ∃ test, tests[j]? = some test ∧ test.serverCount ≤ serverCount := by
  obtain ⟨k, inRest, rfl⟩ := Option.map_eq_some_iff.mp found
  obtain ⟨bound, fits, _⟩ := List.findIdx?_eq_some_iff_getElem.mp inRest
  refine ⟨(tests.drop i)[k], ?_, by simpa using fits⟩
  rw [← List.getElem?_drop, List.getElem?_eq_getElem bound]

theorem sound_search {log : List (Request × Answer)} {count : ℤ} (free : count ≠ 0)
    (reported : (.availableCount, .response ⟨200, .number count⟩) ∈ log) (waiting : tests ≠ []) (i : ℕ) :
    Sound options log tests (search count tests i) := by
  unfold search
  cases found : firstFit count tests i with
  | none => exact waiting
  | some j =>
    obtain ⟨test, here, fits⟩ := firstFit_eq_some found
    simp only [here]
    by_cases second : test.addPoolServerCount ≠ 0
    · rw [if_pos second]
      exact ⟨test, here, fits, free, reported⟩
    · rw [if_neg second]
      exact ⟨test, here, ⟨count, free, fits, reported⟩, fun needed => absurd needed second⟩

theorem held_search (count : ℤ) (i : ℕ) : held tests (search count tests i) = [] := by
  unfold search
  split
  · rfl
  · split
    · rfl
    · split <;> rfl

theorem jobOf_filled {test : Test} {first : Response} {second : Option Response}
    (complete : options.docker = false → first.content.len = some test.serverCount)
    (more : second.isSome ↔ test.addPoolServerCount ≠ 0) : (jobOf options test first second).Filled options := by
  unfold Launch.Filled jobOf
  cases docker : options.docker with
  | true => simp
  | false =>
    simp [complete docker, more]

theorem complete_of_incomplete {test : Test} {content : Content} (complete : incomplete test content = false) :
    content.len = some test.serverCount := by
  simpa [incomplete] using complete

theorem grants_append (log : List (Request × Answer)) (entry : Request × Answer) :
    grants (log ++ [entry]) = grants log ++ grants [entry] := List.filterMap_append

theorem answered_append (log : List (Request × Answer)) (entry : Request × Answer) :
    answered (log ++ [entry]) = answered log ++ answered [entry] := List.filterMap_append

/-- A step that sends no job goes to another place of the loop. -/
theorem Valid.move (valid : Valid options tests s) {entry : Request × Answer} {phase : Phase}
    (unsent : answered [entry] = [])
    (sound : Sound options (s.log ++ [entry]) s.testsToLaunch phase)
    (holds : options.docker = false →
      (held s.testsToLaunch phase).Sublist (held s.testsToLaunch s.phase ++ grants [entry])) :
    Valid options tests { s with phase := phase, log := s.log ++ [entry] } where
  sound := sound
  sublist := valid.sublist
  perm := valid.perm
  offered := fun launch member => (valid.offered launch member).imp_left fun offered => offered.append [entry]
  sent := by
    rw [answered_append, unsent, List.append_nil]
    exact valid.sent
  granted := by
    intro machines
    rw [grants_append]
    refine List.Sublist.trans ?_ ((valid.granted machines).append_right (grants [entry]))
    rw [List.append_assoc]
    exact (holds machines).append_left _

/-- A step that sends the job of the test at `i` takes it out of the list. -/
theorem Valid.pop (valid : Valid options tests s) {entry : Request × Answer} {i : ℕ} {launch : Launch}
    (here : s.testsToLaunch[i]? = some launch.test) (offered : Offered s.log launch.test)
    (filled : launch.Filled options)
    (sent : answered [entry] = if options.docker && options.noLaunch then [] else [launch])
    (holds : options.docker = false →
      [(launch.test, launch.servers)].Sublist (held s.testsToLaunch s.phase ++ grants [entry])) :
    Valid options tests (pop { s with log := s.log ++ [entry] } i launch) where
  sound := by
    by_cases last : s.testsToLaunch.eraseIdx i = []
    · simp [Dispatcher.pop, Sound, last]
    · simp [Dispatcher.pop, Sound, last]
  sublist := (List.eraseIdx_sublist ..).trans valid.sublist
  perm := by
    obtain ⟨bound, here⟩ := List.getElem?_eq_some_iff.mp here
    refine List.Perm.trans ?_ valid.perm
    simp only [Dispatcher.pop, List.map_append, List.map_cons, List.map_nil, List.append_assoc, List.singleton_append]
    rw [← here]
    exact (List.getElem_cons_eraseIdx_perm bound).append_left _
  offered := by
    intro other member
    rcases List.mem_append.mp member with before | now
    · exact (valid.offered other before).imp_left fun offered => offered.append [entry]
    · cases List.mem_singleton.mp now
      exact ⟨offered.append [entry], filled⟩
  sent := by
    simp only [Dispatcher.pop]
    rw [answered_append, sent, valid.sent]
    split <;> rfl
  granted := by
    intro machines
    have rest : held (s.testsToLaunch.eraseIdx i) (Dispatcher.pop { s with log := s.log ++ [entry] } i launch).phase = [] := by
      simp only [Dispatcher.pop]
      split <;> rfl
    simp only [Dispatcher.pop] at rest ⊢
    rw [rest, List.append_nil, grants_append, List.map_append]
    refine List.Sublist.trans ?_ ((valid.granted machines).append_right (grants [entry]))
    rw [List.append_assoc]
    exact (holds machines).append_left _

theorem Valid.dispatch (valid : Valid options tests s) {entry : Request × Answer} {i : ℕ} {launch : Launch}
    (here : s.testsToLaunch[i]? = some launch.test) (offered : Offered s.log launch.test)
    (filled : launch.Filled options) (unsent : answered [entry] = [])
    (holds : options.docker = false →
      [(launch.test, launch.servers)].Sublist (held s.testsToLaunch s.phase ++ grants [entry])) :
    Valid options tests (dispatch options { s with log := s.log ++ [entry] } i launch) := by
  unfold Dispatcher.dispatch
  by_cases dry : options.noLaunch = true
  · rw [if_pos dry]
    by_cases docker : options.docker = true
    · rw [if_pos docker]
      exact valid.pop here offered filled (by simp [dry, docker, unsent]) holds
    · rw [if_neg docker]
      exact valid.move unsent ⟨here, offered.append [entry], filled, by simp [docker]⟩ holds
  · rw [if_neg dry]
    exact valid.move unsent ⟨here, offered.append [entry], filled, by simp [dry]⟩ holds

theorem valid_respond_poll (valid : Valid options tests s) (phase : s.phase = .poll) (waiting : s.testsToLaunch ≠ [])
    (response : Response) :
    Valid options tests
      (respond options { s with log := s.log ++ [(.availableCount, .response response)] } response) := by
  have again : Valid options tests
      { s with phase := .poll, log := s.log ++ [(.availableCount, .response response)] } :=
    valid.move rfl waiting fun _ => List.nil_sublist _
  obtain ⟨status, content⟩ := response
  simp only [respond, phase]
  by_cases failed : status ≠ 200
  · rw [if_pos failed]
    exact again
  · rw [if_neg failed]
    cases content with
    | servers _ | object _ | string _ | text _ => exact again
    | number count =>
      dsimp only
      by_cases free : count = 0
      · rw [if_pos free]
        exact again
      · rw [if_neg free]
        refine valid.move rfl (sound_search free ?_ waiting 0) fun _ => ?_
        · simp [not_not.mp failed]
        · simp [held_search]

theorem valid_respond_search (valid : Valid options tests s) {serverCount : ℤ} {i : ℕ}
    (phase : s.phase = .search serverCount i) (waiting : s.testsToLaunch ≠ []) (response : Response) :
    Valid options tests
      (respond options { s with log := s.log ++ [(.availableInAddPool, .response response)] } response) := by
  have sound := valid.sound
  rw [phase] at sound
  obtain ⟨test, here, fits, free, reported⟩ := sound
  obtain ⟨status, content⟩ := response
  have reported : (.availableCount, .response ⟨200, .number serverCount⟩) ∈
      s.log ++ [(.availableInAddPool, .response ⟨status, content⟩)] := List.mem_append_left _ reported
  simp only [respond, phase]
  by_cases failed : status ≠ 200
  · rw [if_pos failed]
    exact valid.move rfl ⟨test, here, fits, free, reported⟩ fun _ => List.nil_sublist _
  · rw [if_neg failed]
    cases content with
    | servers _ | object _ | string _ | text _ => exact valid.move rfl waiting fun _ => List.nil_sublist _
    | number count =>
      dsimp only
      by_cases none : count = 0
      · rw [if_pos none]
        refine valid.move rfl (sound_search free reported waiting (i + 1)) fun _ => ?_
        simp [held_search]
      · rw [if_neg none]
        refine valid.move rfl ⟨test, here, ⟨serverCount, free, fits, reported⟩, fun _ => ⟨count, none, ?_⟩⟩
          fun _ => List.nil_sublist _
        simp [not_not.mp failed]

theorem valid_respond_acquire (valid : Valid options tests s) {i : ℕ} (phase : s.phase = .acquire i) {test : Test}
    (here : s.testsToLaunch[i]? = some test) (offered : Offered s.log test) (response : Response) :
    Valid options tests
      (respond options { s with log := s.log ++ [(.getServers test, .response response)] } response) := by
  have waiting : s.testsToLaunch ≠ [] := by
    intro none
    simp [none] at here
  have again : Valid options tests
      { s with phase := .poll, log := s.log ++ [(.getServers test, .response response)] } :=
    valid.move rfl waiting fun _ => List.nil_sublist _
  simp only [respond, phase, here]
  by_cases short : (!options.docker && incomplete test response.content) = true
  · rw [if_pos short]
    exact again
  · rw [if_neg short]
    have complete : options.docker = false → response.content.len = some test.serverCount := by
      intro machines
      exact complete_of_incomplete (by simpa [machines] using short)
    by_cases second : test.addPoolServerCount ≠ 0
    · rw [if_pos second]
      refine valid.move rfl ⟨test, here, offered.append _, second, complete⟩ fun _ => ?_
      simp [held, here, grants]
    · rw [if_neg second]
      by_cases refused : response.status = 499
      · rw [if_pos refused]
        exact again
      · rw [if_neg refused]
        refine valid.dispatch here offered (jobOf_filled complete (by simpa using second)) rfl fun machines => ?_
        simp [jobOf, grants, machines]

theorem valid_respond_acquireMore (valid : Valid options tests s) {i : ℕ} {first : Response}
    (phase : s.phase = .acquireMore i first) {test : Test} (here : s.testsToLaunch[i]? = some test)
    (offered : Offered s.log test) (second : test.addPoolServerCount ≠ 0)
    (complete : options.docker = false → first.content.len = some test.serverCount) (response : Response) :
    Valid options tests
      (respond options { s with log := s.log ++ [(.getAddPoolServers test, .response response)] } response) := by
  simp only [respond, phase, here]
  by_cases refused : (first.status = 499 || response.status = 499) = true
  · rw [if_pos refused]
    refine valid.move rfl ?_ fun _ => List.nil_sublist _
    intro none
    simp [none] at here
  · rw [if_neg refused]
    refine valid.dispatch here offered (jobOf_filled complete (by simpa using second)) rfl fun machines => ?_
    simp [jobOf, held, phase, here, machines]

theorem Valid.waiting (valid : Valid options tests s) {sent : Request} (asked : request s = some sent) :
    s.testsToLaunch ≠ [] := by
  intro none
  have sound := valid.sound
  cases phase : s.phase <;> simp [request, phase, none, Sound] at asked sound

theorem valid_respond (valid : Valid options tests s) {sent : Request} (asked : request s = some sent)
    (response : Response) :
    Valid options tests (respond options { s with log := s.log ++ [(sent, .response response)] } response) := by
  have waiting := valid.waiting asked
  have sound := valid.sound
  obtain ⟨place, phase⟩ : ∃ place, s.phase = place := ⟨_, rfl⟩
  rw [phase] at sound
  cases place with
  | poll =>
    simp only [request, phase, Option.some.injEq] at asked
    subst asked
    exact valid_respond_poll valid phase waiting response
  | search serverCount i =>
    simp only [request, phase, Option.some.injEq] at asked
    subst asked
    exact valid_respond_search valid phase waiting response
  | acquire i =>
    obtain ⟨test, here, offered⟩ := sound
    simp only [request, phase, here, Option.map_some, Option.some.injEq] at asked
    subst asked
    exact valid_respond_acquire valid phase here offered response
  | acquireMore i first =>
    obtain ⟨test, here, offered, second, complete⟩ := sound
    simp only [request, phase, here, Option.map_some, Option.some.injEq] at asked
    subst asked
    exact valid_respond_acquireMore valid phase here offered second complete response
  | launch i launch | release i launch =>
    obtain ⟨here, offered, filled, sending⟩ := sound
    simp only [request, phase, Option.some.injEq] at asked
    subst asked
    simp only [respond, phase]
    refine valid.pop here offered filled (by rw [sending]; rfl) fun _ => ?_
    simp [held, phase]
  | done => simp [request, phase] at asked

/-- Each answer keeps the invariant, whatever it is. -/
theorem valid_step (valid : Valid options tests s) (answer : Answer) : Valid options tests (step options s answer) := by
  unfold step
  cases asked : request s with
  | none => exact valid
  | some sent =>
    cases answer with
    | raised =>
      have unsent : answered [(sent, .raised)] = [] := by cases sent <;> rfl
      exact valid.move unsent (valid.waiting asked) fun _ => List.nil_sublist _
    | response response => exact valid_respond valid asked response

theorem valid_start : Valid options tests (start tests) where
  sound := by
    by_cases none : tests = []
    · simp [start, Sound, none]
    · simp [start, Sound, none]
  sublist := .refl _
  perm := .refl _
  offered := by simp [start]
  sent := by
    split <;> rfl
  granted := by
    intro _
    have held : held tests (start tests).phase = [] := by
      simp only [start]
      split <;> rfl
    simp only [start] at held ⊢
    rw [held]
    exact .refl _

theorem valid_run (answers : List Answer) : Valid options tests (run (step options) (start tests) answers) := by
  have keeps : ∀ s answer, Valid options tests s → Valid options tests (step options s answer) := by
    intro s answer valid
    exact valid_step valid answer
  exact run_invariant keeps valid_start answers

/-- Whatever the requests answer, the tests that wait keep their order, no test is lost or launched
    twice, and a test has left the list exactly if the last request for its job was answered; without a launch
    there is none for Docker. -/
theorem tests_launch_once (options : Options) (tests : List Test) (answers : List Answer) :
    let s := run (step options) (start tests) answers
    s.testsToLaunch.Sublist tests ∧
      (s.summary.map Launch.test ++ s.testsToLaunch).Perm tests ∧
      (answered s.log = if options.docker && options.noLaunch then [] else s.summary) ∧
      (s.phase = .done ↔ s.testsToLaunch = []) := by
  intro s
  have valid : Valid options tests s := valid_run answers
  refine ⟨valid.sublist, valid.perm, valid.sent, ?_⟩
  have sound := valid.sound
  constructor
  · intro ended
    rwa [ended] at sound
  · intro none
    rw [none] at sound
    cases phase : s.phase <;> simp [phase, Sound] at sound
    rfl

/-- What the jobs have for their servers are grants of the server manager for the tests of these jobs, each used
    in one job only and of the length that is asked for; the server manager reported servers before. -/
theorem launched_servers_granted (options : Options) (tests : List Test) (answers : List Answer) :
    let s := run (step options) (start tests) answers
    (options.docker = false →
      (s.summary.map fun launch => (launch.test, launch.servers)).Sublist (grants s.log)) ∧
      ∀ launch ∈ s.summary, Offered s.log launch.test ∧ launch.Filled options := by
  intro s
  have valid : Valid options tests s := valid_run answers
  refine ⟨fun machines => ?_, valid.offered⟩
  exact (List.sublist_append_left _ _).trans (valid.granted machines)

/-! ## The loop ends -/

variable (options) in
/-- An answer with which the loop gets on: some waiting test fits the servers that are free, and
    the servers that were reported are granted. -/
def Helpful (s : State) : Answer → Prop
  | .raised => False
  | .response response =>
    match s.phase with
    | .poll => response.status = 200 ∧ ∃ count : ℤ, response.content = .number count ∧ count ≠ 0 ∧
        ∃ test ∈ s.testsToLaunch, test.serverCount ≤ count
    | .search _ _ => response.status = 200 ∧ ∃ count : ℤ, response.content = .number count ∧ count ≠ 0
    | .acquire i => response.status ≠ 499 ∧ (options.docker = false →
        ∀ test ∈ s.testsToLaunch[i]?, response.content.len = some test.serverCount)
    | .acquireMore _ _ => response.status ≠ 499
    | _ => True

/-- A bound for the helpful answers that the loop still needs -/
def answersLeft (waiting : ℕ) : Phase → ℕ
  | .poll => 5 * waiting
  | .search _ _ => 5 * waiting - 1
  | .acquire _ => 5 * waiting - 2
  -- After a refusal the second pool is asked for nothing, and the loop starts again.
  | .acquireMore _ first => if first.status = 499 then 5 * waiting + 1 else 5 * waiting - 3
  | .launch _ _ | .release _ _ => 5 * waiting - 4
  | .done => 0

theorem answersLeft_search {serverCount : ℤ} (fits : ∃ test ∈ tests, test.serverCount ≤ serverCount) (waiting : ℕ) :
    answersLeft waiting (search serverCount tests 0) ≤ 5 * waiting - 1 := by
  obtain ⟨j, found⟩ : ∃ j, firstFit serverCount tests 0 = some j := by
    rw [← Option.isSome_iff_exists]
    simpa [firstFit, List.findIdx?_isSome] using fits
  obtain ⟨test, here, _⟩ := firstFit_eq_some found
  simp only [search, found, here]
  by_cases second : test.addPoolServerCount ≠ 0
  · rw [if_pos second]
    exact le_rfl
  · rw [if_neg second]
    simp only [answersLeft]
    omega

theorem answersLeft_pop {log : List (Request × Answer)} {i : ℕ} {launch : Launch} (bound : i < s.testsToLaunch.length) :
    answersLeft (pop { s with log := log } i launch).testsToLaunch.length (pop { s with log := log } i launch).phase ≤
      5 * s.testsToLaunch.length - 5 := by
  have shorter := List.length_eraseIdx_of_lt bound
  simp only [pop, shorter]
  by_cases last : s.testsToLaunch.eraseIdx i = []
  · rw [if_pos last]
    exact Nat.zero_le _
  · rw [if_neg last]
    simp only [answersLeft]
    omega

theorem answersLeft_dispatch {log : List (Request × Answer)} {i : ℕ} {launch : Launch}
    (bound : i < s.testsToLaunch.length) :
    answersLeft (dispatch options { s with log := log } i launch).testsToLaunch.length
      (dispatch options { s with log := log } i launch).phase ≤ 5 * s.testsToLaunch.length - 4 := by
  unfold dispatch
  split
  · split
    · exact (answersLeft_pop bound).trans (by omega)
    · exact le_rfl
  · exact le_rfl

/-- Each helpful answer brings the end of the loop nearer. -/
theorem answersLeft_step (valid : Valid options tests s) {answer : Answer} (helpful : Helpful options s answer) :
    answersLeft (step options s answer).testsToLaunch.length (step options s answer).phase ≤
      answersLeft s.testsToLaunch.length s.phase - 1 := by
  cases answer with
  | raised => cases helpful
  | response response =>
    have sound := valid.sound
    obtain ⟨place, phase⟩ : ∃ place, s.phase = place := ⟨_, rfl⟩
    simp only [Helpful, phase] at helpful
    rw [phase] at sound ⊢
    cases place with
    | poll =>
      obtain ⟨reached, count, content, free, fits⟩ := helpful
      simp only [step, request, respond, phase, reached, content, ne_eq, not_true_eq_false, if_false, free]
      exact answersLeft_search fits _
    | search serverCount i =>
      obtain ⟨reached, count, content, free⟩ := helpful
      simp only [step, request, respond, phase, reached, content, ne_eq, not_true_eq_false, if_false, free,
        answersLeft]
      omega
    | acquire i =>
      obtain ⟨granted, exactly⟩ := helpful
      obtain ⟨test, here, _⟩ := sound
      obtain ⟨bound, _⟩ := List.getElem?_eq_some_iff.mp here
      have complete : (!options.docker && incomplete test response.content) = false := by
        cases docker : options.docker with
        | true => rfl
        | false =>
          simp [incomplete, exactly docker test here]
      simp only [step, request, phase, here, Option.map_some, respond, complete]
      rw [if_neg Bool.false_ne_true]
      by_cases second : test.addPoolServerCount ≠ 0
      · rw [if_pos second]
        simp only [answersLeft, if_neg granted]
        omega
      · rw [if_neg second, if_neg granted]
        refine (answersLeft_dispatch bound).trans ?_
        simp only [answersLeft]
        omega
    | acquireMore i first =>
      obtain ⟨test, here, _⟩ := sound
      obtain ⟨bound, _⟩ := List.getElem?_eq_some_iff.mp here
      simp only [step, request, phase, here, Option.map_some, respond, answersLeft]
      by_cases refused : first.status = 499
      · simp only [refused, decide_true, Bool.true_or, if_true]
        exact le_rfl
      · simp only [refused, helpful, decide_false, Bool.or_self, Bool.false_eq_true, if_false]
        exact (answersLeft_dispatch bound).trans (by omega)
    | launch i launch | release i launch =>
      obtain ⟨bound, _⟩ := List.getElem?_eq_some_iff.mp sound.1
      simp only [step, request, respond, phase]
      exact (answersLeft_pop bound).trans (by simp only [answersLeft]; omega)
    | done => simp [step, request, phase, answersLeft]

theorem answersLeft_le (waiting : ℕ) (phase : Phase) : answersLeft waiting phase ≤ 5 * waiting + 1 := by
  cases phase with
  | acquireMore i first =>
    simp only [answersLeft]
    split <;> omega
  | _ =>
    simp only [answersLeft]
    omega

theorem done_of_answersLeft (valid : Valid options tests s)
    (none : answersLeft s.testsToLaunch.length s.phase = 0) : s.phase = .done := by
  have sound := valid.sound
  obtain ⟨place, phase⟩ : ∃ place, s.phase = place := ⟨_, rfl⟩
  rw [phase] at sound none ⊢
  cases place with
  | done => rfl
  | poll =>
    have waiting := List.length_pos_iff.mpr sound
    simp only [answersLeft] at none
    omega
  | search _ i | acquire i | acquireMore i first =>
    obtain ⟨test, here, _⟩ := sound
    have waiting := List.length_pos_of_mem (List.mem_of_getElem? here)
    simp only [answersLeft] at none
    grind
  | launch i launch | release i launch =>
    have waiting := List.length_pos_of_mem (List.mem_of_getElem? sound.1)
    simp only [answersLeft] at none
    omega

/-- From wherever the loop has got to, `5 * n + 1` helpful answers end it, when `n` tests wait. -/
theorem dispatcher_finishes (options : Options) (tests : List Test) (answers helpful : List Answer)
    (enough : 5 * (run (step options) (start tests) answers).testsToLaunch.length < helpful.length)
    (helps : Guarded (step options) (Helpful options) (run (step options) (start tests) answers) helpful) :
    let s := run (step options) (start tests) (answers ++ helpful)
    s.phase = .done ∧ s.testsToLaunch = [] ∧ (s.summary.map Launch.test).Perm tests := by
  intro s
  have valid : Valid options tests s := valid_run (answers ++ helpful)
  have keeps : ∀ s answer, Valid options tests s → Helpful options s answer →
      Valid options tests (step options s answer) := by
    intro s answer valid _
    exact valid_step valid answer
  have left := helps.potential_le (fun s => answersLeft s.testsToLaunch.length s.phase) keeps
    (fun _ _ valid helpful => answersLeft_step valid helpful) (valid_run answers)
  rw [← run_append] at left
  have bound := answersLeft_le (run (step options) (start tests) answers).testsToLaunch.length
    (run (step options) (start tests) answers).phase
  have ended : s.phase = .done := by
    refine done_of_answersLeft valid (Nat.le_zero.mp (left.trans ?_))
    simp only [Nat.le_zero, Nat.sub_eq_zero_iff_le]
    omega
  have sound := valid.sound
  have perm := valid.perm
  rw [ended] at sound
  rw [show s.testsToLaunch = [] from sound, List.append_nil] at perm
  exact ⟨ended, sound, perm⟩

/-- A second pool and a first answer that raises -/
def twoTests : List Test := [⟨"kv", "basic", 2, 0⟩, ⟨"xdcr", "filters", 1, 1⟩]

theorem twoTests_launched :
    let answers : List Answer := [.raised]
    let number (count : ℤ) : Answer := .response ⟨200, .number count⟩
    let grant (names : List String) : Answer := .response ⟨200, .servers names⟩
    let helpful : List Answer := [number 1, number 4, grant ["a"], grant ["b"], number 0,
      number 2, grant ["c", "d"], number 0, number 0, number 0, number 0]
    let s := run (step ⟨false, false⟩) (start twoTests) (answers ++ helpful)
    s.phase = .done ∧ s.testsToLaunch = [] ∧ (s.summary.map Launch.test).Perm twoTests := by
  intro answers number grant helpful
  have helps : Guarded (step ⟨false, false⟩) (Helpful ⟨false, false⟩)
      (run (step ⟨false, false⟩) (start twoTests) answers) helpful := by
    simp [helpful, answers, number, grant, Guarded, Helpful, step, request, respond, start, twoTests, search, firstFit,
      List.findIdx?_cons, incomplete, Content.len, dispatch, jobOf, pop]
  exact dispatcher_finishes ⟨false, false⟩ twoTests answers helpful (by decide) helps

end Runs

end Taf.Runner.Dispatcher
