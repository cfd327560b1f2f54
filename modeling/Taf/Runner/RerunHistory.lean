import Mathlib
import Taf.Lib.PyText
import Taf.Lib.Run
import Taf.Runner.TestInput

/-! # The history of a job that is run again

`find_rerun_job` of `scripts/find_rerun_job.py` keeps one document for each job and build, to which
every run appends itself.  `merge_xmls` of `scripts/rerun_jobs.py` looks in it for the earlier run
whose reports are merged with the current ones, up to its call of `merge_reports`, and
`get_rerun_parameters` for the run whose failed tests are run again. -/

namespace Taf.Runner.History

open Taf.Lib

/-- An address as Jenkins gives it -/
structure Url where
  text : Str
  ascii : AsciiChars text

/-- What is read of a job; without `BUILD_URL` it has no address. -/
structure Job where
  jobUrl : Option Url
  installFailure : Bool

structure RunDocument where
  build : Str
  numRuns : Nat
  jobs : List Job

/-! ## `find_rerun_job` -/

abbrev Store := AList fun _ : Str => RunDocument

/-- A call with what the server and Jenkins do meanwhile. -/
structure Call where
  -- `none` without a name or a version
  docId : Option Str
  version : Str
  storeData : Bool
  job : Job
  -- `get_document` answers `False` on every exception.
  readable : Bool
  -- `get_params` or `get_json_object` raises.
  raises : Bool
  stored : Bool

def RunDocument.append (document : RunDocument) (job : Job) : RunDocument :=
  { document with numRuns := document.numRuns + 1, jobs := document.jobs ++ [job] }

/-- The two values that are returned, where `none` is `{}`, and the bucket afterwards. -/
def findRerunJob (store : Store) (call : Call) : (Bool × Option RunDocument) × Store :=
  match call.docId with
  | none => ((false, none), store)
  | some docId =>
    let found := if call.readable then store.lookup docId else none
    if call.storeData then
      if call.raises then ((false, none), store)
      else
        let document := found.getD { build := call.version, numRuns := 0, jobs := [] }
        let document := document.append call.job
        ((found.isSome, some document),
          if call.stored then store.insert docId document else store)
    else ((found.isSome, found), store)

/-- A document is dropped after seven days. -/
inductive Event where
  | call (call : Call)
  | expire (docId : Str)

def step (store : Store) : Event → Store
  | .call call => (findRerunJob store call).2
  | .expire docId => store.erase docId

/-! ## `merge_xmls` -/

/-- What Jenkins, AWS and the disk answer -/
structure Network where
  -- The relative paths in `get_js(url, "tree=artifacts[*]")`
  artifacts : Str → Option (List Str)
  -- `download_url_data` at each attempt
  download : Str → Nat → Option Bytes
  -- The data is UTF-8 and the file could be written.
  writes : Str → Bytes → Bool
  -- The names in an archive that could be downloaded and unpacked
  archive : Str → Option (List Str)

namespace Network

variable (network : Network)

def isLog (path : Str) : Bool :=
  (str "logs/").isPrefixOf path && (str ".xml").isSuffixOf path

def isArchivedLog (path : Str) : Bool :=
  (str "archive/logs/").isPrefixOf path && (str ".xml").isSuffixOf path

def oldReport (path : Str) : Str :=
  str "Old_Report_" ++ (path.splitOn '/').getLastD []

/-- Five attempts, and an empty answer is none. -/
def downloadLog (url path : Str) : Option Bytes :=
  (List.range 5).findSome? fun attempt =>
    (network.download (url ++ str "artifact/" ++ path) attempt).filter fun data => data ≠ []

def saveLog (url path : Str) : Option Str := do
  let data ← network.downloadLog url path
  if network.writes (oldReport path) data then some (oldReport path) else none

/-- The logs that Jenkins still has -/
def jenkinsLogs (url : Str) : Except PyError (List Str) :=
  match network.artifacts url with
  | none => .ok []
  | some paths =>
    if ∀ path ∈ paths.filter isLog, AsciiChars path then
      .ok ((paths.filter isLog).filterMap (network.saveLog url))
    else .error .unicodeEncodeError

def awsLink (build jobName jobBuildNumber : Str) : Str :=
  str "http://cb-logs-qe.s3-website-us-west-2.amazonaws.com/" ++ build ++ str "/jenkins_logs/" ++
    jobName ++ str "/" ++ jobBuildNumber ++ str "/archive.zip"

/-- `job_url.rstrip('/').split('/')` -/
def urlParts (url : Str) : List Str := (url.rdropWhile (· = '/')).splitOn '/'

def getFromAws (build : Str) : Option Url → Except PyError (Option (List Str))
  | none => .error .attributeError
  | some url =>
    match (urlParts url.text).reverse with
    | jobBuildNumber :: jobName :: _ =>
      .ok ((network.archive (awsLink build jobName jobBuildNumber)).map fun names =>
        (names.filter isArchivedLog).map oldReport)
    | _ => .error .indexError

/-- The files with the reports of an earlier job -/
def previousLogs (build : Str) (jobUrl : Option Url) : Except PyError (List Str) := do
  let logs ← match jobUrl with
    -- `get_js(None)` raises within its `try`.
    | none => pure []
    | some url => network.jenkinsLogs url.text
  match logs with
  | [] => (network.getFromAws build jobUrl).map fun found => found.getD []
  | _ :: _ => pure logs

end Network

/-- The first argument of `merge_reports` -/
inductive Filespath where
  | text (pattern : Str)
  | list (patterns : List Str)

/-- The earlier job whose reports are taken, and the files that are merged. -/
structure Merging where
  previous : Option Job
  filespath : Filespath

def currentLogs : Str := str "logs/**/*.xml"

/-- The loop of `merge_xmls`: the job that was looked at last. -/
def lastSeen (jobs : List Job) : Nat → Option Job → Except PyError (Option Job)
  | 0, job => .ok job
  | numRuns + 1, _ =>
    match jobs[numRuns]? with
    | none => .error .indexError
    | some job => if job.installFailure then lastSeen jobs numRuns (some job) else .ok (some job)

def mergeXmls (network : Network) : Option RunDocument → Except PyError Merging
  | none => .ok { previous := none, filespath := .text currentLogs }
  | some document => do
    match ← lastSeen document.jobs (document.numRuns - 1) none with
    | none => pure { previous := none, filespath := .text currentLogs }
    | some job =>
      let logs ← network.previousLogs document.build job.jobUrl
      pure { previous := some job, filespath := .list (logs ++ [currentLogs]) }

/-! ## `get_rerun_parameters` -/

/-- The loop of `get_rerun_parameters`: only a job without install failure is kept. -/
def lastValid (jobs : List Job) : Nat → Except PyError (Option Job)
  | 0 => .ok none
  | numRuns + 1 =>
    match jobs[numRuns]? with
    | none => .error .indexError
    | some job => if job.installFailure then lastValid jobs numRuns else .ok (some job)

def failedParam (jobUrl : Option Url) : Str :=
  str "-d failed=" ++ (jobUrl.map Url.text).getD (str "None")

/-- The first `if` asks for a document that is empty and has one run. -/
def getRerunParameters (buildUrl : Option Url) (document : Option RunDocument) (isRerun : Bool) :
    Except PyError (Option Str) := do
  let rerunParams := if !isRerun ∧ document.isNone ∧ document.any (·.numRuns = 1) then
    some (failedParam buildUrl) else none
  match document with
  | none => .error .keyError
  | some document =>
    match ← lastValid document.jobs document.numRuns with
    | none => pure rerunParams
    | some job => pure (some (failedParam job.jobUrl))

/-! ## What is to be selected -/

/-- The most recent job without install failure -/
def latestValid (jobs : List Job) : Option Job :=
  (jobs.filter fun job => !job.installFailure).getLast?

def jobsOf (document : Option RunDocument) : List Job :=
  (document.map RunDocument.jobs).getD []

/-- The current job is the last one. -/
def HistorySelected (network : Network) (document : Option RunDocument) : Prop :=
  (∃ merging, mergeXmls network document = .ok merging ∧
    merging.previous = latestValid (jobsOf document).dropLast) ∧
  ∀ buildUrl isRerun, getRerunParameters buildUrl document isRerun =
    .ok ((latestValid (jobsOf document)).map fun job => failedParam job.jobUrl)

/-- The reports of a job can be asked for: its address names a build, or Jenkins has one of its logs. -/
structure Network.Served (network : Network) (jobUrl : Url) : Prop where
  paths : ∀ paths, network.artifacts jobUrl.text = some paths →
    ∀ path ∈ paths.filter isLog, AsciiChars path
  known : 2 ≤ (urlParts jobUrl.text).length ∨ ∃ paths, network.artifacts jobUrl.text = some paths ∧
    ∃ path ∈ paths.filter isLog, (network.saveLog jobUrl.text path).isSome

/-! ## The documents -/

structure RunDocument.Counted (document : RunDocument) : Prop where
  numRuns : document.numRuns = document.jobs.length
  nonempty : document.jobs ≠ []

def Counted (store : Store) : Prop :=
  ∀ docId document, store.lookup docId = some document → document.Counted

theorem RunDocument.Counted.append {document : RunDocument}
    (counted : document.numRuns = document.jobs.length) (job : Job) :
    (document.append job).Counted where
  numRuns := by simp [RunDocument.append, counted]
  nonempty := by simp [RunDocument.append]

/-- Whatever the server answers, the document that is returned counts its jobs, and so does the one
    that is stored. -/
theorem findRerunJob_counted {store : Store} (counted : Counted store) (call : Call) :
    (∀ document ∈ (findRerunJob store call).1.2, document.Counted) ∧
      Counted (findRerunJob store call).2 := by
  rw [findRerunJob]
  cases call.docId with
  | none => exact ⟨by simp, counted⟩
  | some docId =>
    have found : ∀ document ∈ (if call.readable then store.lookup docId else none), document.Counted := by
      intro document member
      split at member
      · exact counted docId document member
      · cases member
    -- Read or not, what is found counts its jobs, and a new document starts with none.
    dsimp only
    generalize (if call.readable then store.lookup docId else none) = read at found ⊢
    have appended : ((read.getD { build := call.version, numRuns := 0, jobs := [] }).append
        call.job).Counted := by
      apply RunDocument.Counted.append
      cases read with
      | none => rfl
      | some document => exact (found document rfl).numRuns
    cases call.storeData with
    | false => exact ⟨found, counted⟩
    | true =>
      cases call.raises with
      | true => exact ⟨by simp, counted⟩
      | false =>
        refine ⟨by simpa using appended, ?_⟩
        cases call.stored with
        | false => exact counted
        | true =>
          intro other document stored
          obtain ⟨_, rfl⟩ | ⟨_, before⟩ := lookup_insert_eq_some.mp stored
          · exact appended
          · exact counted other document before

theorem step_counted (store : Store) (event : Event) (counted : Counted store) :
    Counted (step store event) := by
  cases event with
  | call call => exact (findRerunJob_counted counted call).2
  | expire docId =>
    intro other document stored
    exact counted other document (lookup_erase_eq_some.mp stored).2

theorem run_counted (events : List Event) : Counted (run step ∅ events) :=
  run_invariant step_counted (by simp [Counted]) events

/-! ## The two searches -/

theorem latestValid_append (jobs : List Job) (job : Job) :
    latestValid (jobs ++ [job]) = if job.installFailure then latestValid jobs else some job := by
  rw [latestValid, List.filter_append]
  cases failed : job.installFailure <;> simp [failed, latestValid]

theorem take_succ_eq {jobs : List Job} {numRuns : Nat} (inside : numRuns + 1 ≤ jobs.length) :
    ∃ job, jobs[numRuns]? = some job ∧ jobs.take (numRuns + 1) = jobs.take numRuns ++ [job] := by
  have bound : numRuns < jobs.length := inside
  exact ⟨jobs[numRuns], List.getElem?_eq_getElem bound, List.take_succ_eq_append_getElem bound⟩

theorem lastValid_eq (jobs : List Job) (numRuns : Nat) (inside : numRuns ≤ jobs.length) :
    lastValid jobs numRuns = .ok (latestValid (jobs.take numRuns)) := by
  induction numRuns with
  | zero => rfl
  | succ numRuns ih =>
    obtain ⟨job, found, taken⟩ := take_succ_eq inside
    simp only [lastValid, found]
    rw [taken, latestValid_append, ih (by omega)]
    split <;> rfl

/-- Without a valid job the search of `merge_xmls` ends with the first one of the history. -/
theorem lastSeen_eq (jobs : List Job) (numRuns : Nat) (start : Option Job) (inside : numRuns ≤ jobs.length) :
    lastSeen jobs numRuns start =
      .ok ((latestValid (jobs.take numRuns)).or ((jobs.take numRuns).head?.or start)) := by
  -- The job that was looked at last is kept even if it is no valid one.
  induction numRuns generalizing start with
  | zero => rfl
  | succ numRuns ih =>
    obtain ⟨job, found, taken⟩ := take_succ_eq inside
    simp only [lastSeen, found]
    rw [taken, latestValid_append, ih (some job) (by omega)]
    cases job.installFailure with
    | false => rfl
    | true => simp [List.head?_append]

theorem numRuns_pred {document : RunDocument} (counted : document.Counted) :
    document.jobs.take (document.numRuns - 1) = document.jobs.dropLast := by
  rw [counted.numRuns, List.dropLast_eq_take]

theorem lastSeen_document {document : RunDocument} (counted : document.Counted) :
    lastSeen document.jobs (document.numRuns - 1) none =
      .ok ((latestValid document.jobs.dropLast).or document.jobs.dropLast.head?) := by
  have inside : document.numRuns - 1 ≤ document.jobs.length := by
    have := counted.numRuns
    omega
  rw [lastSeen_eq document.jobs _ none inside, numRuns_pred counted, Option.or_none]

theorem getRerunParameters_document {document : RunDocument} (counted : document.Counted)
    (buildUrl : Option Url) (isRerun : Bool) :
    getRerunParameters buildUrl (some document) isRerun =
      .ok ((latestValid document.jobs).map fun job => failedParam job.jobUrl) := by
  have whole : document.jobs.take document.numRuns = document.jobs := by
    rw [counted.numRuns, List.take_length]
  have searched := lastValid_eq document.jobs document.numRuns counted.numRuns.le
  rw [whole] at searched
  simp only [getRerunParameters, searched, bind, Except.bind]
  cases latestValid document.jobs <;> simp [pure, Except.pure]

/-! ## Where the searches agree with what they are for -/

namespace Network

variable {network : Network}

theorem getFromAws_isOk_iff (build : Str) (url : Url) :
    (∃ found, network.getFromAws build (some url) = .ok found) ↔ 2 ≤ (urlParts url.text).length := by
  rw [getFromAws, ← List.length_reverse]
  match (urlParts url.text).reverse with
  | [] => simp
  | [_] => simp
  | jobBuildNumber :: jobName :: _ => simp

/-- Without a log from Jenkins the archive is asked for, which needs the two last parts of the address. -/
theorem previousLogs_isOk_iff (build : Str) (url : Url) :
    (∃ logs, network.previousLogs build (some url) = .ok logs) ↔ network.Served url := by
  have archived : (∃ found, network.getFromAws build (some url) = .ok found) ↔
      2 ≤ (urlParts url.text).length := getFromAws_isOk_iff build url
  cases read : network.artifacts url.text with
  | none =>
    have asked : network.previousLogs build (some url) =
        (network.getFromAws build (some url)).map fun found => found.getD [] := by
      simp only [previousLogs, jenkinsLogs, read, bind, Except.bind]
    rw [asked, exists_map_eq_ok, archived]
    constructor
    · intro parts
      exact ⟨by simp [read], .inl parts⟩
    · intro served
      simpa [read] using served.known
  | some paths =>
    -- `format` of Python 2 puts the paths into a byte string, which raises unless they are ASCII.
    by_cases ascii : ∀ path ∈ paths.filter isLog, AsciiChars path
    · have saved : (∃ path ∈ paths.filter isLog, (network.saveLog url.text path).isSome) ↔
          (paths.filter isLog).filterMap (network.saveLog url.text) ≠ [] := by
        rw [ne_eq, List.filterMap_eq_nil_iff]
        simp [Option.isSome_iff_ne_none, and_assoc]
      have served : network.Served url ↔ 2 ≤ (urlParts url.text).length ∨
          (paths.filter isLog).filterMap (network.saveLog url.text) ≠ [] := by
        rw [← saved]
        constructor
        · intro served
          simpa [read] using served.known
        · intro known
          exact ⟨by simpa [read] using ascii, by simpa [read] using known⟩
      have jenkins : network.jenkinsLogs url.text =
          .ok ((paths.filter isLog).filterMap (network.saveLog url.text)) := by
        simp only [jenkinsLogs, read]
        rw [if_pos ascii]
      rw [served]
      simp only [previousLogs, jenkins, bind, Except.bind]
      cases (paths.filter isLog).filterMap (network.saveLog url.text) with
      | nil => simp [exists_map_eq_ok, archived]
      | cons log logs => simp [pure, Except.pure]
    · have jenkins : network.jenkinsLogs url.text = .error .unicodeEncodeError := by
        simp only [jenkinsLogs, read]
        rw [if_neg ascii]
      simp only [previousLogs, jenkins, bind, Except.bind]
      constructor
      · simp
      · intro served
        exact absurd (served.paths paths read) ascii

theorem previousLogs_none (build : Str) : network.previousLogs build none = .error .attributeError := rfl

end Network

theorem latestValid_eq_none_iff (jobs : List Job) :
    latestValid jobs = none ↔ ¬ ∃ job ∈ jobs, job.installFailure = false := by
  simp [latestValid]

theorem mergeXmls_document {network : Network} {document : RunDocument} (counted : document.Counted) :
    mergeXmls network (some document) =
      match (latestValid document.jobs.dropLast).or document.jobs.dropLast.head? with
      | none => .ok { previous := none, filespath := .text currentLogs }
      | some job => (network.previousLogs document.build job.jobUrl).map fun logs =>
        { previous := some job, filespath := .list (logs ++ [currentLogs]) } := by
  simp only [mergeXmls, lastSeen_document counted, bind, Except.bind]
  cases (latestValid document.jobs.dropLast).or document.jobs.dropLast.head? <;> rfl

/-- Where every earlier job failed to install, the oldest one is taken. -/
theorem historySelected_document {network : Network} {document : RunDocument}
    (counted : document.Counted) :
    HistorySelected network (some document) ↔
      (document.jobs.dropLast = [] ∨ ∃ job ∈ document.jobs.dropLast, job.installFailure = false) ∧
        ∀ job, latestValid document.jobs.dropLast = some job →
          ∃ url, job.jobUrl = some url ∧ network.Served url := by
  have parameters : ∀ buildUrl isRerun, getRerunParameters buildUrl (some document) isRerun =
      .ok ((latestValid document.jobs).map fun job => failedParam job.jobUrl) :=
    getRerunParameters_document counted
  have earlier : jobsOf (some document) = document.jobs := rfl
  rw [HistorySelected, earlier, and_iff_left parameters, mergeXmls_document counted]
  cases latest : latestValid document.jobs.dropLast with
  | none =>
    have noneValid := (latestValid_eq_none_iff _).mp latest
    simp only [noneValid, or_false, reduceCtorEq, false_implies, implies_true, and_true, Option.none_or]
    cases document.jobs.dropLast with
    | nil => simp
    | cons oldest later =>
      simp only [List.head?_cons, reduceCtorEq, iff_false]
      rintro ⟨merging, merged, selected⟩
      -- Either its logs raise or they are merged, and there should be none.
      obtain ⟨logs, found, rfl⟩ := map_eq_ok.mp merged
      cases selected
  | some job =>
    have valid : ∃ job ∈ document.jobs.dropLast, job.installFailure = false := by
      by_contra noneValid
      rw [(latestValid_eq_none_iff _).mpr noneValid] at latest
      cases latest
    simp only [valid, or_true, true_and, Option.some_or, Option.some.injEq, forall_eq']
    cases address : job.jobUrl with
    | none => simp [Network.previousLogs_none, Except.map]
    | some url =>
      simp only [Option.some.injEq, exists_eq_left']
      rw [← Network.previousLogs_isOk_iff document.build url]
      cases network.previousLogs document.build (some url) with
      | error raised => simp [Except.map]
      | ok logs => simp [Except.map]

/-- The searches select what they are meant to select exactly if there is a document, not all earlier
    jobs failed to install, and the reports of the selected one can be asked for. -/
theorem historySelected_iff (network : Network) (events : List Event) (call : Call) :
    HistorySelected network (findRerunJob (run step ∅ events) call).1.2 ↔
      ∃ document, (findRerunJob (run step ∅ events) call).1.2 = some document ∧
        (document.jobs.dropLast = [] ∨
          ∃ job ∈ document.jobs.dropLast, job.installFailure = false) ∧
        ∀ job, latestValid document.jobs.dropLast = some job →
          ∃ url, job.jobUrl = some url ∧ network.Served url := by
  have counted := (findRerunJob_counted (run_counted events) call).1
  cases returned : (findRerunJob (run step ∅ events) call).1.2 with
  | none =>
    -- `{}` has no `num_runs`.
    simp only [reduceCtorEq, false_and, exists_false, iff_false]
    rintro ⟨_, parameters⟩
    cases parameters none false
  | some document =>
    rw [historySelected_document (counted document returned)]
    simp

/-- Nothing is reached. -/
def silent : Network where
  artifacts _ := none
  download _ _ := none
  writes _ _ := false
  archive _ := none

theorem firstBuild_ascii : AsciiChars (str "http://j/job/a/1/") := by simp [AsciiChars, str]

theorem secondBuild_ascii : AsciiChars (str "http://j/job/a/2/") := by simp [AsciiChars, str]

def failedInstall : Job := ⟨some ⟨str "http://j/job/a/1/", firstBuild_ascii⟩, true⟩

def installed : Job := ⟨some ⟨str "http://j/job/a/2/", secondBuild_ascii⟩, false⟩

def storing (job : Job) : Call :=
  { docId := some (str "os_kv_1"), version := str "1", storeData := true, job := job, readable := true,
    raises := false, stored := true }

/-- The second run of a job that has failed to install before takes the reports of that failure. -/
theorem install_failure_is_selected :
    ¬ HistorySelected silent
      (findRerunJob (run step ∅ [.call (storing failedInstall)]) (storing installed)).1.2 := by
  have returned : (findRerunJob (run step ∅ [.call (storing failedInstall)]) (storing installed)).1.2 =
      some ⟨str "1", 2, [failedInstall, installed]⟩ := rfl
  rw [returned, historySelected_document ⟨rfl, by simp⟩]
  simp [failedInstall]

end Taf.Runner.History
