import EdaLab.JobServer
import EdaLab.Violations
/-!
# PublicApi — `do_GET`, and what it gives away

The routes under `/runs` and `/revisions` are the public contract: they show neither a lease nor a process, no host session,
no path of an artifact, no metrics and no provenance.  `/jobs/{id}` is older and sends the row as it is.  So an answer is the
same in every store that shows the public the same exactly where it is not the `/jobs` answer of a stored Run.
-/
namespace EdaLab

open JobServer Transaction Relational

/-- `_public_attempt`. -/
structure PublicAttempt where
  attemptNo  : Nat
  status     : AttemptStatus
  retryClass : Option RetryClass
  errorType  : Option String
  error      : Option String
  startedAt  : Time
  updatedAt  : Time
  deriving DecidableEq

def publicAttempt (a : AttemptRow) : PublicAttempt where
  attemptNo  := a.attemptNo
  status     := a.status
  retryClass := a.retryClass
  errorType  := a.errorType
  error      := a.error
  startedAt  := a.startedAt
  updatedAt  := a.updatedAt

/-- `_public_run(run, include_attempts=True)`. -/
structure PublicDetail where
  run      : PublicRun
  attempts : List PublicAttempt
  deriving DecidableEq

def publicDetail (v : RunView) : PublicDetail := ⟨publicRun v.run, v.attempts.map publicAttempt⟩

/-! ## `do_GET` -/

/-- What `urlsplit` and `parse_qs` make of the request line; of several values the first is read. -/
structure GetRequest where
  path  : String
  query : String → Option String

/-- What follows `route` in a path that starts with it. -/
def below (route path : String) : Option String :=
  if route.toList <+: path.toList then some (String.ofList (path.toList.drop route.length)) else none

/-- `path[len(route):-len(tail)]`; where the two overlap the slice is empty. -/
def between (route tail path : String) : Option String :=
  if route.toList <+: path.toList ∧ tail.toList <:+ path.toList then
    some (String.ofList ((path.toList.take (path.length - tail.length)).drop route.length))
  else none

inductive Route
  | runs
  | run (runId : String)
  | newViolations (candidate : String)
  | job (jobId : String)
  | unknown
  deriving DecidableEq

def route (path : String) : Route :=
  if path = "/runs" then .runs
  else
    match below "/runs/" path with
    | some runId => .run runId
    | none =>
      match between "/revisions/" "/new-violations" path with
      | some candidate => .newViolations candidate
      | none =>
        match below "/jobs/" path with
        | some jobId => .job jobId
        | none       => .unknown

inductive GetAnswer
  | listed (h : Handled)
  | run (detail : PublicDetail)
  | newViolations (report : ViolationReport)
  | job (view : RunView)
  | badRequest (error : String)
  | notFound (error : String)

/-- The tables the routes read, on the connection of the service. -/
structure ApiDb where
  server       : Conn ServerDb
  revisions    : Table RevisionRow.revisionId
  findings     : List FindingRow
  findingIndex : Bool

structure ApiService where
  runtime                 : ServerRuntime
  collation               : Collation
  enableNewViolationIndex : Bool

variable (api : ApiService)

/-- `create_finding_query_index`; its COMMIT ends a transaction that was left open. -/
def ApiDb.createFindingQueryIndex (d : ApiDb) : ApiDb :=
  { d with server := .clean d.server.view, findingIndex := true }

def getNewViolations (candidate : String) (baseline : Option String) (d : ApiDb) : GetAnswer × ApiDb :=
  match baseline with
  | none          => (.badRequest "baseline query parameter is required", d)
  | some baseline =>
    if candidate = "" ∨ baseline = "" then (.badRequest "baseline query parameter is required", d)
    else
      let d' := if api.enableNewViolationIndex then d.createFindingQueryIndex else d
      match newViolations api.collation d'.revisions d'.findings baseline candidate with
      | .ok report => (.newViolations report, d')
      -- `str` of a `KeyError` is the `repr` of its key
      | .error e   => (.notFound ("'" ++ e.text ++ "'"), d')

def doGet (g : GetRequest) (d : ApiDb) : GetAnswer × ApiDb :=
  match route g.path with
  | .runs =>
    (.listed (doList api.runtime ⟨g.query "limit", g.query "cursor", g.query "status"⟩ d.server).1,
      { d with server := (doList api.runtime ⟨g.query "limit", g.query "cursor", g.query "status"⟩ d.server).2 })
  | .run runId =>
    if runId = "" ∨ '/' ∈ runId.toList then (.notFound "not found", d)
    else
      match Store.getRun d.server.view.central runId with
      | some v => (.run (publicDetail v), d)
      | none   => (.notFound "run not found", d)
  | .newViolations candidate => getNewViolations api candidate (g.query "baseline") d
  | .job jobId =>
    match Store.getRun d.server.view.central jobId with
    | some v => (.job v, d)
    | none   => (.notFound "job not found", d)
  | .unknown => (.notFound "not found", d)

/-! ## What the public may see -/

/-- The two stores show the public the same. -/
structure SamePublic (d d' : ApiDb) : Prop where
  runs : d.server.view.central.runs.rows.map publicRun = d'.server.view.central.runs.rows.map publicRun
  attempts : d.server.view.central.attempts.rows.map (fun a => (a.jobId, publicAttempt a)) =
    d'.server.view.central.attempts.rows.map (fun a => (a.jobId, publicAttempt a))
  unnamed : d.server.view.unnamed.map (·.updatedAt) = d'.server.view.unnamed.map (·.updatedAt)
  revisions : d.revisions = d'.revisions
  findings : d.findings.map (fun f => (f.revisionId, f.violation)) = d'.findings.map (fun f => (f.revisionId, f.violation))

theorem SamePublic.refl (d : ApiDb) : SamePublic d d := ⟨rfl, rfl, rfl, rfl, rfl⟩

/-! ## What an answer depends on -/

section Reads

variable {d d' : ApiDb}

theorem get_publicRun (db : Db) (j : String) :
    (db.runs.get j).map publicRun = (db.runs.rows.map publicRun).find? (fun r => decide (r.runId = j)) := by
  rw [List.find?_map]
  rfl

/-- The Attempts of a Run, as the public sees them. -/
theorem attemptsOf_public (db : Db) (j : String) : (Store.attemptsOf db j).map publicAttempt =
    (((db.attempts.rows.map (fun a => (a.jobId, publicAttempt a))).filter (fun x => decide (x.1 = j))).map
      (·.2)).insertionSort
      (fun a b => a.attemptNo ≤ b.attemptNo) := by
  have hsort := List.map_insertionSort (r := fun a b : AttemptRow => a.attemptNo ≤ b.attemptNo)
    (s := fun a b : PublicAttempt => a.attemptNo ≤ b.attemptNo) publicAttempt
    (db.attempts.rows.filter (fun a => decide (a.jobId = j))) (fun a _ b _ => Iff.rfl)
  rw [Store.attemptsOf, hsort, List.filter_map, List.map_map]
  rfl

theorem SamePublic.get (h : SamePublic d d') (j : String) :
    (d.server.view.central.runs.get j).map publicRun = (d'.server.view.central.runs.get j).map publicRun := by
  rw [get_publicRun, get_publicRun, h.runs]

/-- `get_run`, through `_public_run`. -/
theorem SamePublic.detail (h : SamePublic d d') (j : String) :
    (Store.getRun d.server.view.central j).map publicDetail = (Store.getRun d'.server.view.central j).map publicDetail := by
  have hattempts : (Store.attemptsOf d.server.view.central j).map publicAttempt =
      (Store.attemptsOf d'.server.view.central j).map publicAttempt := by
    rw [attemptsOf_public, attemptsOf_public, h.attempts]
  have hview : ∀ db : Db, (Store.getRun db j).map publicDetail =
      ((db.runs.get j).map publicRun).map (fun r => ⟨r, (Store.attemptsOf db j).map publicAttempt⟩) := by
    intro db
    rw [Store.getRun, Option.map_map, Option.map_map]
    rfl
  rw [hview, hview, hattempts, h.get j]

/-- The ids a page is read by. -/
theorem SamePublic.selectIds (h : SamePublic d d') (status : Option String) (limit : Nat) (cursor : Option CursorKey) :
    selectIds d.server.view status limit cursor = selectIds d'.server.view status limit cursor := by
  have hnamed : ∀ db : Db, (db.runs.rows.filter (fun r => r.hasStatus status && r.beforeCursor cursor)).map
      RunRow.entry = ((db.runs.rows.map publicRun).filter (fun r =>
        status.all (fun text => decide (text = "") || decide (r.execution.text = text)) &&
        cursor.all (fun c => c.1.gt (.finite r.updatedAt) || (decide (c.1 = .finite r.updatedAt) && decide
          (r.runId < c.2))))).map
      (fun r => (r.updatedAt, some r.runId)) := by
    intro db
    rw [List.filter_map, List.map_map]
    rfl
  simp only [JobServer.selectIds, Store.listRunIds, Store.listed, hnamed, h.runs, h.unnamed]

/-- `_encode_cursor` reads the time and the id only. -/
def PublicRun.cursor (r : PublicRun) : String :=
  String.ofList (Base64.unpad (Base64.encode (String.ofList ('{' :: (Json.quoted "updated_at" ++ ':' ::
    ((PyFloat.repr r.updatedAt).text ++ ',' ::
      (Json.quoted "run_id" ++ ':' :: (Json.quoted r.runId ++ ['}'])))))).toByteArray.data.toList))

theorem encodeCursor_public (r : RunRow) : encodeCursor r = (publicRun r).cursor := rfl

/-- A page depends on what the public sees of its Runs, the cursor it ends with included. -/
theorem listResponse_public (limit : Nat) {rows rows' : List RunView}
    (h : rows.map (fun v => publicRun v.run) = rows'.map (fun v => publicRun v.run)) :
    listResponse limit rows = listResponse limit rows' := by
  have hitems : ∀ l : List RunView, (l.take limit).map (fun v => publicRun v.run) =
      (l.map (fun v => publicRun v.run)).take limit := fun l => List.map_take
  have hrest : ∀ l : List RunView, l.drop limit = [] ↔ (l.map (fun v => publicRun v.run)).length ≤ limit := by
    intro l
    rw [List.drop_eq_nil_iff, List.length_map]
  have hlast : ∀ l : List RunView, (l.take limit).getLast?.map (fun v => encodeCursor v.run) =
      ((l.map (fun v => publicRun v.run)).take limit).getLast?.map PublicRun.cursor := by
    intro l
    rw [← List.map_take, List.getLast?_map, Option.map_map]
    simp only [Function.comp_def, encodeCursor_public]
  simp only [listResponse, hitems, hrest, hlast, h]

/-- `GET /runs`. -/
theorem SamePublic.doList (h : SamePublic d d') (rt : ServerRuntime) (query : ListQuery) :
    (JobServer.doList rt query d.server).1 = (JobServer.doList rt query d'.server).1 := by
  unfold JobServer.doList
  cases pageRequest rt query with
  | error e => cases e <;> rfl
  | ok page =>
    simp only [listRuns, Action.select]
    cases boundCursor page.cursor with
    | error e => rfl
    | ok key =>
      refine congrArg (fun r => answer (.runs r)) (listResponse_public page.limit ?_)
      have hrun : ∀ j : Option String, (j.bind (Store.getRun d.server.view.central)).map (fun v => publicRun v.run) =
          (j.bind (Store.getRun d'.server.view.central)).map (fun v => publicRun v.run) := by
        intro j
        cases j with
        | none => rfl
        | some j =>
          have hdetail := congrArg (Option.map PublicDetail.run) (h.detail j)
          rwa [Option.map_map, Option.map_map] at hdetail
      rw [List.map_filterMap, List.map_filterMap, h.selectIds]
      exact List.filterMap_congr (fun j _ => hrun j)

/-- `new_violations`, which shows no Run of a finding. -/
theorem SamePublic.newViolations (h : SamePublic d d') (c : Collation) (baseline candidate : String) :
    EdaLab.newViolations c d.revisions d.findings baseline candidate =
      EdaLab.newViolations c d'.revisions d'.findings baseline candidate := by
  have hrows : ∀ findings : List FindingRow, violationRows c findings baseline candidate =
      Antijoin.query (fun x : String × Violation => (x.2.startpoint, x.2.endpoint, x.2.pathGroup, x.2.analysisType,
        x.2.corner))
        (fun x => x.2) (Violation.position c)
        ((findings.map (fun f => (f.revisionId, f.violation))).filter
          (fun x => decide (x.1 = candidate) && decide (x.2.slackNs < 0)))
        ((findings.map (fun f => (f.revisionId, f.violation))).filter
          (fun x => decide (x.1 = baseline) && decide (x.2.slackNs < 0))) := by
    intro findings
    rw [List.filter_map, List.filter_map, ← Antijoin.query_map]
    rfl
  unfold EdaLab.newViolations
  rw [hrows, hrows, h.revisions, h.findings]

theorem SamePublic.getNewViolations (h : SamePublic d d') (candidate : String) (baseline : Option String) :
    (EdaLab.getNewViolations api candidate baseline d).1 = (EdaLab.getNewViolations api candidate baseline d').1 := by
  unfold EdaLab.getNewViolations
  cases baseline with
  | none => rfl
  | some baseline =>
    simp only
    split
    · rfl
    · have htables : ∀ x : ApiDb, EdaLab.newViolations api.collation
          (if api.enableNewViolationIndex then x.createFindingQueryIndex else x).revisions
          (if api.enableNewViolationIndex then x.createFindingQueryIndex else x).findings baseline candidate =
          EdaLab.newViolations api.collation x.revisions x.findings baseline candidate := by
        intro x
        split <;> rfl
      rw [htables d, htables d', h.newViolations]
      cases EdaLab.newViolations api.collation d'.revisions d'.findings baseline candidate <;> rfl

end Reads

/-- The `/jobs` answer of a stored Run. -/
def GetRequest.showsRow (g : GetRequest) (d : ApiDb) : Prop :=
  ∃ j r, route g.path = .job j ∧ d.server.view.central.runs.get j = some r

/-- Another hash, which is no column of a public answer. -/
def RunRow.rehash (r : RunRow) : RunRow := { r with specHash := if r.specHash = none then some "" else none }

theorem RunRow.rehash_ne (r : RunRow) : r.rehash.specHash ≠ r.specHash := by
  unfold rehash
  cases r.specHash <;> simp

theorem RunRow.rehash_jobId (r : RunRow) : r.rehash.jobId = r.jobId := rfl

def Db.rehashed (db : Db) : Db :=
  { db with runs := db.runs.updateWhere (fun _ => true) RunRow.rehash RunRow.rehash_jobId }

theorem Db.get_rehashed (db : Db) (j : String) : db.rehashed.runs.get j = (db.runs.get j).map RunRow.rehash :=
  Table.get_updateWhere db.runs (fun _ => true) RunRow.rehash RunRow.rehash_jobId j

def ApiDb.rehashed (d : ApiDb) : ApiDb :=
  { d with server := .clean { d.server.view with central := d.server.view.central.rehashed } }

theorem samePublic_rehashed (d : ApiDb) : SamePublic d d.rehashed := by
  refine ⟨?_, rfl, rfl, rfl, rfl⟩
  show _ = List.map publicRun (List.map _ _)
  rw [List.map_map]
  rfl

/-- **An answer is the same in every store that shows the public the same, exactly where it is not the `/jobs` answer of a
stored Run.** -/
theorem answer_public_iff (g : GetRequest) (d : ApiDb) :
    (∀ d', SamePublic d d' → (doGet api g d').1 = (doGet api g d).1) ↔ ¬g.showsRow d := by
  constructor
  · rintro h ⟨j, r, hroute, hr⟩
    have hsame := h d.rehashed (samePublic_rehashed d)
    have hr' : d.rehashed.server.view.central.runs.get j = some r.rehash := by
      show d.server.view.central.rehashed.runs.get j = _
      rw [Db.get_rehashed, hr, Option.map_some]
    simp only [doGet, hroute, Store.getRun, hr, hr', Option.map_some] at hsame
    exact r.rehash_ne (congrArg (fun v => v.run.specHash) (GetAnswer.job.inj hsame))
  · intro h d' hsame
    unfold doGet
    cases hroute : route g.path with
    | runs => exact congrArg GetAnswer.listed (hsame.doList api.runtime _).symm
    | run runId =>
      simp only
      split
      · rfl
      · have hdetail := hsame.detail runId
        cases hv : Store.getRun d.server.view.central runId with
        | none =>
          rw [hv] at hdetail
          rw [Option.map_eq_none_iff.1 hdetail.symm]
        | some v =>
          rw [hv] at hdetail
          obtain ⟨v', hv', hshown⟩ := Option.map_eq_some_iff.1 hdetail.symm
          rw [hv']
          exact congrArg GetAnswer.run hshown
    | newViolations candidate => exact (hsame.getNewViolations api candidate (g.query "baseline")).symm
    | job j =>
      have hnone : d.server.view.central.runs.get j = none := by
        rw [Option.eq_none_iff_forall_ne_some]
        exact fun r hr => h ⟨j, r, hroute, hr⟩
      have hnone' : d'.server.view.central.runs.get j = none := by
        have hget := hsame.get j
        rw [hnone] at hget
        exact Option.map_eq_none_iff.1 hget.symm
      simp only [Store.getRun, hnone, hnone', Option.map_none]
    | unknown => rfl

end EdaLab
