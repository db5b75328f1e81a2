import EdaLab.Cursor
import EdaLab.Keyset
import EdaLab.StoreSpec
import Mathlib.Data.Prod.Lex
import Mathlib.Data.String.Basic
/-!
# RunPages — `list_runs` and `GET /runs`

`list_runs` selects ids and then reads each Run on its own, so writes land between its SELECTs; `_list_runs` asks for one
row more than the page holds, and makes `next_cursor` of the last row of the page as it was read the second time.  `Pages`
is a client that follows `next_cursor` while anyone calls the store, one SELECT a step.

SQLite takes a NULL for the id of a Run, any number of times.  Such a Run stays `QUEUED` at its first time, since no
statement finds it by its id: `list_runs` selects it and `get_run` does not read it.
-/
namespace EdaLab

/-- The spelling of the `status` column. -/
def RunStatus.text : RunStatus → String
  | .queued    => "QUEUED"
  | .running   => "RUNNING"
  | .succeeded => "SUCCEEDED"
  | .failed    => "FAILED"
  | .timedOut  => "TIMED_OUT"
  | .cancelled => "CANCELLED"

/-- `(updated_at, job_id)`, what Runs are ordered by. -/
def RunRow.position (r : RunRow) : ℚ ×ₗ String := toLex (r.updatedAt, r.jobId)

/-- `status = ?`; an empty filter is none. -/
def RunRow.hasStatus (status : Option String) (r : RunRow) : Bool :=
  status.all (fun text => decide (text = "") || decide (r.status.text = text))

/-- `(updated_at < ? OR (updated_at = ? AND job_id < ?))`; NaN is bound as NULL. -/
def RunRow.beforeCursor (cursor : Option CursorKey) (r : RunRow) : Bool :=
  cursor.all (fun c => c.1.gt (.finite r.updatedAt) || (decide (c.1 = .finite r.updatedAt) && decide (r.jobId < c.2)))

/-- The WHERE clause on a Run with a NULL id, which is no less than the cursor's. -/
def unnamedListed (status : Option String) (cursor : Option CursorKey) (updatedAt : Time) : Bool :=
  status.all (fun text => decide (text = "") || decide (text = "QUEUED")) &&
    cursor.all (fun c => c.1.gt (.finite updatedAt))

/-- `ORDER BY updated_at DESC, job_id DESC`: a NULL comes last. -/
def listedBefore (a b : Time × Option String) : Bool :=
  decide (b.1 < a.1) || decide (b.1 = a.1) && b.2.all (fun j => a.2.any (fun i => decide (j ≤ i)))

/-- The columns a Run is ordered by. -/
def RunRow.entry (r : RunRow) : Time × Option String := (r.updatedAt, some r.jobId)

/-- The Runs `list_runs` selects from, in their order; `unnamed` are the times of those with a NULL id. -/
def Store.listed (db : Db) (unnamed : List Time) (status : Option String) (cursor : Option CursorKey) :
    List (Time × Option String) :=
  ((db.runs.rows.filter (fun (r : RunRow) => r.hasStatus status && r.beforeCursor cursor)).map RunRow.entry ++
    (unnamed.filter (unnamedListed status cursor)).map (fun t => (t, none))).insertionSort
    (fun a b => listedBefore a b = true)

/-- The ids `list_runs` selects. -/
def Store.listRunIds (db : Db) (unnamed : List Time) (status : Option String) (limit : Nat) (cursor : Option CursorKey) :
    List (Option String) :=
  ((Store.listed db unnamed status cursor).take limit).map (·.2)

/-! ## The request handler -/

/-- `_public_run` without the Attempts. -/
structure PublicRun where
  runId             : String
  designId          : String
  ipFamily          : String
  flowName          : String
  execution         : RunStatus
  parse             : ParseStatus
  check             : CheckStatus
  completeness      : Completeness
  semantic          : Validity
  provenance        : Validity
  trust             : TrustStatus
  updatedAt         : Time
  artifactAvailable : Bool
  error             : Option String
  deriving DecidableEq

def publicRun (run : RunRow) : PublicRun where
  runId             := run.jobId
  designId          := run.designId
  ipFamily          := run.ipFamily
  flowName          := run.flowName
  execution         := run.status
  parse             := run.parseStatus
  check             := run.checkStatus
  completeness      := run.completeness
  semantic          := run.semanticStatus
  provenance        := run.provenanceStatus
  trust             := run.trustStatus
  updatedAt         := run.updatedAt
  artifactAvailable := run.artifactPath.any (fun p => decide (p ≠ ""))
  error             := run.error

/-- The query of `GET /runs`. -/
structure ListQuery where
  limit  : Option String := none
  cursor : Option String := none
  status : Option String := none

structure ListRequest where
  limit  : Nat
  cursor : Option CursorKey
  status : Option String

/-- A 400 with its text, or the exception that leaves the handler. -/
inductive ListFailure
  | badRequest (error : String)
  | overflowError
  deriving DecidableEq

/-- What the handler runs in. -/
structure Api where
  backend     : Backend
  interpreter : Interpreter
  runtime     : Runtime

def listRequest (api : Api) (query : ListQuery) : Except ListFailure ListRequest :=
  match api.interpreter.int (query.limit.getD "25") with
  | .error e => .error (.badRequest e.text)
  | .ok limit =>
    if 1 ≤ limit ∧ limit ≤ 100 then
      match decodeCursor api.runtime query.cursor with
      | .error .invalidCursor => .error (.badRequest "invalid cursor")
      | .error .overflowError => .error .overflowError
      | .ok cursor            => .ok ⟨limit.toNat, cursor, query.status⟩
    else .error (.badRequest "limit must be between 1 and 100")

structure ListResponse where
  items      : List PublicRun
  nextCursor : Option String

def listResponse (limit : Nat) (rows : List RunView) : ListResponse :=
  let page := rows.take limit
  let remaining := rows.drop limit
  { items      := page.map (fun v => publicRun v.run)
    nextCursor := if remaining = [] then none else page.getLast?.map (fun v => encodeCursor v.run) }

/-! ## Following `next_cursor` -/

/-- A request whose ids are selected: those still to be read are `left`. -/
structure Listing where
  request : ListRequest
  ids     : List (Option String)
  views   : List RunView
  left    : List (Option String)

/-- The SELECT that comes next: of the ids, or one of the three of `get_run`. -/
inductive ListStage
  | select (request : ListRequest)
  | row (l : Listing)
  | metrics (l : Listing) (run : RunRow)
  | attempts (l : Listing) (run : RunRow) (metrics : Option Document)
  | finished
  | failed (f : ListFailure)

structure Pages where
  clock   : Time
  db      : Db
  /-- The times of the Runs with a NULL id. -/
  unnamed : List Time
  query   : ListQuery
  /-- The items of the pages so far. -/
  items   : List PublicRun
  stage   : ListStage

inductive PagesAct
  /-- Someone calls the store. -/
  | store (op : StoreOp)
  /-- Someone creates a Run with a NULL id. -/
  | unnamed
  | tick (now : Time)
  /-- The next SELECT of the listing, or its answer. -/
  | advance

instance (q : ℚ) : Decidable (PyFloat.IsDouble q) := inferInstanceAs (Decidable (PyFloat.ofRat q = .finite q))

namespace Pages

def stageOf : Except ListFailure ListRequest → ListStage
  | .error f => .failed f
  | .ok r    => .select r

/-- The first request. -/
def start (api : Api) (clock : Time) (db : Db) (unnamed : List Time) (query : ListQuery) : Pages :=
  ⟨clock, db, unnamed, query, [], stageOf (listRequest api query)⟩

/-- The page is complete; the client asks for the next one. -/
def answer (api : Api) (s : Pages) (l : Listing) : Pages :=
  let response := listResponse l.request.limit l.views
  match response.nextCursor with
  | none   => { s with items := s.items ++ response.items, stage := .finished }
  | some c =>
    let query := { s.query with cursor := some c }
    { s with items := s.items ++ response.items, query, stage := stageOf (listRequest api query) }

def advance (api : Api) (s : Pages) : Option Pages :=
  match s.stage with
  | .select r =>
    let ids := Store.listRunIds s.db s.unnamed r.status (r.limit + 1) r.cursor
    some { s with stage := .row ⟨r, ids, [], ids⟩ }
  | .row l =>
    match l.left with
    | []           => some (s.answer api l)
    | none :: left => some { s with stage := .row { l with left } }
    | some j :: left =>
      match s.db.runs.get j with
      | none     => some { s with stage := .row { l with left } }
      | some run => some { s with stage := .metrics { l with left } run }
  | .metrics l run => some { s with stage := .attempts l run ((s.db.metrics.get run.jobId).map (·.payload)) }
  | .attempts l run m =>
    some { s with stage := .row { l with views := l.views ++ [⟨run, m, Store.attemptsOf s.db run.jobId⟩] } }
  | .finished => none
  | .failed _ => none

/-- The clock never goes back, and reads doubles. -/
def step (api : Api) (s : Pages) : PagesAct → Option Pages
  | .store op => some { s with db := op.after api.backend s.clock s.db }
  | .unnamed  => if api.backend = .sqlite then some { s with unnamed := s.unnamed ++ [s.clock] } else none
  | .tick now => if s.clock ≤ now ∧ PyFloat.IsDouble now then some { s with clock := now } else none
  | .advance  => s.advance api

end Pages

end EdaLab
