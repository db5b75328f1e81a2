import EdaLab.RunPages
import EdaLab.Service
import EdaLab.SpecHash
import EdaLab.Transaction
/-!
# JobServer — `ApiHandler` on a service over SQLite, for any input

A request is handled to its end: what JSON decoding, `float`, the parameters of a statement and the constraints of the
`runs` table do with a value of any type, and which of their exceptions the handler answers.  The columns of `runs` are
TEXT, so a number is stored as a text, a list cannot be bound at all, and a NULL is refused in every column but the id.
-/
namespace EdaLab

open Transaction Relational

/-- An exception that a request can meet. -/
inductive HttpError
  | keyError (key : String)
  | typeError
  | valueError
  | overflowError        -- an integer too large for a float, or for an INTEGER of SQLite
  | memoryError
  | recursionError
  | unicodeEncodeError   -- a lone surrogate
  | programmingError     -- a list or a dictionary as a parameter
  | integrityError
  | operationalError     -- "cannot start a transaction within a transaction"
  | runtimeError         -- "run insertion was not visible after an idempotency conflict"
  | inFlightBudgetExhausted
  | backpressure
  | idempotencyConflict
  deriving DecidableEq

/-- `except (KeyError, TypeError, ValueError)`. -/
def HttpError.isCaught : HttpError → Bool
  | keyError _ | typeError | valueError | unicodeEncodeError => true
  | _                                                        => false

/-- What the handlers depend on besides: `hashlib.sha256(…).hexdigest()`, what `json.loads` makes of bytes, `str` of what
is no text, and the text SQLite makes of a REAL. -/
structure ServerRuntime where
  sha256      : ByteArray → String
  loads       : List UInt8 → Except HttpError PyValue
  str         : PyValue → PyStr
  realText    : PyDouble → String
  interpreter : Interpreter

/-! ## The spec of a body -/

/-- As SQLite gets it; `none` is the `UnicodeEncodeError` of a lone surrogate. -/
def PyStr.encoded (s : PyStr) : Option String :=
  if s.all (fun c => !c.isSurrogate) then some (String.ofList (s.map (fun c => Char.ofNat c.val))) else none

namespace PyValue

/-- What an integer is rounded to. -/
def rounded : PyFloat → Except HttpError PyDouble
  | .finite q => .ok (.finite q)
  | _         => .error .overflowError

/-- `float(x)`. -/
def toFloat : PyValue → Except HttpError PyDouble
  | float x => .ok x
  | bool b  => .ok (.finite (if b then 1 else 0))
  | int i   => rounded (PyFloat.ofRat i)
  | str s   =>
    match s.encoded.bind PyDouble.ofText with
    | some x => .ok x
    | none   => .error .valueError
  | _       => .error .typeError

/-- `x[key]`. -/
def subscript (key : String) : PyValue → Except HttpError PyValue
  | object d =>
    match item d key with
    | some v => .ok v
    | none   => .error (.keyError key)
  | _        => .error .typeError

/-- `d.get(key, default)`. -/
def getItem (d : List (PyStr × PyValue)) (key : String) (default : PyValue) : PyValue := (item d key).getD default

/-- A float literal. -/
def literalFloat (q : ℚ) : PyValue := .float (.signed false (.ofRat q))

end PyValue

/-- `json.loads` of a body that is the UTF-8 of a text. -/
def loadUtf8 (b : List UInt8) : Except HttpError PyValue :=
  match String.fromUTF8? b.toByteArray with
  | none   => .error .valueError
  | some s =>
    match PyValue.loads s.toList with
    | some v => .ok v
    | none   => .error .valueError

/-- A server whose bodies are UTF-8. -/
def ServerRuntime.utf8 (rt : ServerRuntime) : ServerRuntime := { rt with loads := loadUtf8 }

/-- The `JobSpec` of `do_POST`. -/
def readSpec : PyValue → Except HttpError AnySpec
  | .object d => do
    let jobId ← (PyValue.object d).subscript "job_id"
    let designId ← (PyValue.object d).subscript "design_id"
    let ipFamily ← (PyValue.object d).subscript "ip_family"
    let worstSlack ← (PyValue.getItem d "worst_slack" (.literalFloat (12 / 100))).toFloat
    let durationSeconds ← (PyValue.getItem d "duration_seconds" (.literalFloat (2 / 100))).toFloat
    return {
      jobId           := jobId
      designId        := designId
      ipFamily        := ipFamily
      flowName        := PyValue.getItem d "flow_name" (.str (.ofString "synthetic-timing"))
      corner          := PyValue.getItem d "corner" (.str (.ofString "TT_25C"))
      worstSlack      := .float worstSlack
      unit            := PyValue.getItem d "unit" (.str (.ofString "ns"))
      durationSeconds := .float durationSeconds }
  | _ => .error .typeError

/-! ## The `runs` table -/

inductive SqlValue
  | null
  | integer (i : Int)
  | real (x : PyDouble)
  | text (s : String)

/-- A parameter of a statement. -/
def PyValue.parameter : PyValue → Except HttpError SqlValue
  | null        => .ok .null
  | bool b      => .ok (.integer (if b then 1 else 0))
  | int i       => if -2 ^ 63 ≤ i ∧ i < 2 ^ 63 then .ok (.integer i) else .error .overflowError
  | float .nan  => .ok .null
  | float x     => .ok (.real x)
  | str s       =>
    match s.encoded with
    | some t => .ok (.text t)
    | none   => .error .unicodeEncodeError
  | array _     => .error .programmingError
  | object _    => .error .programmingError

/-- A Run whose id is NULL, which a TEXT primary key takes, and takes again. -/
structure UnnamedRun where
  designId  : String
  ipFamily  : String
  flowName  : String
  specHash  : String
  updatedAt : Time

structure ServerDb where
  central : Db
  unnamed : List UnnamedRun

abbrev ServerSql (α : Type) := Action HttpError ServerDb α

/-! ## What makes a spec valid -/

def PyValue.IsText : PyValue → Prop
  | str _ => True
  | _     => False

/-- A text with no lone surrogate. -/
def PyValue.Encodes : PyValue → Prop
  | str s => s.encoded.isSome = true
  | _     => False

/-- The fields that are declared as texts are texts. -/
structure AnySpec.IsValid (s : AnySpec) : Prop where
  jobId    : s.jobId.IsText
  designId : s.designId.IsText
  ipFamily : s.ipFamily.IsText
  flowName : s.flowName.IsText
  corner   : s.corner.IsText
  unit     : s.unit.IsText

/-- The columns beside the id can be written. -/
structure AnySpec.Encodes (s : AnySpec) : Prop where
  designId : s.designId.Encodes
  ipFamily : s.ipFamily.Encodes
  flowName : s.flowName.Encodes

namespace JobServer

open Action

section Statements

variable (rt : ServerRuntime) (now : Time)

/-- What a TEXT column holds, or is compared with; `none` is NULL. -/
def asText : SqlValue → Option String
  | .null      => none
  | .integer i => some (toString i)
  | .real x    => some (rt.realText x)
  | .text s    => some s

def column (v : PyValue) : Except HttpError (Option String) :=
  match v.parameter with
  | .ok b    => .ok (asText rt b)
  | .error e => .error e

/-- A NULL equals no id. -/
def getRun (jobId : PyValue) : ServerSql (Option RunView) := select fun d =>
  match column rt jobId with
  | .ok j    => .ok (j.bind (Store.getRun d.central))
  | .error e => .error e

/-- The parameters that are taken from the spec. -/
structure Columns where
  jobId    : Option String
  designId : Option String
  ipFamily : Option String
  flowName : Option String

def columns (spec : AnySpec) : Except HttpError Columns := do
  let jobId ← column rt spec.jobId
  let designId ← column rt spec.designId
  let ipFamily ← column rt spec.ipFamily
  let flowName ← column rt spec.flowName
  return ⟨jobId, designId, ipFamily, flowName⟩

/-- The row and `rowcount == 1`; a row that a constraint refuses is an `IntegrityError`, or ignored. -/
def insertColumns (orIgnore : Bool) (specHash : String) (d : ServerDb) (c : Columns) : Except HttpError (ServerDb × Bool) :=
  match c.jobId, c.designId, c.ipFamily, c.flowName with
  | none, some designId, some ipFamily, some flowName =>
    .ok ({ d with unnamed := d.unnamed ++ [⟨designId, ipFamily, flowName, specHash, now⟩] }, true)
  | some jobId, some designId, some ipFamily, some flowName =>
    match d.central.runs.insertNew (Store.newRun now jobId designId ipFamily flowName (some specHash) none) with
    | some runs => .ok ({ d with central := { d.central with runs := runs } }, true)
    | none      => if orIgnore then .ok (d, false) else .error .integrityError
  | _, _, _, _ => if orIgnore then .ok (d, false) else .error .integrityError

/-- `INSERT INTO runs`, or `INSERT OR IGNORE`. -/
def insertRun (orIgnore : Bool) (specHash : String) (spec : AnySpec) (d : ServerDb) : Except HttpError (ServerDb × Bool) :=
  match columns rt spec with
  | .ok c    => insertColumns now orIgnore specHash d c
  | .error e => .error e

/-- The count of Runs admission is bounded by; a Run with no id stays `QUEUED`. -/
def inFlight (d : ServerDb) : Nat := Store.inFlight d.central + d.unnamed.length

def createRun (specHash : String) (maxInFlight : Option Nat) (spec : AnySpec) : ServerSql Bool :=
  match maxInFlight with
  | none => do
    let created ← execute (insertRun rt now true specHash spec)
    commit
    ret created
  | some budget => do
    beginImmediate .operationalError none
    rollingBack do
      let existing ← getRun rt spec.jobId
      if existing.isSome then do
        commit
        ret false
      else do
        let n ← select fun d => .ok (inFlight d)
        if budget ≤ n then raise .inFlightBudgetExhausted
        else do
          let created ← execute (insertRun rt now false specHash spec)
          commit
          ret created

end Statements

/-! ## `submit` -/

variable (rt : ServerRuntime) (svc : Service)

/-- The Run that is returned (`{}` for none), and whether the spec went to the executor. -/
structure Submitted where
  run      : Option RunView
  executed : Bool

/-- `except InFlightBudgetExhausted: raise BackpressureError`. -/
def backpressured {α : Type} (p : ServerSql α) : ServerSql α := fun c =>
  match p c with
  | (.error .inFlightBudgetExhausted, c) => (.error .backpressure, c)
  | r                                    => r

/-- An existing Run is the submitter's where the hashes agree. -/
def existing (specHash : String) (v : RunView) : ServerSql Submitted :=
  if v.run.specHash ≠ some specHash then raise .idempotencyConflict else ret ⟨some v, false⟩

/-- `_spec_hash`, which raises what `json.dumps` raises. -/
def hashOf (spec : AnySpec) : ServerSql String :=
  match spec.specHash rt.sha256 with
  | some h => ret h
  | none   => raise .valueError

/-- `running` counts the futures of this service that are not done. -/
def submit (running : Nat) (now : Time) (spec : AnySpec) : ServerSql Submitted := do
  let specHash ← hashOf rt spec
  let stored ← getRun rt spec.jobId
  match stored with
  | some v => existing specHash v
  | none   =>
    if svc.maxInFlight.any (fun budget => decide (budget ≤ running)) then raise .backpressure
    else do
      let created ← backpressured (createRun rt now specHash svc.maxInFlight spec)
      if created = false then do
        let stored ← getRun rt spec.jobId
        match stored with
        | some v => existing specHash v
        | none   => raise .runtimeError
      else do
        let stored ← getRun rt spec.jobId
        ret ⟨stored, decide (svc.executionMode = .local)⟩

/-! ## `do_POST` -/

inductive Response
  | accepted (run : Option RunView)
  | runs (page : ListResponse)
  | badRequest (cause : HttpError)       -- `{"error": str(exc)}`
  | notFound
  | conflict
  | budgetExhausted

def Response.status : Response → Nat
  | accepted _      => 202
  | runs _          => 200
  | badRequest _    => 400
  | notFound        => 404
  | conflict        => 409
  | budgetExhausted => 429

/-- `retry_after_ms` of a 429: `round(exc.retry_after_seconds * 1000)`, which raises where the product is infinite. -/
def retryAfterMs (seconds : ℚ) : Option ℤ :=
  match PyFloat.ofRat (seconds * 1000) with
  | .finite q => some (PyFloat.roundHalfEven q)
  | _         => none

/-- Its header: `max(1, math.ceil(exc.retry_after_seconds))`. -/
def retryAfter (seconds : ℚ) : ℤ := max 1 ⌈seconds⌉

/-- What a handler sent, and the exception that left it. -/
structure Handled where
  sent    : List Response
  escaped : Option HttpError := none

def answer (r : Response) : Handled := { sent := [r] }

def escape (e : HttpError) : Handled := { sent := [], escaped := some e }

/-- `length` is the `Content-Length`, or what is raised at it: by `int`, or by `read` at a length that no index or no memory
holds. -/
structure PostRequest where
  path   : String
  length : Except HttpError Int
  body   : List UInt8

/-- As many bytes as there are to read; a negative length reads them all. -/
def PostRequest.bytes (r : PostRequest) : Except HttpError (List UInt8) := do
  let n ← r.length
  return if n < 0 then r.body else r.body.take n.toNat

/-- The body of the first `try`. -/
def PostRequest.spec (r : PostRequest) : Except HttpError AnySpec := do
  let bytes ← r.bytes
  let data ← rt.loads bytes
  readSpec data

/-- What becomes of the result of `submit`. -/
def reply : Except HttpError Submitted → Handled
  | .ok s                       => answer (.accepted s.run)
  | .error .backpressure        => answer .budgetExhausted
  | .error .idempotencyConflict => answer .conflict
  | .error e                    => escape e

def doPost (running : Nat) (now : Time) (r : PostRequest) (c : Conn ServerDb) : Handled × Conn ServerDb :=
  if r.path ≠ "/jobs" then (answer .notFound, c)
  else
    match r.spec rt with
    | .error e => (if e.isCaught then answer (.badRequest e) else escape e, c)
    | .ok spec => (reply (submit rt svc running now spec c).1, (submit rt svc running now spec c).2)

/-! ## `GET /runs` -/

/-- `str(x)`. -/
def textOf : PyValue → PyStr
  | .str s => s
  | v      => rt.str v

/-- `float(raw["updated_at"]), str(raw["run_id"])`. -/
def cursorKey (raw : PyValue) : Except HttpError (PyDouble × PyStr) := do
  let time ← raw.subscript "updated_at"
  let updatedAt ← time.toFloat
  let runId ← raw.subscript "run_id"
  return (updatedAt, textOf rt runId)

/-- `_decode_cursor`. -/
def decodeCursor : Option String → Except HttpError (Option (PyDouble × PyStr))
  | none       => .ok none
  | some value =>
    if value = "" then .ok none
    else if value.toList.all (fun c => decide (c.toNat < 128)) = false then .error .valueError
    else
      match Base64.decode (Base64.pad value.toList) with
      | none       => .error .valueError
      | some bytes =>
        match rt.loads bytes >>= cursorKey rt with
        | .ok key  => .ok (some key)
        | .error e => .error (if e.isCaught then .valueError else e)

structure PageRequest where
  limit  : Nat
  cursor : Option (PyDouble × PyStr)

/-- The `try` of `_list_runs`. -/
def pageRequest (query : ListQuery) : Except HttpError PageRequest :=
  match rt.interpreter.int (query.limit.getD "25") with
  | .error _  => .error .valueError
  | .ok limit =>
    if 1 ≤ limit ∧ limit ≤ 100 then
      match decodeCursor rt query.cursor with
      | .ok cursor => .ok ⟨limit.toNat, cursor⟩
      | .error e   => .error e
    else .error .valueError

/-- The parameters of the cursor; NaN is bound as NULL, which no time is before. -/
def boundCursor : Option (PyDouble × PyStr) → Except HttpError (Option CursorKey)
  | none        => .ok none
  | some (x, s) =>
    match s.encoded with
    | some t => .ok (some ((PyValue.float x).exact, t))
    | none   => .error .unicodeEncodeError

/-- What `list_runs` selects: the ids in their order, `none` for a Run with no id. -/
def selectIds (d : ServerDb) (status : Option String) (limit : Nat) (cursor : Option CursorKey) : List (Option String) :=
  Store.listRunIds d.central (d.unnamed.map (·.updatedAt)) status limit cursor

/-- `list_runs`; `get_run` finds no Run for a NULL. -/
def listRuns (status : Option String) (limit : Nat) (cursor : Option (PyDouble × PyStr)) : ServerSql (List RunView) :=
  select fun d =>
    match boundCursor cursor with
    | .ok key  => .ok ((selectIds d status limit key).filterMap (fun j => j.bind (Store.getRun d.central)))
    | .error e => .error e

def doList (query : ListQuery) (c : Conn ServerDb) : Handled × Conn ServerDb :=
  match pageRequest rt query with
  | .error .valueError => (answer (.badRequest .valueError), c)
  | .error e           => (escape e, c)
  | .ok page           =>
    match (listRuns query.status (page.limit + 1) page.cursor c).1 with
    | .ok rows => (answer (.runs (listResponse page.limit rows)), c)
    | .error e => (escape e, c)

/-! ## What a body says -/

theorem PostRequest.spec_of_loads {rt : ServerRuntime} {r : PostRequest} {bytes : List UInt8} {data : PyValue}
    (hb : r.bytes = .ok bytes) (hl : rt.loads bytes = .ok data) : r.spec rt = readSpec data := by
  simp only [PostRequest.spec, hb, hl, bind, Except.bind]

/-! ## What the statements do -/

section Effects

variable {now : Time} {rt : ServerRuntime} {d : ServerDb} {spec : AnySpec} {j specHash : String}

theorem getRun_stored {r : RunRow} (hr : d.central.runs.get j = some r) : Store.getRun d.central j =
    some ⟨r, (d.central.metrics.get j).map (·.payload), Store.attemptsOf d.central j⟩ := by
  rw [Store.getRun, hr]
  rfl

theorem getRun_of_column (h : column rt spec.jobId = .ok (some j)) (c : Conn ServerDb) :
    getRun rt spec.jobId c = (.ok (Store.getRun c.view.central j), c) := by
  unfold getRun select
  rw [h]
  rfl

/-- **What `create_run` does with the id of no Run**, where no transaction is open. -/
theorem createRun_new (budget : Option Nat) (hj : column rt spec.jobId = .ok (some j)) (hn : d.central.runs.get j = none) :
    createRun rt now specHash budget spec (.clean d) =
      if budget.any (fun b => decide (b ≤ inFlight d)) then (.error .inFlightBudgetExhausted, .clean d)
      else
        match insertRun rt now budget.isNone specHash spec d with
        | .ok (d', created) => (.ok created, .clean d')
        | .error e          => (.error e, if budget.isNone then ⟨d, some d⟩ else .clean d) := by
  cases budget with
  | none =>
    unfold createRun
    simp only [Option.any_none, Bool.false_eq_true, if_false, Option.isNone_none, if_true]
    cases hins : insertRun rt now true specHash spec d with
    | ok r =>
      rw [execute_ok (c := .clean d) hins]
      rfl
    | error e =>
      rw [execute_error (c := .clean d) hins]
      rfl
  | some b =>
    have hget := getRun_of_column (c := ⟨d, some d⟩) hj
    have hnone : Store.getRun (Conn.view ⟨d, some d⟩).central j = none := by
      show (d.central.runs.get j).map _ = none
      rw [hn]
      rfl
    rw [hnone] at hget
    simp only [createRun, Option.any_some, Option.isNone_some, Bool.false_eq_true, if_false]
    rw [beginImmediate_ok, rollingBack]
    simp only [bind_eq]
    rw [hget]
    simp only [Option.isSome_none, Bool.false_eq_true, if_false, bind_eq, select, Conn.view, Option.getD_some]
    by_cases hfull : b ≤ inFlight d
    · rw [if_pos hfull, if_pos (decide_eq_true hfull)]
      rfl
    · rw [if_neg hfull, if_neg (by simpa using hfull)]
      cases hins : insertRun rt now false specHash spec d with
      | ok r =>
        rw [execute_pending hins]
        rfl
      | error e =>
        rw [execute_error (c := ⟨d, some d⟩) hins]

variable {svc : Service} {running : Nat}

theorem hashOf_ok (h : spec.specHash rt.sha256 = some specHash) : hashOf rt spec = ret specHash := by
  rw [hashOf, h]

/-- The id of a stored Run. -/
theorem submit_stored {v : RunView} (h : spec.specHash rt.sha256 = some specHash) (hj : column rt spec.jobId = .ok (some j))
    (hv : Store.getRun d.central j = some v) :
    submit rt svc running now spec (.clean d) = existing specHash v (.clean d) := by
  have hget := getRun_of_column (c := .clean d) hj
  have hview : Store.getRun (Conn.view (.clean d)).central j = some v := hv
  rw [hview] at hget
  simp only [submit, bind_eq, hashOf_ok h, ret]
  rw [hget]

theorem submit_unbound {e : HttpError} (h : spec.specHash rt.sha256 = some specHash) (hj : column rt spec.jobId = .error e) :
    submit rt svc running now spec (.clean d) = (.error e, .clean d) := by
  have hget : getRun rt spec.jobId (.clean d) = (.error e, .clean d) := by
    unfold getRun select
    rw [hj]
  simp only [submit, bind_eq, hashOf_ok h, ret]
  rw [hget]

/-- An id of no Run, where the budget is used up. -/
theorem submit_full (h : spec.specHash rt.sha256 = some specHash) (hj : column rt spec.jobId = .ok (some j))
    (hn : d.central.runs.get j = none)
    (hfull : svc.maxInFlight.any (fun b => decide (b ≤ running)) = true ∨
      svc.maxInFlight.any (fun b => decide (b ≤ inFlight d)) = true) :
    submit rt svc running now spec (.clean d) = (.error .backpressure, .clean d) := by
  have hget := getRun_of_column (c := .clean d) hj
  have hview : Store.getRun (Conn.view (.clean d)).central j = none := by
    show (d.central.runs.get j).map _ = none
    rw [hn]
    rfl
  rw [hview] at hget
  simp only [submit, bind_eq, hashOf_ok h, ret]
  rw [hget]
  simp only
  by_cases hown : svc.maxInFlight.any (fun b => decide (b ≤ running)) = true
  · rw [if_pos hown]
    rfl
  · rw [if_neg hown]
    simp only [bind_eq, backpressured, createRun_new svc.maxInFlight hj hn, if_pos (hfull.resolve_left hown)]

/-- **An id of no Run, where the budget is not used up.** -/
theorem submit_new (now : Time) (h : spec.specHash rt.sha256 = some specHash) (hj : column rt spec.jobId = .ok (some j))
    (hn : d.central.runs.get j = none) (hown : svc.maxInFlight.any (fun b => decide (b ≤ running)) = false)
    (hroom : svc.maxInFlight.any (fun b => decide (b ≤ inFlight d)) = false) :
    (∀ d', insertRun rt now svc.maxInFlight.isNone specHash spec d = .ok (d', true) →
      submit rt svc running now spec (.clean d) =
        (.ok ⟨Store.getRun d'.central j, decide (svc.executionMode = .local)⟩, .clean d')) ∧
    ∀ e, insertRun rt now svc.maxInFlight.isNone specHash spec d = .error e → e ≠ .inFlightBudgetExhausted →
      (submit rt svc running now spec (.clean d)).1 = .error e := by
  have hget := getRun_of_column (c := .clean d) hj
  have hview : Store.getRun (Conn.view (.clean d)).central j = none := by
    show (d.central.runs.get j).map _ = none
    rw [hn]
    rfl
  rw [hview] at hget
  constructor
  · intro d' hins
    have hafter := getRun_of_column (c := .clean d') hj
    simp only [submit, bind_eq, hashOf_ok h, ret]
    rw [hget]
    simp only [hown, Bool.false_eq_true, if_false, bind_eq, backpressured, createRun_new svc.maxInFlight hj hn, hroom, hins,
      Bool.true_eq_false, hafter]
    rfl
  · intro e hins he
    simp only [submit, bind_eq, hashOf_ok h, ret]
    rw [hget]
    simp only [hown, Bool.false_eq_true, if_false, bind_eq, backpressured, createRun_new svc.maxInFlight hj hn, hroom, hins]
    cases e with
    | inFlightBudgetExhausted => exact absurd rfl he
    | _ => rfl

end Effects

/-! ## A spec of texts -/

section Texts

variable {rt : ServerRuntime} {now : Time} {d : ServerDb} {spec : AnySpec} {j specHash : String} {v : PyValue}

/-- A column of a text is that text, or the text cannot be encoded. -/
theorem column_text (rt : ServerRuntime) (hv : v.IsText) :
    (v.Encodes ∧ ∃ t, column rt v = .ok (some t)) ∨ (¬ v.Encodes ∧ column rt v = .error .unicodeEncodeError) := by
  cases v with
  | str s =>
    cases hs : s.encoded with
    | some t => exact Or.inl ⟨by simp [PyValue.Encodes, hs], t, by simp [column, PyValue.parameter, hs, asText]⟩
    | none => exact Or.inr ⟨by simp [PyValue.Encodes, hs], by simp [column, PyValue.parameter, hs]⟩
  | _ => cases hv

theorem columns_text (hv : spec.IsValid) (hj : column rt spec.jobId = .ok (some j)) :
    (spec.Encodes ∧ ∃ designId ipFamily flowName,
      columns rt spec = .ok ⟨some j, some designId, some ipFamily, some flowName⟩) ∨
    (¬ spec.Encodes ∧ columns rt spec = .error .unicodeEncodeError) := by
  unfold columns
  rw [hj]
  rcases column_text rt hv.designId with ⟨hd, designId, hcd⟩ | ⟨hd, hcd⟩
  · rcases column_text rt hv.ipFamily with ⟨hi, ipFamily, hci⟩ | ⟨hi, hci⟩
    · rcases column_text rt hv.flowName with ⟨hf, flowName, hcf⟩ | ⟨hf, hcf⟩
      · refine Or.inl ⟨⟨hd, hi, hf⟩, designId, ipFamily, flowName, ?_⟩
        rw [hcd, hci, hcf]
        rfl
      · refine Or.inr ⟨fun h => hf h.flowName, ?_⟩
        rw [hcd, hci, hcf]
        rfl
    · refine Or.inr ⟨fun h => hi h.ipFamily, ?_⟩
      rw [hcd, hci]
      rfl
  · refine Or.inr ⟨fun h => hd h.designId, ?_⟩
    rw [hcd]
    rfl

/-- **The row of a spec of texts goes in, or a text cannot be encoded.** -/
theorem insertRun_text (now : Time) (specHash : String) (orIgnore : Bool) (hv : spec.IsValid)
    (hj : column rt spec.jobId = .ok (some j))
    (hn : d.central.runs.get j = none) :
    (spec.Encodes ∧ ∃ d' r, insertRun rt now orIgnore specHash spec d = .ok (d', true) ∧
      d'.central.runs.get j = some r ∧ r.specHash = some specHash) ∨
    (¬ spec.Encodes ∧ insertRun rt now orIgnore specHash spec d = .error .unicodeEncodeError) := by
  unfold insertRun
  rcases columns_text hv hj with ⟨henc, designId, ipFamily, flowName, hcols⟩ | ⟨henc, hcols⟩
  · rw [hcols]
    simp only [insertColumns]
    cases hins : d.central.runs.insertNew (Store.newRun now j designId ipFamily flowName (some specHash) none) with
    | none =>
      obtain ⟨r, hr⟩ := Option.isSome_iff_exists.1 (Table.insertNew_eq_none_iff.1 hins)
      have hkey : d.central.runs.get j = some r := hr
      rw [hn] at hkey
      cases hkey
    | some runs =>
      refine Or.inl ⟨henc, _, Store.newRun now j designId ipFamily flowName (some specHash) none, rfl, ?_, rfl⟩
      show runs.get j = _
      rw [Table.get_insertNew hins]
      exact if_pos rfl
  · rw [hcols]
    exact Or.inr ⟨henc, rfl⟩

/-- What is written of a spec of texts with two floats. -/
theorem specHash_text (rt : ServerRuntime) (hv : spec.IsValid) {x y : PyDouble} (hx : spec.worstSlack = .float x)
    (hy : spec.durationSeconds = .float y) : ∃ h, spec.specHash rt.sha256 = some h := by
  have htext : ∀ {v : PyValue}, v.IsText → ∃ s, v = .str s := by
    intro v hv
    cases v with
    | str s => exact ⟨s, rfl⟩
    | _ => cases hv
  obtain ⟨jobId, hjob⟩ := htext hv.jobId
  obtain ⟨designId, hdesign⟩ := htext hv.designId
  obtain ⟨ipFamily, hip⟩ := htext hv.ipFamily
  obtain ⟨flowName, hflow⟩ := htext hv.flowName
  obtain ⟨corner, hcorner⟩ := htext hv.corner
  obtain ⟨unit, hunit⟩ := htext hv.unit
  simp [AnySpec.specHash, AnySpec.payload, PyValue.dumps, PyValue.dumpsMembers, hjob, hdesign, hip, hflow, hcorner, hunit,
    hx, hy]

variable {svc : Service} {running : Nat}

/-- **A spec that was accepted is stored with its hash.** -/
theorem submit_ok {a : Submitted} {c : Conn ServerDb} (hv : spec.IsValid) (h : spec.specHash rt.sha256 = some specHash)
    (hok : submit rt svc running now spec (.clean d) = (.ok a, c)) :
    ∃ j r, column rt spec.jobId = .ok (some j) ∧ c.committed.central.runs.get j = some r ∧ r.specHash = some specHash := by
  rcases column_text rt hv.jobId with ⟨-, j, hj⟩ | ⟨-, hj⟩
  · refine ⟨j, ?_⟩
    cases hr : d.central.runs.get j with
    | some r =>
      rw [submit_stored h hj (getRun_stored hr), existing] at hok
      by_cases hne : r.specHash ≠ some specHash
      · rw [if_pos hne] at hok
        cases hok
      · rw [if_neg hne] at hok
        cases hok
        exact ⟨r, hj, hr, not_not.1 hne⟩
    | none =>
      by_cases hfull : svc.maxInFlight.any (fun b => decide (b ≤ running)) = true ∨
          svc.maxInFlight.any (fun b => decide (b ≤ inFlight d)) = true
      · rw [submit_full h hj hr hfull] at hok
        cases hok
      · obtain ⟨hown, hroom⟩ := not_or.1 hfull
        obtain ⟨hnew, herr⟩ := submit_new now h hj hr (by simpa using hown) (by simpa using hroom)
        rcases insertRun_text now specHash svc.maxInFlight.isNone hv hj hr with
          ⟨-, d', r, hins, hget, hhash⟩ | ⟨-, hins⟩
        · rw [hnew d' hins] at hok
          cases hok
          exact ⟨r, hj, hget, hhash⟩
        · have hfail := herr _ hins (by simp)
          rw [hok] at hfail
          cases hfail
  · rw [submit_unbound h hj] at hok
    cases hok

/-- A new Run has columns that can be written. -/
theorem submit_encodes {a : Submitted} {c : Conn ServerDb} (hv : spec.IsValid) (h : spec.specHash rt.sha256 = some specHash)
    (hj : column rt spec.jobId = .ok (some j)) (hn : d.central.runs.get j = none)
    (hok : submit rt svc running now spec (.clean d) = (.ok a, c)) : spec.Encodes := by
  by_contra henc
  by_cases hfull : svc.maxInFlight.any (fun b => decide (b ≤ running)) = true ∨
      svc.maxInFlight.any (fun b => decide (b ≤ inFlight d)) = true
  · rw [submit_full h hj hn hfull] at hok
    cases hok
  · obtain ⟨hown, hroom⟩ := not_or.1 hfull
    obtain ⟨-, herr⟩ := submit_new now h hj hn (by simpa using hown) (by simpa using hroom)
    rcases insertRun_text now specHash svc.maxInFlight.isNone hv hj hn with ⟨hyes, -⟩ | ⟨-, hins⟩
    · exact henc hyes
    · have hfail := herr _ hins (by simp)
      rw [hok] at hfail
      cases hfail

/-- An id whose Run is stored with the same hash is answered with that Run. -/
theorem submit_same (svc : Service) (running : Nat) (now : Time) (h : spec.specHash rt.sha256 = some specHash)
    (hj : column rt spec.jobId = .ok (some j)) {r : RunRow}
    (hr : d.central.runs.get j = some r) (hhash : r.specHash = some specHash) : ∃ v, Store.getRun d.central j = some v ∧
    submit rt svc running now spec (.clean d) = (.ok ⟨some v, false⟩, .clean d) := by
  refine ⟨_, getRun_stored hr, ?_⟩
  rw [submit_stored h hj (getRun_stored hr), existing, if_neg (not_not.2 hhash)]
  rfl

/-- One whose Run is stored with another hash is a conflict. -/
theorem submit_other (h : spec.specHash rt.sha256 = some specHash) (hj : column rt spec.jobId = .ok (some j)) {r : RunRow}
    (hr : d.central.runs.get j = some r) (hhash : r.specHash ≠ some specHash) :
    submit rt svc running now spec (.clean d) = (.error .idempotencyConflict, .clean d) := by
  rw [submit_stored h hj (getRun_stored hr), existing, if_pos hhash]
  rfl

end Texts

end JobServer

end EdaLab
