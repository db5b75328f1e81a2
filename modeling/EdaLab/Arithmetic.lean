import EdaLab.ReportSpec
/-!
# Arithmetic — the parser over another arithmetic

`parse_report` computes with doubles.  Here it is again over any rounding of the rationals its numbers denote; with the
doubles' it is `parseReport` (`parseReport_doubles`), with none its numbers are read as exact decimals.
-/
namespace EdaLab

open Pattern (Captures)

structure Arithmetic where
  float    : ℚ → PyFloat
  /-- A quotient by 1000, which stays finite. -/
  quotient : ℚ → ℚ

namespace Arithmetic

def doubles : Arithmetic := ⟨PyFloat.ofRat, PyFloat.nearest⟩

def exact : Arithmetic := ⟨PyFloat.finite, id⟩

variable (A : Arithmetic)

def parse (py : Interpreter) (s : List Char) : Except PyError PyFloat :=
  let (negative, body) := signed s
  let whole := body.takeWhile isDecimal
  let fraction := match body.dropWhile isDecimal with
    | []       => some []
    | '.' :: t => if t ≠ [] ∧ t.all isDecimal = true then some t else none
    | _        => none
  match fraction with
  | some t =>
    if whole = [] then .error (.valueError (py.floatError (String.ofList s)))
    else
      let q : ℚ := natOf ((whole ++ t).filterMap decimalValue) / 10 ^ t.length
      .ok (A.float (if negative then -q else q))
  | none => .error (.valueError (py.floatError (String.ofList s)))

def add : PyFloat → PyFloat → PyFloat
  | .finite a, .finite b => A.float (a + b)
  | .inf n, .inf m       => if n = m then .inf n else .nan
  | .inf n, .finite _    => .inf n
  | .finite _, .inf m    => .inf m
  | _, _                 => .nan

def sub (a b : PyFloat) : PyFloat := A.add a b.neg

def groupFloat (py : Interpreter) (m : Option Captures) (n : Nat) : Except PyError PyFloat := do
  A.parse py (← group m n)

/-! ## The synthetic format -/

def syntheticNumbers (py : Interpreter) (values : Fields) : Except PyError SyntheticNumbers := do
  let version ← py.int (← values.item "fixture_format_version")
  if version ≠ 1 then throw (.valueError "unsupported fixture version")
  let exitCode ← py.int (← values.item "tool_exit_code")
  match slackPattern.fullmatch (← values.item "worst_slack").toList with
  | none   => throw (.valueError "unsupported slack format or unit")
  | some m =>
    match ← A.groupFloat py (some m) 1 with
    | .finite numeric =>
      let unit := String.ofList (← group (some m) 2)
      return ⟨version, exitCode, numeric, unit, if unit = "ns" then numeric else A.quotient (numeric / 1000)⟩
    | _ => throw (.valueError "non-finite slack")

def syntheticFinish (py : Interpreter) (values : Fields) (errors : List String) (sourceSha256 : String) :
    Except PyError ParseResult :=
  let errors := errors ++
    (SYNTHETIC_REQUIRED.filter (fun key => (values.lookup key).isNone)).map (fun key => "missing field " ++ key)
  if errors ≠ [] then .ok (invalidReport errors "synthetic" sourceSha256 "eda_lab.synthetic:v1")
  else
    match A.syntheticNumbers py values with
    | .error (.valueError text) => .ok (invalidReport [text] "synthetic" sourceSha256 "eda_lab.synthetic:v1")
    | .error e                  => .error e
    | .ok x => do
      let runId ← values.item "run_id"
      let stage ← values.item "stage"
      let corner ← values.item "corner"
      return {
        parseStatus := .ok
        checkStatus := if 0 ≤ x.slackNs then .pass else .fail
        metrics := [("source_kind", .str "synthetic"), ("fixture_format_version", .int x.version), ("run_id", .str runId),
          ("stage", .str stage), ("corner", .str corner), ("tool_exit_code", .int x.exitCode),
          ("worst_slack_ns", .float x.slackNs), ("original_value", .float x.numeric), ("original_unit", .str x.unit),
          ("source_sha256", .str sourceSha256),
          ("job_status", .str (if x.exitCode = 0 then "SUCCEEDED" else "FAILED"))]
        errors := []
        completeness := .complete
        provenance := some (Document.merge (provenanceOf "synthetic" sourceSha256 "eda_lab.synthetic:v1" [])
          [("tool_exit_code", .int x.exitCode), ("flow_name", .str stage), ("corner", .str corner), ("run_id", .str runId)])
        semanticStatus := .valid
        provenanceStatus := .valid }

def parseSynthetic (py : Interpreter) (text : List Char) (sourceSha256 : String) : Except PyError ParseResult :=
  let x := ((splitlines text).zipIdx 1).foldl syntheticLine ([], [])
  A.syntheticFinish py x.1 x.2 sourceSha256

/-! ## The OpenSTA format -/

def semanticErrors (pathType label : String) (required signedArrival arrival slack worst : PyFloat) : List String :=
  (if pathType ≠ "max" then ["OpenSTA path type " ++ pathType ++ " does not match setup/max profile"] else []) ++
  (if (A.sub (A.add required signedArrival) slack).abs.gt (A.float (2 / 10 ^ 6)) then ["OpenSTA setup arithmetic mismatch"]
    else []) ++
  (if (A.add signedArrival arrival).abs.gt (A.float (2 / 10 ^ 6)) then ["OpenSTA arrival summary mismatch"] else []) ++
  (if (A.sub worst slack).abs.gt (A.float (5 / 10 ^ 7)) then ["reported path slack differs from worst slack"] else []) ++
  (if (label = "MET" ∧ (PyFloat.finite 0).gt slack = true) ∨ (label = "VIOLATED" ∧ (PyFloat.finite 0).gt slack = false)
    then ["OpenSTA slack label contradicts slack sign"] else [])

def openStaValues (py : Interpreter) (m : OpenStaMatches) : Except PyError OpenStaValues := do
  return {
    required := ← A.groupFloat py m.summary.1 1
    signedArrival := ← A.groupFloat py m.summary.1 2
    slack := ← A.groupFloat py m.summary.1 3
    arrival := ← A.groupFloat py m.arrivalRows.head? 1
    worst := ← A.groupFloat py m.worst.1 1
    label := String.ofList (← group m.summary.1 4)
    toolVersion := String.ofList (← group m.banner.1 1)
    toolRevision := String.ofList (← group m.banner.1 2)
    startpoint := String.ofList (← group m.startpoint.1 1)
    endpoint := String.ofList (← group m.endpoint.1 1)
    pathGroup := String.ofList (← group m.pathGroup.1 1)
    pathType := String.ofList (← group m.pathType.1 1) }

def openStaResult (v : OpenStaValues) (sourceSha256 : String) : ParseResult :=
  match v.required, v.signedArrival, v.arrival, v.slack, v.worst with
  | .finite required, .finite _, .finite arrival, .finite slack, .finite worst =>
    let contradictions := A.semanticErrors v.pathType v.label v.required v.signedArrival v.arrival v.slack v.worst
    { parseStatus := .ok
      checkStatus := if contradictions ≠ [] then .unknown else if v.label = "MET" then .pass else .fail
      metrics := [("source_kind", .str "tool_generated"), ("tool_name", .str "OpenSTA"),
        ("tool_version", .str v.toolVersion), ("tool_revision", .str v.toolRevision), ("analysis_type", .str "setup_max"),
        ("analysis_scope", .str "single_reported_path_group"), ("startpoint", .str v.startpoint),
        ("endpoint", .str v.endpoint), ("path_group", .str v.pathGroup), ("arrival_time_ns", .float arrival),
        ("required_time_ns", .float required), ("reported_path_slack_ns", .float slack), ("worst_slack_ns", .float worst),
        ("original_unit", .str "ns"), ("source_sha256", .str sourceSha256)]
      errors := contradictions
      completeness := .complete
      provenance := some (provenanceOf "tool_generated" sourceSha256 openStaParser
        [("tool_name", .str "OpenSTA"), ("tool_version", .str v.toolVersion), ("tool_revision", .str v.toolRevision),
         ("analysis_type", .str "setup_max"), ("report_profile", .str "opensta-3.1.0-single-path-setup-max-v1")])
      semanticStatus := if contradictions ≠ [] then .invalid else .valid
      provenanceStatus := .valid }
  | _, _, _, _, _ =>
    invalidReport ["non-finite OpenSTA timing value"] "tool_generated" sourceSha256 openStaParser

def parseOpenSta (py : Interpreter) (text : List Char) (sourceSha256 : String) : Except PyError ParseResult := do
  let m := openStaMatches text
  let errors ← openStaErrors text m
  if errors ≠ [] then return invalidReport errors "tool_generated" sourceSha256 openStaParser
  else return A.openStaResult (← A.openStaValues py m) sourceSha256

/-- `parse_report` with the arithmetic `A`. -/
def parseReport (py : Interpreter) (payload : ByteArray) : Except PyError ParseResult :=
  match String.fromUTF8? payload with
  | none      => .ok (invalidReport ["report is not UTF-8"] "unknown" (py.sha256 payload) "eda_lab.dispatch:v1")
  | some text =>
    let firstLine := strip ((splitlines text.toList).headD [])
    if firstLine = SYNTHETIC_MARKER.toList then A.parseSynthetic py text.toList (py.sha256 payload)
    else if "OpenSTA ".toList.isPrefixOf firstLine then A.parseOpenSta py text.toList (py.sha256 payload)
    else .ok (invalidReport ["unsupported timing report format"] "unknown" (py.sha256 payload) "eda_lab.dispatch:v1")

/-! ## The source's arithmetic -/

theorem parse_doubles : doubles.parse = PyFloat.parse := by
  funext py s
  unfold parse PyFloat.parse
  rfl

theorem groupFloat_doubles : doubles.groupFloat = EdaLab.groupFloat := by
  funext py m n
  unfold groupFloat EdaLab.groupFloat
  rw [parse_doubles]

theorem add_doubles : doubles.add = PyFloat.add := by
  funext a b
  cases a <;> cases b <;> rfl

theorem sub_doubles : doubles.sub = PyFloat.sub := by
  funext a b
  unfold sub PyFloat.sub
  rw [add_doubles]

theorem syntheticNumbers_doubles : doubles.syntheticNumbers = EdaLab.syntheticNumbers := by
  funext py values
  unfold syntheticNumbers EdaLab.syntheticNumbers
  rewrite [groupFloat_doubles]
  rfl

theorem syntheticFinish_doubles : doubles.syntheticFinish = EdaLab.syntheticFinish := by
  funext py values errors sha
  unfold syntheticFinish EdaLab.syntheticFinish
  rewrite [syntheticNumbers_doubles]
  rfl

theorem semanticErrors_doubles : doubles.semanticErrors = EdaLab.semanticErrors := by
  funext pathType label required signedArrival arrival slack worst
  unfold semanticErrors EdaLab.semanticErrors
  rewrite [add_doubles, sub_doubles]
  rfl

theorem openStaValues_doubles : doubles.openStaValues = EdaLab.openStaValues := by
  funext py m
  unfold openStaValues EdaLab.openStaValues
  rw [groupFloat_doubles]

theorem openStaResult_doubles : doubles.openStaResult = EdaLab.openStaResult := by
  funext v sha
  unfold openStaResult EdaLab.openStaResult
  rewrite [semanticErrors_doubles]
  rfl

/-- **With the doubles' arithmetic it is the source's parser.** -/
theorem parseReport_doubles : doubles.parseReport = EdaLab.parseReport := by
  funext py payload
  unfold parseReport EdaLab.parseReport parseSynthetic EdaLab.parseSynthetic parseOpenSta EdaLab.parseOpenSta
  rewrite [syntheticFinish_doubles, openStaValues_doubles, openStaResult_doubles]
  rfl

end Arithmetic

end EdaLab
