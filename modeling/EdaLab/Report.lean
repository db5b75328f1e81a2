import EdaLab.Models
import EdaLab.PyText
/-!
# Report — `parse_report`

The synthetic format is `key=value` lines after a marker; the OpenSTA format is a set of patterns each of which matches
exactly once.  A `Match` that is `None` has no groups and a group that took no part has no text, so the functions here can
raise; that they never do is `parseReport_ok` of the next module.
-/
namespace EdaLab

open Pattern (Captures)

def SYNTHETIC_MARKER : String := "SYNTHETIC / NOT GENERATED BY AN EDA TOOL"

def OPENSTA_COMPLETION_MARKER : String := "EDA_LAB_REPORT_END"

def SYNTHETIC_REQUIRED : List String :=
  ["fixture_format_version", "run_id", "stage", "corner", "tool_exit_code", "worst_slack"]

/-- `_provenance`. -/
def provenanceOf (sourceKind sourceSha256 parser : String) (extra : Document) : Document :=
  Document.merge [("source_kind", .str sourceKind), ("source_sha256", .str sourceSha256), ("parser", .str parser),
    ("artifact_kind", .str "timing_report")] extra

/-- `_invalid`; no caller passes other statuses or more provenance. -/
def invalidReport (errors : List String) (sourceKind sourceSha256 parser : String) : ParseResult where
  parseStatus := .invalid
  checkStatus := .unknown
  metrics := []
  errors := errors
  completeness := .incomplete
  provenance := some (provenanceOf sourceKind sourceSha256 parser [])
  semanticStatus := .unknown
  provenanceStatus := .unknown

/-! ## Matches -/

/-- `m.group(n)`. -/
def group (m : Option Captures) (n : Nat) : Except PyError (List Char) :=
  match m with
  | none   => .error (.attributeError "'NoneType' object has no attribute 'group'")
  | some s =>
    match s.lookup n with
    | none   => .error (.typeError "expected string or bytes-like object, got 'NoneType'")
    | some t => .ok t

/-- `_single_match`: the match, and what it adds to the errors. -/
def singleMatch (pattern : Pattern) (text : List Char) (field : String) : Option Captures × List String :=
  match pattern.finditer text with
  | [s]   => (some s, [])
  | found => (none, ["expected exactly one " ++ field ++ ", found " ++ toString found.length])

/-- What a matched field adds to the errors where its group is not the one supported. -/
def unsupported (m : Option Captures) (n : Nat) (supported message : String) : Except PyError (List String) :=
  match m with
  | none   => .ok []
  | some s => do
    let t ← group (some s) n
    return if String.ofList t ≠ supported then [message ++ String.ofList t] else []

def groupFloat (py : Interpreter) (m : Option Captures) (n : Nat) : Except PyError PyFloat := do
  PyFloat.parse py (← group m n)

section Patterns

open Pattern

def space : Pattern := .one isSpace

def nonSpace : Pattern := .one (fun c => !isSpace c)

def newline : Pattern := .text "\n"

def dashes : Pattern := .many1 (.text "-")

def bannerPattern : Pattern :=
  .all [.bol, .text "OpenSTA", .many1 space, .group 1 (.many1 nonSpace), .many1 space,
    .group 2 (.many1 (.one (fun c => decide ('0' ≤ c ∧ c ≤ '9') || decide ('a' ≤ c ∧ c ≤ 'f')))), .many1 space,
    .text "Copyright"]

/-- Under `(?i)`, where each of these letters has its two cases only. -/
def errorPattern : Pattern :=
  .seq .bol (.seq (.all ("error".toList.map (fun x => .one (fun c => decide (c.toLower = x)))))
    (.alt space (.text ":")))

def unitPattern : Pattern :=
  .all [.bol, .many space, .text "time", .many1 space, .group 1 (.many1 nonSpace), .many space, .eol]

/-- `^<name>:\s+(.+?)\s+\(`. -/
def pointPattern (name : String) : Pattern :=
  .all [.bol, .text (name ++ ":"), .many1 space, .group 1 (.many1Lazy (.one (fun c => decide (c ≠ '\n')))), .many1 space,
    .text "("]

/-- `^<name>:\s+(\S+)\s*$`. -/
def wordPattern (name : String) : Pattern :=
  .all [.bol, .text (name ++ ":"), .many1 space, .group 1 (.many1 nonSpace), .many space, .eol]

def summaryPattern : Pattern :=
  .all [.bol, dashes, newline,
    .many space, .group 1 numberPattern, .many1 space, .text "data required time", newline,
    .many space, .group 2 numberPattern, .many1 space, .text "data arrival time", newline,
    dashes, newline,
    .many space, .group 3 numberPattern, .many1 space, .text "slack (", .group 4 (.alt (.text "MET") (.text "VIOLATED")),
    .text ")", .many space, .eol]

def worstPattern : Pattern :=
  .all [.bol, .text "worst slack max", .many1 space, .group 1 numberPattern, .many space, .eol]

def arrivalPattern : Pattern :=
  .all [.bol, .many space, .group 1 numberPattern, .many1 space, .text "data arrival time", .many space, .eol]

/-- `(NUMBER)\s*(ns|ps)`. -/
def slackPattern : Pattern :=
  .all [.group 1 numberPattern, .many space, .group 2 (.alt (.text "ns") (.text "ps"))]

end Patterns

/-! ## The synthetic format -/

/-- `values`: a key that is set again keeps its place. -/
abbrev Fields := List (String × String)

def Fields.set : Fields → String → String → Fields
  | [], k, v           => [(k, v)]
  | (j, w) :: fs, k, v => if j = k then (k, v) :: fs else (j, w) :: Fields.set fs k v

/-- `values[key]`. -/
def Fields.item (values : Fields) (key : String) : Except PyError String :=
  match values.lookup key with
  | none   => .error (.keyError key)
  | some v => .ok v

/-- One line of the loop of `_parse_synthetic`; the state is `values` and `errors`. -/
def syntheticLine (x : Fields × List String) (line : List Char × Nat) : Fields × List String :=
  if '=' ∉ line.1 ∨ SYNTHETIC_MARKER.toList.isPrefixOf line.1 = true then x
  else
    let key := String.ofList (strip (line.1.takeWhile (fun c => decide (c ≠ '='))))
    let value := String.ofList (strip ((line.1.dropWhile (fun c => decide (c ≠ '='))).drop 1))
    (x.1.set key value,
     if (x.1.lookup key).isSome then x.2 ++ ["duplicate field " ++ key ++ " at line " ++ toString line.2] else x.2)

/-- What the `try` block reads from the fields. -/
structure SyntheticNumbers where
  version  : Int
  exitCode : Int
  numeric  : ℚ
  unit     : String
  slackNs  : ℚ

def syntheticNumbers (py : Interpreter) (values : Fields) : Except PyError SyntheticNumbers := do
  let version ← py.int (← values.item "fixture_format_version")
  if version ≠ 1 then throw (.valueError "unsupported fixture version")
  let exitCode ← py.int (← values.item "tool_exit_code")
  match slackPattern.fullmatch (← values.item "worst_slack").toList with
  | none   => throw (.valueError "unsupported slack format or unit")
  | some m =>
    match ← groupFloat py (some m) 1 with
    | .finite numeric =>
      let unit := String.ofList (← group (some m) 2)
      -- a quotient by 1000 stays finite
      return ⟨version, exitCode, numeric, unit, if unit = "ns" then numeric else PyFloat.nearest (numeric / 1000)⟩
    | _ => throw (.valueError "non-finite slack")

/-- `_synthetic_finish`. -/
def syntheticFinish (py : Interpreter) (values : Fields) (errors : List String) (sourceSha256 : String) :
    Except PyError ParseResult :=
  let errors := errors ++
    (SYNTHETIC_REQUIRED.filter (fun key => (values.lookup key).isNone)).map (fun key => "missing field " ++ key)
  if errors ≠ [] then .ok (invalidReport errors "synthetic" sourceSha256 "eda_lab.synthetic:v1")
  else
    match syntheticNumbers py values with
    | .error (.valueError text) => .ok (invalidReport [text] "synthetic" sourceSha256 "eda_lab.synthetic:v1")
    | .error e                  => .error e
    | .ok x => do
      let runId ← values.item "run_id"
      let stage ← values.item "stage"
      let corner ← values.item "corner"
      return {
        parseStatus := .ok
        checkStatus := if 0 ≤ x.slackNs then .pass else .fail
        metrics := [("source_kind", .str "synthetic"), ("fixture_format_version", .int x.version), ("run_id", .str runId),
          ("stage", .str stage), ("corner", .str corner), ("tool_exit_code", .int x.exitCode),
          ("worst_slack_ns", .float x.slackNs), ("original_value", .float x.numeric), ("original_unit", .str x.unit),
          ("source_sha256", .str sourceSha256),
          ("job_status", .str (if x.exitCode = 0 then "SUCCEEDED" else "FAILED"))]
        errors := []
        completeness := .complete
        provenance := some (Document.merge (provenanceOf "synthetic" sourceSha256 "eda_lab.synthetic:v1" [])
          [("tool_exit_code", .int x.exitCode), ("flow_name", .str stage), ("corner", .str corner), ("run_id", .str runId)])
        semanticStatus := .valid
        provenanceStatus := .valid }

def parseSynthetic (py : Interpreter) (text : List Char) (sourceSha256 : String) : Except PyError ParseResult :=
  let x := ((splitlines text).zipIdx 1).foldl syntheticLine ([], [])
  syntheticFinish py x.1 x.2 sourceSha256

/-! ## The OpenSTA format -/

def openStaParser : String := "eda_lab.opensta_setup_max:v1"

/-- The tolerances of the consistency checks, as doubles. -/
def tolerance : PyFloat := PyFloat.ofRat (2 / 10 ^ 6)

def slackTolerance : PyFloat := PyFloat.ofRat (5 / 10 ^ 7)

/-- What the report contradicts itself in. -/
def semanticErrors (pathType label : String) (required signedArrival arrival slack worst : PyFloat) : List String :=
  (if pathType ≠ "max" then ["OpenSTA path type " ++ pathType ++ " does not match setup/max profile"] else []) ++
  (if ((required.add signedArrival).sub slack).abs.gt tolerance then ["OpenSTA setup arithmetic mismatch"] else []) ++
  (if (signedArrival.add arrival).abs.gt tolerance then ["OpenSTA arrival summary mismatch"] else []) ++
  (if (worst.sub slack).abs.gt slackTolerance then ["reported path slack differs from worst slack"] else []) ++
  (if (label = "MET" ∧ (PyFloat.finite 0).gt slack = true) ∨ (label = "VIOLATED" ∧ (PyFloat.finite 0).gt slack = false)
    then ["OpenSTA slack label contradicts slack sign"] else [])

/-- The matches of the report, each with what it adds to the errors. -/
structure OpenStaMatches where
  banner      : Option Captures × List String
  unit        : Option Captures × List String
  startpoint  : Option Captures × List String
  endpoint    : Option Captures × List String
  pathGroup   : Option Captures × List String
  pathType    : Option Captures × List String
  summary     : Option Captures × List String
  worst       : Option Captures × List String
  arrivalRows : List Captures

def openStaMatches (text : List Char) : OpenStaMatches where
  banner := singleMatch bannerPattern text "OpenSTA banner"
  unit := singleMatch unitPattern text "time unit"
  startpoint := singleMatch (pointPattern "Startpoint") text "startpoint"
  endpoint := singleMatch (pointPattern "Endpoint") text "endpoint"
  pathGroup := singleMatch (wordPattern "Path Group") text "path group"
  pathType := singleMatch (wordPattern "Path Type") text "path type"
  summary := singleMatch summaryPattern text "OpenSTA setup summary"
  worst := singleMatch worstPattern text "worst slack"
  arrivalRows := arrivalPattern.finditer text

/-- `errors`, in the order the source appends to them. -/
def openStaErrors (text : List Char) (m : OpenStaMatches) : Except PyError (List String) := do
  let version ← unsupported m.banner.1 1 "3.1.0" "unsupported OpenSTA version "
  let unitName ← unsupported m.unit.1 1 "1ns" "unsupported time unit "
  let marker := if countOf OPENSTA_COMPLETION_MARKER.toList (text.length + 1) text ≠ 1
    then ["missing or duplicate OpenSTA completion marker"] else []
  let diagnostic := if (errorPattern.search text).isSome then ["OpenSTA error diagnostic present"] else []
  let arrivals := if m.arrivalRows.length ≠ 2
    then ["expected exactly two data arrival summaries, found " ++ toString m.arrivalRows.length] else []
  return m.banner.2 ++ version ++ marker ++ diagnostic ++ m.unit.2 ++ unitName ++ m.startpoint.2 ++ m.endpoint.2 ++
    m.pathGroup.2 ++ m.pathType.2 ++ m.summary.2 ++ m.worst.2 ++ arrivals

/-- The values of the report, as `group` and `float` give them. -/
structure OpenStaValues where
  required      : PyFloat
  signedArrival : PyFloat
  slack         : PyFloat
  arrival       : PyFloat
  worst         : PyFloat
  label         : String
  toolVersion   : String
  toolRevision  : String
  startpoint    : String
  endpoint      : String
  pathGroup     : String
  pathType      : String

def openStaValues (py : Interpreter) (m : OpenStaMatches) : Except PyError OpenStaValues := do
  return {
    required := ← groupFloat py m.summary.1 1
    signedArrival := ← groupFloat py m.summary.1 2
    slack := ← groupFloat py m.summary.1 3
    arrival := ← groupFloat py m.arrivalRows.head? 1
    worst := ← groupFloat py m.worst.1 1
    label := String.ofList (← group m.summary.1 4)
    toolVersion := String.ofList (← group m.banner.1 1)
    toolRevision := String.ofList (← group m.banner.1 2)
    startpoint := String.ofList (← group m.startpoint.1 1)
    endpoint := String.ofList (← group m.endpoint.1 1)
    pathGroup := String.ofList (← group m.pathGroup.1 1)
    pathType := String.ofList (← group m.pathType.1 1) }

/-- The result of a report that has all its fields. -/
def openStaResult (v : OpenStaValues) (sourceSha256 : String) : ParseResult :=
  match v.required, v.signedArrival, v.arrival, v.slack, v.worst with
  | .finite required, .finite _, .finite arrival, .finite slack, .finite worst =>
    let contradictions := semanticErrors v.pathType v.label v.required v.signedArrival v.arrival v.slack v.worst
    { parseStatus := .ok
      checkStatus := if contradictions ≠ [] then .unknown else if v.label = "MET" then .pass else .fail
      metrics := [("source_kind", .str "tool_generated"), ("tool_name", .str "OpenSTA"),
        ("tool_version", .str v.toolVersion), ("tool_revision", .str v.toolRevision), ("analysis_type", .str "setup_max"),
        ("analysis_scope", .str "single_reported_path_group"), ("startpoint", .str v.startpoint),
        ("endpoint", .str v.endpoint), ("path_group", .str v.pathGroup), ("arrival_time_ns", .float arrival),
        ("required_time_ns", .float required), ("reported_path_slack_ns", .float slack), ("worst_slack_ns", .float worst),
        ("original_unit", .str "ns"), ("source_sha256", .str sourceSha256)]
      errors := contradictions
      completeness := .complete
      provenance := some (provenanceOf "tool_generated" sourceSha256 openStaParser
        [("tool_name", .str "OpenSTA"), ("tool_version", .str v.toolVersion), ("tool_revision", .str v.toolRevision),
         ("analysis_type", .str "setup_max"), ("report_profile", .str "opensta-3.1.0-single-path-setup-max-v1")])
      semanticStatus := if contradictions ≠ [] then .invalid else .valid
      provenanceStatus := .valid }
  | _, _, _, _, _ =>
    invalidReport ["non-finite OpenSTA timing value"] "tool_generated" sourceSha256 openStaParser

/-- `_parse_opensta_setup_max`. -/
def parseOpenSta (py : Interpreter) (text : List Char) (sourceSha256 : String) : Except PyError ParseResult := do
  let m := openStaMatches text
  let errors ← openStaErrors text m
  if errors ≠ [] then return invalidReport errors "tool_generated" sourceSha256 openStaParser
  else return openStaResult (← openStaValues py m) sourceSha256

/-! ## Dispatch on the first line -/

def parseReport (py : Interpreter) (payload : ByteArray) : Except PyError ParseResult :=
  match String.fromUTF8? payload with
  | none      => .ok (invalidReport ["report is not UTF-8"] "unknown" (py.sha256 payload) "eda_lab.dispatch:v1")
  | some text =>
    let firstLine := strip ((splitlines text.toList).headD [])
    if firstLine = SYNTHETIC_MARKER.toList then parseSynthetic py text.toList (py.sha256 payload)
    else if "OpenSTA ".toList.isPrefixOf firstLine then parseOpenSta py text.toList (py.sha256 payload)
    else .ok (invalidReport ["unsupported timing report format"] "unknown" (py.sha256 payload) "eda_lab.dispatch:v1")

end EdaLab
