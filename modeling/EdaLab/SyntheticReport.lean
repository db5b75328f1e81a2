import EdaLab.FloatOrder
import EdaLab.NumeralText
import EdaLab.Subprocess
import EdaLab.SyntheticGrammar
/-!
# SyntheticReport — the synthetic adapter and what the parser reads of its report

The slack is written by `str`, which uses an exponent outside `0.0001 ≤ |q| < 1e16`, and `NUMBER` has none: the report is
read back exactly for the slacks between (`synthetic_roundtrip_iff`).  Everything else in it comes back as it was.
-/
namespace EdaLab

open Pattern (Matches ofLines)

/-- What leaves `run`; the file system's exceptions are `mkdtemp`'s. -/
inductive SyntheticError
  | timeoutError (text : String)
  | connectionError (text : String)
  | valueError (text : String)
  | osError (text : String)
  deriving DecidableEq

structure SyntheticTimingAdapter where
  profile       : String := "normal"
  artifactBytes : Int := 0
  deriving DecidableEq

namespace SyntheticTimingAdapter

/-- The lines every profile starts from, without the slack. -/
def header (spec : JobSpec) : List String :=
  ["SYNTHETIC / NOT GENERATED BY AN EDA TOOL", "fixture_source=synthetic", "fixture_format_version=1",
   "run_id=" ++ spec.jobId, "stage=timing", "corner=" ++ spec.corner, "tool_exit_code=0"]

def fields (a : SyntheticTimingAdapter) (spec : JobSpec) : Except SyntheticError (List String) :=
  let fields := header spec ++ ["worst_slack=" ++ (spec.worstSlack.str ++ (" " ++ spec.unit))]
  if a.profile = "missing_worst_slack" then
    .ok (fields.filter (fun line => !"worst_slack=".toList.isPrefixOf line.toList))
  else if a.profile = "malformed_unit" then
    .ok (fields.dropLast ++ ["worst_slack=" ++ (spec.worstSlack.str ++ " cycles")])
  else if a.profile ≠ "normal" then .error (.valueError ("unknown synthetic fixture profile: " ++ a.profile))
  else .ok fields

def payload (a : SyntheticTimingAdapter) (fields : List String) : String :=
  let payload := "\n".intercalate fields ++ "\n"
  if payload.length < a.artifactBytes then
    payload ++ ("# synthetic artifact padding\n" ++
      String.ofList (List.replicate (a.artifactBytes - payload.length).toNat 'x'))
  else payload

/-- The result, and the text of the file at its path; `mkdtemp` is the directory it makes for a prefix. -/
def run (a : SyntheticTimingAdapter) (mkdtemp : String → Except SyntheticError String) (spec : JobSpec) :
    Except SyntheticError (AdapterRunResult × String) := do
  if a.profile = "timeout" then throw (.timeoutError "synthetic adapter timeout")
  if a.profile = "communication_error" then throw (.connectionError "synthetic transport failure")
  let directory ← mkdtemp ("eda-lab-" ++ spec.jobId ++ "-")
  let fields ← a.fields spec
  return (⟨directory ++ "/timing.report", some 0, none⟩, a.payload fields)

end SyntheticTimingAdapter

/-! ## Fields that come back as they were -/

/-- Without line separators, and without white space at its ends. -/
structure OneLine (s : List Char) : Prop where
  breaks : ∀ c ∈ s, isLineBreak c = false
  first  : ∀ c ∈ s.head?, isSpace c = false
  last   : ∀ c ∈ s.getLast?, isSpace c = false

theorem dropWhile_first {s : List Char} (h : ∀ c ∈ s.head?, isSpace c = false) : s.dropWhile isSpace = s := by
  cases s with
  | nil => rfl
  | cons c s => rw [List.dropWhile_cons_of_neg (by simp [h c rfl])]

theorem OneLine.strip {s : List Char} (h : OneLine s) : strip s = s := by
  unfold EdaLab.strip
  rw [dropWhile_first h.first, dropWhile_first (s := s.reverse) (by simpa using h.last), List.reverse_reverse]

/-- A line `key=value`, where the key does not begin as the marker does. -/
theorem syntheticPair_field {key value : String} (hkey : OneLine key.toList) (hvalue : OneLine value.toList)
    (hplain : '=' ∉ key.toList) (hmark : ∀ c ∈ key.toList.head?, c ≠ 'S') (hne : key.toList ≠ []) :
    syntheticPair (key ++ "=" ++ value).toList = some (key, value) := by
  have hline : (key ++ "=" ++ value).toList = key.toList ++ '=' :: value.toList := by simp
  have hbegins : SYNTHETIC_MARKER.toList.isPrefixOf (key.toList ++ '=' :: value.toList) = false := by
    cases hk : key.toList with
    | nil => exact absurd hk hne
    | cons c cs =>
      have hc : c ≠ 'S' := hmark c (by rw [hk]; rfl)
      have hS : SYNTHETIC_MARKER.toList = 'S' :: SYNTHETIC_MARKER.toList.tail := by decide
      rw [hS, List.cons_append, List.isPrefixOf_cons_cons, beq_eq_false_iff_ne.2 (Ne.symm hc), Bool.false_and]
  have hall : ∀ c ∈ key.toList, decide (c ≠ '=') = true := fun c hc =>
    decide_eq_true (fun heq => hplain (heq ▸ hc))
  rw [hline]
  unfold syntheticPair
  rw [if_neg (by simp [hbegins]), List.takeWhile_append_of_pos hall, List.dropWhile_append_of_pos hall]
  simp [hkey.strip, hvalue.strip]

/-! ## The lines of the report -/

theorem toList_intercalate {ls : List String} (h : ls ≠ []) :
    ("\n".intercalate ls ++ "\n").toList = ofLines (ls.map String.toList) := by
  induction ls with
  | nil => exact absurd rfl h
  | cons l ls ih =>
    cases ls with
    | nil => simp [ofLines]
    | cons l' ls =>
      have hnewline : "\n".toList = ['\n'] := by decide
      have hrest := ih (List.cons_ne_nil l' ls)
      rw [String.toList_append] at hrest
      rw [String.intercalate_cons_cons]
      simp only [String.toList_append, List.append_assoc]
      rw [hrest, hnewline, List.map_cons (a := l), Pattern.ofLines_cons]
      rfl

theorem splitlines_ofLines {ls : List (List Char)} (h : ∀ l ∈ ls, ∀ c ∈ l, isLineBreak c = false) (rest : List Char) :
    splitlines (ofLines ls ++ rest) = ls ++ splitlines rest := by
  induction ls with
  | nil => rfl
  | cons l ls ih =>
    rw [Pattern.ofLines_cons, List.append_assoc, List.cons_append, splitlines_line (h l List.mem_cons_self),
      ih (fun l' hl' => h l' (List.mem_cons_of_mem l hl'))]
    rfl

/-- The padding is a comment and a line of `x`. -/
def padding (n : Nat) : List Char := "# synthetic artifact padding\n".toList ++ List.replicate n 'x'

theorem padding_pairs (n : Nat) : (splitlines (padding n)).filterMap syntheticPair = [] := by
  have hcomment : "# synthetic artifact padding\n".toList = "# synthetic artifact padding".toList ++ ['\n'] := by decide
  have hxs : splitlines (List.replicate n 'x') = if n = 0 then [] else [List.replicate n 'x'] := by
    have hplain : ∀ c ∈ List.replicate n 'x', isLineBreak c = false := by
      intro c hc
      rw [List.eq_of_mem_replicate hc]
      decide
    have hall := splitlinesFrom_append hplain [] []
    rw [List.append_nil, List.append_nil] at hall
    unfold splitlines
    rw [hall]
    unfold splitlinesFrom
    by_cases hn : n = 0
    · simp [hn]
    · simp [hn]
  unfold padding
  rw [hcomment, List.append_assoc, List.singleton_append, splitlines_line (by decide), hxs]
  have hnone : ∀ l : List Char, '=' ∉ l → syntheticPair l = none := fun l hl => if_pos (Or.inl hl)
  rw [List.filterMap_cons, hnone _ (by decide)]
  by_cases hn : n = 0
  · rw [if_pos hn]
    rfl
  · rw [if_neg hn, List.filterMap_cons, hnone _ (fun hmem => absurd (List.eq_of_mem_replicate hmem) (by decide))]
    rfl

theorem payload_padded (a : SyntheticTimingAdapter) {ls : List String} (h : ls ≠ []) :
    ∃ rest, (a.payload ls).toList = ofLines (ls.map String.toList) ++ rest ∧
      (splitlines rest).filterMap syntheticPair = [] := by
  unfold SyntheticTimingAdapter.payload
  dsimp only
  split
  · refine ⟨padding (a.artifactBytes - ("\n".intercalate ls ++ "\n").length).toNat, ?_, padding_pairs _⟩
    unfold padding
    rw [String.toList_append, toList_intercalate h, String.toList_append,
      String.toList_ofList (l := List.replicate _ 'x')]
  · exact ⟨[], by rw [toList_intercalate h, List.append_nil], rfl⟩

/-! ## The pairs of a normal report -/

/-- The fields of the report, as the parser splits them. -/
def reportPairs (spec : JobSpec) : Fields :=
  [("fixture_source", "synthetic"), ("fixture_format_version", "1"), ("run_id", spec.jobId), ("stage", "timing"),
   ("corner", spec.corner), ("tool_exit_code", "0"), ("worst_slack", spec.worstSlack.str ++ (" " ++ spec.unit))]

/-- Values that the report keeps. -/
structure JobSpec.Printable (spec : JobSpec) : Prop where
  jobId  : OneLine spec.jobId.toList
  corner : OneLine spec.corner.toList
  unit   : spec.unit = "ns" ∨ spec.unit = "ps"

namespace Numeral

/-- The characters of a written number. -/
theorem text_chars {n : Numeral} (h : n.Wf) : ∀ c ∈ n.text, c ∈ "0123456789-+.e".toList := by
  have hdigits : ∀ ds : List Nat, (∀ d ∈ ds, d < 10) → ∀ c ∈ digits ds, c ∈ "0123456789-+.e".toList := by
    intro ds hds c hc
    obtain ⟨d, hd, rfl⟩ := List.mem_map.1 hc
    exact Json.digit_cases (P := fun c => c ∈ "0123456789-+.e".toList) (by decide) (hds d hd)
  intro c hc
  unfold text at hc
  rcases List.mem_append.1 hc with hc | hc
  · by_cases hn : n.negative = true
    · rw [if_pos hn] at hc
      rw [List.mem_singleton.1 hc]
      decide
    · rw [if_neg hn] at hc
      cases hc
  · rcases List.mem_append.1 hc with hc | hc
    · exact hdigits _ h.lt_ten c hc
    · rcases List.mem_append.1 hc with hc | hc
      · cases hf : n.fraction with
        | none =>
          rw [hf] at hc
          cases hc
        | some f =>
          rw [hf] at hc
          rcases List.mem_cons.1 hc with rfl | hc
          · decide
          · exact hdigits _ (h.fraction f hf).2 c hc
      · cases he : n.exponent with
        | none =>
          rw [he] at hc
          cases hc
        | some x =>
          obtain ⟨down, ds⟩ := x
          rw [he] at hc
          rcases List.mem_cons.1 hc with rfl | hc
          · decide
          · rcases List.mem_cons.1 hc with rfl | hc
            · cases down <;> decide
            · exact hdigits _ (h.exponent _ he).2 c hc

theorem text_plain_chars {n : Numeral} (h : n.Wf) {c : Char} (hc : c ∈ n.text) :
    isSpace c = false ∧ isLineBreak c = false ∧ c ≠ '=' := by
  have hall : ∀ c ∈ "0123456789-+.e".toList, isSpace c = false ∧ isLineBreak c = false ∧ c ≠ '=' := by decide
  exact hall c (text_chars h c hc)

/-- In front of its exponent a written number is numeric. -/
theorem text_numeric {n : Numeral} (h : n.Wf) :
    ∃ body, (∀ c ∈ body, isNumeric c = true) ∧ n.text = body ++ exponentText n.exponent := by
  have hdigits : ∀ ds : List Nat, (∀ d ∈ ds, d < 10) → ∀ c ∈ digits ds, isNumeric c = true := by
    intro ds hds c hc
    unfold isNumeric
    rw [isDecimal_digits hds c hc, Bool.true_or]
  refine ⟨(if n.negative then ['-'] else []) ++ (digits n.whole ++ fractionText n.fraction), fun c hc => ?_, ?_⟩
  · rcases List.mem_append.1 hc with hc | hc
    · by_cases hn : n.negative = true
      · rw [if_pos hn] at hc
        rw [List.mem_singleton.1 hc]
        decide
      · rw [if_neg hn] at hc
        cases hc
    · rcases List.mem_append.1 hc with hc | hc
      · exact hdigits _ h.lt_ten c hc
      · cases hf : n.fraction with
        | none =>
          rw [hf] at hc
          cases hc
        | some f =>
          rw [hf] at hc
          rcases List.mem_cons.1 hc with rfl | hc
          · decide
          · exact hdigits _ (h.fraction f hf).2 c hc
  · unfold text
    simp only [List.append_assoc]

end Numeral

variable {spec : JobSpec} {q : ℚ}

theorem toList_str (hslack : spec.worstSlack = .float q) :
    (spec.worstSlack.str ++ (" " ++ spec.unit)).toList = (PyFloat.repr q).text ++ (' ' :: spec.unit.toList) := by
  rw [hslack, String.toList_append, String.toList_append, PyNumber.str, String.toList_ofList]
  rfl

theorem oneLine_slack (hslack : spec.worstSlack = .float q) (hd : PyFloat.IsDouble q)
    (hunit : spec.unit = "ns" ∨ spec.unit = "ps") : OneLine (spec.worstSlack.str ++ (" " ++ spec.unit)).toList := by
  have hchars := fun c => Numeral.text_plain_chars (PyFloat.repr_wf hd) (c := c)
  have htail : ∀ c ∈ ' ' :: spec.unit.toList, isLineBreak c = false := by
    rcases hunit with h | h
    · rw [h]
      decide
    · rw [h]
      decide
  rw [toList_str hslack]
  refine ⟨fun c hc => ?_, fun c hc => ?_, fun c hc => ?_⟩
  · rcases List.mem_append.1 hc with hc | hc
    · exact (hchars c hc).2.1
    · exact htail c hc
  · obtain ⟨d, ds, -, htext⟩ := Json.text_head (PyFloat.repr_wf hd)
    refine (hchars c ?_).1
    rw [List.head?_append] at hc
    cases ht : (PyFloat.repr q).text with
    | nil =>
      rw [ht] at htext
      simp at htext
    | cons x xs =>
      rw [ht] at hc
      cases hc
      exact List.mem_cons_self
  · rcases hunit with h | h
    · rw [h] at hc
      simp only [List.getLast?_append] at hc
      cases hc
      decide
    · rw [h] at hc
      simp only [List.getLast?_append] at hc
      cases hc
      decide

def reportLines (spec : JobSpec) : List String :=
  SYNTHETIC_MARKER :: (reportPairs spec).map (fun f => f.1 ++ "=" ++ f.2)

theorem fields_eq (a : SyntheticTimingAdapter) (h : a.profile = "normal") : a.fields spec = .ok (reportLines spec) := by
  unfold SyntheticTimingAdapter.fields
  dsimp only
  rw [h, if_neg (by decide), if_neg (by decide), if_neg (by decide)]
  simp [SyntheticTimingAdapter.header, reportLines, reportPairs, SYNTHETIC_MARKER]

/-- The keys of the report. -/
def reportKeys : List String :=
  ["fixture_source", "fixture_format_version", "run_id", "stage", "corner", "tool_exit_code", "worst_slack"]

theorem reportPairs_keys (spec : JobSpec) : (reportPairs spec).map Prod.fst = reportKeys := rfl

theorem reportKeys_plain : ∀ key ∈ reportKeys, OneLine key.toList ∧ '=' ∉ key.toList ∧ (∀ c ∈ key.toList.head?, c ≠ 'S') ∧
    key.toList ≠ [] := by
  have hkeys : ∀ key ∈ reportKeys, (∀ c ∈ key.toList, isLineBreak c = false) ∧ (∀ c ∈ key.toList.head?, isSpace c = false) ∧
      (∀ c ∈ key.toList.getLast?, isSpace c = false) ∧ '=' ∉ key.toList ∧ (∀ c ∈ key.toList.head?, c ≠ 'S') ∧
      key.toList ≠ [] := by
    decide +kernel
  intro key hkey
  obtain ⟨hbreaks, hfirst, hlast, hrest⟩ := hkeys key hkey
  exact ⟨⟨hbreaks, hfirst, hlast⟩, hrest⟩

/-- What the report is made of: its slack is a double. -/
structure JobSpec.Reported (spec : JobSpec) (q : ℚ) : Prop extends JobSpec.Printable spec where
  slack  : spec.worstSlack = .float q
  double : PyFloat.IsDouble q

theorem reportPairs_oneLine (h : spec.Reported q) : ∀ f ∈ reportPairs spec, OneLine f.2.toList := by
  have hliteral : ∀ v ∈ ["synthetic", "1", "timing", "0"], OneLine v.toList := by
    intro v hv
    have hall : ∀ v ∈ ["synthetic", "1", "timing", "0"], (∀ c ∈ v.toList, isLineBreak c = false) ∧
        (∀ c ∈ v.toList.head?, isSpace c = false) ∧ (∀ c ∈ v.toList.getLast?, isSpace c = false) := by decide +kernel
    exact ⟨(hall v hv).1, (hall v hv).2.1, (hall v hv).2.2⟩
  intro f hf
  simp only [reportPairs, List.mem_cons, List.not_mem_nil, or_false] at hf
  rcases hf with rfl | rfl | rfl | rfl | rfl | rfl | rfl
  · exact hliteral _ (by decide)
  · exact hliteral _ (by decide)
  · exact h.jobId
  · exact hliteral _ (by decide)
  · exact h.corner
  · exact hliteral _ (by decide)
  · exact oneLine_slack h.slack h.double h.unit

theorem marker_plain : ∀ c ∈ SYNTHETIC_MARKER.toList, isLineBreak c = false := by decide +kernel

/-- **The pairs of a normal report are its fields**, whatever the padding. -/
theorem report_pairs (h : spec.Reported q) {a : SyntheticTimingAdapter} {fields : List String}
    (hnormal : a.profile = "normal")
    (hfields : a.fields spec = .ok fields) :
    IsSynthetic (a.payload fields).toList ∧ syntheticPairs (a.payload fields).toList = reportPairs spec := by
  rw [fields_eq a hnormal] at hfields
  cases hfields
  obtain ⟨rest, htext, hrest⟩ := payload_padded a (show reportLines spec ≠ [] from List.cons_ne_nil _ _)
  have hkeys : ∀ f ∈ reportPairs spec, f.1 ∈ reportKeys := by
    intro f hf
    rw [← reportPairs_keys spec]
    exact List.mem_map_of_mem hf
  have hpairs : ∀ f ∈ reportPairs spec, syntheticPair (f.1 ++ "=" ++ f.2).toList = some f := by
    intro f hf
    obtain ⟨hkey, hplain, hmark, hne⟩ := reportKeys_plain f.1 (hkeys f hf)
    exact syntheticPair_field hkey (reportPairs_oneLine h f hf) hplain hmark hne
  have hbreaks : ∀ f ∈ reportPairs spec, ∀ c ∈ (f.1 ++ "=" ++ f.2).toList, isLineBreak c = false := by
    intro f hf c hc
    have hequals : isLineBreak '=' = false := by decide
    simp only [String.toList_append, List.append_assoc] at hc
    rcases List.mem_append.1 hc with hc | hc
    · exact (reportKeys_plain f.1 (hkeys f hf)).1.breaks c hc
    · rcases List.mem_cons.1 hc with rfl | hc
      · exact hequals
      · exact (reportPairs_oneLine h f hf).breaks c hc
  have hlines : splitlines (a.payload (reportLines spec)).toList = SYNTHETIC_MARKER.toList ::
      ((reportPairs spec).map (fun f => (f.1 ++ "=" ++ f.2).toList) ++ splitlines rest) := by
    rw [htext, splitlines_ofLines, reportLines, List.map_cons, List.map_map]
    · rfl
    · rw [reportLines, List.map_cons, List.map_map]
      intro l hl
      rcases List.mem_cons.1 hl with rfl | hl
      · exact marker_plain
      · obtain ⟨f, hf, rfl⟩ := List.mem_map.1 hl
        exact hbreaks f hf
  have hmarker : IsSynthetic (a.payload (reportLines spec)).toList := by
    unfold IsSynthetic
    rw [hlines, List.headD_cons]
    decide +kernel
  refine ⟨hmarker, ?_⟩
  rw [syntheticPairs_eq hmarker, hlines, List.tail_cons, List.filterMap_append, hrest, List.append_nil, List.filterMap_map]
  have hsame : (reportPairs spec).filterMap (syntheticPair ∘ fun f => (f.1 ++ "=" ++ f.2).toList) =
      (reportPairs spec).filterMap some := List.filterMap_congr hpairs
  rw [hsame, List.filterMap_some]

/-! ## What is read back -/

structure ParseResult.ReadsBack (r : ParseResult) (spec : JobSpec) (q : ℚ) : Prop where
  parse    : r.parseStatus = .ok
  semantic : r.semanticStatus = .valid
  runId    : r.metrics.lookup "run_id" = some (.str spec.jobId)
  corner   : r.metrics.lookup "corner" = some (.str spec.corner)
  unit     : r.metrics.lookup "original_unit" = some (.str spec.unit)
  value    : r.metrics.lookup "original_value" = some (.float q)
  slackNs  : r.metrics.lookup "worst_slack_ns" = some (.float (if spec.unit = "ns" then q else PyFloat.nearest (q / 1000)))
  check    : r.checkStatus = .pass ↔ 0 ≤ q

/-- The report with this text parses to what it was written from. -/
def RoundTrips (py : Interpreter) (spec : JobSpec) (q : ℚ) (text : String) : Prop :=
  ∃ r, parseReport py text.toUTF8 = .ok r ∧ r.ReadsBack spec q

/-- A quotient by 1000 keeps the sign of what `repr` writes without an exponent. -/
theorem PyFloat.nearest_quotient (h : q = 0 ∨ 1 / 10 ^ 4 ≤ |q|) : 0 ≤ nearest (q / 1000) ↔ 0 ≤ q := by
  have hpos : ∀ x : ℚ, 1 / 10 ^ 4 ≤ x → 0 < nearest (x / 1000) := by
    intro x hx
    have hmono := nearest_mono (x := 1 / 10 ^ 7) (y := x / 1000) (by norm_num) (by linarith)
    exact lt_of_lt_of_le (by decide +kernel) hmono
  rcases h with rfl | h
  · simp [nearest]
  · by_cases hq : 0 ≤ q
    · rw [abs_of_nonneg hq] at h
      exact iff_of_true (hpos q h).le hq
    · rw [abs_of_neg (not_le.1 hq)] at h
      have hneg := hpos (-q) h
      rw [neg_div, nearest_neg] at hneg
      exact iff_of_false (by linarith) hq

/-- The slack of the report is a `NUMBER` and its unit exactly where it has no exponent. -/
theorem slackText_iff (h : spec.Reported q) :
    (∃ w unit, SlackText (spec.worstSlack.str ++ (" " ++ spec.unit)).toList w unit) ↔
      (PyFloat.repr q).exponent = none := by
  have hwf := PyFloat.repr_wf h.double
  rw [toList_str h.slack]
  constructor
  · rintro ⟨w, unit, htext⟩
    cases he : (PyFloat.repr q).exponent with
    | none => rfl
    | some x =>
      obtain ⟨down, ds⟩ := x
      obtain ⟨body, hbody, hsplit⟩ := Numeral.text_numeric hwf
      have hunit := htext.split.2
      rw [hsplit, he, List.append_assoc, List.dropWhile_append_of_pos hbody] at hunit
      -- the unit would begin with the `e`
      have he : isNumeric 'e' = false ∧ isSpace 'e' = false := by decide
      rw [Numeral.exponentText, List.cons_append, List.dropWhile_cons_of_neg (by simp [he.1]),
        List.dropWhile_cons_of_neg (by simp [he.2])] at hunit
      have hhead := congrArg List.head? hunit
      rcases htext.known with rfl | rfl
      · exact absurd (Option.some.inj hhead) (by decide)
      · exact absurd (Option.some.inj hhead) (by decide)
  · intro he
    exact ⟨_, _, Numeral.matches_number hwf he, h.unit, [' '], by decide, rfl⟩

theorem reportPairs_nodup (spec : JobSpec) : ((reportPairs spec).map Prod.fst).Nodup := by
  rw [reportPairs_keys]
  decide +kernel

theorem reportPairs_lookup {f : String × String} (hf : f ∈ reportPairs spec) : (reportPairs spec).lookup f.1 = some f.2 :=
  (lookup_eq_some_iff (reportPairs_nodup spec)).2 hf

/-- The fields read as what they were written from. -/
theorem reportPairs_readAs (py : Interpreter) (h : spec.Reported q) (he : (PyFloat.repr q).exponent = none) :
    ReadAs py (reportPairs spec)
      ⟨1, 0, q, spec.unit, if spec.unit = "ns" then q else PyFloat.nearest (q / 1000)⟩ := by
  have hwf := PyFloat.repr_wf h.double
  have hnumber : PyFloat.parse py (PyFloat.repr q).text = .ok (.finite q) := by
    rw [← Arithmetic.parse_doubles, Numeral.parse_text _ py hwf he]
    exact congrArg Except.ok (PyFloat.repr_value h.double)
  refine ⟨⟨"1", reportPairs_lookup (f := ("fixture_format_version", "1")) (by simp [reportPairs]), rfl⟩,
    ⟨"0", reportPairs_lookup (f := ("tool_exit_code", "0")) (by simp [reportPairs]), rfl⟩,
    ⟨_, _, reportPairs_lookup (f := ("worst_slack", spec.worstSlack.str ++ (" " ++ spec.unit))) (by simp [reportPairs]), ?_,
      hnumber⟩, rfl, rfl⟩
  rw [toList_str h.slack]
  exact ⟨Numeral.matches_number hwf he, h.unit, [' '], by decide, rfl⟩

theorem roundTrips_iff_exponent (py : Interpreter) {mkdtemp : String → Except SyntheticError String} {artifactBytes : Int}
    {result : AdapterRunResult} {text : String} (h : spec.Reported q)
    (hrun : SyntheticTimingAdapter.run ⟨"normal", artifactBytes⟩ mkdtemp spec = .ok (result, text)) :
    RoundTrips py spec q text ↔ (PyFloat.repr q).exponent = none := by
  have htext : ∃ fields, SyntheticTimingAdapter.fields ⟨"normal", artifactBytes⟩ spec = .ok fields ∧
      SyntheticTimingAdapter.payload ⟨"normal", artifactBytes⟩ fields = text := by
    unfold SyntheticTimingAdapter.run at hrun
    dsimp only at hrun
    rw [if_neg (by decide), if_neg (by decide)] at hrun
    obtain ⟨-, -, hrun⟩ := bind_ok hrun
    obtain ⟨-, -, hrun⟩ := bind_ok hrun
    obtain ⟨directory, -, hrun⟩ := bind_ok hrun
    obtain ⟨fields, hfields, hrun⟩ := bind_ok hrun
    cases hrun
    exact ⟨fields, hfields, rfl⟩
  obtain ⟨fields, hfields, rfl⟩ := htext
  obtain ⟨hmarker, hpairs⟩ := report_pairs h rfl hfields
  unfold RoundTrips
  rw [parseReport_synthetic py (fromUTF8_toUTF8 _) hmarker]
  constructor
  · rintro ⟨r, hr, hback⟩
    obtain ⟨r', hr', hok⟩ := parseSynthetic_ok_iff py
      (SyntheticTimingAdapter.payload ⟨"normal", artifactBytes⟩ fields).toList
      (py.sha256 (SyntheticTimingAdapter.payload ⟨"normal", artifactBytes⟩ fields).toUTF8)
    rw [hr] at hr'
    cases hr'
    have hgrammar := hok.1 hback.parse
    rw [hpairs] at hgrammar
    obtain ⟨value, w, unit, x, hvalue, hslack, -⟩ := hgrammar.slack
    rw [← slackText_iff h]
    have hfound := reportPairs_lookup hvalue
    have hwritten : (reportPairs spec).lookup "worst_slack" = some (spec.worstSlack.str ++ (" " ++ spec.unit)) :=
      reportPairs_lookup (f := ("worst_slack", _)) (by simp [reportPairs])
    rw [hwritten] at hfound
    cases hfound
    exact ⟨w, unit, hslack⟩
  · intro he
    have hx := reportPairs_readAs py h he
    obtain ⟨r, hr, hreads⟩ := syntheticFinish_reads hx (reportPairs_lookup (f := ("run_id", spec.jobId))
      (by simp [reportPairs]))
      (reportPairs_lookup (f := ("stage", "timing")) (by simp [reportPairs]))
      (reportPairs_lookup (f := ("corner", spec.corner)) (by simp [reportPairs]))
      (py.sha256 (SyntheticTimingAdapter.payload ⟨"normal", artifactBytes⟩ fields).toUTF8)
    rw [← hpairs] at hr
    refine ⟨r, ?_, ?_⟩
    · rw [parseSynthetic_once py (by rw [hpairs]; exact reportPairs_nodup spec)]
      exact hr
    · have hsign : 0 ≤ (if spec.unit = "ns" then q else PyFloat.nearest (q / 1000)) ↔ 0 ≤ q := by
        split
        · rfl
        · exact PyFloat.nearest_quotient (((PyFloat.repr_exponent_iff h.double).1 he).imp_right And.left)
      have hmetrics := hreads.metrics
      refine ⟨hreads.parse, hreads.semantic, by rw [hmetrics]; rfl, by rw [hmetrics]; rfl, by rw [hmetrics]; rfl,
        by rw [hmetrics]; rfl, by rw [hmetrics]; rfl, ?_⟩
      rw [hreads.check, ← hsign]
      split
      · simp [*]
      · simp [*]

/-- **A normal report is read back as it was written exactly where `str` writes the slack without an exponent.** -/
theorem synthetic_roundtrip_iff (py : Interpreter) {mkdtemp : String → Except SyntheticError String} {artifactBytes : Int}
    {spec : JobSpec} {q : ℚ} {result : AdapterRunResult} {text : String} (h : spec.Reported q)
    (hrun : SyntheticTimingAdapter.run ⟨"normal", artifactBytes⟩ mkdtemp spec = .ok (result, text)) :
    RoundTrips py spec q text ↔ q = 0 ∨ 1 / 10 ^ 4 ≤ |q| ∧ |q| < 10 ^ 16 := by
  rw [roundTrips_iff_exponent py h hrun]
  exact PyFloat.repr_exponent_iff h.double

def slackSpec (q : ℚ) : JobSpec where
  jobId      := "job-1"
  designId   := "design"
  ipFamily   := "ip"
  flowName   := "timing"
  corner     := "tt"
  worstSlack := .float q
  unit       := "ps"

theorem oneLine_ids : OneLine "job-1".toList ∧ OneLine "tt".toList :=
  ⟨⟨by decide +kernel, by decide +kernel, by decide +kernel⟩, ⟨by decide +kernel, by decide +kernel, by decide +kernel⟩⟩

theorem slackSpec_reported (hd : PyFloat.IsDouble q) : (slackSpec q).Reported q where
  jobId  := oneLine_ids.1
  corner := oneLine_ids.2
  unit   := Or.inr rfl
  slack  := rfl
  double := hd

def fixtureDirectory (begins : String) : Except SyntheticError String := .ok ("/tmp/" ++ begins ++ "a1b2c3d4")

theorem isDouble_eighth : PyFloat.ofRat (-1 / 8) = .finite (-1 / 8) := by decide +kernel

theorem synthetic_roundtrip_iff_eighth : ∃ result text,
    SyntheticTimingAdapter.run ⟨"normal", 4096⟩ fixtureDirectory (slackSpec (-1 / 8)) = .ok (result, text) ∧
    RoundTrips fixturePy (slackSpec (-1 / 8)) (-1 / 8) text := by
  obtain ⟨result, text, hrun⟩ : ∃ result text,
      SyntheticTimingAdapter.run ⟨"normal", 4096⟩ fixtureDirectory (slackSpec (-1 / 8)) = .ok (result, text) := ⟨_, _, rfl⟩
  have h := synthetic_roundtrip_iff fixturePy (slackSpec_reported isDouble_eighth) hrun
  exact ⟨result, text, hrun, h.2 (Or.inr (by norm_num [abs_of_neg]))⟩

/-- The double of `1e-05`, which `str` writes so. -/
def tinySlack : ℚ := 5902958103587057 / 590295810358705651712

theorem tinySlack_text : PyFloat.ofRat (1 / 10 ^ 5) = .finite tinySlack ∧ PyFloat.ofRat tinySlack = .finite tinySlack ∧
    (PyFloat.repr tinySlack).text = "1e-05".toList := by
  decide +kernel

theorem tiny_slack_unread : ∃ result text,
    SyntheticTimingAdapter.run ⟨"normal", 0⟩ fixtureDirectory (slackSpec tinySlack) = .ok (result, text) ∧
    ¬RoundTrips fixturePy (slackSpec tinySlack) tinySlack text := by
  obtain ⟨result, text, hrun⟩ : ∃ result text,
      SyntheticTimingAdapter.run ⟨"normal", 0⟩ fixtureDirectory (slackSpec tinySlack) = .ok (result, text) := ⟨_, _, rfl⟩
  have h := roundTrips_iff_exponent fixturePy (slackSpec_reported tinySlack_text.2.1) hrun
  exact ⟨result, text, hrun, fun hback => absurd (h.1 hback) (by decide +kernel)⟩

end EdaLab
