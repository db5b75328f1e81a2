import EdaLab.ReportLabels
import EdaLab.Verdict
/-!
# SingleClaims — one line for each single-valued field

The parser counts the matches of a label's pattern, and a line that begins with the label without being well formed is not
among them.  Where every line of a label is well formed the count is that of the lines, so an accepted report has one.
-/
namespace EdaLab

open Pattern (Captures Cursor Eats AtBol)

/-! ## Accepted reports -/

def labels : List Label := [startpointLabel, endpointLabel, pathGroupLabel, pathTypeLabel, worstLabel]

/-- One line begins with the label, and `w` is its value. -/
def Label.Sole (f : Label) (text w : List Char) : Prop := ∃ line, f.lines text = [line] ∧ f.value line = some w

/-- Each label has one line, and the metrics hold the values of these lines; no metric holds the path type. -/
structure SingleClaims (py : Interpreter) (text : List Char) (r : ParseResult) : Prop where
  startpoint : ∃ w, startpointLabel.Sole text w ∧ r.metrics.lookup "startpoint" = some (.str (String.ofList w))
  endpoint   : ∃ w, endpointLabel.Sole text w ∧ r.metrics.lookup "endpoint" = some (.str (String.ofList w))
  pathGroup  : ∃ w, pathGroupLabel.Sole text w ∧ r.metrics.lookup "path_group" = some (.str (String.ofList w))
  pathType   : ∃ w, pathTypeLabel.Sole text w
  worst      : ∃ w q, worstLabel.Sole text w ∧ PyFloat.parse py w = .ok (.finite q) ∧
    r.metrics.lookup "worst_slack_ns" = some (.float q)

theorem Label.Sole.wellFormed {f : Label} {text w : List Char} (h : f.Sole text w) : f.WellFormed text := by
  obtain ⟨line, hline, hv⟩ := h
  intro l hl
  rw [hline, List.mem_singleton] at hl
  rw [hl, hv]
  rfl

theorem SingleClaims.wellFormed {py : Interpreter} {text : List Char} {r : ParseResult} (h : SingleClaims py text r) :
    ∀ f ∈ labels, f.WellFormed text := by
  obtain ⟨w₁, h₁, -⟩ := h.startpoint
  obtain ⟨w₂, h₂, -⟩ := h.endpoint
  obtain ⟨w₃, h₃, -⟩ := h.pathGroup
  obtain ⟨w₄, h₄⟩ := h.pathType
  obtain ⟨w₅, q, h₅, -⟩ := h.worst
  intro f hf
  simp only [labels, List.mem_cons, List.not_mem_nil, or_false] at hf
  rcases hf with rfl | rfl | rfl | rfl | rfl
  · exact h₁.wellFormed
  · exact h₂.wellFormed
  · exact h₃.wellFormed
  · exact h₄.wellFormed
  · exact h₅.wellFormed

/-- The one match of a label whose lines are well formed captures the value of its one line. -/
theorem Reads.sole {a : Pattern} {f : Label} (h : Reads a f) {text : List Char} (hw : f.WellFormed text) {s : Captures}
    (hs : a.finditer text = [s]) {t : List Char} (ht : group (some s) 1 = .ok t) : f.Sole text t := by
  have hfind := h.finditer hw
  rw [hs, List.map_singleton] at hfind
  obtain ⟨line, hline, hv⟩ := List.map_eq_singleton_iff.1 hfind.symm
  refine ⟨line, hline, ?_⟩
  rw [hv]
  cases hl : s.lookup 1 with
  | none =>
    simp only [group, hl] at ht
    cases ht
  | some u =>
    simp only [group, hl, Except.ok.injEq] at ht
    rw [ht]

/-- The metrics of a report whose times are finite. -/
theorem openStaResult_metrics {A : Arithmetic} {v : OpenStaValues} {sha : String}
    (h : (A.openStaResult v sha).parseStatus = .ok) :
    (A.openStaResult v sha).metrics.lookup "startpoint" = some (.str v.startpoint) ∧
    (A.openStaResult v sha).metrics.lookup "endpoint" = some (.str v.endpoint) ∧
    (A.openStaResult v sha).metrics.lookup "path_group" = some (.str v.pathGroup) ∧
    ∃ worst : ℚ, v.worst = .finite worst ∧ (A.openStaResult v sha).metrics.lookup "worst_slack_ns" =
      some (.float worst) := by
  obtain ⟨required, signedArrival, arrival, slack, worst, h1, h2, h3, h4, h5⟩ := openStaResult_accepted h
  unfold Arithmetic.openStaResult
  simp only [h1, h2, h3, h4, h5]
  exact ⟨rfl, rfl, rfl, worst, rfl, rfl⟩

/-- What an accepted OpenSTA report was read from. -/
structure Accepted (py : Interpreter) (text : List Char) (sha : String) (r : ParseResult) : Prop where
  complete : Complete (openStaMatches text)
  values   : ∃ v, ReadFrom Arithmetic.doubles py (openStaMatches text) v ∧ r = Arithmetic.doubles.openStaResult v sha

theorem accepted_of_ok {py : Interpreter} {payload : ByteArray} {text : String} {r : ParseResult}
    (hutf8 : String.fromUTF8? payload = some text) (hopen : ¬IsSynthetic text.toList) (hr : parseReport py payload = .ok r)
    (hok : r.parseStatus = .ok) : Accepted py text.toList (py.sha256 payload) r := by
  rw [← Arithmetic.parseReport_doubles] at hr
  by_cases hfirst : IsOpenSta text.toList
  · rw [Arithmetic.doubles.parseReport_openSta py hutf8 hopen hfirst] at hr
    obtain ⟨herrors, v, hv, rfl⟩ := parseOpenSta_accepted hr hok
    obtain ⟨errors, herrors', hcomplete⟩ := openStaErrors_ok text.toList
    rw [herrors] at herrors'
    cases herrors'
    exact ⟨hcomplete rfl, v, hv, rfl⟩
  · rw [Arithmetic.doubles.parseReport_unsupported py hutf8 hopen hfirst] at hr
    cases hr
    cases hok

/-- An accepted report whose labelled lines are well formed has one of each. -/
theorem Accepted.singleClaims {py : Interpreter} {text : List Char} {sha : String} {r : ParseResult}
    (h : Accepted py text sha r) (hok : r.parseStatus = .ok) (hw : ∀ f ∈ labels, f.WellFormed text) :
    SingleClaims py text r := by
  obtain ⟨v, hv, rfl⟩ := h.values
  obtain ⟨hstart, hend, hgroup, worst, hworst, hmetric⟩ := openStaResult_metrics hok
  obtain ⟨s₁, hs₁, -⟩ := h.complete.startpoint
  obtain ⟨s₂, hs₂, -⟩ := h.complete.endpoint
  obtain ⟨s₃, hs₃, -⟩ := h.complete.pathGroup
  obtain ⟨s₄, hs₄, -⟩ := h.complete.pathType
  obtain ⟨s₅, hs₅, -⟩ := h.complete.worst
  obtain ⟨t₁, ht₁, hv₁⟩ := hv.startpoint
  obtain ⟨t₂, ht₂, hv₂⟩ := hv.endpoint
  obtain ⟨t₃, ht₃, hv₃⟩ := hv.pathGroup
  obtain ⟨t₄, ht₄, -⟩ := hv.pathType
  have hread := hv.worst
  rw [hs₁] at ht₁
  rw [hs₂] at ht₂
  rw [hs₃] at ht₃
  rw [hs₄] at ht₄
  rw [hs₅, hworst, Arithmetic.groupFloat_doubles] at hread
  obtain ⟨t₅, ht₅, hparse⟩ := bind_ok hread
  refine ⟨⟨t₁, ?_, ?_⟩, ⟨t₂, ?_, ?_⟩, ⟨t₃, ?_, ?_⟩, ⟨t₄, ?_⟩, ⟨t₅, worst, ?_, hparse, hmetric⟩⟩
  · exact reads_startpoint.sole (hw _ (by simp [labels])) (singleMatch_some hs₁) ht₁
  · rw [hstart, hv₁]
  · exact reads_endpoint.sole (hw _ (by simp [labels])) (singleMatch_some hs₂) ht₂
  · rw [hend, hv₂]
  · exact reads_pathGroup.sole (hw _ (by simp [labels])) (singleMatch_some hs₃) ht₃
  · rw [hgroup, hv₃]
  · exact reads_pathType.sole (hw _ (by simp [labels])) (singleMatch_some hs₄) ht₄
  · exact reads_worst.sole (hw _ (by simp [labels])) (singleMatch_some hs₅) ht₅

/-! ## One more labelled line -/

/-- A line with the label is put in front of a line, or at the end. -/
def Spliced (f : Label) (text text' : List Char) : Prop :=
  ∃ pre line post, text = pre ++ post ∧ AtBol pre.getLast? ∧ '\n' ∉ line ∧
    text' = pre ++ ((f.text.toList ++ line) ++ '\n' :: post)

/-- The pattern of each label has one match. -/
theorem Accepted.reads {py : Interpreter} {text : List Char} {sha : String} {r : ParseResult}
    (h : Accepted py text sha r) {f : Label} (hf : f ∈ labels) : ∃ a s, Reads a f ∧ a.finditer text = [s] := by
  obtain ⟨s₁, hs₁, -⟩ := h.complete.startpoint
  obtain ⟨s₂, hs₂, -⟩ := h.complete.endpoint
  obtain ⟨s₃, hs₃, -⟩ := h.complete.pathGroup
  obtain ⟨s₄, hs₄, -⟩ := h.complete.pathType
  obtain ⟨s₅, hs₅, -⟩ := h.complete.worst
  simp only [labels, List.mem_cons, List.not_mem_nil, or_false] at hf
  rcases hf with rfl | rfl | rfl | rfl | rfl
  · exact ⟨_, s₁, reads_startpoint, singleMatch_some hs₁⟩
  · exact ⟨_, s₂, reads_endpoint, singleMatch_some hs₂⟩
  · exact ⟨_, s₃, reads_pathGroup, singleMatch_some hs₃⟩
  · exact ⟨_, s₄, reads_pathType, singleMatch_some hs₄⟩
  · exact ⟨_, s₅, reads_worst, singleMatch_some hs₅⟩

theorem Accepted.lines_pos {py : Interpreter} {text : List Char} {sha : String} {r : ParseResult}
    (h : Accepted py text sha r) {f : Label} (hf : f ∈ labels) : 0 < (f.lines text).length := by
  obtain ⟨a, s, hreads, hs⟩ := h.reads hf
  apply List.length_pos_of_ne_nil
  apply hreads.lines_ne_nil
  rw [hs]
  exact List.cons_ne_nil s []

theorem Accepted.lines_one {py : Interpreter} {text : List Char} {sha : String} {r : ParseResult}
    (h : Accepted py text sha r) {f : Label} (hf : f ∈ labels) (hw : f.WellFormed text) : (f.lines text).length = 1 := by
  obtain ⟨a, s, hreads, hs⟩ := h.reads hf
  have hfind := congrArg List.length (hreads.finditer hw)
  rw [hs, List.length_map, List.length_map] at hfind
  exact hfind.symm

/-- No label makes the first line the marker. -/
theorem label_not_synthetic {f : Label} (hf : f ∈ labels) (rest : List Char) : ¬IsSynthetic (f.text.toList ++ rest) := by
  have hlabel : (∀ c ∈ f.text.toList, isLineBreak c = false) ∧ f.text.toList ≠ [] ∧ 't' ∈ f.text.toList := by
    simp only [labels, List.mem_cons, List.not_mem_nil, or_false] at hf
    rcases hf with rfl | rfl | rfl | rfl | rfl <;> decide
  obtain ⟨hplain, hne, ht⟩ := hlabel
  intro h
  unfold IsSynthetic splitlines at h
  rw [splitlinesFrom_append hplain, List.append_nil] at h
  have hacc : f.text.toList.reverse ≠ [] := by simpa using hne
  have hbegins := prefix_firstLine hacc rest
  rw [List.reverse_reverse] at hbegins
  have hmem := mem_strip (hbegins.subset ht) (by decide)
  rw [h] at hmem
  exact absurd hmem (by decide)

theorem Spliced.not_synthetic {f : Label} (hf : f ∈ labels) {text text' : List Char} (h : Spliced f text text')
    (hopen : ¬IsSynthetic text) : ¬IsSynthetic text' := by
  obtain ⟨pre, line, post, rfl, hpre, -, rfl⟩ := h
  by_cases hnil : pre = []
  · subst hnil
    rw [List.nil_append, List.append_assoc]
    exact label_not_synthetic hf _
  · have hnewline : '\n' ∈ pre := by
      obtain ⟨x, hx⟩ := Option.isSome_iff_exists.1 (List.getLast?_isSome.2 hnil)
      rw [hx] at hpre
      have hxn : x = '\n' := by simpa [AtBol] using hpre
      rw [← hxn]
      exact List.mem_of_getLast? hx
    unfold IsSynthetic splitlines at hopen ⊢
    rw [firstLine_append hnewline] at hopen ⊢
    exact hopen

theorem Spliced.lines {f : Label} (hf : f ∈ labels) {text text' : List Char} (h : Spliced f text text') :
    (f.lines text').length = (f.lines text).length + 1 := by
  obtain ⟨pre, line, post, rfl, hpre, hline, rfl⟩ := h
  refine f.lines_splice ?_ hpre hline post
  simp only [labels, List.mem_cons, List.not_mem_nil, or_false] at hf
  rcases hf with rfl | rfl | rfl | rfl | rfl <;> decide

/-- **An accepted OpenSTA report has one line for each label, whose value is stored, exactly where its labelled lines are
well formed; with one more labelled line it is refused, where the lines of that label are.** -/
theorem single_claims_iff (py : Interpreter) {payload : ByteArray} {text : String} {r : ParseResult}
    (hutf8 : String.fromUTF8? payload = some text) (hopen : ¬IsSynthetic text.toList) (hr : parseReport py payload = .ok r)
    (hok : r.parseStatus = .ok) :
    (SingleClaims py text.toList r ↔ ∀ f ∈ labels, f.WellFormed text.toList) ∧
    ∀ f ∈ labels, ∀ (payload' : ByteArray) (text' : String), String.fromUTF8? payload' = some text' →
      Spliced f text.toList text'.toList → f.WellFormed text'.toList →
      ∃ r', parseReport py payload' = .ok r' ∧ r'.parseStatus = .invalid := by
  have haccepted := accepted_of_ok hutf8 hopen hr hok
  refine ⟨⟨fun h => h.wellFormed, fun h => haccepted.singleClaims hok h⟩, ?_⟩
  intro f hf payload' text' hutf8' hspliced hw
  obtain ⟨r', hr', hjudged⟩ := parseReport_ok py payload'
  refine ⟨r', hr', ?_⟩
  rcases hjudged with ⟨hinvalid, -⟩ | ⟨hok', -⟩
  · exact hinvalid
  · have haccepted' := accepted_of_ok hutf8' (hspliced.not_synthetic hf hopen) hr' hok'
    have hone := haccepted'.lines_one hf hw
    have hpos := haccepted.lines_pos hf
    have hmore := hspliced.lines hf
    omega

def reportHead : List String :=
  ["OpenSTA 3.1.0 396536743f Copyright", " time 1ns", "Startpoint: _3_ (rising edge-triggered flip-flop)",
   "Endpoint: _2_ (rising edge-triggered flip-flop)"]

def reportTail : List String :=
  ["Path Group: clk", "Path Type: max", "", "  0.423375   data arrival time", "", "-----",
   "  9.883325   data required time", " -0.423375   data arrival time", "-----", "  9.459950   slack (MET)", "",
   "worst slack max 9.459950", "EDA_LAB_REPORT_END"]

def singleText : String := linesText (reportHead ++ reportTail)

/-- The second start point has no remark, so the pattern passes it over. -/
def repeatedText : String := linesText (reportHead ++ "Startpoint: _4_" :: reportTail)

/-- Here it has one. -/
def remarkedText : String := linesText (reportHead ++ "Startpoint: _4_ (input port)" :: reportTail)

/-- The digests are those of the three texts. -/
def singlePy : Interpreter :=
  { fixturePy with sha256 := fun payload =>
      if payload = singleText.toUTF8 then "ff3b26a9b200ccf4131602613ee5cec7cbe28968e9ebe0affd38b51265684c12"
      else if payload = remarkedText.toUTF8 then "b8ea7dc023090530c52617c9fa0da98cb451d148e61c993a3e4873145f4513b0"
      else "ae9a06d8d50461041ac0ad2e86800eef0aedb9c57fa89584988a29d2ce9a32b8" }

/-- A report is accepted where its first line is a banner and `_parse_opensta_setup_max` accepts its text. -/
theorem accepted_of_text {py : Interpreter} {text : String} (h : ¬IsSynthetic text.toList ∧ IsOpenSta text.toList)
    (hok : (Arithmetic.doubles.parseOpenSta py text.toList (py.sha256 text.toUTF8)).toOption.map ParseResult.parseStatus =
      some .ok) : ∃ r, parseReport py text.toUTF8 = .ok r ∧ r.parseStatus = .ok := by
  rw [← Arithmetic.parseReport_doubles, Arithmetic.doubles.parseReport_openSta py (fromUTF8_toUTF8 text) h.1 h.2]
  cases hr : Arithmetic.doubles.parseOpenSta py text.toList (py.sha256 text.toUTF8) with
  | error e =>
    rw [hr] at hok
    cases hok
  | ok r =>
    rw [hr] at hok
    exact ⟨r, rfl, Option.some.inj hok⟩

theorem single_isOpenSta : ¬IsSynthetic singleText.toList ∧ IsOpenSta singleText.toList := by
  unfold IsSynthetic
  generalize htext : singleText.toList = text
  unfold singleText reportHead reportTail at htext
  rw [toList_linesText] at htext
  simp only [List.cons_append, List.nil_append, List.map_cons, List.map_nil, String.reduceToList] at htext
  subst htext
  decide +kernel

theorem parseReport_single : ∃ r, parseReport singlePy singleText.toUTF8 = .ok r ∧ r.parseStatus = .ok := by
  refine accepted_of_text single_isOpenSta ?_
  generalize htext : singleText.toList = text
  unfold singleText reportHead reportTail at htext
  rw [toList_linesText] at htext
  simp only [List.cons_append, List.nil_append, List.map_cons, List.map_nil, String.reduceToList] at htext
  subst htext
  decide +kernel

/-- A line with a start point, put in after the end point. -/
theorem spliced_startpoint {v : String} (hv : '\n' ∉ v.toList) : Spliced startpointLabel singleText.toList
    (linesText (reportHead ++ ("Startpoint:" ++ v) :: reportTail)).toList := by
  refine ⟨Pattern.ofLines (reportHead.map String.toList), v.toList, Pattern.ofLines (reportTail.map String.toList), ?_, ?_,
    hv, ?_⟩
  · unfold singleText
    rw [toList_linesText, List.map_append, Pattern.ofLines_append]
  · unfold reportHead
    simp only [List.map_cons, List.map_nil, String.reduceToList]
    decide +kernel
  · rw [toList_linesText, List.map_append, List.map_cons, Pattern.ofLines_append, Pattern.ofLines_cons, String.toList_append]
    rfl

theorem remarked_wellFormed : startpointLabel.WellFormed remarkedText.toList := by
  unfold Label.WellFormed
  generalize htext : remarkedText.toList = text
  unfold remarkedText reportHead reportTail at htext
  rw [toList_linesText] at htext
  simp only [List.cons_append, List.nil_append, List.map_cons, List.map_nil, String.reduceToList] at htext
  subst htext
  decide +kernel

theorem single_claims_iff_single : ∃ r r', parseReport singlePy singleText.toUTF8 = .ok r ∧
    (SingleClaims singlePy singleText.toList r ↔ ∀ f ∈ labels, f.WellFormed singleText.toList) ∧
    Spliced startpointLabel singleText.toList remarkedText.toList ∧
    parseReport singlePy remarkedText.toUTF8 = .ok r' ∧ r'.parseStatus = .invalid := by
  obtain ⟨r, hr, hok⟩ := parseReport_single
  have h := single_claims_iff singlePy (fromUTF8_toUTF8 singleText) single_isOpenSta.1 hr hok
  have hspliced : Spliced startpointLabel singleText.toList remarkedText.toList :=
    spliced_startpoint (v := " _4_ (input port)") (by decide)
  obtain ⟨r', hr', hinvalid⟩ := h.2 startpointLabel (by simp [labels]) _ _ (fromUTF8_toUTF8 remarkedText) hspliced
    remarked_wellFormed
  exact ⟨r, r', hr, h.1, hspliced, hr', hinvalid⟩

theorem repeated_spliced : Spliced startpointLabel singleText.toList repeatedText.toList :=
  spliced_startpoint (v := " _4_") (by decide)

/-- Put into an accepted report, a second start point leaves it accepted. -/
theorem repeated_accepted : Spliced startpointLabel singleText.toList repeatedText.toList ∧
    ∃ r r', parseReport singlePy singleText.toUTF8 = .ok r ∧ r.parseStatus = .ok ∧
      parseReport singlePy repeatedText.toUTF8 = .ok r' ∧ r'.parseStatus = .ok ∧
      ¬SingleClaims singlePy repeatedText.toList r' := by
  have hopen : ¬IsSynthetic repeatedText.toList ∧ IsOpenSta repeatedText.toList := by
    unfold IsSynthetic
    generalize htext : repeatedText.toList = text
    unfold repeatedText reportHead reportTail at htext
    rw [toList_linesText] at htext
    simp only [List.cons_append, List.nil_append, List.map_cons, List.map_nil, String.reduceToList] at htext
    subst htext
    decide +kernel
  have hok' : (Arithmetic.doubles.parseOpenSta singlePy repeatedText.toList
      (singlePy.sha256 repeatedText.toUTF8)).toOption.map ParseResult.parseStatus = some .ok := by
    generalize htext : repeatedText.toList = text
    unfold repeatedText reportHead reportTail at htext
    rw [toList_linesText] at htext
    simp only [List.cons_append, List.nil_append, List.map_cons, List.map_nil, String.reduceToList] at htext
    subst htext
    decide +kernel
  obtain ⟨r, hr, hok⟩ := parseReport_single
  obtain ⟨r', hr', hok'⟩ := accepted_of_text hopen hok'
  refine ⟨repeated_spliced, r, r', hr, hok, hr', hok', fun h => ?_⟩
  obtain ⟨w, ⟨line, hline, -⟩, -⟩ := h.startpoint
  have hmore := repeated_spliced.lines (by simp [labels])
  have hpos := (accepted_of_ok (fromUTF8_toUTF8 singleText) single_isOpenSta.1 hr hok).lines_pos
    (f := startpointLabel) (by simp [labels])
  rw [hline, List.length_singleton] at hmore
  omega

end EdaLab
