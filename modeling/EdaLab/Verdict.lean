import EdaLab.Arithmetic
import EdaLab.SyntheticGrammar
/-!
# Verdict — the check status and the stored worst slack

A synthetic report is judged by the slack it stores.  An OpenSTA report is judged by its label, which has the sign of the
path slack (`label_sign`); the worst slack it stores may lie on the other side of zero, within the tolerance.
-/
namespace EdaLab

open Pattern (Captures Captured Matches)

/-- The status is `PASS` for a stored worst slack from zero on, and `FAIL` for one below. -/
def ParseResult.Verdict (r : ParseResult) : Prop :=
  ∃ worst : ℚ, r.metrics.lookup "worst_slack_ns" = some (.float worst) ∧ (r.checkStatus = .pass ↔ 0 ≤ worst) ∧
    (r.checkStatus = .fail ↔ worst < 0)

/-- The path slack and the worst slack that a text reports are on one side of zero. -/
def SameSign (A : Arithmetic) (py : Interpreter) (text : List Char) : Prop :=
  ∀ (s w : Captures) (slack worst : ℚ), summaryPattern.finditer text = [s] → worstPattern.finditer text = [w] →
    A.groupFloat py (some s) 3 = .ok (.finite slack) → A.groupFloat py (some w) 1 = .ok (.finite worst) →
    (0 ≤ slack ↔ 0 ≤ worst)

theorem verdict_of_slack {r : ParseResult} {q : ℚ} (hm : r.metrics.lookup "worst_slack_ns" = some (.float q))
    (hc : r.checkStatus = if 0 ≤ q then .pass else .fail) : r.Verdict := by
  refine ⟨q, hm, ?_, ?_⟩
  · rw [hc]
    by_cases hq : 0 ≤ q
    · simp [hq]
    · simp [hq]
  · rw [hc]
    by_cases hq : 0 ≤ q
    · simp [hq]
    · simp [hq, lt_of_not_ge hq]

theorem syntheticFinish_verdict (A : Arithmetic) {py : Interpreter} {values : Fields} {errors : List String} {sha : String}
    {r : ParseResult} (hr : A.syntheticFinish py values errors sha = .ok r) (hok : r.parseStatus = .ok) : r.Verdict := by
  unfold Arithmetic.syntheticFinish at hr
  dsimp only at hr
  split at hr
  · cases hr
    cases hok
  · split at hr
    · cases hr
      cases hok
    · cases hr
    · rename_i x _
      obtain ⟨runId, -, hr⟩ := bind_ok hr
      obtain ⟨stage, -, hr⟩ := bind_ok hr
      obtain ⟨corner, -, hr⟩ := bind_ok hr
      cases hr
      exact verdict_of_slack (q := x.slackNs) rfl rfl

/-- A report without contradictions has the label of the sign of its path slack. -/
theorem label_sign (A : Arithmetic) {pathType label : String} {required signedArrival arrival worst : PyFloat} {slack : ℚ}
    (hlabel : label = "MET" ∨ label = "VIOLATED")
    (h : A.semanticErrors pathType label required signedArrival arrival (.finite slack) worst = []) :
    label = "MET" ↔ 0 ≤ slack := by
  unfold Arithmetic.semanticErrors at h
  have hsign := (List.append_eq_nil_iff.1 h).2
  by_cases hneg : slack < 0
  · have hgt : (PyFloat.finite 0).gt (.finite slack) = true := by simp [PyFloat.gt, hneg]
    rcases hlabel with rfl | rfl
    · rw [if_pos (Or.inl ⟨rfl, hgt⟩)] at hsign
      cases hsign
    · simp [hneg]
  · have hgt : (PyFloat.finite 0).gt (.finite slack) = false := by simpa [PyFloat.gt] using hneg
    rcases hlabel with rfl | rfl
    · simpa using hneg
    · rw [if_pos (Or.inr ⟨rfl, hgt⟩)] at hsign
      cases hsign

theorem matches_text {w : String} {v : List Char} (h : Matches (.text w) v) : v = w.toList := by
  unfold Pattern.text at h
  generalize w.toList = l at h ⊢
  induction l generalizing v with
  | nil => cases h; rfl
  | cons c l ih =>
    cases h with
    | seq left right =>
      cases left with
      | one hp => rw [of_decide_eq_true hp, ih right]; rfl

theorem summary_label {s : Captures} (h : Captured summaryPattern s) {t : List Char} (ht : group (some s) 4 = .ok t) :
    String.ofList t = "MET" ∨ String.ofList t = "VIOLATED" := by
  obtain ⟨u, hu, g, hg, hm⟩ := h.lookup (summaryPattern_bound 4 (by decide))
  simp only [group, hu, Except.ok.injEq] at ht
  subst ht
  have hgroup : g = .alt (.text "MET") (.text "VIOLATED") := by
    simpa [summaryPattern, Pattern.all, Pattern.groups, groups_number, groups_text, space, dashes, newline, Pattern.many1]
      using hg
  subst hgroup
  cases hm with
  | left hm =>
    rw [matches_text hm]
    exact Or.inl rfl
  | right hm =>
    rw [matches_text hm]
    exact Or.inr rfl

/-! ## An accepted OpenSTA report -/

/-- A text whose first line is a banner. -/
def IsOpenSta (text : List Char) : Prop := "OpenSTA ".toList.isPrefixOf (strip ((splitlines text).headD [])) = true

instance (text : List Char) : Decidable (IsOpenSta text) := inferInstanceAs (Decidable (_ = _))

theorem Arithmetic.parseReport_openSta (A : Arithmetic) (py : Interpreter) {payload : ByteArray} {text : String}
    (hutf8 : String.fromUTF8? payload = some text) (hopen : ¬IsSynthetic text.toList) (hfirst : IsOpenSta text.toList) :
    A.parseReport py payload = A.parseOpenSta py text.toList (py.sha256 payload) := by
  unfold IsSynthetic at hopen
  unfold IsOpenSta at hfirst
  unfold Arithmetic.parseReport
  rw [hutf8]
  simp only [if_neg hopen, if_pos hfirst]

/-- A text of neither format is refused. -/
theorem Arithmetic.parseReport_unsupported (A : Arithmetic) (py : Interpreter) {payload : ByteArray} {text : String}
    (hutf8 : String.fromUTF8? payload = some text) (hopen : ¬IsSynthetic text.toList) (hfirst : ¬IsOpenSta text.toList) :
    A.parseReport py payload = .ok (invalidReport ["unsupported timing report format"] "unknown" (py.sha256 payload)
      "eda_lab.dispatch:v1") := by
  unfold IsSynthetic at hopen
  unfold IsOpenSta at hfirst
  unfold Arithmetic.parseReport
  rw [hutf8]
  simp only [if_neg hopen, if_neg hfirst]

theorem Arithmetic.parseReport_synthetic (A : Arithmetic) (py : Interpreter) {payload : ByteArray} {text : String}
    (hutf8 : String.fromUTF8? payload = some text) (h : IsSynthetic text.toList) :
    A.parseReport py payload = A.parseSynthetic py text.toList (py.sha256 payload) := by
  unfold IsSynthetic at h
  unfold Arithmetic.parseReport
  rw [hutf8]
  simp only [if_pos h]

/-- The fields of `v` are what the groups of the matches read as. -/
structure ReadFrom (A : Arithmetic) (py : Interpreter) (m : OpenStaMatches) (v : OpenStaValues) : Prop where
  required      : A.groupFloat py m.summary.1 1 = .ok v.required
  signedArrival : A.groupFloat py m.summary.1 2 = .ok v.signedArrival
  slack         : A.groupFloat py m.summary.1 3 = .ok v.slack
  arrival       : A.groupFloat py m.arrivalRows.head? 1 = .ok v.arrival
  worst         : A.groupFloat py m.worst.1 1 = .ok v.worst
  label         : ∃ t, group m.summary.1 4 = .ok t ∧ v.label = String.ofList t
  toolVersion   : ∃ t, group m.banner.1 1 = .ok t ∧ v.toolVersion = String.ofList t
  toolRevision  : ∃ t, group m.banner.1 2 = .ok t ∧ v.toolRevision = String.ofList t
  startpoint    : ∃ t, group m.startpoint.1 1 = .ok t ∧ v.startpoint = String.ofList t
  endpoint      : ∃ t, group m.endpoint.1 1 = .ok t ∧ v.endpoint = String.ofList t
  pathGroup     : ∃ t, group m.pathGroup.1 1 = .ok t ∧ v.pathGroup = String.ofList t
  pathType      : ∃ t, group m.pathType.1 1 = .ok t ∧ v.pathType = String.ofList t

theorem openStaValues_readFrom {A : Arithmetic} {py : Interpreter} {m : OpenStaMatches} {v : OpenStaValues}
    (h : A.openStaValues py m = .ok v) : ReadFrom A py m v := by
  unfold Arithmetic.openStaValues at h
  obtain ⟨required, h1, h⟩ := bind_ok h
  obtain ⟨signedArrival, h2, h⟩ := bind_ok h
  obtain ⟨slack, h3, h⟩ := bind_ok h
  obtain ⟨arrival, h4, h⟩ := bind_ok h
  obtain ⟨worst, h5, h⟩ := bind_ok h
  obtain ⟨label, h6, h⟩ := bind_ok h
  obtain ⟨version, h7, h⟩ := bind_ok h
  obtain ⟨revision, h8, h⟩ := bind_ok h
  obtain ⟨start, h9, h⟩ := bind_ok h
  obtain ⟨stop, h10, h⟩ := bind_ok h
  obtain ⟨pathGroup, h11, h⟩ := bind_ok h
  obtain ⟨pathType, h12, h⟩ := bind_ok h
  cases h
  exact ⟨h1, h2, h3, h4, h5, ⟨_, h6, rfl⟩, ⟨_, h7, rfl⟩, ⟨_, h8, rfl⟩, ⟨_, h9, rfl⟩, ⟨_, h10, rfl⟩, ⟨_, h11, rfl⟩,
    ⟨_, h12, rfl⟩⟩

theorem ReadFrom.label_known {A : Arithmetic} {py : Interpreter} {text : List Char} {v : OpenStaValues}
    (h : ReadFrom A py (openStaMatches text) v) : v.label = "MET" ∨ v.label = "VIOLATED" := by
  obtain ⟨t, ht, hlabel⟩ := h.label
  rw [hlabel]
  cases hm : (openStaMatches text).summary.1 with
  | none =>
    rw [hm] at ht
    cases ht
  | some s =>
    rw [hm] at ht
    exact summary_label (singleMatch_captured hm) ht

/-- An accepted OpenSTA report has no errors, and its result is that of the values read. -/
theorem parseOpenSta_accepted {A : Arithmetic} {py : Interpreter} {text : List Char} {sha : String} {r : ParseResult}
    (h : A.parseOpenSta py text sha = .ok r) (hok : r.parseStatus = .ok) :
    openStaErrors text (openStaMatches text) = .ok [] ∧
      ∃ v, ReadFrom A py (openStaMatches text) v ∧ r = A.openStaResult v sha := by
  unfold Arithmetic.parseOpenSta at h
  obtain ⟨errors, herrors, h⟩ := bind_ok h
  by_cases hno : errors = []
  · subst hno
    rw [if_neg (not_not_intro rfl)] at h
    obtain ⟨v, hv, h⟩ := bind_ok h
    cases h
    exact ⟨herrors, v, openStaValues_readFrom hv, rfl⟩
  · rw [if_pos hno] at h
    cases h
    cases hok

/-- The times of an accepted report are finite, and its metrics hold them. -/
theorem openStaResult_accepted {A : Arithmetic} {v : OpenStaValues} {sha : String}
    (h : (A.openStaResult v sha).parseStatus = .ok) :
    ∃ required signedArrival arrival slack worst : ℚ, v.required = .finite required ∧
      v.signedArrival = .finite signedArrival ∧ v.arrival = .finite arrival ∧ v.slack = .finite slack ∧
      v.worst = .finite worst := by
  obtain ⟨required, signedArrival, slack, arrival, worst⟩ := v
  unfold Arithmetic.openStaResult at h
  split at h
  · rename_i h1 h2 h3 h4 h5
    exact ⟨_, _, _, _, _, h1, h2, h3, h4, h5⟩
  · cases h

theorem openStaResult_verdict {A : Arithmetic} {v : OpenStaValues} {sha : String}
    (hlabel : v.label = "MET" ∨ v.label = "VIOLATED") (hok : (A.openStaResult v sha).parseStatus = .ok)
    (hvalid : (A.openStaResult v sha).semanticStatus = .valid) :
    ∃ slack worst : ℚ, v.slack = .finite slack ∧ v.worst = .finite worst ∧
      ((A.openStaResult v sha).Verdict ↔ (0 ≤ slack ↔ 0 ≤ worst)) := by
  obtain ⟨required, signedArrival, arrival, slack, worst, h1, h2, h3, h4, h5⟩ := openStaResult_accepted hok
  refine ⟨slack, worst, h4, h5, ?_⟩
  unfold Arithmetic.openStaResult at hvalid ⊢
  simp only [h1, h2, h3, h4, h5] at hvalid ⊢
  generalize hes : A.semanticErrors v.pathType v.label (.finite required) (.finite signedArrival) (.finite arrival)
    (.finite slack) (.finite worst) = es at hvalid ⊢
  by_cases hno : es = []
  · subst hno
    have hsign := label_sign A hlabel hes
    have hstatus : ∀ P : Prop, [Decidable P] →
        ((if P then CheckStatus.pass else .fail) = .pass ↔ P) ∧ ((if P then CheckStatus.pass else .fail) = .fail ↔ ¬P) := by
      intro P _
      by_cases hP : P
      · simp [hP]
      · simp [hP]
    simp only [ne_eq, not_true_eq_false, if_false]
    constructor
    · rintro ⟨q, hq, hpass, -⟩
      cases hq
      rw [← hsign, ← hpass]
      exact (hstatus _).1.symm
    · intro hsame
      refine ⟨worst, rfl, ?_, ?_⟩
      · rw [← hsame, ← hsign]
        exact (hstatus _).1
      · rw [← not_le, ← hsame, ← hsign]
        exact (hstatus _).2
  · rw [if_pos hno] at hvalid
    cases hvalid

theorem singleMatch_some {a : Pattern} {text : List Char} {field : String} {s : Captures}
    (h : (singleMatch a text field).1 = some s) : a.finditer text = [s] := by
  unfold singleMatch at h
  split at h
  · rename_i t ht
    cases h
    exact ht
  · cases h

/-- **The check status is that of the stored worst slack exactly for the synthetic reports and the OpenSTA reports whose
path slack is on the same side of zero.** -/
theorem verdict_iff_sameSign (A : Arithmetic) (py : Interpreter) {payload : ByteArray} {text : String} {r : ParseResult}
    (hutf8 : String.fromUTF8? payload = some text) (hr : A.parseReport py payload = .ok r) (hok : r.parseStatus = .ok)
    (hvalid : r.semanticStatus = .valid) : r.Verdict ↔ IsSynthetic text.toList ∨ SameSign A py text.toList := by
  by_cases hsynthetic : IsSynthetic text.toList
  · rw [A.parseReport_synthetic py hutf8 hsynthetic] at hr
    exact ⟨fun _ => Or.inl hsynthetic, fun _ => syntheticFinish_verdict A hr hok⟩
  · by_cases hfirst : IsOpenSta text.toList
    · rw [A.parseReport_openSta py hutf8 hsynthetic hfirst] at hr
      obtain ⟨herrors, v, hv, rfl⟩ := parseOpenSta_accepted hr hok
      obtain ⟨errors, herrors', hcomplete⟩ := openStaErrors_ok text.toList
      rw [herrors] at herrors'
      cases herrors'
      have hm := hcomplete rfl
      obtain ⟨s, hs, -⟩ := hm.summary
      obtain ⟨w, hw, -⟩ := hm.worst
      obtain ⟨slack, worst, hslack, hworst, hiff⟩ := openStaResult_verdict hv.label_known hok hvalid
      have hfs := singleMatch_some hs
      have hfw := singleMatch_some hw
      have hrs := hv.slack
      have hrw := hv.worst
      rw [hs, hslack] at hrs
      rw [hw, hworst] at hrw
      rw [hiff]
      constructor
      · intro hsame
        refine Or.inr (fun s' w' slack' worst' hs' hw' hrs' hrw' => ?_)
        rw [hfs] at hs'
        rw [hfw] at hw'
        cases hs'
        cases hw'
        rw [hrs] at hrs'
        rw [hrw] at hrw'
        cases hrs'
        cases hrw'
        exact hsame
      · rintro (h | hsame)
        · exact absurd h hsynthetic
        · exact hsame s w slack worst hfs hfw hrs hrw
    · rw [A.parseReport_unsupported py hutf8 hsynthetic hfirst] at hr
      cases hr
      cases hok

/-- The path slack is zero and met, the worst slack is below zero by less than the tolerance. -/
def crossingText : String := linesText
  ["OpenSTA 3.1.0 396536743f Copyright", " time 1ns", "Startpoint: _3_ (rising edge-triggered flip-flop)",
   "Endpoint: _2_ (rising edge-triggered flip-flop)", "Path Group: clk", "Path Type: max", "",
   "  9.883325   data arrival time", "", "-----", "  9.883325   data required time", " -9.883325   data arrival time",
   "-----", "  0.000000   slack (MET)", "", "worst slack max -0.0000004", "EDA_LAB_REPORT_END"]

/-- The digest is that of the text above. -/
def crossingPy : Interpreter :=
  { fixturePy with sha256 := fun _ => "02737aa2be9b1029670f9e22bfd38c0eaec3db36b39d966d2f21153cfbeba678" }

theorem crossing_isOpenSta : ¬IsSynthetic crossingText.toList ∧ IsOpenSta crossingText.toList := by
  unfold IsSynthetic
  generalize htext : crossingText.toList = text
  unfold crossingText at htext
  rw [toList_linesText] at htext
  simp only [List.map_cons, List.map_nil, String.reduceToList] at htext
  subst htext
  decide +kernel

theorem parseReport_crossing : ∃ r, Arithmetic.exact.parseReport crossingPy crossingText.toUTF8 = .ok r ∧
    r.parseStatus = .ok ∧ r.semanticStatus = .valid := by
  have hstatuses : (Arithmetic.exact.parseOpenSta crossingPy crossingText.toList
      (crossingPy.sha256 crossingText.toUTF8)).toOption.map (fun r => (r.parseStatus, r.semanticStatus)) =
      some (.ok, .valid) := by
    generalize htext : crossingText.toList = text
    unfold crossingText at htext
    rw [toList_linesText] at htext
    simp only [List.map_cons, List.map_nil, String.reduceToList] at htext
    subst htext
    decide +kernel
  rw [Arithmetic.parseReport_openSta _ _ (fromUTF8_toUTF8 crossingText) crossing_isOpenSta.1 crossing_isOpenSta.2]
  cases hr : Arithmetic.exact.parseOpenSta crossingPy crossingText.toList (crossingPy.sha256 crossingText.toUTF8) with
  | error e =>
    rw [hr] at hstatuses
    cases hstatuses
  | ok r =>
    rw [hr] at hstatuses
    have hpair := Option.some.inj hstatuses
    exact ⟨r, rfl, congrArg Prod.fst hpair, congrArg Prod.snd hpair⟩

theorem groupFloat_of_toOption {A : Arithmetic} {py : Interpreter} {m : Option Captures} {n : Nat} {x y : PyFloat}
    (h : (A.groupFloat py m n).toOption = some x) (hy : A.groupFloat py m n = .ok y) : y = x := by
  rw [hy] at h
  exact Option.some.inj h

theorem verdict_crossing : ∃ r, Arithmetic.exact.parseReport crossingPy crossingText.toUTF8 = .ok r ∧
    r.parseStatus = .ok ∧ r.semanticStatus = .valid ∧ ¬r.Verdict := by
  obtain ⟨r, hr, hok, hvalid⟩ := parseReport_crossing
  refine ⟨r, hr, hok, hvalid, ?_⟩
  have hslacks : (Arithmetic.exact.groupFloat crossingPy (openStaMatches crossingText.toList).summary.1 3).toOption =
      some (.finite 0) ∧ (Arithmetic.exact.groupFloat crossingPy (openStaMatches crossingText.toList).worst.1 1).toOption =
      some (.finite (-4 / 10 ^ 7)) := by
    generalize htext : crossingText.toList = text
    unfold crossingText at htext
    rw [toList_linesText] at htext
    simp only [List.map_cons, List.map_nil, String.reduceToList] at htext
    subst htext
    decide +kernel
  rw [Arithmetic.parseReport_openSta _ _ (fromUTF8_toUTF8 crossingText) crossing_isOpenSta.1 crossing_isOpenSta.2] at hr
  obtain ⟨-, v, hv, rfl⟩ := parseOpenSta_accepted hr hok
  obtain ⟨slack, worst, hslack, hworst, hiff⟩ := openStaResult_verdict hv.label_known hok hvalid
  have hzero := groupFloat_of_toOption hslacks.1 hv.slack
  have hbelow := groupFloat_of_toOption hslacks.2 hv.worst
  rw [hslack] at hzero
  rw [hworst] at hbelow
  cases hzero
  cases hbelow
  rw [hiff]
  norm_num

theorem verdict_iff_sameSign_crossing : ∃ r, Arithmetic.exact.parseReport crossingPy crossingText.toUTF8 = .ok r ∧
    (r.Verdict ↔ IsSynthetic crossingText.toList ∨ SameSign Arithmetic.exact crossingPy crossingText.toList) := by
  obtain ⟨r, hr, hok, hvalid⟩ := parseReport_crossing
  have hiff := verdict_iff_sameSign Arithmetic.exact crossingPy (fromUTF8_toUTF8 crossingText) hr hok hvalid
  exact ⟨r, hr, hiff⟩

end EdaLab
