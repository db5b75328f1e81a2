import EdaLab.Report
/-!
# ReportSpec — `parse_report` never raises, and what its statuses can be

After every pattern of the OpenSTA format has matched exactly once, each of its groups has a text, and the text of a
`NUMBER` group is one `float` reads; after the synthetic format has all its fields, the only exception left is the
`ValueError` that is caught.  So `parse_report` returns for every report, with one of three combinations of statuses.
-/
namespace EdaLab

open Pattern (Captures Captured Matches)

/-! ## The text of a `NUMBER` -/

theorem matches_many_one {p : Char → Bool} {w : List Char} (h : Matches (.many (.one p)) w) : ∀ c ∈ w, p c = true := by
  generalize ha : Pattern.many (.one p) = a at h
  induction h with
  | none => intro c hc; cases hc
  | more head tail _ ih =>
    cases ha
    intro c hc
    cases head with
    | one hp =>
      rcases List.mem_append.1 hc with hc | hc
      · rw [List.mem_singleton.1 hc]
        exact hp
      · exact ih rfl c hc
  | _ => cases ha

theorem matches_many1_one {p : Char → Bool} {w : List Char} (h : Matches (.many1 (.one p)) w) :
    w ≠ [] ∧ ∀ c ∈ w, p c = true := by
  cases h with
  | seq left right =>
    cases left with
    | one hp =>
      have hrest := matches_many_one right
      refine ⟨by simp, fun c hc => ?_⟩
      rcases List.mem_append.1 hc with hc | hc
      · rw [List.mem_singleton.1 hc]
        exact hp
      · exact hrest c hc

/-- A text of `NUMBER`: a sign, digits, and perhaps a point and digits. -/
theorem matches_number {w : List Char} (h : Matches numberPattern w) : ∃ sign whole fraction,
    w = sign ++ (whole ++ fraction) ∧ (sign = [] ∨ sign = ['-'] ∨ sign = ['+']) ∧
    (whole ≠ [] ∧ ∀ c ∈ whole, isDecimal c = true) ∧
    (fraction = [] ∨ ∃ t, fraction = '.' :: t ∧ t ≠ [] ∧ ∀ c ∈ t, isDecimal c = true) := by
  cases h with
  | @seq _ _ sign _ hsign hrest =>
    cases hrest with
    | @seq _ _ whole _ hwhole hrest =>
      cases hrest with
      | @seq _ _ fraction e hfraction hempty =>
        cases hempty
        refine ⟨sign, whole, fraction, by rw [List.append_nil], ?_, matches_many1_one hwhole, ?_⟩
        · cases hsign with
          | left hs =>
            cases hs with
            | one hp =>
              rcases of_decide_eq_true hp with rfl | rfl
              · exact Or.inr (Or.inl rfl)
              · exact Or.inr (Or.inr rfl)
          | right hs => cases hs; exact Or.inl rfl
        · cases hfraction with
          | left hf =>
            cases hf with
            | seq hdot hdigits =>
              cases hdot with
              | seq hpoint hnil =>
                cases hnil
                cases hpoint with
                | one hp =>
                  obtain ⟨hne, hall⟩ := matches_many1_one hdigits
                  exact Or.inr ⟨_, by rw [of_decide_eq_true hp]; rfl, hne, hall⟩
          | right hf => cases hf; exact Or.inl rfl

theorem signed_body {sign body : List Char} (hsign : sign = [] ∨ sign = ['-'] ∨ sign = ['+'])
    (hbody : ∀ c t, body = c :: t → isDecimal c = true) : (signed (sign ++ body)).2 = body := by
  rcases hsign with rfl | rfl | rfl
  · cases body with
    | nil => rfl
    | cons c t =>
      have hc := hbody c t rfl
      simp only [List.nil_append]
      unfold signed
      split
      · rename_i heq
        cases heq
        exact absurd hc (by decide)
      · rename_i heq
        cases heq
        exact absurd hc (by decide)
      · rfl
  · rfl
  · rfl

/-- **`float` reads every text of `NUMBER`.** -/
theorem parse_number (py : Interpreter) {w : List Char} (h : Matches numberPattern w) :
    ∃ x, PyFloat.parse py w = .ok x := by
  obtain ⟨sign, whole, fraction, rfl, hsign, ⟨hne, hwhole⟩, hfraction⟩ := matches_number h
  have hbody : (signed (sign ++ (whole ++ fraction))).2 = whole ++ fraction := by
    apply signed_body hsign
    intro c t heq
    cases whole with
    | nil => exact absurd rfl hne
    | cons d u => cases heq; exact hwhole c (List.mem_cons_self ..)
  -- what follows the digits starts with no digit
  have hspan : (whole ++ fraction).takeWhile isDecimal = whole ∧ (whole ++ fraction).dropWhile isDecimal = fraction := by
    rw [List.takeWhile_append_of_pos hwhole, List.dropWhile_append_of_pos hwhole]
    rcases hfraction with rfl | ⟨t, rfl, -, -⟩
    · simp
    · have hdot : isDecimal '.' = false := by decide
      simp [hdot]
  unfold PyFloat.parse
  generalize hsg : signed (sign ++ (whole ++ fraction)) = sg at hbody ⊢
  obtain ⟨negative, body⟩ := sg
  simp only at hbody
  subst hbody
  simp only [hspan.1, hspan.2, if_neg hne]
  rcases hfraction with rfl | ⟨t, rfl, htne, ht⟩
  · exact ⟨_, rfl⟩
  · have hall : t ≠ [] ∧ t.all isDecimal = true := ⟨htne, List.all_eq_true.2 ht⟩
    simp only [if_pos hall]
    exact ⟨_, rfl⟩

/-! ## Groups -/

theorem groups_text (w : String) : (Pattern.text w).groups = [] ∧ (Pattern.text w).bound = [] := by
  unfold Pattern.text
  induction w.toList with
  | nil => exact ⟨rfl, rfl⟩
  | cons c s ih => exact ⟨by simp [Pattern.groups, ih.1], by simp [Pattern.bound, ih.2]⟩

theorem groups_number : numberPattern.groups = [] := by
  simp [numberPattern, Pattern.all, Pattern.opt, Pattern.many1, Pattern.groups, groups_text]

/-- The group takes part in every match. -/
theorem group_ok {a : Pattern} {s : Captures} (h : Captured a s) {n : Nat} (hn : n ∈ a.bound) :
    ∃ t, group (some s) n = .ok t := by
  obtain ⟨t, ht, -⟩ := h.lookup hn
  exact ⟨t, by simp only [group, ht]⟩

/-- The group is a `NUMBER`. -/
theorem groupFloat_ok (py : Interpreter) {a : Pattern} {s : Captures} (h : Captured a s) {n : Nat} (hn : n ∈ a.bound)
    (hnumber : ∀ g, (n, g) ∈ a.groups → g = numberPattern) : ∃ x, groupFloat py (some s) n = .ok x := by
  obtain ⟨t, ht, g, hg, hm⟩ := h.lookup hn
  rw [hnumber g hg] at hm
  obtain ⟨x, hx⟩ := parse_number py hm
  exact ⟨x, by simp only [groupFloat, group, ht]; exact hx⟩

theorem singleMatch_of_no_error {a : Pattern} {text : List Char} {field : String}
    (h : (singleMatch a text field).2 = []) : ∃ s, (singleMatch a text field).1 = some s ∧ Captured a s := by
  have hall : ∀ s ∈ a.finditer text, Captured a s := fun s hs => Pattern.finditer_captured hs
  unfold singleMatch at h ⊢
  split
  · rename_i s heq
    exact ⟨s, rfl, hall s (by rw [heq]; exact List.mem_cons_self ..)⟩
  · rename_i hno
    split at h
    · rename_i s heq
      exact absurd heq (hno s)
    · cases h

theorem singleMatch_captured {a : Pattern} {text : List Char} {field : String} {s : Captures}
    (h : (singleMatch a text field).1 = some s) : Captured a s := by
  unfold singleMatch at h
  split at h
  · rename_i s' heq
    cases h
    exact Pattern.finditer_captured (by rw [heq]; exact List.mem_cons_self ..)
  · cases h

theorem unsupported_ok {a : Pattern} {text : List Char} {field : String} {n : Nat} (hn : n ∈ a.bound)
    (supported message : String) : ∃ es, unsupported (singleMatch a text field).1 n supported message = .ok es := by
  cases hm : (singleMatch a text field).1 with
  | none => exact ⟨[], rfl⟩
  | some s =>
    obtain ⟨t, ht⟩ := group_ok (singleMatch_captured hm) hn
    exact ⟨_, by simp only [unsupported, ht]; rfl⟩

/-! ## The statuses -/

/-- The combinations of statuses a report can have. -/
def ParseResult.Judged (r : ParseResult) : Prop :=
  (r.parseStatus = .invalid ∧ r.semanticStatus = .unknown ∧ r.provenanceStatus = .unknown) ∨
  (r.parseStatus = .ok ∧ r.provenanceStatus = .valid ∧ (r.semanticStatus = .valid ∨ r.semanticStatus = .invalid))

theorem invalidReport_judged (errors : List String) (sourceKind sha parser : String) :
    (invalidReport errors sourceKind sha parser).Judged := Or.inl ⟨rfl, rfl, rfl⟩

theorem item_ok {values : Fields} {key : String} (h : (values.lookup key).isNone = false) :
    ∃ v, values.item key = .ok v := by
  unfold Fields.item
  cases hv : values.lookup key with
  | none => rw [hv] at h; cases h
  | some v => exact ⟨v, rfl⟩

theorem int_error (py : Interpreter) {s : String} {e : PyError} (h : py.int s = .error e) : ∃ m, e = .valueError m := by
  unfold Interpreter.int at h
  split at h
  split at h
  · cases h; exact ⟨_, rfl⟩
  · split at h
    · cases h
    · cases h; exact ⟨_, rfl⟩

theorem slackPattern_bound : 1 ∈ slackPattern.bound ∧ 2 ∈ slackPattern.bound := by
  simp [slackPattern, Pattern.all, Pattern.bound]

theorem slackPattern_number (g : Pattern) (h : (1, g) ∈ slackPattern.groups) : g = numberPattern := by
  simpa [slackPattern, Pattern.all, Pattern.groups, groups_number, groups_text, space] using h

/-- The only exception of the `try` block is one it catches. -/
theorem syntheticNumbers_error (py : Interpreter) {values : Fields} {e : PyError}
    (hkeys : ∀ key ∈ SYNTHETIC_REQUIRED, (values.lookup key).isNone = false) (h : syntheticNumbers py values = .error e) :
    ∃ m, e = .valueError m := by
  obtain ⟨version, hversion⟩ := item_ok (hkeys "fixture_format_version" (by decide))
  obtain ⟨exitCode, hexit⟩ := item_ok (hkeys "tool_exit_code" (by decide))
  obtain ⟨slack, hslack⟩ := item_ok (hkeys "worst_slack" (by decide))
  simp only [syntheticNumbers, hversion, hexit, hslack, bind, Except.bind] at h
  cases hv : py.int version with
  | error e' =>
    rw [hv] at h
    cases h
    exact int_error py hv
  | ok v =>
    simp only [hv] at h
    split at h
    · cases h
      exact ⟨_, rfl⟩
    · simp only [pure, Except.pure] at h
      cases hx : py.int exitCode with
      | error e' =>
        rw [hx] at h
        cases h
        exact int_error py hx
      | ok x =>
        simp only [hx] at h
        cases hm : slackPattern.fullmatch slack.toList with
        | none =>
          rw [hm] at h
          cases h
          exact ⟨_, rfl⟩
        | some m =>
          have hcap := Pattern.fullmatch_captured hm
          obtain ⟨f, hf⟩ := groupFloat_ok py hcap (n := 1) slackPattern_bound.1 slackPattern_number
          obtain ⟨t, ht⟩ := group_ok hcap (n := 2) slackPattern_bound.2
          simp only [hm, hf, ht] at h
          split at h
          · cases h
          · cases h
            exact ⟨_, rfl⟩

theorem syntheticFinish_ok (py : Interpreter) (values : Fields) (errors : List String) (sha : String) :
    ∃ r, syntheticFinish py values errors sha = .ok r ∧ r.Judged := by
  unfold syntheticFinish
  generalize hes : errors ++ (SYNTHETIC_REQUIRED.filter (fun key => (values.lookup key).isNone)).map
    (fun key => "missing field " ++ key) = es
  by_cases hno : es = []
  · subst hno
    have hkeys : ∀ key ∈ SYNTHETIC_REQUIRED, (values.lookup key).isNone = false := by
      intro key hkey
      have hfilter := List.map_eq_nil_iff.1 (List.append_eq_nil_iff.1 hes).2
      simpa using List.filter_eq_nil_iff.1 hfilter key hkey
    simp only [ne_eq, not_true_eq_false, if_false]
    cases hx : syntheticNumbers py values with
    | error e =>
      obtain ⟨m, rfl⟩ := syntheticNumbers_error py hkeys hx
      exact ⟨_, rfl, invalidReport_judged ..⟩
    | ok x =>
      obtain ⟨runId, hrun⟩ := item_ok (hkeys "run_id" (by decide))
      obtain ⟨stage, hstage⟩ := item_ok (hkeys "stage" (by decide))
      obtain ⟨corner, hcorner⟩ := item_ok (hkeys "corner" (by decide))
      simp only [hrun, hstage, hcorner, bind, Except.bind]
      exact ⟨_, rfl, Or.inr ⟨rfl, rfl, Or.inl rfl⟩⟩
  · simp only [ne_eq, hno, not_false_eq_true, if_true]
    exact ⟨_, rfl, invalidReport_judged ..⟩

theorem summaryPattern_bound : ∀ n ∈ [1, 2, 3, 4], n ∈ summaryPattern.bound := by
  simp [summaryPattern, Pattern.all, Pattern.bound]

theorem summaryPattern_number {n : Nat} (hn : n ≤ 3) (g : Pattern) (h : (n, g) ∈ summaryPattern.groups) :
    g = numberPattern := by
  have hgroups : summaryPattern.groups = [(1, numberPattern), (2, numberPattern), (3, numberPattern),
      (4, .alt (.text "MET") (.text "VIOLATED"))] := by
    simp [summaryPattern, Pattern.all, Pattern.groups, groups_number, groups_text, space, dashes, newline, Pattern.many1]
  rw [hgroups] at h
  simp only [List.mem_cons, Prod.mk.injEq, List.not_mem_nil, or_false] at h
  rcases h with ⟨-, rfl⟩ | ⟨-, rfl⟩ | ⟨-, rfl⟩ | ⟨rfl, -⟩
  · rfl
  · rfl
  · rfl
  · omega

theorem worstPattern_number (g : Pattern) (h : (1, g) ∈ worstPattern.groups) : g = numberPattern := by
  simpa [worstPattern, Pattern.all, Pattern.groups, groups_number, groups_text, space, Pattern.many1] using h

theorem arrivalPattern_number (g : Pattern) (h : (1, g) ∈ arrivalPattern.groups) : g = numberPattern := by
  simpa [arrivalPattern, Pattern.all, Pattern.groups, groups_number, groups_text, space, Pattern.many1] using h

/-- What `openStaErrors` finds nothing wrong with. -/
structure Complete (m : OpenStaMatches) : Prop where
  banner : ∃ s, m.banner.1 = some s ∧ Captured bannerPattern s
  startpoint : ∃ s, m.startpoint.1 = some s ∧ Captured (pointPattern "Startpoint") s
  endpoint : ∃ s, m.endpoint.1 = some s ∧ Captured (pointPattern "Endpoint") s
  pathGroup : ∃ s, m.pathGroup.1 = some s ∧ Captured (wordPattern "Path Group") s
  pathType : ∃ s, m.pathType.1 = some s ∧ Captured (wordPattern "Path Type") s
  summary : ∃ s, m.summary.1 = some s ∧ Captured summaryPattern s
  worst : ∃ s, m.worst.1 = some s ∧ Captured worstPattern s
  arrival : ∃ s, m.arrivalRows.head? = some s ∧ Captured arrivalPattern s

/-- The errors of a report are read without an exception, and one without errors has every match. -/
theorem openStaErrors_ok (text : List Char) :
    ∃ errors, openStaErrors text (openStaMatches text) = .ok errors ∧ (errors = [] → Complete (openStaMatches text)) := by
  generalize hm : openStaMatches text = m
  have hbanner : m.banner = singleMatch bannerPattern text "OpenSTA banner" := by rw [← hm]; rfl
  have hunit : m.unit = singleMatch unitPattern text "time unit" := by rw [← hm]; rfl
  have hfirst : 1 ∈ bannerPattern.bound ∧ 1 ∈ unitPattern.bound := by
    simp [bannerPattern, unitPattern, Pattern.all, Pattern.bound]
  obtain ⟨version, hversion⟩ : ∃ es, unsupported m.banner.1 1 "3.1.0" "unsupported OpenSTA version " = .ok es := by
    rw [hbanner]
    exact unsupported_ok hfirst.1 _ _
  obtain ⟨unitName, hunitName⟩ : ∃ es, unsupported m.unit.1 1 "1ns" "unsupported time unit " = .ok es := by
    rw [hunit]
    exact unsupported_ok hfirst.2 _ _
  refine ⟨_, by simp only [openStaErrors, hversion, hunitName, bind, Except.bind]; rfl, ?_⟩
  intro hnone
  simp only [List.append_eq_nil_iff] at hnone
  obtain ⟨⟨⟨⟨⟨⟨⟨⟨⟨⟨⟨⟨hb, -⟩, -⟩, -⟩, -⟩, -⟩, hstart⟩, hend⟩, hgroup⟩, htype⟩, hsummary⟩, hworst⟩, harrivals⟩ := hnone
  have htwo : m.arrivalRows.length = 2 := by
    by_contra hne
    rw [if_pos hne] at harrivals
    cases harrivals
  subst hm
  refine ⟨singleMatch_of_no_error hb, singleMatch_of_no_error hstart, singleMatch_of_no_error hend,
    singleMatch_of_no_error hgroup, singleMatch_of_no_error htype, singleMatch_of_no_error hsummary,
    singleMatch_of_no_error hworst, ?_⟩
  have hrow : ∃ s, (arrivalPattern.finditer text).head? = some s ∧ s ∈ arrivalPattern.finditer text := by
    cases hrows : arrivalPattern.finditer text with
    | nil =>
      have hlen : (arrivalPattern.finditer text).length = 2 := htwo
      rw [hrows] at hlen
      cases hlen
    | cons s rows => exact ⟨s, rfl, List.mem_cons_self ..⟩
  obtain ⟨s, hhead, hmem⟩ := hrow
  exact ⟨s, hhead, Pattern.finditer_captured hmem⟩

theorem openStaValues_ok (py : Interpreter) {m : OpenStaMatches} (h : Complete m) : ∃ v, openStaValues py m = .ok v := by
  obtain ⟨sb, hb, hbc⟩ := h.banner
  obtain ⟨ss, hs, hsc⟩ := h.startpoint
  obtain ⟨se, he, hec⟩ := h.endpoint
  obtain ⟨sg, hg, hgc⟩ := h.pathGroup
  obtain ⟨st, ht, htc⟩ := h.pathType
  obtain ⟨su, hu, huc⟩ := h.summary
  obtain ⟨sw, hw, hwc⟩ := h.worst
  obtain ⟨sa, ha, hac⟩ := h.arrival
  have hword : ∀ name, 1 ∈ (wordPattern name).bound ∧ 1 ∈ (pointPattern name).bound := by
    intro name
    simp [wordPattern, pointPattern, Pattern.all, Pattern.bound]
  obtain ⟨required, h1⟩ := groupFloat_ok py huc (summaryPattern_bound 1 (by decide)) (summaryPattern_number (by decide))
  obtain ⟨signedArrival, h2⟩ := groupFloat_ok py huc (summaryPattern_bound 2 (by decide)) (summaryPattern_number (by decide))
  obtain ⟨slack, h3⟩ := groupFloat_ok py huc (summaryPattern_bound 3 (by decide)) (summaryPattern_number (by decide))
  obtain ⟨label, h4⟩ := group_ok huc (summaryPattern_bound 4 (by decide))
  obtain ⟨arrival, h5⟩ := groupFloat_ok py hac (n := 1) (by simp [arrivalPattern, Pattern.all, Pattern.bound])
    arrivalPattern_number
  obtain ⟨worst, h6⟩ := groupFloat_ok py hwc (n := 1) (by simp [worstPattern, Pattern.all, Pattern.bound])
    worstPattern_number
  obtain ⟨version, h7⟩ := group_ok hbc (n := 1) (by simp [bannerPattern, Pattern.all, Pattern.bound])
  obtain ⟨revision, h8⟩ := group_ok hbc (n := 2) (by simp [bannerPattern, Pattern.all, Pattern.bound])
  obtain ⟨start, h9⟩ := group_ok hsc (hword _).2
  obtain ⟨stop, h10⟩ := group_ok hec (hword _).2
  obtain ⟨pathGroup, h11⟩ := group_ok hgc (hword _).1
  obtain ⟨pathType, h12⟩ := group_ok htc (hword _).1
  refine ⟨⟨required, signedArrival, slack, arrival, worst, String.ofList label, String.ofList version,
    String.ofList revision, String.ofList start, String.ofList stop, String.ofList pathGroup, String.ofList pathType⟩, ?_⟩
  simp only [openStaValues, hb, hs, he, hg, ht, hu, hw, ha, h1, h2, h3, h4, h5, h6, h7, h8, h9, h10, h11, h12, bind,
    Except.bind]
  rfl

theorem openStaResult_judged (v : OpenStaValues) (sha : String) : (openStaResult v sha).Judged := by
  unfold openStaResult
  split
  · refine Or.inr ⟨rfl, rfl, ?_⟩
    by_cases hc : semanticErrors v.pathType v.label v.required v.signedArrival v.arrival v.slack v.worst ≠ []
    · exact Or.inr (if_pos hc)
    · exact Or.inl (if_neg hc)
  · exact invalidReport_judged ..

theorem parseOpenSta_ok (py : Interpreter) (text : List Char) (sha : String) :
    ∃ r, parseOpenSta py text sha = .ok r ∧ r.Judged := by
  obtain ⟨errors, herrors, hcomplete⟩ := openStaErrors_ok text
  unfold parseOpenSta
  by_cases hno : errors = []
  · obtain ⟨v, hv⟩ := openStaValues_ok py (hcomplete hno)
    refine ⟨openStaResult v sha, ?_, openStaResult_judged v sha⟩
    simp only [herrors, bind, Except.bind, hno, ne_eq, not_true_eq_false, if_false, hv]
    rfl
  · refine ⟨invalidReport errors "tool_generated" sha openStaParser, ?_, invalidReport_judged ..⟩
    simp only [herrors, bind, Except.bind, ne_eq, hno, not_false_eq_true, if_true]
    rfl

/-- **`parse_report` returns for every report, with one of the combinations of statuses.** -/
theorem parseReport_ok (py : Interpreter) (payload : ByteArray) :
    ∃ r, parseReport py payload = .ok r ∧ r.Judged := by
  unfold parseReport
  split
  · exact ⟨_, rfl, invalidReport_judged ..⟩
  · dsimp only
    split
    · exact syntheticFinish_ok py ..
    · split
      · exact parseOpenSta_ok py ..
      · exact ⟨_, rfl, invalidReport_judged ..⟩

end EdaLab
