import EdaLab.ReportRun
/-!
# SyntheticGrammar — what the synthetic parser accepts

The parser folds its lines into a dictionary in which the last of a key wins, and notes a key that comes again.  The
grammar is about the pairs of the `=` lines as a set: a fold without a repeated key has kept them all, in their order
(`syntheticLine_foldl`), one with a repeated key has noted an error, and nothing after the fold looks at the order.
-/
namespace EdaLab

open Pattern (Matches)

/-! ## The pairs of a text -/

/-- The key and the value of a line, where it is an `=` line that does not begin with the marker. -/
def syntheticPair (line : List Char) : Option (String × String) :=
  if '=' ∉ line ∨ SYNTHETIC_MARKER.toList.isPrefixOf line = true then none
  else some (String.ofList (strip (line.takeWhile (fun c => decide (c ≠ '=')))),
    String.ofList (strip ((line.dropWhile (fun c => decide (c ≠ '='))).drop 1)))

def syntheticPairs (text : List Char) : List (String × String) := (splitlines text).filterMap syntheticPair

/-- The grammar, of the pairs in whatever order. -/
structure SyntheticGrammar (py : Interpreter) (pairs : List (String × String)) : Prop where
  once     : (pairs.map Prod.fst).Nodup
  required : ∀ key ∈ SYNTHETIC_REQUIRED, ∃ value, (key, value) ∈ pairs
  version  : ∃ value, ("fixture_format_version", value) ∈ pairs ∧ py.int value = .ok 1
  exitCode : ∃ value code, ("tool_exit_code", value) ∈ pairs ∧ py.int value = .ok code
  slack    : ∃ value w unit q, ("worst_slack", value) ∈ pairs ∧ SlackText value.toList w unit ∧
    PyFloat.parse py w = .ok (.finite q)

/-- A text whose first line is the marker. -/
def IsSynthetic (text : List Char) : Prop := strip ((splitlines text).headD []) = SYNTHETIC_MARKER.toList

/-- After its first line, `text'` has the lines of `text` in some order, and lines without `=`. -/
def Reordered (text text' : List Char) : Prop :=
  ∃ extra, (∀ line ∈ extra, '=' ∉ line) ∧ (splitlines text').tail.Perm ((splitlines text).tail ++ extra)

/-! ## Lookups in a dictionary without repeated keys -/

theorem lookup_eq_none_iff {fs : Fields} {k : String} : fs.lookup k = none ↔ k ∉ fs.map Prod.fst := by
  induction fs with
  | nil => simp
  | cons f fs ih =>
    obtain ⟨j, w⟩ := f
    by_cases hk : k = j
    · subst hk
      simp
    · simp [List.lookup_cons, beq_eq_false_iff_ne.2 hk, hk, ih]

theorem lookup_eq_some_iff {fs : Fields} (h : (fs.map Prod.fst).Nodup) {k v : String} :
    fs.lookup k = some v ↔ (k, v) ∈ fs := by
  induction fs with
  | nil => simp
  | cons f fs ih =>
    obtain ⟨j, w⟩ := f
    rw [List.map_cons, List.nodup_cons] at h
    by_cases hk : k = j
    · subst hk
      have hfresh : (k, v) ∉ fs := fun hmem => h.1 (List.mem_map.2 ⟨(k, v), hmem, rfl⟩)
      simp only [List.lookup_cons, beq_self_eq_true, Option.some.injEq, List.mem_cons, Prod.mk.injEq, true_and, hfresh,
        or_false]
      exact eq_comm
    · simp [List.lookup_cons, beq_eq_false_iff_ne.2 hk, hk, ih h.2]

theorem set_fresh {fs : Fields} {k v : String} (h : k ∉ fs.map Prod.fst) : fs.set k v = fs ++ [(k, v)] := by
  induction fs with
  | nil => rfl
  | cons f fs ih =>
    obtain ⟨j, w⟩ := f
    rw [List.map_cons, List.mem_cons, not_or] at h
    unfold Fields.set
    rw [if_neg (Ne.symm h.1), ih h.2]
    rfl

/-! ## The fold -/

/-- A line is skipped, or sets the key of its pair. -/
theorem syntheticLine_eq (x : Fields × List String) (line : List Char × Nat) :
    syntheticLine x line = match syntheticPair line.1 with
      | none        => x
      | some (k, v) => (x.1.set k v, if (x.1.lookup k).isSome then x.2 ++ ["duplicate field " ++ k ++ " at line " ++
          toString line.2] else x.2) := by
  unfold syntheticLine syntheticPair
  split
  · rfl
  · rfl

/-- No step takes an error back. -/
theorem foldl_errors (ls : List (List Char × Nat)) (x : Fields × List String) (h : x.2 ≠ []) :
    (ls.foldl syntheticLine x).2 ≠ [] := by
  induction ls generalizing x with
  | nil => exact h
  | cons line ls ih =>
    apply ih
    rw [syntheticLine_eq]
    split
    · exact h
    · simp only
      split
      · simp
      · exact h

/-- **Without a repeated key the fold keeps every pair.** -/
theorem syntheticLine_foldl (ls : List (List Char × Nat)) (fs : Fields) (es : List String)
    (h : ((fs ++ ls.filterMap (fun line => syntheticPair line.1)).map Prod.fst).Nodup) :
    ls.foldl syntheticLine (fs, es) = (fs ++ ls.filterMap (fun line => syntheticPair line.1), es) := by
  induction ls generalizing fs with
  | nil => simp
  | cons line ls ih =>
    rw [List.foldl_cons, syntheticLine_eq]
    cases hp : syntheticPair line.1 with
    | none =>
      simp only [List.filterMap_cons, hp] at h ⊢
      exact ih fs h
    | some kv =>
      obtain ⟨k, v⟩ := kv
      simp only [List.filterMap_cons, hp] at h ⊢
      have hfresh : k ∉ fs.map Prod.fst := by
        rw [List.map_append, List.map_cons, List.nodup_append] at h
        exact fun hmem => h.2.2 k hmem k List.mem_cons_self rfl
      rw [lookup_eq_none_iff.2 hfresh, set_fresh hfresh]
      rw [List.append_cons] at h
      rw [List.append_cons fs (k, v) (ls.filterMap _)]
      exact ih _ h

/-- A repeated key leaves an error. -/
theorem foldl_repeated (ls : List (List Char × Nat)) (fs : Fields) (es : List String) (hfs : (fs.map Prod.fst).Nodup)
    (h : ¬((fs ++ ls.filterMap (fun line => syntheticPair line.1)).map Prod.fst).Nodup) :
    (ls.foldl syntheticLine (fs, es)).2 ≠ [] := by
  induction ls generalizing fs with
  | nil =>
    rw [List.filterMap_nil, List.append_nil] at h
    exact absurd hfs h
  | cons line ls ih =>
    rw [List.foldl_cons, syntheticLine_eq]
    cases hp : syntheticPair line.1 with
    | none =>
      simp only [List.filterMap_cons, hp] at h
      exact ih fs hfs h
    | some kv =>
      obtain ⟨k, v⟩ := kv
      simp only [List.filterMap_cons, hp] at h ⊢
      by_cases hfresh : k ∈ fs.map Prod.fst
      · have hsome : (fs.lookup k).isSome = true := by
          rw [Option.isSome_iff_ne_none]
          exact fun hnone => lookup_eq_none_iff.1 hnone hfresh
        rw [if_pos hsome]
        exact foldl_errors ls _ (by simp)
      · rw [lookup_eq_none_iff.2 hfresh, set_fresh hfresh]
        rw [List.append_cons] at h
        refine ih _ ?_ h
        rw [List.map_append, List.nodup_append]
        refine ⟨hfs, List.nodup_singleton _, fun a ha b hb => ?_⟩
        rw [List.mem_singleton.1 hb]
        rintro rfl
        exact hfresh ha

theorem filterMap_zipIdx (ls : List (List Char)) (n : Nat) :
    (ls.zipIdx n).filterMap (fun line => syntheticPair line.1) = ls.filterMap syntheticPair := by
  induction ls generalizing n with
  | nil => rfl
  | cons line ls ih =>
    rw [List.zipIdx_cons, List.filterMap_cons, List.filterMap_cons, ih]

theorem parseSynthetic_once (py : Interpreter) {text : List Char} (h : ((syntheticPairs text).map Prod.fst).Nodup)
    (sha : String) : parseSynthetic py text sha = syntheticFinish py (syntheticPairs text) [] sha := by
  have hfold := syntheticLine_foldl ((splitlines text).zipIdx 1) [] []
    (by rw [filterMap_zipIdx, List.nil_append]; exact h)
  rw [filterMap_zipIdx, List.nil_append] at hfold
  unfold parseSynthetic
  rw [hfold]
  rfl

theorem parseSynthetic_repeated (py : Interpreter) {text : List Char} (h : ¬((syntheticPairs text).map Prod.fst).Nodup)
    (sha : String) : ∃ errors, parseSynthetic py text sha =
      .ok (invalidReport errors "synthetic" sha "eda_lab.synthetic:v1") := by
  have hfold := foldl_repeated ((splitlines text).zipIdx 1) [] [] List.nodup_nil
    (by rw [filterMap_zipIdx, List.nil_append]; exact h)
  unfold parseSynthetic syntheticFinish
  simp only
  rw [if_pos (by simp [hfold])]
  exact ⟨_, rfl⟩

/-! ## After the fold -/

/-- The fields read as these numbers. -/
structure ReadAs (py : Interpreter) (values : Fields) (x : SyntheticNumbers) : Prop where
  version  : ∃ value, values.lookup "fixture_format_version" = some value ∧ py.int value = .ok 1
  exitCode : ∃ value, values.lookup "tool_exit_code" = some value ∧ py.int value = .ok x.exitCode
  slack    : ∃ value w, values.lookup "worst_slack" = some value ∧ SlackText value.toList w x.unit ∧
    PyFloat.parse py w = .ok (.finite x.numeric)
  one      : x.version = 1
  slackNs  : x.slackNs = if x.unit = "ns" then x.numeric else PyFloat.nearest (x.numeric / 1000)

theorem item_eq {values : Fields} {key value : String} (h : values.lookup key = some value) :
    values.item key = .ok value := by
  unfold Fields.item
  rw [h]

theorem item_lookup {values : Fields} {key value : String} (h : values.item key = .ok value) :
    values.lookup key = some value := by
  unfold Fields.item at h
  cases hv : values.lookup key with
  | none => rw [hv] at h; cases h
  | some v => rw [hv] at h; cases h; rfl

theorem ReadAs.numbers {py : Interpreter} {values : Fields} {x : SyntheticNumbers} (h : ReadAs py values x) :
    syntheticNumbers py values = .ok x := by
  obtain ⟨version, hversion, hone⟩ := h.version
  obtain ⟨exitCode, hexit, hcode⟩ := h.exitCode
  obtain ⟨slack, w, hslack, htext, hfloat⟩ := h.slack
  obtain ⟨m, hm, hfirst, hsecond⟩ := htext.fullmatch
  have hnumber : groupFloat py (some m) 1 = .ok (.finite x.numeric) := by
    simp only [groupFloat, group, hfirst]
    exact hfloat
  have hunit : group (some m) 2 = .ok x.unit.toList := by simp only [group, hsecond]
  have hx : (⟨1, x.exitCode, x.numeric, x.unit, if x.unit = "ns" then x.numeric else PyFloat.nearest (x.numeric / 1000)⟩ :
      SyntheticNumbers) = x := by
    rw [← h.slackNs, ← h.one]
  simp only [syntheticNumbers, item_eq hversion, item_eq hexit, item_eq hslack, hone, hcode, hm, hnumber, hunit, bind,
    Except.bind, String.ofList_toList]
  exact congrArg Except.ok hx

/-- Each step that succeeds is one of the things the fields read as. -/
theorem bind_ok {ε α β : Type} {x : Except ε α} {f : α → Except ε β} {b : β} (h : x >>= f = .ok b) :
    ∃ a, x = .ok a ∧ f a = .ok b := by
  cases x with
  | error e => cases h
  | ok a => exact ⟨a, rfl, h⟩

theorem numbers_readAs {py : Interpreter} {values : Fields} {x : SyntheticNumbers}
    (h : syntheticNumbers py values = .ok x) : ReadAs py values x := by
  unfold syntheticNumbers at h
  obtain ⟨version, hversion, h⟩ := bind_ok h
  obtain ⟨v, hv, h⟩ := bind_ok h
  by_cases hone : v = 1
  · subst hone
    obtain ⟨-, -, h⟩ := bind_ok h
    obtain ⟨exitCode, hexit, h⟩ := bind_ok h
    obtain ⟨c, hc, h⟩ := bind_ok h
    obtain ⟨slack, hslack, h⟩ := bind_ok h
    split at h
    · cases h
    · rename_i m hm
      obtain ⟨w, unit, htext, hfirst, hsecond⟩ := slack_fullmatch_some hm
      obtain ⟨f, hf, h⟩ := bind_ok h
      split at h
      · rename_i q
        obtain ⟨u, hu, h⟩ := bind_ok h
        cases h
        simp only [group, hsecond, Except.ok.injEq] at hu
        simp only [groupFloat, group, hfirst] at hf
        subst hu
        rw [String.ofList_toList]
        exact ⟨⟨version, item_lookup hversion, hv⟩, ⟨exitCode, item_lookup hexit, hc⟩,
          ⟨slack, w, item_lookup hslack, htext, hf⟩, rfl, rfl⟩
      · cases h
  · rw [if_pos hone] at h
    cases h

theorem ReadAs.congr {py : Interpreter} {values values' : Fields} {x : SyntheticNumbers} (h : ReadAs py values x)
    (hsame : ∀ key, values.lookup key = values'.lookup key) : ReadAs py values' x := by
  refine ⟨?_, ?_, ?_, h.one, h.slackNs⟩
  · rw [← hsame]
    exact h.version
  · rw [← hsame]
    exact h.exitCode
  · simp only [← hsame]
    exact h.slack

/-- The metrics of a report that is accepted. -/
def syntheticMetrics (x : SyntheticNumbers) (runId stage corner sourceSha256 : String) : Document :=
  [("source_kind", .str "synthetic"), ("fixture_format_version", .int x.version), ("run_id", .str runId),
    ("stage", .str stage), ("corner", .str corner), ("tool_exit_code", .int x.exitCode),
      ("worst_slack_ns", .float x.slackNs),
    ("original_value", .float x.numeric), ("original_unit", .str x.unit), ("source_sha256", .str sourceSha256),
    ("job_status", .str (if x.exitCode = 0 then "SUCCEEDED" else "FAILED"))]

/-- The report is accepted, with these metrics. -/
structure ParseResult.Reads (r : ParseResult) (x : SyntheticNumbers) (runId stage corner sourceSha256 : String) : Prop where
  parse    : r.parseStatus = .ok
  check    : r.checkStatus = if 0 ≤ x.slackNs then .pass else .fail
  semantic : r.semanticStatus = .valid
  metrics  : r.metrics = syntheticMetrics x runId stage corner sourceSha256

theorem syntheticFinish_reads {py : Interpreter} {values : Fields} {x : SyntheticNumbers} {runId stage corner : String}
    (hx : ReadAs py values x) (hrun : values.lookup "run_id" = some runId) (hstage : values.lookup "stage" = some stage)
    (hcorner : values.lookup "corner" = some corner) (sha : String) :
    ∃ r, syntheticFinish py values [] sha = .ok r ∧ r.Reads x runId stage corner sha := by
  obtain ⟨version, hversion, -⟩ := hx.version
  obtain ⟨exitCode, hexit, -⟩ := hx.exitCode
  obtain ⟨slack, w, hslack, -, -⟩ := hx.slack
  have hmissing : SYNTHETIC_REQUIRED.filter (fun key => (values.lookup key).isNone) = [] := by
    simp [SYNTHETIC_REQUIRED, hversion, hrun, hstage, hcorner, hexit, hslack]
  unfold syntheticFinish
  simp only [hmissing, List.map_nil, List.append_nil, ne_eq, not_true_eq_false, if_false, hx.numbers, item_eq hrun,
    item_eq hstage, item_eq hcorner, bind, Except.bind]
  exact ⟨_, rfl, rfl, rfl, rfl, rfl⟩

/-- Every other report is refused. -/
theorem syntheticFinish_refuses {py : Interpreter} {values : Fields}
    (h : ¬∃ x, ReadAs py values x ∧ ∀ key ∈ SYNTHETIC_REQUIRED, values.lookup key ≠ none) (sha : String) :
    ∃ errors, syntheticFinish py values [] sha = .ok (invalidReport errors "synthetic" sha "eda_lab.synthetic:v1") := by
  unfold syntheticFinish
  by_cases hmissing : SYNTHETIC_REQUIRED.filter (fun key => (values.lookup key).isNone) = []
  · have hkeys : ∀ key ∈ SYNTHETIC_REQUIRED, (values.lookup key).isNone = false := by
      intro key hkey
      simpa using List.filter_eq_nil_iff.1 hmissing key hkey
    simp only [hmissing, List.map_nil, List.append_nil, ne_eq, not_true_eq_false, if_false]
    cases hx : syntheticNumbers py values with
    | ok x =>
      refine absurd ⟨x, numbers_readAs hx, fun key hkey hnone => ?_⟩ h
      have hsome := hkeys key hkey
      rw [hnone] at hsome
      cases hsome
    | error e =>
      obtain ⟨m, rfl⟩ := syntheticNumbers_error py hkeys hx
      exact ⟨_, rfl⟩
  · simp only [List.nil_append]
    rw [if_pos (by simpa using hmissing)]
    exact ⟨_, rfl⟩

/-- The same fields with the same values make the same result, the digest apart. -/
def SameResult (r r' : ParseResult) : Prop :=
  r'.parseStatus = r.parseStatus ∧ r'.checkStatus = r.checkStatus ∧ r'.semanticStatus = r.semanticStatus ∧
    r'.metrics.filter (fun m => decide (m.1 ≠ "source_sha256")) = r.metrics.filter (fun m => decide (m.1 ≠ "source_sha256"))

theorem ParseResult.Reads.same {r r' : ParseResult} {x : SyntheticNumbers} {runId stage corner sha sha' : String}
    (h : r.Reads x runId stage corner sha) (h' : r'.Reads x runId stage corner sha') : SameResult r r' := by
  refine ⟨h'.parse.trans h.parse.symm, h'.check.trans h.check.symm, h'.semantic.trans h.semantic.symm, ?_⟩
  rw [h.metrics, h'.metrics]
  simp [syntheticMetrics]

theorem lookup_of_ne_none {values : Fields} {key : String} (h : values.lookup key ≠ none) :
    ∃ v, values.lookup key = some v := Option.ne_none_iff_exists'.1 h

theorem SyntheticGrammar.readAs {py : Interpreter} {pairs : Fields} (h : SyntheticGrammar py pairs) :
    ∃ x, ReadAs py pairs x ∧ ∀ key ∈ SYNTHETIC_REQUIRED, pairs.lookup key ≠ none := by
  obtain ⟨version, hversion, hone⟩ := h.version
  obtain ⟨exitCode, code, hexit, hcode⟩ := h.exitCode
  obtain ⟨slack, w, unit, q, hslack, htext, hfloat⟩ := h.slack
  have hfind := fun k v => (lookup_eq_some_iff h.once (k := k) (v := v)).2
  refine ⟨⟨1, code, q, unit, if unit = "ns" then q else PyFloat.nearest (q / 1000)⟩,
    ⟨⟨version, hfind _ _ hversion, hone⟩, ⟨exitCode, hfind _ _ hexit, hcode⟩, ⟨slack, w, hfind _ _ hslack, htext, hfloat⟩,
      rfl, rfl⟩, fun key hkey => ?_⟩
  obtain ⟨value, hvalue⟩ := h.required key hkey
  rw [hfind _ _ hvalue]
  exact Option.some_ne_none value

theorem ReadAs.grammar {py : Interpreter} {pairs : Fields} {x : SyntheticNumbers} (hx : ReadAs py pairs x)
    (hkeys : ∀ key ∈ SYNTHETIC_REQUIRED, pairs.lookup key ≠ none) (once : (pairs.map Prod.fst).Nodup) :
    SyntheticGrammar py pairs := by
  obtain ⟨version, hversion, hone⟩ := hx.version
  obtain ⟨exitCode, hexit, hcode⟩ := hx.exitCode
  obtain ⟨slack, w, hslack, htext, hfloat⟩ := hx.slack
  have hmem := fun k v => (lookup_eq_some_iff once (k := k) (v := v)).1
  refine ⟨once, fun key hkey => ?_, ⟨version, hmem _ _ hversion, hone⟩, ⟨exitCode, _, hmem _ _ hexit, hcode⟩,
    ⟨slack, w, _, _, hmem _ _ hslack, htext, hfloat⟩⟩
  obtain ⟨v, hv⟩ := lookup_of_ne_none (hkeys key hkey)
  exact ⟨v, hmem _ _ hv⟩

theorem parseSynthetic_ok_iff (py : Interpreter) (text : List Char) (sha : String) :
    ∃ r, parseSynthetic py text sha = .ok r ∧ (r.parseStatus = .ok ↔ SyntheticGrammar py (syntheticPairs text)) := by
  by_cases once : ((syntheticPairs text).map Prod.fst).Nodup
  · rw [parseSynthetic_once py once]
    by_cases h : ∃ x, ReadAs py (syntheticPairs text) x ∧ ∀ key ∈ SYNTHETIC_REQUIRED, (syntheticPairs text).lookup key ≠ none
    · obtain ⟨x, hx, hkeys⟩ := h
      obtain ⟨runId, hrun⟩ := lookup_of_ne_none (hkeys "run_id" (by decide))
      obtain ⟨stage, hstage⟩ := lookup_of_ne_none (hkeys "stage" (by decide))
      obtain ⟨corner, hcorner⟩ := lookup_of_ne_none (hkeys "corner" (by decide))
      obtain ⟨r, hr, hreads⟩ := syntheticFinish_reads hx hrun hstage hcorner sha
      exact ⟨r, hr, fun _ => hx.grammar hkeys once, fun _ => hreads.parse⟩
    · obtain ⟨errors, hr⟩ := syntheticFinish_refuses h sha
      exact ⟨_, hr, (fun hok => by cases hok), fun hg => absurd hg.readAs h⟩
  · obtain ⟨errors, hr⟩ := parseSynthetic_repeated py once sha
    exact ⟨_, hr, (fun hok => by cases hok), fun hg => absurd hg.once once⟩

theorem mem_strip {c : Char} {s : List Char} (hc : c ∈ s) (hp : isSpace c = false) : c ∈ strip s := by
  unfold strip
  rw [List.mem_reverse]
  apply mem_dropWhile _ hp
  rw [List.mem_reverse]
  exact mem_dropWhile hc hp

/-- The first line is no `=` line. -/
theorem syntheticPairs_eq {text : List Char} (h : IsSynthetic text) :
    syntheticPairs text = (splitlines text).tail.filterMap syntheticPair := by
  unfold IsSynthetic at h
  unfold syntheticPairs
  cases hls : splitlines text with
  | nil => rfl
  | cons line ls =>
    rw [hls, List.headD_cons] at h
    have hplain : '=' ∉ line := by
      intro hmem
      have hstrip := mem_strip hmem (by decide)
      rw [h] at hstrip
      exact absurd hstrip (by decide)
    have hnone : syntheticPair line = none := by
      unfold syntheticPair
      exact if_pos (Or.inl hplain)
    rw [List.filterMap_cons, hnone, List.tail_cons]

theorem Reordered.pairs {text text' : List Char} (h : Reordered text text') (hs : IsSynthetic text)
    (hs' : IsSynthetic text') : (syntheticPairs text').Perm (syntheticPairs text) := by
  obtain ⟨extra, hextra, hperm⟩ := h
  have hnone : extra.filterMap syntheticPair = [] := by
    rw [List.filterMap_eq_nil_iff]
    intro line hline
    unfold syntheticPair
    exact if_pos (Or.inl (hextra line hline))
  have hpairs := hperm.filterMap syntheticPair
  rw [List.filterMap_append, hnone, List.append_nil] at hpairs
  rw [syntheticPairs_eq hs, syntheticPairs_eq hs']
  exact hpairs

theorem parseReport_synthetic (py : Interpreter) {payload : ByteArray} {text : String}
    (hutf8 : String.fromUTF8? payload = some text) (h : IsSynthetic text.toList) :
    parseReport py payload = parseSynthetic py text.toList (py.sha256 payload) := by
  unfold parseReport
  unfold IsSynthetic at h
  rw [hutf8]
  simp only [if_pos h]

def fixtureText : String := linesText
  ["SYNTHETIC / NOT GENERATED BY AN EDA TOOL", "fixture_format_version=1", "run_id=job-1", "stage=route", "corner=tt",
   "tool_exit_code=0", "worst_slack=0.125 ns"]

/-- The digests are those of the two texts. -/
def fixturePy : Interpreter where
  sha256     := fun payload =>
    if payload = fixtureText.toUTF8 then "834c91c64dc298077d4f3fa3e67667e015951667dd3044edf66da7c2591e4b66"
    else "5f131d699e473cb4d689d5361187a1f2fdfb934a576e16b4f98c6dfb9cc402e5"
  intError   := fun s => "invalid literal for int() with base 10: '" ++ s ++ "'"
  floatError := fun s => "could not convert string to float: '" ++ s ++ "'"

end EdaLab
