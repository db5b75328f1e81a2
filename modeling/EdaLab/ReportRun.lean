import EdaLab.PatternLines
import EdaLab.ReportSpec
/-!
# ReportRun — the report's patterns on a text

A `NUMBER` in front of something that is not part of one is read in one way only, so what a field captures is fixed by the
text and not by the engine's choices.
-/
namespace EdaLab

open Pattern (Captures Captured Cursor Eats Matches Run)

/-! ## Characters -/

/-- The characters of a `NUMBER`. -/
def isNumeric (c : Char) : Bool := isDecimal c || decide (c = '-' ∨ c = '+' ∨ c = '.')

theorem digitZeros_spread : ∀ z ∈ digitZeros,
    z = 0x30 ∨ (0x660 ≤ z ∧ z ≤ 0x1090) ∨ (0x17E0 ≤ z ∧ z ≤ 0x1C50) ∨ 0xA620 ≤ z := by
  decide

theorem isDecimal_iff {c : Char} : isDecimal c = true ↔ ∃ z ∈ digitZeros, z ≤ c.toNat ∧ c.toNat < z + 10 := by
  unfold isDecimal decimalValue
  rw [Option.isSome_map, List.find?_isSome]
  simp only [decide_eq_true_eq]

theorem isSpace_toNat {c : Char} (h : isSpace c = true) :
    c.toNat ≤ 32 ∨ c.toNat = 0x85 ∨ c.toNat = 0xA0 ∨ c.toNat = 0x1680 ∨ (0x2000 ≤ c.toNat ∧ c.toNat ≤ 0x3000) := by
  simp only [isSpace, List.mem_cons, List.not_mem_nil, or_false, Bool.or_eq_true, decide_eq_true_eq] at h
  omega

theorem isDecimal_of_isSpace {c : Char} (h : isSpace c = true) : isDecimal c = false := by
  rw [Bool.eq_false_iff]
  intro hd
  obtain ⟨z, hz, hle, hlt⟩ := isDecimal_iff.1 hd
  have hspace := isSpace_toNat h
  have hspread := digitZeros_spread z hz
  omega

theorem isNumeric_of_isSpace {c : Char} (h : isSpace c = true) : isNumeric c = false := by
  unfold isNumeric
  rw [isDecimal_of_isSpace h, Bool.false_or, decide_eq_false_iff_not]
  rintro (rfl | rfl | rfl) <;> exact absurd h (by decide)

theorem mem_dropWhile {p : Char → Bool} {c : Char} {s : List Char} (hc : c ∈ s) (hp : p c = false) :
    c ∈ s.dropWhile p := by
  rw [← List.takeWhile_append_dropWhile (p := p) (l := s)] at hc
  rcases List.mem_append.1 hc with hc | hc
  · rw [List.mem_takeWhile_imp hc] at hp
    cases hp
  · exact hc

/-! ## `splitlines` -/

/-- The text of these lines. -/
def linesText (ls : List String) : String := String.ofList (Pattern.ofLines (ls.map String.toList))

theorem toList_linesText (ls : List String) : (linesText ls).toList = Pattern.ofLines (ls.map String.toList) :=
  String.toList_ofList

theorem fromUTF8_toUTF8 (s : String) : String.fromUTF8? s.toUTF8 = some s := by
  unfold String.fromUTF8?
  rw [dif_pos (show s.toUTF8.IsValidUTF8 from s.isValidUTF8)]
  rfl

theorem splitlinesFrom_plain {c : Char} (h : isLineBreak c = false) (acc s : List Char) :
    splitlinesFrom acc (c :: s) = splitlinesFrom (c :: acc) s := by
  have hreturn : c ≠ '\r' := by
    rintro rfl
    exact absurd h (by decide)
  rw [splitlinesFrom.eq_3 _ _ _ (fun _ hc _ => hreturn hc), if_neg (Bool.eq_false_iff.1 h)]

theorem splitlinesFrom_break {c : Char} (h : isLineBreak c = true) (acc s : List Char) :
    ∃ ls, splitlinesFrom acc (c :: s) = acc.reverse :: ls := by
  unfold splitlinesFrom
  split
  · rename_i heq
    cases heq
  · exact ⟨_, rfl⟩
  · rename_i heq
    cases heq
    exact ⟨_, if_pos h⟩

theorem splitlinesFrom_newline (acc s : List Char) : splitlinesFrom acc ('\n' :: s) = acc.reverse :: splitlines s := by
  rw [splitlinesFrom.eq_3 _ _ _ (fun _ hc _ => absurd hc (by decide)), if_pos (by decide)]
  rfl

theorem splitlinesFrom_append {w : List Char} (hw : ∀ c ∈ w, isLineBreak c = false) (acc rest : List Char) :
    splitlinesFrom acc (w ++ rest) = splitlinesFrom (w.reverse ++ acc) rest := by
  induction w generalizing acc with
  | nil => rfl
  | cons c w ih =>
    rw [List.cons_append, splitlinesFrom_plain (hw c List.mem_cons_self), ih (fun x hx => hw x (List.mem_cons_of_mem c hx)),
      List.reverse_cons, List.append_assoc]
    rfl

theorem splitlines_line {line : List Char} (h : ∀ c ∈ line, isLineBreak c = false) (rest : List Char) :
    splitlines (line ++ '\n' :: rest) = line :: splitlines rest := by
  have hfrom := splitlinesFrom_append h [] ('\n' :: rest)
  unfold splitlines
  rw [hfrom, splitlinesFrom_newline, List.append_nil, List.reverse_reverse]
  rfl

/-- The first line ends at the first line end. -/
theorem firstLine_append {pre : List Char} (h : '\n' ∈ pre) (acc post : List Char) :
    (splitlinesFrom acc (pre ++ post)).headD [] = (splitlinesFrom acc pre).headD [] := by
  induction pre generalizing acc with
  | nil => cases h
  | cons c pre ih =>
    by_cases hc : isLineBreak c = true
    · obtain ⟨ls, hls⟩ := splitlinesFrom_break hc acc (pre ++ post)
      obtain ⟨ls', hls'⟩ := splitlinesFrom_break hc acc pre
      rw [List.cons_append, hls, hls']
      rfl
    · rw [Bool.not_eq_true] at hc
      rw [List.cons_append, splitlinesFrom_plain hc, splitlinesFrom_plain hc]
      apply ih
      rcases List.mem_cons.1 h with rfl | h
      · exact absurd hc (by decide)
      · exact h

/-- The first line begins as the text does. -/
theorem prefix_firstLine {acc : List Char} (h : acc ≠ []) (rest : List Char) :
    acc.reverse <+: (splitlinesFrom acc rest).headD [] := by
  induction rest generalizing acc with
  | nil =>
    unfold splitlinesFrom
    rw [if_neg h]
    exact List.prefix_rfl
  | cons c rest ih =>
    by_cases hc : isLineBreak c = true
    · obtain ⟨ls, hls⟩ := splitlinesFrom_break hc acc rest
      rw [hls]
      exact List.prefix_rfl
    · rw [Bool.not_eq_true] at hc
      rw [splitlinesFrom_plain hc]
      refine List.IsPrefix.trans ?_ (ih (List.cons_ne_nil c acc))
      rw [List.reverse_cons]
      exact List.prefix_append _ _

/-! ## Numbers -/

theorem numberPattern_plain : numberPattern.plain = true := rfl

theorem run_number {c d : Cursor} {s s' : Captures} :
    Run numberPattern c s d s' ↔ s' = s ∧ ∃ w, Matches numberPattern w ∧ Eats c w d :=
  Pattern.run_plain numberPattern_plain

theorem number_numeric {w : List Char} (h : Matches numberPattern w) : ∀ c ∈ w, isNumeric c = true := by
  obtain ⟨sign, whole, fraction, rfl, hsign, ⟨-, hwhole⟩, hfraction⟩ := matches_number h
  intro c hc
  have hdecimal : isDecimal c = true → isNumeric c = true := fun hd => by simp [isNumeric, hd]
  rcases List.mem_append.1 hc with hc | hc
  · rcases hsign with rfl | rfl | rfl
    · cases hc
    · rw [List.mem_singleton.1 hc]
      rfl
    · rw [List.mem_singleton.1 hc]
      rfl
  · rcases List.mem_append.1 hc with hc | hc
    · exact hdecimal (hwhole c hc)
    · rcases hfraction with rfl | ⟨t, rfl, -, ht⟩
      · cases hc
      · rcases List.mem_cons.1 hc with rfl | hc
        · rfl
        · exact hdecimal (ht c hc)

theorem number_ne_nil {w : List Char} (h : Matches numberPattern w) : w ≠ [] := by
  obtain ⟨sign, whole, fraction, rfl, -, ⟨hne, -⟩, -⟩ := matches_number h
  simp [hne]

/-- A number ends where the text stops being numeric. -/
theorem takeWhile_numeric {w rest : List Char} (h : Matches numberPattern w)
    (hrest : ∀ c ∈ rest.head?, isNumeric c = false) :
    (w ++ rest).takeWhile isNumeric = w ∧ (w ++ rest).dropWhile isNumeric = rest := by
  have hw := number_numeric h
  rw [List.takeWhile_append_of_pos hw, List.dropWhile_append_of_pos hw]
  cases rest with
  | nil => simp
  | cons c rest => simp [hrest c rfl]

/-! ## Slack and unit -/

/-- A number and its unit, perhaps with white space between. -/
structure SlackText (v w : List Char) (unit : String) : Prop where
  number : Matches numberPattern w
  known  : unit = "ns" ∨ unit = "ps"
  text   : ∃ blank, (∀ c ∈ blank, isSpace c = true) ∧ v = w ++ (blank ++ unit.toList)

/-- The unit begins with no white space. -/
theorem SlackText.split {v w : List Char} {unit : String} (h : SlackText v w unit) :
    w = v.takeWhile isNumeric ∧ unit.toList = (v.dropWhile isNumeric).dropWhile isSpace := by
  obtain ⟨blank, hblank, rfl⟩ := h.text
  have hhead : ∀ c ∈ (blank ++ unit.toList).head?, isNumeric c = false := by
    intro c hc
    cases blank with
    | nil =>
      rcases h.known with rfl | rfl
      · cases hc
        decide
      · cases hc
        decide
    | cons x blank =>
      cases hc
      exact isNumeric_of_isSpace (hblank c List.mem_cons_self)
  obtain ⟨htake, hdrop⟩ := takeWhile_numeric h.number hhead
  refine ⟨htake.symm, ?_⟩
  rw [hdrop, List.dropWhile_append_of_pos hblank]
  rcases h.known with rfl | rfl <;> rfl

theorem SlackText.unique {v w w' : List Char} {unit unit' : String} (h : SlackText v w unit) (h' : SlackText v w' unit') :
    w' = w ∧ unit' = unit := by
  obtain ⟨hw, hu⟩ := h.split
  obtain ⟨hw', hu'⟩ := h'.split
  exact ⟨hw'.trans hw.symm, String.toList_injective (hu'.trans hu.symm)⟩

/-- What `fullmatch` captures of a slack field. -/
theorem slack_fullmatch_some {v : List Char} {m : Captures} (h : slackPattern.fullmatch v = some m) :
    ∃ w unit, SlackText v w unit ∧ m.lookup 1 = some w ∧ m.lookup 2 = some unit.toList := by
  obtain ⟨d, hrun, hend⟩ := Pattern.fullmatch_run h
  obtain ⟨c₁, t, hfirst, hrun⟩ := Pattern.run_seq.1 hrun
  obtain ⟨t', hnumber, rfl⟩ := Pattern.run_group.1 hfirst
  obtain ⟨rfl, w, hw, heats⟩ := run_number.1 hnumber
  obtain ⟨c₂, t, hblank, hrun⟩ := Pattern.run_seq.1 hrun
  obtain ⟨rfl, blank, hblanks, hskip⟩ := Pattern.run_many_one.1 hblank
  obtain ⟨c₃, t, hsecond, hrun⟩ := Pattern.run_seq.1 hrun
  obtain ⟨rfl, rfl⟩ := Pattern.run_empty.1 hrun
  obtain ⟨t', hunit, rfl⟩ := Pattern.run_group.1 hsecond
  have hname : ∃ unit : String, (unit = "ns" ∨ unit = "ps") ∧ t' = [(1, (Cursor.start v).upTo c₁)] ∧
      Eats c₂ unit.toList d := by
    rcases Pattern.run_alt.1 hunit with hns | hps
    · obtain ⟨rfl, hu⟩ := Pattern.run_text.1 hns
      exact ⟨"ns", Or.inl rfl, rfl, hu⟩
    · obtain ⟨rfl, hu⟩ := Pattern.run_text.1 hps
      exact ⟨"ps", Or.inr rfl, rfl, hu⟩
  obtain ⟨unit, hknown, rfl, hu⟩ := hname
  refine ⟨w, unit, ⟨hw, hknown, blank, hblanks, ?_⟩, ?_, ?_⟩
  · have hall := ((heats.append hskip).append hu).rest
    rw [hend, List.append_nil, List.append_assoc] at hall
    exact hall
  · rw [heats.upTo]
    rfl
  · rw [hu.upTo]
    rfl

theorem SlackText.fullmatch {v w : List Char} {unit : String} (h : SlackText v w unit) :
    ∃ m, slackPattern.fullmatch v = some m ∧ m.lookup 1 = some w ∧ m.lookup 2 = some unit.toList := by
  obtain ⟨blank, hblank, hv⟩ := h.text
  obtain ⟨c₁, hw, hrest⟩ := Pattern.eats_append_iff.1
    (show Eats (Cursor.start v) (w ++ (blank ++ unit.toList)) ⟨(w ++ (blank ++ unit.toList)).getLast?.or none, []⟩ from
      ⟨hv.trans (List.append_nil _).symm, rfl⟩)
  obtain ⟨c₂, hb, hu⟩ := Pattern.eats_append_iff.1 hrest
  have hunit : Run (.alt (.text "ns") (.text "ps")) c₂ [(1, (Cursor.start v).upTo c₁)]
      ⟨(w ++ (blank ++ unit.toList)).getLast?.or none, []⟩ [(1, (Cursor.start v).upTo c₁)] := by
    rcases h.known with rfl | rfl
    · exact .left (Pattern.run_text.2 ⟨rfl, hu⟩)
    · exact .right (Pattern.run_text.2 ⟨rfl, hu⟩)
  have hrun : Run slackPattern (Cursor.start v) [] ⟨(w ++ (blank ++ unit.toList)).getLast?.or none, []⟩ _ :=
    .seq (.group (run_number.2 ⟨rfl, w, h.number, hw⟩)) (.seq (Pattern.run_many_one.2 ⟨rfl, blank, hblank, hb⟩)
      (.seq (.group hunit) .empty))
  obtain ⟨m, hm⟩ := Option.isSome_iff_exists.1 (Pattern.fullmatch_isSome hrun rfl)
  obtain ⟨w', unit', h', hfirst, hsecond⟩ := slack_fullmatch_some hm
  obtain ⟨rfl, rfl⟩ := h.unique h'
  exact ⟨m, hm, hfirst, hsecond⟩

end EdaLab
