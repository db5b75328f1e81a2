import EdaLab.ReportRows
import EdaLab.Verdict
/-!
# ProfileReport — a report of the supported profile

A report of OpenSTA with the numbers of its single path left open: its other lines are those the tool printed for the
recorded run.  The parser reads every such report without an error, and its values are the numbers printed
(`parseOpenSta_profile`).
-/
namespace EdaLab

open Pattern (Captures Cursor AtBol Quiet ofLines)

/-- A number as it is printed, after some white space. -/
structure Figure where
  indent : Nat
  number : Numeral
  wf     : number.Wf
  plain  : number.exponent = none

def Figure.row (f : Figure) (remark : String) : Row := ⟨f.indent, f.number, remark⟩

/-- The numbers of the path, and whether its label says that the constraint is met. -/
structure Profile where
  arrival         : Figure
  required        : Figure
  summaryRequired : Figure
  summaryArrival  : Figure
  slack           : Figure
  worst           : Figure
  met             : Bool

def noticeLines : List String :=
  ["License GPLv3: GNU GPL version 3 <http://gnu.org/licenses/gpl.html>", "",
   "This is free software, and you are free to change and redistribute it",
   "under certain conditions; type `show_copying' for details. ",
   "This program comes with ABSOLUTELY NO WARRANTY; for details type `show_warranty'."]

def pathLines : List String :=
  [" capacitance 1pF", " resistance 1kohm", " voltage 1v", " current 1mA", " power 1nW", " distance 1um",
   "Startpoint: _3_ (rising edge-triggered flip-flop clocked by clk)",
   "Endpoint: _2_ (rising edge-triggered flip-flop clocked by clk)", "Path Group: clk", "Path Type: max", "",
   "      Delay        Time   Description",
   "-----------------------------------------------------------------",
   "   0.000000    0.000000   clock clk (rise edge)", "   0.000000    0.000000   clock network delay (ideal)",
   "   0.000000    0.000000 ^ _3_/CLK (sky130_fd_sc_hd__dfxtp_1)",
     "   0.281003    0.281003 v _3_/Q (sky130_fd_sc_hd__dfxtp_1)",
   "   0.142373    0.423375 v _1_/X (sky130_fd_sc_hd__xor2_1)", "   0.000000    0.423375 v _2_/D (sky130_fd_sc_hd__dfxtp_1)"]

def clockLines : List String :=
  ["", "  10.000000   10.000000   clock clk (rise edge)", "   0.000000   10.000000   clock network delay (ideal)",
   "   0.000000   10.000000   clock reconvergence pessimism", "              10.000000 ^ _2_/CLK (sky130_fd_sc_hd__dfxtp_1)",
   "  -0.116675    9.883325   library setup time"]

namespace Profile

def label (t : Profile) : String := if t.met then "MET" else "VIOLATED"

def bannerLine : List Char :=
  "OpenSTA 3.1.0 396536743f Copyright".toList ++ " (c) 2026, Parallax Software, Inc.".toList

def dashLine : List Char := List.replicate 65 '-'

def worstLine (t : Profile) : List Char :=
  "worst slack max".toList ++ (List.replicate (t.worst.indent + 1) ' ' ++ t.worst.number.text)

/-- From the start of the path summary on. -/
def summaryLines (t : Profile) : List (List Char) :=
  [dashLine, (t.summaryRequired.row "data required time").text, (t.summaryArrival.row "data arrival time").text, dashLine,
   (t.slack.row ("slack (" ++ t.label ++ ")")).text]

def lastLines (t : Profile) : List (List Char) := [[], [], t.worstLine, OPENSTA_COMPLETION_MARKER.toList]

def lines (t : Profile) : List (List Char) :=
  bannerLine :: (noticeLines.map String.toList ++ " time 1ns".toList :: (pathLines.map String.toList ++
    (t.arrival.row "data arrival time").text :: (clockLines.map String.toList ++
      (t.required.row "data required time").text :: (t.summaryLines ++ t.lastLines))))

def text (t : Profile) : String := String.ofList (ofLines t.lines)

/-! ## Lines that begin no match -/

theorem legible (f : Figure) {remark : String} (h : ∃ x l, remark.toList = x :: l ∧ isSpace x = false) :
    (f.row remark).Legible := ⟨f.wf, f.plain, h⟩

theorem arrival_legible (f : Figure) : (f.row "data arrival time").Legible := legible f ⟨'d', _, rfl, by decide⟩

theorem required_legible (f : Figure) : (f.row "data required time").Legible := legible f ⟨'d', _, rfl, by decide⟩

theorem slack_toList (t : Profile) : ("slack (" ++ t.label ++ ")").toList = "slack (".toList ++
    (t.label.toList ++ ")".toList) := by
  rw [String.toList_append, String.toList_append, List.append_assoc]

theorem slack_legible (t : Profile) : (t.slack.row ("slack (" ++ t.label ++ ")")).Legible :=
  legible t.slack ⟨'s', "lack (".toList ++ (t.label.toList ++ ")".toList), t.slack_toList, by decide⟩

theorem label_known (t : Profile) : t.label = "MET" ∨ t.label = "VIOLATED" := by
  unfold label
  cases t.met
  · exact Or.inr rfl
  · exact Or.inl rfl

/-- The patterns that are not those of a label. -/
def rowPatterns : List Pattern := [bannerPattern, unitPattern, summaryPattern, arrivalPattern, errorPattern]

/-- What is checked of the known lines. -/
def Checked (notice path clock : List (List Char)) : Prop :=
  (∀ a ∈ rowPatterns, a.silent notice [] = true ∧ a.silent path [] = true ∧ a.silent clock [] = true) ∧
  (∀ l ∈ notice ++ (path ++ clock), '\n' ∉ l ∧ ∀ v ∈ l.tails, OPENSTA_COMPLETION_MARKER.toList.isPrefixOf v = false) ∧
  (∀ f ∈ [startpointLabel, endpointLabel, pathGroupLabel, pathTypeLabel, worstLabel],
    ∀ l ∈ notice ++ clock, f.text.toList.isPrefixOf l = false) ∧
  ∀ x ∈ [(startpointLabel, ["_3_"]), (endpointLabel, ["_2_"]), (pathGroupLabel, ["clk"]), (pathTypeLabel, ["max"]),
    (worstLabel, [])], (path.filter (fun l => x.1.text.toList.isPrefixOf l)).map
      (fun l => x.1.value (l.drop x.1.text.length)) =
      x.2.map (fun v => some v.toList)

/-- The lines as the characters they are made of. -/
theorem checked_chars : ∃ notice path clock : List (List Char), noticeLines = notice.map String.ofList ∧
    pathLines = path.map String.ofList ∧ clockLines = clock.map String.ofList ∧ Checked notice path clock := by
  refine ⟨[_, _, _, _, _], [_, _, _, _, _, _, _, _, _, _, _, _, _, _, _, _, _, _, _], [_, _, _, _, _, _], rfl, rfl, rfl, ?_⟩
  unfold Checked rowPatterns
  decide +kernel

theorem map_toList_ofList (l : List (List Char)) : (l.map String.ofList).map String.toList = l := by
  simp

theorem known_checked : Checked (noticeLines.map String.toList) (pathLines.map String.toList)
    (clockLines.map String.toList) := by
  obtain ⟨notice, path, clock, hnotice, hpath, hclock, h⟩ := checked_chars
  rw [hnotice, hpath, hclock, map_toList_ofList, map_toList_ofList, map_toList_ofList]
  exact h

theorem last_silent : ∀ a ∈ rowPatterns, a.silent [[], []] "worst slack max".toList = true ∧
    a.never "worst slack max".toList = true ∧ a.silent [OPENSTA_COMPLETION_MARKER.toList] [] = true := by
  unfold rowPatterns
  decide

section Quiet

variable {a : Pattern} {post : List (List Char)} {rest : List Char} (t : Profile)

theorem quiet_known {known : List String} {a : Pattern} (h : a.silent (known.map String.toList) [] = true)
    (hpost : Quiet a post rest) : Quiet a (known.map String.toList ++ post) rest :=
  Pattern.quiet_append (Pattern.quiet_of_silent h (List.nil_prefix)) hpost

/-- A row with no match begins none. -/
theorem quiet_row {r : Row} (h : ∀ b rest, a.matchAt ⟨b, r.text ++ rest⟩ = none) (hpost : Quiet a post rest) :
    Quiet a (r.text :: post) rest := Pattern.quiet_cons (fun _ => h _ _) hpost

/-- A line of which enough is known. -/
theorem quiet_line {l v : List Char} (h : a.never v = true) (hv : v <+: l) (hpost : Quiet a post rest) :
    Quiet a (l :: post) rest :=
  Pattern.quiet_cons (fun _ => Pattern.matchAt_of_never h (hv.trans (List.prefix_append _ _))) hpost

theorem quiet_last (ha : a ∈ rowPatterns) : Quiet a t.lastLines [] := by
  obtain ⟨hblank, hworst, hmarker⟩ := last_silent a ha
  have hline : "worst slack max".toList <+: t.worstLine := List.prefix_append _ _
  have htext : "worst slack max".toList <+: ofLines [t.worstLine, OPENSTA_COMPLETION_MARKER.toList] ++ [] := by
    rw [Pattern.ofLines_cons, List.append_assoc]
    exact hline.trans (List.prefix_append _ _)
  exact Pattern.quiet_append (Pattern.quiet_of_silent hblank htext)
    (quiet_line hworst hline (Pattern.quiet_of_silent hmarker List.nil_prefix))

/-- The pattern passes over rows. -/
def PassesRows (a : Pattern) : Prop := ∀ r : Row, r.Legible → ∀ b rest, a.matchAt ⟨b, r.text ++ rest⟩ = none

theorem passesRows_of_shuns (h : shunsRows a = true) : PassesRows a := fun _ hr _ _ => matchAt_row h hr

theorem quiet_summary (hrow : PassesRows a) (hdash : a.never dashLine = true) (hpost : Quiet a post rest) :
    Quiet a (t.summaryLines ++ post) rest :=
  quiet_line hdash List.prefix_rfl (quiet_row (hrow _ (required_legible _)) (quiet_row (hrow _ (arrival_legible _))
    (quiet_line hdash List.prefix_rfl (quiet_row (hrow _ t.slack_legible) hpost))))

/-- The lines after the unit. -/
def afterUnit (t : Profile) : List (List Char) :=
  pathLines.map String.toList ++ (t.arrival.row "data arrival time").text :: (clockLines.map String.toList ++
    (t.required.row "data required time").text :: (t.summaryLines ++ t.lastLines))

theorem quiet_afterUnit (ha : a ∈ rowPatterns) (hrow : PassesRows a) (hdash : a.never dashLine = true) :
    Quiet a t.afterUnit [] :=
  quiet_known (known_checked.1 a ha).2.1 (quiet_row (hrow _ (arrival_legible _)) (quiet_known (known_checked.1 a ha).2.2
    (quiet_row (hrow _ (required_legible _)) (quiet_summary t hrow hdash (quiet_last t ha)))))

end Quiet

/-! ## No line holds a line end -/

section Characters

variable {x : Char} (hx : isNumeric x = false ∧ x ≠ ' ')

include hx

theorem not_mem_row (f : Figure) {remark : String} (h : x ∉ remark.toList) : x ∉ (f.row remark).text := by
  intro hmem
  rcases List.mem_append.1 hmem with hmem | hmem
  · exact hx.2 (List.eq_of_mem_replicate hmem)
  · rcases List.mem_append.1 hmem with hmem | hmem
    · have hnumeric := number_numeric (Numeral.matches_number f.wf f.plain) x hmem
      rw [hx.1] at hnumeric
      cases hnumeric
    · rcases List.mem_append.1 hmem with hmem | hmem
      · simp only [String.reduceToList, List.mem_cons, List.not_mem_nil, or_false, or_self] at hmem
        exact hx.2 hmem
      · exact h hmem

theorem not_mem_worst (t : Profile) (h : x ∉ "worst slack max".toList) : x ∉ t.worstLine := by
  have hnothing : x ∉ "".toList := List.not_mem_nil
  have hrow := not_mem_row hx ⟨t.worst.indent + 1, t.worst.number, t.worst.wf, t.worst.plain⟩ hnothing
  unfold Figure.row Row.text at hrow
  unfold worstLine
  simp only [List.mem_append, not_or] at hrow ⊢
  exact ⟨h, hrow.1, hrow.2.1⟩

end Characters

theorem lines_plain (t : Profile) : ∀ l ∈ t.lines, '\n' ∉ l := by
  have hknown := known_checked.2.1
  simp only [List.mem_append] at hknown
  have hslack : '\n' ∉ ("slack (" ++ t.label ++ ")").toList := by
    rw [slack_toList]
    rcases t.label_known with h | h <;> rw [h] <;> decide
  have hnewline : isNumeric '\n' = false ∧ '\n' ≠ ' ' := by decide
  intro l hl
  simp only [lines, summaryLines, lastLines, List.mem_cons, List.mem_append, List.not_mem_nil, or_false] at hl
  rcases hl with rfl | hl | rfl | hl | rfl | hl | rfl | (rfl | rfl | rfl | rfl | rfl) | rfl | rfl | rfl | rfl
  · decide
  · exact (hknown l (Or.inl hl)).1
  · decide
  · exact (hknown l (Or.inr (Or.inl hl))).1
  · exact not_mem_row hnewline _ (by decide)
  · exact (hknown l (Or.inr (Or.inr hl))).1
  · exact not_mem_row hnewline _ (by decide)
  · decide
  · exact not_mem_row hnewline _ (by decide)
  · exact not_mem_row hnewline _ (by decide)
  · decide
  · exact not_mem_row hnewline _ hslack
  · decide
  · decide
  · exact not_mem_worst hnewline t (by decide)
  · decide

/-! ## The matches -/

section Matches

variable (t : Profile)

theorem lines_eq : t.lines = (bannerLine :: noticeLines.map String.toList) ++ " time 1ns".toList :: t.afterUnit := by
  unfold lines afterUnit
  rw [List.cons_append]

theorem passesRows_unit : PassesRows unitPattern := fun _ hr _ _ => matchAt_unit_row hr

theorem matchAt_end : ∀ a ∈ rowPatterns, a.matchAt ⟨some '\n', []⟩ = none := by
  unfold rowPatterns
  decide

theorem quiet_unit {a : Pattern} {post : List (List Char)} {rest : List Char} (ha : a ∈ rowPatterns)
    (hbanner : a.never bannerLine = true) (hunit : a.never " time 1ns".toList = true) (hpost : Quiet a post rest) :
    Quiet a ((bannerLine :: noticeLines.map String.toList) ++ " time 1ns".toList :: post) rest :=
  quiet_line hbanner List.prefix_rfl (quiet_known (known_checked.1 _ ha).1 (quiet_line hunit List.prefix_rfl hpost))

theorem finditer_banner : bannerPattern.finditer (ofLines t.lines) = [[(2, "396536743f".toList), (1, "3.1.0".toList)]] := by
  have ha : bannerPattern ∈ rowPatterns := by simp [rowPatterns]
  have hrest := quiet_known (known_checked.1 _ ha).1 (quiet_line (l := " time 1ns".toList) (by decide) List.prefix_rfl
    (quiet_afterUnit t ha (passesRows_of_shuns (by decide)) (by decide)))
  have hplain := t.lines_plain
  rw [lines_eq, List.cons_append] at hplain ⊢
  generalize noticeLines.map String.toList ++ " time 1ns".toList :: t.afterUnit = post at hrest hplain ⊢
  have hbanner : ∀ b, AtBol b → ∃ d, bannerPattern.matchAt ⟨b, bannerLine ++ '\n' :: ofLines post⟩ =
      some (d, [(2, "396536743f".toList), (1, "3.1.0".toList)]) := by
    intro b hb
    have hsplit : bannerLine ++ '\n' :: ofLines post = "OpenSTA 3.1.0 396536743f Copyright".toList ++
        (" (c) 2026, Parallax Software, Inc.".toList ++ '\n' :: ofLines post) := List.append_assoc _ _ _
    simp only [hsplit]
    exact matchAt_banner hb
  rw [← List.nil_append (bannerLine :: post)] at hplain ⊢
  exact Pattern.finditer_line (Pattern.anchored_seq _) (matchAt_end _ ha) hplain Pattern.quiet_nil hbanner hrest

theorem finditer_unit : unitPattern.finditer (ofLines t.lines) = [[(1, "1ns".toList)]] := by
  have ha : unitPattern ∈ rowPatterns := by simp [rowPatterns]
  have hplain := t.lines_plain
  rw [lines_eq] at hplain ⊢
  refine Pattern.finditer_line (Pattern.anchored_seq _) (matchAt_end _ ha) hplain ?_ (fun b hb => matchAt_unit hb)
    (quiet_afterUnit t ha passesRows_unit (by decide))
  exact quiet_line (v := bannerLine) (by decide) List.prefix_rfl
    (Pattern.quiet_of_silent (known_checked.1 _ ha).1 List.nil_prefix)

theorem finditer_error : errorPattern.finditer (ofLines t.lines) = [] := by
  have ha : errorPattern ∈ rowPatterns := by simp [rowPatterns]
  refine Pattern.finditer_quiet (Pattern.anchored_seq _) (matchAt_end _ ha) ?_ t.lines_plain ?_
  · rw [lines_eq]
    simp
  · rw [lines_eq]
    exact quiet_unit ha (by decide) (by decide)
      (quiet_afterUnit t ha (passesRows_of_shuns (by decide)) (by decide))

theorem finditer_summary : summaryPattern.finditer (ofLines t.lines) = [[(4, t.label.toList), (3, t.slack.number.text),
    (2, t.summaryArrival.number.text), (1, t.summaryRequired.number.text)]] := by
  have ha : summaryPattern ∈ rowPatterns := by simp [rowPatterns]
  have hrow := passesRows_of_shuns (a := summaryPattern) (by decide)
  have hplain := t.lines_plain
  have hsplit : t.lines = ((bannerLine :: noticeLines.map String.toList) ++ " time 1ns".toList ::
    (pathLines.map String.toList ++
      (t.arrival.row "data arrival time").text :: (clockLines.map String.toList ++
        [(t.required.row "data required time").text]))) ++ dashLine :: ((t.summaryRequired.row "data required time").text ::
          (t.summaryArrival.row "data arrival time").text :: dashLine ::
            (t.slack.row ("slack (" ++ t.label ++ ")")).text :: t.lastLines) := by
    simp only [lines, summaryLines, List.cons_append, List.append_assoc, List.nil_append]
  rw [hsplit] at hplain ⊢
  refine Pattern.finditer_line (Pattern.anchored_seq _) (matchAt_end _ ha) hplain ?_ (fun b hb => ?_) ?_
  · exact quiet_unit ha (by decide) (by decide) (quiet_known (known_checked.1 _ ha).2.1 (quiet_row
      (hrow _ (arrival_legible _)) (quiet_known (known_checked.1 _ ha).2.2 (quiet_row (hrow _ (required_legible _))
        Pattern.quiet_nil))))
  · simp only [Pattern.ofLines_cons]
    exact matchAt_summary (required_legible _) (arrival_legible _) t.slack_legible hb rfl rfl rfl t.label_known
  · refine quiet_row (hrow _ (required_legible _)) (quiet_row (hrow _ (arrival_legible _)) (Pattern.quiet_cons (fun b => ?_)
      (quiet_row (hrow _ t.slack_legible) (quiet_last t ha))))
    rw [Pattern.ofLines_cons, List.append_assoc, dashLine]
    exact matchAt_summary_other t.slack_legible (by rw [Figure.row, slack_toList]; rfl)

theorem finditer_arrival : arrivalPattern.finditer (ofLines t.lines) =
    [[(1, t.arrival.number.text)], [(1, t.summaryArrival.number.text)]] := by
  have ha : arrivalPattern ∈ rowPatterns := by simp [rowPatterns]
  have hdash : arrivalPattern.never dashLine = true := by decide
  have hclash : clash "data required time".toList "data arrival time".toList = true := by decide
  have hother : ∀ f : Figure, ∀ b rest, arrivalPattern.matchAt ⟨b, (f.row "data required time").text ++ rest⟩ = none :=
    fun f b rest => matchAt_arrival_other (required_legible f) hclash
  have hplain := t.lines_plain
  have hsplit : t.lines = ((bannerLine :: noticeLines.map String.toList) ++
    " time 1ns".toList :: pathLines.map String.toList) ++
      (t.arrival.row "data arrival time").text :: ((clockLines.map String.toList ++
        [(t.required.row "data required time").text, dashLine, (t.summaryRequired.row "data required time").text]) ++
          (t.summaryArrival.row "data arrival time").text :: dashLine ::
            (t.slack.row ("slack (" ++ t.label ++ ")")).text :: t.lastLines) := by
    simp only [lines, summaryLines, List.cons_append, List.append_assoc, List.nil_append]
  rw [hsplit] at hplain ⊢
  refine Pattern.finditer_two_lines (Pattern.anchored_seq _) (matchAt_end _ ha) hplain ?_ (fun b hb => ?_) ?_
    (fun b hb => ?_) ?_
  · exact quiet_unit ha (by decide) (by decide)
      (Pattern.quiet_of_silent (known_checked.1 _ ha).2.1 List.nil_prefix)
  · obtain ⟨d, w, hm, hw, hend⟩ := matchAt_arrival (arrival_legible t.arrival) rfl hb
    refine ⟨d, hm, ?_⟩
    rw [Pattern.ofLines_append, ← List.cons_append] at hend
    -- the rest of the match is white space, and dashes come before the next row
    refine blank_stops hend hw ⟨'-', List.mem_cons_of_mem _ ?_, by decide⟩
    rw [Pattern.ofLines_append, Pattern.ofLines_cons, Pattern.ofLines_cons]
    simp [dashLine]
  · exact quiet_known (known_checked.1 _ ha).2.2
      (quiet_row (hother _) (quiet_line hdash List.prefix_rfl (quiet_row (hother _)
      Pattern.quiet_nil)))
  · obtain ⟨d, w, hm, -⟩ := matchAt_arrival (arrival_legible t.summaryArrival) rfl hb
    exact ⟨d, hm⟩
  · exact quiet_line hdash List.prefix_rfl (quiet_row (fun b rest => matchAt_arrival_other t.slack_legible (by
      rw [Figure.row, slack_toList]; rfl)) (quiet_last t ha))

/-! ## The labelled lines -/

def profileLabels : List Label := [startpointLabel, endpointLabel, pathGroupLabel, pathTypeLabel, worstLabel]

/-- No label begins as these lines do. -/
theorem label_mismatch : ∀ f ∈ profileLabels, f.text.toList.isPrefixOf bannerLine = false ∧
    f.text.toList.isPrefixOf " time 1ns".toList = false ∧ f.text.toList.isPrefixOf dashLine = false ∧
    f.text.toList.isPrefixOf [] = false ∧ f.text.toList.isPrefixOf OPENSTA_COMPLETION_MARKER.toList = false := by
  unfold profileLabels
  decide

theorem label_mismatch_row {f : Label} (hf : f ∈ profileLabels) {r : Row} (hr : r.Legible) :
    f.text.toList.isPrefixOf r.text = false := by
  have hletter : ∃ x l, f.text.toList = x :: l ∧ x ≠ ' ' ∧ x ≠ '-' ∧ ∀ k < 10, x ≠ k.digitChar := by
    simp only [profileLabels, List.mem_cons, List.not_mem_nil, or_false] at hf
    rcases hf with rfl | rfl | rfl | rfl | rfl
    · exact ⟨'S', _, rfl, by decide, by decide, by decide⟩
    · exact ⟨'E', _, rfl, by decide, by decide, by decide⟩
    · exact ⟨'P', _, rfl, by decide, by decide, by decide⟩
    · exact ⟨'P', _, rfl, by decide, by decide, by decide⟩
    · exact ⟨'w', _, rfl, by decide, by decide, by decide⟩
  obtain ⟨x, l, hx, hblank, hsign, hdigit⟩ := hletter
  have hcons : ∀ y ys, x ≠ y → (x :: l).isPrefixOf (y :: ys) = false := by
    intro y ys hne
    simp [List.isPrefixOf, hne]
  rw [hx]
  rcases hr.head with ⟨u, hu⟩ | ⟨k, u, hk, hu | hu⟩
  · rw [hu]
    exact hcons _ _ hblank
  · rw [hu]
    exact hcons _ _ (hdigit k hk)
  · rw [hu]
    exact hcons _ _ hsign

theorem filter_nil_of_mismatch {f : Label} {ls : List (List Char)} (h : ∀ l ∈ ls, f.text.toList.isPrefixOf l = false) :
    ls.filter (fun l => f.text.toList.isPrefixOf l) = [] := by
  rw [List.filter_eq_nil_iff]
  intro l hl
  rw [h l hl]
  exact Bool.false_ne_true

/-- The labelled lines are among those of the path and the line of the worst slack. -/
theorem lines_label {f : Label} (hf : f ∈ profileLabels) : f.lines (ofLines t.lines) =
    ((pathLines.map String.toList ++ [t.worstLine]).filter (fun l => f.text.toList.isPrefixOf l)).map
      (·.drop f.text.length) := by
  obtain ⟨hbanner, hunit, hdash, hempty, hmarker⟩ := label_mismatch f hf
  have hknown := known_checked.2.2.1 f hf
  have hnotice := filter_nil_of_mismatch (fun l hl => hknown l (List.mem_append_left _ hl))
  have hclock := filter_nil_of_mismatch (fun l hl => hknown l (List.mem_append_right _ hl))
  unfold Label.lines
  rw [linesOf_ofLines t.lines_plain]
  congr 1
  simp only [lines, summaryLines, lastLines, List.filter_append, List.filter_cons, List.filter_nil, hbanner, hunit,
    hdash, hempty,
    hmarker, hnotice, hclock, label_mismatch_row hf (arrival_legible _), label_mismatch_row hf (required_legible _),
    label_mismatch_row hf t.slack_legible, Bool.false_eq_true, if_false, List.nil_append, List.append_nil]

theorem worst_value : worstLabel.value (t.worstLine.drop worstLabel.text.length) = some t.worst.number.text := by
  have hdrop : t.worstLine.drop worstLabel.text.length = List.replicate (t.worst.indent + 1) ' ' ++ t.worst.number.text := by
    unfold worstLine worstLabel
    rw [← String.length_toList, List.drop_left]
  rw [hdrop]
  refine numberValue_blank (fun x hx => ?_) (by simp) (Numeral.matches_number t.worst.wf t.worst.plain)
  rw [List.eq_of_mem_replicate hx]
  decide

theorem worst_prefix : worstLabel.text.toList.isPrefixOf t.worstLine = true := by
  rw [List.isPrefixOf_iff_prefix]
  exact List.prefix_append _ _

theorem worst_mismatch : ∀ f ∈ [startpointLabel, endpointLabel, pathGroupLabel, pathTypeLabel],
    f.text.toList.isPrefixOf t.worstLine = false := by
  intro f hf
  have hcons : ∀ x l, f.text.toList = x :: l → x ≠ 'w' → f.text.toList.isPrefixOf t.worstLine = false := by
    intro x l hx hne
    have hline : t.worstLine = 'w' :: ("orst slack max".toList ++
      (List.replicate (t.worst.indent + 1) ' ' ++ t.worst.number.text)) := rfl
    rw [hx, hline]
    simp [List.isPrefixOf, hne]
  simp only [List.mem_cons, List.not_mem_nil, or_false] at hf
  rcases hf with rfl | rfl | rfl | rfl
  · exact hcons 'S' _ rfl (by decide)
  · exact hcons 'E' _ rfl (by decide)
  · exact hcons 'P' _ rfl (by decide)
  · exact hcons 'P' _ rfl (by decide)

/-- The line of a label of the path. -/
theorem values_path {f : Label} {v : String} (hf : f ∈ [startpointLabel, endpointLabel, pathGroupLabel, pathTypeLabel])
    (hv : (f, [v]) ∈ [(startpointLabel, ["_3_"]), (endpointLabel, ["_2_"]), (pathGroupLabel, ["clk"]),
      (pathTypeLabel, ["max"]), (worstLabel, [])]) : (f.lines (ofLines t.lines)).map f.value = [some v.toList] := by
  have hmem : f ∈ profileLabels := by
    simp only [profileLabels, List.mem_cons, List.not_mem_nil, or_false] at hf ⊢
    tauto
  rw [t.lines_label hmem, List.filter_append, List.filter_singleton, t.worst_mismatch f hf, List.map_map]
  have hpath := known_checked.2.2.2 _ hv
  simp only [cond_false, List.append_nil]
  exact hpath

theorem values_worst : (worstLabel.lines (ofLines t.lines)).map worstLabel.value = [some t.worst.number.text] := by
  have hpath := known_checked.2.2.2 (worstLabel, []) (by simp)
  have hnone : (pathLines.map String.toList).filter (fun l => worstLabel.text.toList.isPrefixOf l) = [] := by
    simpa using hpath
  rw [t.lines_label (by simp [profileLabels]), List.filter_append, hnone, List.filter_singleton, t.worst_prefix]
  simp only [cond_true, List.nil_append, List.map_cons, List.map_nil, t.worst_value]

theorem marker_once : countOf OPENSTA_COMPLETION_MARKER.toList ((ofLines t.lines).length + 1) (ofLines t.lines) = 1 := by
  have hin : '_' ∈ OPENSTA_COMPLETION_MARKER.toList := by decide
  have hfree : isNumeric '_' = false ∧ '_' ≠ ' ' := by decide
  have hrow : ∀ (f : Figure) {remark : String}, '_' ∉ remark.toList →
      lacks OPENSTA_COMPLETION_MARKER.toList (f.row remark).text :=
    fun f _ hremark => lacks_of_not_mem hin (not_mem_row hfree f hremark)
  have hslack : '_' ∉ ("slack (" ++ t.label ++ ")").toList := by
    rw [slack_toList]
    rcases t.label_known with h | h <;> rw [h] <;> decide
  have hsplit : t.lines = (bannerLine :: (noticeLines.map String.toList ++ " time 1ns".toList ::
    (pathLines.map String.toList ++
      (t.arrival.row "data arrival time").text :: (clockLines.map String.toList ++
        (t.required.row "data required time").text :: (t.summaryLines ++ [[], [], t.worstLine]))))) ++
          [OPENSTA_COMPLETION_MARKER.toList] := by
    simp only [lines, lastLines, List.cons_append, List.append_assoc, List.nil_append]
  have hknown := known_checked.2.1
  simp only [List.mem_append] at hknown
  rw [hsplit, Pattern.ofLines_append, countOf_ofLines (by decide)]
  · decide
  · intro l hl
    simp only [summaryLines, List.mem_cons, List.mem_append, List.not_mem_nil, or_false] at hl
    rcases hl with rfl | hl | rfl | hl | rfl | hl | rfl | (rfl | rfl | rfl | rfl | rfl) | rfl | rfl | rfl
    · exact lacks_of_not_mem hin (by decide)
    · exact (hknown l (Or.inl hl)).2
    · exact lacks_of_not_mem hin (by decide)
    · exact (hknown l (Or.inr (Or.inl hl))).2
    · exact hrow _ (by decide)
    · exact (hknown l (Or.inr (Or.inr hl))).2
    · exact hrow _ (by decide)
    · exact lacks_of_not_mem hin (by decide)
    · exact hrow _ (by decide)
    · exact hrow _ (by decide)
    · exact lacks_of_not_mem hin (by decide)
    · exact hrow _ hslack
    · exact lacks_of_not_mem hin (by decide)
    · exact lacks_of_not_mem hin (by decide)
    · exact lacks_of_not_mem hin (not_mem_worst hfree t (by decide))

end Matches

/-! ## The report is read -/

theorem singleMatch_single {a : Pattern} {text : List Char} {s : Captures} (h : a.finditer text = [s]) (field : String) :
    singleMatch a text field = (some s, []) := by
  unfold singleMatch
  rw [h]

/-- What is found in a profile. -/
structure Found (t : Profile) (m : OpenStaMatches) : Prop where
  banner     : m.banner = (some [(2, "396536743f".toList), (1, "3.1.0".toList)], [])
  unit       : m.unit = (some [(1, "1ns".toList)], [])
  startpoint : ∃ s, m.startpoint = (some s, []) ∧ s.lookup 1 = some "_3_".toList
  endpoint   : ∃ s, m.endpoint = (some s, []) ∧ s.lookup 1 = some "_2_".toList
  pathGroup  : ∃ s, m.pathGroup = (some s, []) ∧ s.lookup 1 = some "clk".toList
  pathType   : ∃ s, m.pathType = (some s, []) ∧ s.lookup 1 = some "max".toList
  summary    : m.summary = (some [(4, t.label.toList), (3, t.slack.number.text), (2, t.summaryArrival.number.text),
    (1, t.summaryRequired.number.text)], [])
  worst      : ∃ s, m.worst = (some s, []) ∧ s.lookup 1 = some t.worst.number.text
  arrivals   : m.arrivalRows = [[(1, t.arrival.number.text)], [(1, t.summaryArrival.number.text)]]

theorem found (t : Profile) : Found t (openStaMatches (ofLines t.lines)) := by
  obtain ⟨s₁, hs₁, hv₁⟩ := reads_startpoint.finditer_single (t.values_path (v := "_3_") (by simp) (by simp))
  obtain ⟨s₂, hs₂, hv₂⟩ := reads_endpoint.finditer_single (t.values_path (v := "_2_") (by simp) (by simp))
  obtain ⟨s₃, hs₃, hv₃⟩ := reads_pathGroup.finditer_single (t.values_path (v := "clk") (by simp) (by simp))
  obtain ⟨s₄, hs₄, hv₄⟩ := reads_pathType.finditer_single (t.values_path (v := "max") (by simp) (by simp))
  obtain ⟨s₅, hs₅, hv₅⟩ := reads_worst.finditer_single t.values_worst
  have hbanner := t.finditer_banner
  have hunit := t.finditer_unit
  have hsummary := t.finditer_summary
  have harrival := t.finditer_arrival
  generalize ofLines t.lines = text at *
  exact ⟨singleMatch_single hbanner _, singleMatch_single hunit _, ⟨s₁, singleMatch_single hs₁ _, hv₁⟩,
    ⟨s₂, singleMatch_single hs₂ _, hv₂⟩, ⟨s₃, singleMatch_single hs₃ _, hv₃⟩, ⟨s₄, singleMatch_single hs₄ _, hv₄⟩,
    singleMatch_single hsummary _, ⟨s₅, singleMatch_single hs₅ _, hv₅⟩, harrival⟩

/-- A profile has no errors. -/
theorem errors_profile (t : Profile) : openStaErrors (ofLines t.lines) (openStaMatches (ofLines t.lines)) = .ok [] := by
  obtain ⟨hbanner, hunit, ⟨s₁, hs₁, -⟩, ⟨s₂, hs₂, -⟩, ⟨s₃, hs₃, -⟩, ⟨s₄, hs₄, -⟩, hsummary, ⟨s₅, hs₅, -⟩, harrivals⟩ :=
    t.found
  have hdiagnostic : (errorPattern.search (ofLines t.lines)).isSome = false := by
    unfold Pattern.search
    rw [t.finditer_error]
    rfl
  unfold openStaErrors
  rw [hbanner, hunit, hs₁, hs₂, hs₃, hs₄, hsummary, hs₅, harrivals, t.marker_once, hdiagnostic]
  rfl

/-- The values of a profile are the numbers printed. -/
structure Read (A : Arithmetic) (t : Profile) (v : OpenStaValues) : Prop where
  required      : v.required = A.float t.summaryRequired.number.value
  signedArrival : v.signedArrival = A.float t.summaryArrival.number.value
  slack         : v.slack = A.float t.slack.number.value
  arrival       : v.arrival = A.float t.arrival.number.value
  worst         : v.worst = A.float t.worst.number.value
  label         : v.label = t.label
  pathType      : v.pathType = "max"

theorem groupFloat_figure (A : Arithmetic) (py : Interpreter) {s : Captures} {n : Nat} {f : Figure}
    (h : s.lookup n = some f.number.text) : A.groupFloat py (some s) n = .ok (A.float f.number.value) := by
  simp only [Arithmetic.groupFloat, group, h]
  exact Numeral.parse_text A py f.wf f.plain

theorem values_profile (A : Arithmetic) (py : Interpreter) (t : Profile) :
    ∃ v, A.openStaValues py (openStaMatches (ofLines t.lines)) = .ok v ∧ Read A t v := by
  obtain ⟨hbanner, hunit, ⟨s₁, hs₁, hv₁⟩, ⟨s₂, hs₂, hv₂⟩, ⟨s₃, hs₃, hv₃⟩, ⟨s₄, hs₄, hv₄⟩, hsummary, ⟨s₅, hs₅, hv₅⟩,
    harrivals⟩ := t.found
  have hgroup : ∀ {s : Captures} {n : Nat} {w : List Char}, s.lookup n = some w → group (some s) n = .ok w := by
    intro s n w h
    simp only [group, h]
  unfold Arithmetic.openStaValues
  rw [hbanner, hs₁, hs₂, hs₃, hs₄, hsummary, hs₅, harrivals, List.head?_cons]
  rw [groupFloat_figure A py (f := t.summaryRequired) rfl, groupFloat_figure A py (f := t.summaryArrival) rfl,
    groupFloat_figure A py (f := t.slack) rfl, groupFloat_figure A py (f := t.arrival) rfl,
    groupFloat_figure A py (f := t.worst) hv₅, hgroup hv₁, hgroup hv₂, hgroup hv₃, hgroup hv₄]
  refine ⟨_, rfl, rfl, rfl, rfl, rfl, rfl, ?_, ?_⟩
  · exact String.ofList_toList
  · exact String.ofList_toList

theorem banner_first : (∀ c ∈ bannerLine, isLineBreak c = false) ∧ strip bannerLine ≠ SYNTHETIC_MARKER.toList ∧
    "OpenSTA ".toList.isPrefixOf (strip bannerLine) = true := by
  unfold bannerLine SYNTHETIC_MARKER
  simp only [String.reduceToList, List.cons_append, List.nil_append]
  decide

theorem toList_text (t : Profile) : t.text.toList = ofLines t.lines := by
  unfold text
  rw [String.toList_ofList]

theorem text_isOpenSta (t : Profile) : ¬IsSynthetic t.text.toList ∧ IsOpenSta t.text.toList := by
  obtain ⟨hline, hopen, hfirst⟩ := banner_first
  unfold IsSynthetic IsOpenSta
  rw [toList_text, lines_eq, List.cons_append, Pattern.ofLines_cons, splitlines_line hline, List.headD_cons]
  exact ⟨hopen, hfirst⟩

theorem parseOpenSta_of_values {A : Arithmetic} {py : Interpreter} {text : List Char} {v : OpenStaValues}
    (herrors : openStaErrors text (openStaMatches text) = .ok []) (hv : A.openStaValues py (openStaMatches text) = .ok v)
    (sha : String) : A.parseOpenSta py text sha = .ok (A.openStaResult v sha) := by
  simp only [Arithmetic.parseOpenSta, herrors, hv, bind, Except.bind, ne_eq, not_true_eq_false, if_false]
  rfl

/-- **A report of the profile is read with the numbers it prints.** -/
theorem parseReport_profile (A : Arithmetic) (py : Interpreter) (t : Profile) : ∃ v, Read A t v ∧
    A.parseReport py t.text.toUTF8 = .ok (A.openStaResult v (py.sha256 t.text.toUTF8)) := by
  obtain ⟨v, hv, hread⟩ := values_profile A py t
  refine ⟨v, hread, ?_⟩
  rw [A.parseReport_openSta py (fromUTF8_toUTF8 t.text) t.text_isOpenSta.1 t.text_isOpenSta.2, toList_text]
  exact parseOpenSta_of_values t.errors_profile hv _

end Profile

end EdaLab
