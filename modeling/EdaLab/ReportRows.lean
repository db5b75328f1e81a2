import EdaLab.NumeralText
import EdaLab.ReportLabels
/-!
# ReportRows — the rows of an OpenSTA report

A row is a number and a remark, apart from each other and indented.  The patterns that read rows read them in one way only
(`run_row`), so a summary of three rows is matched with the numbers of its rows (`matchAt_summary`).
-/
namespace EdaLab

open Pattern (Captures Cursor Eats Matches Run AtBol Anchored Quiet)

structure Row where
  indent : Nat
  number : Numeral
  remark : String

def Row.text (r : Row) : List Char :=
  List.replicate r.indent ' ' ++ (r.number.text ++ ("   ".toList ++ r.remark.toList))

/-- A row that the report's patterns can read. -/
structure Row.Legible (r : Row) : Prop where
  wf     : r.number.Wf
  plain  : r.number.exponent = none
  remark : ∃ x l, r.remark.toList = x :: l ∧ isSpace x = false

/-- A number and the remark `w`, and then `a`. -/
def rowPattern (n : Nat) (w : String) (a : Pattern) : Pattern :=
  .seq (.many space) (.seq (.group n numberPattern) (.seq (.many1 space) (.seq (.text w) a)))

/-- White space up to the end of a line. -/
def tailPattern : Pattern := .seq (.many space) (.seq .eol .empty)

theorem arrivalPattern_eq : arrivalPattern = .seq .bol (rowPattern 1 "data arrival time" tailPattern) := rfl

theorem summaryPattern_eq : summaryPattern =
    .seq .bol (.seq dashes (.seq newline (rowPattern 1 "data required time" (.seq newline (rowPattern 2 "data arrival time"
      (.seq newline (.seq dashes (.seq newline (rowPattern 3 "slack ("
        (.seq (.group 4 (.alt (.text "MET") (.text "VIOLATED")))
        (.seq (.text ")") tailPattern))))))))))) := rfl

/-! ## Runs over a row -/

section Runs

variable {a : Pattern} {b : Option Char} {d : Cursor} {s s' : Captures} {rest : List Char}

theorem run_text_seq {w : String} : Run (.seq (.text w) a) ⟨b, w.toList ++ rest⟩ s d s' ↔
    Run a ⟨w.toList.getLast?.or b, rest⟩ s d s' := by
  have heats : Eats ⟨b, w.toList ++ rest⟩ w.toList ⟨w.toList.getLast?.or b, rest⟩ := ⟨rfl, rfl⟩
  rw [Pattern.run_seq]
  constructor
  · rintro ⟨e, t, htext, h⟩
    obtain ⟨rfl, heats'⟩ := Pattern.run_text.1 htext
    rw [heats.unique heats'] at h
    exact h
  · intro h
    exact ⟨_, s, Pattern.run_text.2 ⟨rfl, heats⟩, h⟩

theorem run_newline_seq : Run (.seq newline a) ⟨b, '\n' :: rest⟩ s d s' ↔ Run a ⟨some '\n', rest⟩ s d s' :=
  run_text_seq (w := "\n")

theorem matches_dashes {w : List Char} : Matches dashes w ↔ ∃ k, w = List.replicate (k + 1) '-' := by
  have hone : ∀ {w : List Char}, Matches (.text "-") w ↔ w = ['-'] := by
    intro w
    constructor
    · intro h
      cases h with
      | seq left right =>
        cases left with
        | one hp =>
          cases right
          rw [of_decide_eq_true hp]
          rfl
    · rintro rfl
      exact .seq (v := ['-']) (.one (by decide)) .empty
  have hmany : ∀ {w : List Char}, Matches (.many (.text "-")) w ↔ ∃ k, w = List.replicate k '-' := by
    intro w
    constructor
    · intro h
      generalize ha : Pattern.many (.text "-") = a at h
      induction h with
      | none => exact ⟨0, rfl⟩
      | more head _ _ ih =>
        cases ha
        obtain ⟨k, rfl⟩ := ih rfl
        exact ⟨k + 1, by rw [hone.1 head, List.replicate_succ]; rfl⟩
      | _ => cases ha
    · rintro ⟨k, rfl⟩
      induction k with
      | zero => exact .none
      | succ k ih => exact .more (v := ['-']) (hone.2 rfl) ih
  constructor
  · intro h
    cases h with
    | seq left right =>
      obtain ⟨k, rfl⟩ := hmany.1 right
      exact ⟨k, by rw [hone.1 left, List.replicate_succ]; rfl⟩
  · rintro ⟨k, rfl⟩
    exact .seq (v := ['-']) (hone.2 rfl) (hmany.2 ⟨k, rfl⟩)

theorem run_dashes_seq {k : Nat} : Run (.seq dashes (.seq newline a))
    ⟨b, List.replicate (k + 1) '-' ++ '\n' :: rest⟩ s d s' ↔
    Run a ⟨some '\n', rest⟩ s d s' := by
  rw [Pattern.run_seq]
  constructor
  · rintro ⟨e, t, hdashes, h⟩
    obtain ⟨rfl, w, hw, heats⟩ := (Pattern.run_plain (show dashes.plain = true from rfl)).1 hdashes
    obtain ⟨j, rfl⟩ := matches_dashes.1 hw
    obtain ⟨e', t', hnewline, -⟩ := Pattern.run_seq.1 h
    obtain ⟨-, hbreak⟩ := Pattern.run_text.1 hnewline
    -- both texts leave the dashes at a newline
    have hsame : List.replicate (k + 1) '-' ++ '\n' :: rest = List.replicate (j + 1) '-' ++ '\n' :: e'.rest := by
      have hall := heats.rest
      rw [hbreak.rest] at hall
      exact hall
    have hcount : ∀ (n : Nat) (t : List Char),
        ((List.replicate n '-' ++ '\n' :: t).takeWhile (fun x => decide (x = '-'))).length = n := by
      intro n t
      rw [List.takeWhile_append_of_pos (fun x hx => decide_eq_true (List.eq_of_mem_replicate hx))]
      simp
    have hkj : k + 1 = j + 1 := by rw [← hcount (k + 1) rest, hsame, hcount]
    rw [← hkj] at heats
    have hplace : Eats ⟨b, List.replicate (k + 1) '-' ++ '\n' :: rest⟩ (List.replicate (k + 1) '-')
        ⟨(List.replicate (k + 1) '-').getLast?.or b, '\n' :: rest⟩ := ⟨rfl, rfl⟩
    rw [hplace.unique heats] at h
    exact run_newline_seq.1 h
  · intro h
    exact ⟨_, s, (Pattern.run_plain rfl).2 ⟨rfl, _, matches_dashes.2 ⟨k, rfl⟩, rfl, rfl⟩, run_newline_seq.2 h⟩

theorem run_tail {c : Cursor} : Run tailPattern c s d s' ↔ s' = s ∧ (∃ w, (∀ x ∈ w, isSpace x = true) ∧ Eats c w d) ∧
    ∀ x ∈ d.rest.head?, x = '\n' := by
  constructor
  · intro h
    obtain ⟨e, t, hspace, h₁⟩ := Pattern.run_seq.1 h
    obtain ⟨rfl, hw⟩ := Pattern.run_many_one.1 hspace
    obtain ⟨e', t', heol, h₂⟩ := Pattern.run_seq.1 h₁
    obtain ⟨rfl, rfl, hend⟩ := Pattern.run_eol.1 heol
    obtain ⟨rfl, rfl⟩ := Pattern.run_empty.1 h₂
    refine ⟨rfl, hw, fun x hx => ?_⟩
    rw [hx] at hend
    exact of_decide_eq_true hend
  · rintro ⟨rfl, hw, hend⟩
    have hall : d.rest.head?.all (fun x => decide (x = '\n')) = true := by
      cases hd : d.rest.head? with
      | none => rfl
      | some x => exact decide_eq_true (hend x hd)
    exact .seq (Pattern.run_many_one.2 ⟨rfl, hw⟩) (.seq (.eol hall) .empty)

/-- White space before something else is in one place of a text only. -/
theorem blank_unique {blank blank' t t' : List Char} (hblank : ∀ x ∈ blank, isSpace x = true)
    (hblank' : ∀ x ∈ blank', isSpace x = true) (ht : ∃ x l, t = x :: l ∧ isSpace x = false)
    (ht' : ∃ x l, t' = x :: l ∧ isSpace x = false) (h : blank ++ t = blank' ++ t') : blank = blank' ∧ t = t' := by
  have htake : ∀ {blank t : List Char}, (∀ x ∈ blank, isSpace x = true) → (∃ x l, t = x :: l ∧ isSpace x = false) →
      (blank ++ t).takeWhile isSpace = blank := by
    rintro blank _ hblank ⟨x, l, rfl, hx⟩
    rw [List.takeWhile_append_of_pos hblank, List.takeWhile_cons_of_neg (by simp [hx]), List.append_nil]
  have hsame : blank = blank' := by rw [← htake hblank ht, h, htake hblank' ht']
  subst hsame
  exact ⟨rfl, List.append_cancel_left h⟩

theorem Row.Legible.matches {r : Row} (hr : r.Legible) : Matches numberPattern r.number.text :=
  Numeral.matches_number hr.wf hr.plain

theorem Row.isSpace_indent (r : Row) : ∀ x ∈ List.replicate r.indent ' ', isSpace x = true := by
  intro x hx
  rw [List.eq_of_mem_replicate hx]
  decide

/-- **A row is read in one way: its number is captured, and its remark has to be `w`.** -/
theorem run_row {r : Row} (hr : r.Legible) {n : Nat} {w : String} (hw : ∃ x l, w.toList = x :: l ∧ isSpace x = false) :
    Run (rowPattern n w a) ⟨b, r.text ++ rest⟩ s d s' ↔ ∃ more, r.remark.toList ++ rest = w.toList ++ more ∧
      Run a ⟨w.toList.getLast?.or b, more⟩ ((n, r.number.text) :: s) d s' := by
  have hgap : ∀ x ∈ "   ".toList, isSpace x = true := by decide
  have hremark : ∃ x l, r.remark.toList ++ rest = x :: l ∧ isSpace x = false := by
    obtain ⟨x, l, hx, hspace⟩ := hr.remark
    exact ⟨x, l ++ rest, by rw [hx]; rfl, hspace⟩
  have hlast : ∀ u : List Char, (u ++ w.toList).getLast?.or b = w.toList.getLast?.or b := by
    obtain ⟨x, l, hx, -⟩ := hw
    intro u
    rw [hx, List.getLast?_append, List.getLast?_cons]
    rfl
  have htext : ∀ more : List Char, r.remark.toList ++ rest = w.toList ++ more →
      Eats ⟨b, r.text ++ rest⟩ (List.replicate r.indent ' ' ++ (r.number.text ++ ("   ".toList ++ w.toList)))
        ⟨w.toList.getLast?.or b, more⟩ := by
    intro more hmore
    refine ⟨?_, ?_⟩
    · simp only [Row.text, List.append_assoc, hmore]
    · rw [← List.append_assoc, ← List.append_assoc, hlast]
  constructor
  · intro h
    obtain ⟨c₁, t₁, hspace, h₁⟩ := Pattern.run_seq.1 h
    obtain ⟨rfl, blank, hblank, hskip⟩ := Pattern.run_many_one.1 hspace
    obtain ⟨c₂, t₂, hgroup, h₂⟩ := Pattern.run_seq.1 h₁
    obtain ⟨t₃, hnumber, rfl⟩ := Pattern.run_group.1 hgroup
    obtain ⟨rfl, t, ht, heats⟩ := run_number.1 hnumber
    obtain ⟨c₃, t₄, hblanks, h₃⟩ := Pattern.run_seq.1 h₂
    obtain ⟨rfl, gap, hne, hspaces, hskip'⟩ := Pattern.run_many1_one.1 hblanks
    obtain ⟨c₄, t₅, hword, h₄⟩ := Pattern.run_seq.1 h₃
    obtain ⟨rfl, heats'⟩ := Pattern.run_text.1 hword
    have hall := hskip.append (heats.append (hskip'.append heats'))
    have hsplit : List.replicate r.indent ' ' ++ (r.number.text ++ ("   ".toList ++ (r.remark.toList ++ rest))) =
        blank ++ (t ++ (gap ++ (w.toList ++ c₄.rest))) := by
      have hrest := hall.rest
      simp only [Row.text, List.append_assoc] at hrest
      exact hrest
    have hspaceHead : ∀ x ∈ (gap ++ (w.toList ++ c₄.rest)).head?, isSpace x = true := by
      intro x hx
      obtain ⟨y, gap, rfl⟩ := List.exists_cons_of_ne_nil hne
      cases hx
      exact hspaces _ List.mem_cons_self
    obtain ⟨rfl, rfl⟩ := word_unique r.isSpace_indent hblank (isWord_number.word hr.matches) (isWord_number.word ht)
      (by intro x hx; cases hx; decide) hspaceHead hsplit
    have hafter := List.append_cancel_left (List.append_cancel_left hsplit)
    obtain ⟨rfl, hmore⟩ := blank_unique hgap hspaces hremark (by
      obtain ⟨x, l, hx, hspace⟩ := hw
      exact ⟨x, l ++ c₄.rest, by rw [hx]; rfl, hspace⟩) hafter
    refine ⟨c₄.rest, hmore, ?_⟩
    rw [(htext _ hmore).unique hall, heats.upTo] at h₄
    exact h₄
  · rintro ⟨more, hmore, h⟩
    obtain ⟨c₁, hskip, hall⟩ := Pattern.eats_append_iff.1 (htext more hmore)
    obtain ⟨c₂, heats, hall⟩ := Pattern.eats_append_iff.1 hall
    obtain ⟨c₃, hskip', heats'⟩ := Pattern.eats_append_iff.1 hall
    refine .seq (Pattern.run_many_one.2 ⟨rfl, _, r.isSpace_indent, hskip⟩) (.seq (.group (run_number.2
      ⟨rfl, _, hr.matches, heats⟩)) (.seq (Pattern.run_many1_one.2 ⟨rfl, _, by decide, hgap, hskip'⟩)
      (.seq (Pattern.run_text.2 ⟨rfl, heats'⟩) ?_)))
    rw [heats.upTo]
    exact h

end Runs

/-! ## Matches at a row -/

section Matches

variable {a : Pattern} {b : Option Char} {r : Row} {rest : List Char}

theorem run_bol_seq {c d : Cursor} {s s' : Captures} (hb : AtBol c.before) :
    Run (.seq .bol a) c s d s' ↔ Run a c s d s' := by
  rw [Pattern.run_seq]
  constructor
  · rintro ⟨e, t, hbol, h⟩
    obtain ⟨rfl, rfl, -⟩ := Pattern.run_bol.1 hbol
    exact h
  · exact fun h => ⟨c, s, .bol hb, h⟩

/-- The texts differ where both are known. -/
def clash : List Char → List Char → Bool
  | x :: xs, y :: ys => decide (x ≠ y) || clash xs ys
  | _, _             => false

theorem ne_of_clash {u v s t : List Char} (h : clash u v = true) : u ++ s ≠ v ++ t := by
  induction u generalizing v with
  | nil => cases h
  | cons x u ih =>
    cases v with
    | nil => cases h
    | cons y v =>
      simp only [clash, Bool.or_eq_true, decide_eq_true_eq] at h
      intro heq
      rw [List.cons_append, List.cons_append, List.cons.injEq] at heq
      rcases h with h | h
      · exact h heq.1
      · exact ih h heq.2

/-- A row begins with a blank, a digit, or a sign and a digit. -/
theorem Row.Legible.head (hr : r.Legible) : (∃ u, r.text = ' ' :: u) ∨
    ∃ k u, k < 10 ∧ (r.text = k.digitChar :: u ∨ r.text = '-' :: k.digitChar :: u) := by
  obtain ⟨k, ds, hk, htext⟩ := Json.text_head hr.wf
  unfold Row.text
  rw [htext]
  cases r.indent with
  | zero =>
    refine Or.inr ⟨k, ds ++ ("   ".toList ++ r.remark.toList), hk, ?_⟩
    by_cases hneg : r.number.negative = true
    · rw [if_pos hneg]
      exact Or.inr rfl
    · rw [if_neg hneg]
      exact Or.inl rfl
  | succ n => exact Or.inl ⟨_, rfl⟩

/-- No match begins as rows do. -/
def shunsRows (a : Pattern) : Bool :=
  a.never [' '] && (List.range 10).all (fun k => a.never [k.digitChar] && a.never ['-', k.digitChar])

theorem matchAt_row (h : shunsRows a = true) (hr : r.Legible) : a.matchAt ⟨b, r.text ++ rest⟩ = none := by
  obtain ⟨hblank, hdigits⟩ := Bool.and_eq_true_iff.1 h
  rcases hr.head with ⟨u, hu⟩ | ⟨k, u, hk, hu⟩
  · exact Pattern.matchAt_of_never hblank ⟨u ++ rest, by rw [hu]; rfl⟩
  · obtain ⟨hdigit, hsign⟩ := Bool.and_eq_true_iff.1 (List.all_eq_true.1 hdigits k (List.mem_range.2 hk))
    rcases hu with hu | hu
    · exact Pattern.matchAt_of_never hdigit ⟨u ++ rest, by rw [hu]; rfl⟩
    · exact Pattern.matchAt_of_never hsign ⟨u ++ rest, by rw [hu]; rfl⟩

theorem matchAt_none_of_run {c : Cursor} (h : ∀ d s, ¬Run a c [] d s) : a.matchAt c = none := by
  cases hm : a.matchAt c with
  | none => rfl
  | some r => exact absurd (Pattern.matchAt_run hm) (h r.1 r.2)

theorem matchAt_unit_row (hr : r.Legible) : unitPattern.matchAt ⟨b, r.text ++ rest⟩ = none := by
  refine matchAt_none_of_run (fun d s h => ?_)
  obtain ⟨c₁, t₁, hbol, h₁⟩ := Pattern.run_seq.1 h
  obtain ⟨rfl, rfl, -⟩ := Pattern.run_bol.1 hbol
  obtain ⟨c₂, t₂, hspace, h₂⟩ := Pattern.run_seq.1 h₁
  obtain ⟨rfl, blank, hblank, hskip⟩ := Pattern.run_many_one.1 hspace
  obtain ⟨c₃, t₃, htime, -⟩ := Pattern.run_seq.1 h₂
  obtain ⟨-, heats⟩ := Pattern.run_text.1 htime
  have hall := hskip.rest
  rw [heats.rest] at hall
  simp only [Row.text, List.append_assoc] at hall
  obtain ⟨x, u, hx⟩ := List.exists_cons_of_ne_nil (number_ne_nil hr.matches)
  have hnumeric : isNumeric x = true := number_numeric hr.matches x (by rw [hx]; exact List.mem_cons_self)
  have hns : isSpace x = false := (isWord_number.word hr.matches).2 x (by rw [hx]; exact List.mem_cons_self)
  have htimes : "time".toList ++ c₃.rest = 't' :: ("ime".toList ++ c₃.rest) := rfl
  rw [htimes] at hall
  obtain ⟨-, hword⟩ := blank_unique r.isSpace_indent hblank ⟨x, _, by rw [hx]; rfl, hns⟩ ⟨'t', _, rfl, by decide⟩ hall
  rw [hx, List.cons_append, List.cons.injEq] at hword
  rw [hword.1] at hnumeric
  exact absurd hnumeric (by decide)

/-- The arrival pattern passes over the other rows. -/
theorem matchAt_arrival_other (hr : r.Legible) (h : clash r.remark.toList "data arrival time".toList = true) :
    arrivalPattern.matchAt ⟨b, r.text ++ rest⟩ = none := by
  refine matchAt_none_of_run (fun d s hrun => ?_)
  obtain ⟨c₁, t₁, hbol, h₁⟩ := Pattern.run_seq.1 (arrivalPattern_eq ▸ hrun)
  obtain ⟨rfl, rfl, -⟩ := Pattern.run_bol.1 hbol
  obtain ⟨more, hmore, -⟩ := (run_row hr ⟨'d', _, rfl, by decide⟩).1 h₁
  exact ne_of_clash h hmore

/-- White space ends before the next thing that is none. -/
theorem blank_stops {u v w t : List Char} (h : u ++ v = w ++ t) (hw : ∀ x ∈ w, isSpace x = true)
    (hu : ∃ x ∈ u, isSpace x = false) : v.length ≤ t.length := by
  by_contra hlt
  have hlen := congrArg List.length h
  rw [List.length_append, List.length_append] at hlen
  have hbegins : u <+: w := List.prefix_of_prefix_length_le ⟨v, rfl⟩ ⟨t, h.symm⟩ (by omega)
  obtain ⟨x, hx, hns⟩ := hu
  rw [hw x (List.IsPrefix.mem hx hbegins)] at hns
  cases hns

/-- An arrival row is matched, up to white space that may reach into the next lines. -/
theorem matchAt_arrival (hr : r.Legible) (hremark : r.remark = "data arrival time") (hb : AtBol b) :
    ∃ d w, arrivalPattern.matchAt ⟨b, r.text ++ '\n' :: rest⟩ = some (d, [(1, r.number.text)]) ∧
      (∀ x ∈ w, isSpace x = true) ∧ '\n' :: rest = w ++ d.rest := by
  have hrun : ∀ d s, Run arrivalPattern ⟨b, r.text ++ '\n' :: rest⟩ [] d s ↔ s = [(1, r.number.text)] ∧
      (∃ w, (∀ x ∈ w, isSpace x = true) ∧ Eats ⟨"data arrival time".toList.getLast?.or b, '\n' :: rest⟩ w d) ∧
      ∀ x ∈ d.rest.head?, x = '\n' := by
    intro d s
    rw [arrivalPattern_eq, run_bol_seq hb, run_row hr ⟨'d', _, rfl, by decide⟩, hremark]
    constructor
    · rintro ⟨more, hmore, h⟩
      rw [← List.append_cancel_left hmore] at h
      exact run_tail.1 h
    · exact fun h => ⟨_, rfl, run_tail.2 h⟩
  obtain ⟨⟨d, s⟩, hm⟩ := Option.isSome_iff_exists.1 (Pattern.matchAt_isSome_iff.2
    ⟨_, _, (hrun _ _).2 ⟨rfl, ⟨[], by simp, .nil _⟩, by simp⟩⟩)
  obtain ⟨rfl, ⟨w, hw, heats⟩, -⟩ := (hrun d s).1 (Pattern.matchAt_run hm)
  exact ⟨d, w, hm, hw, heats.rest⟩

end Matches

/-! ## The summary -/

section Summary

variable {a : Pattern} {b : Option Char} {d : Cursor} {s s' : Captures} {rest : List Char}

theorem run_row_remark {r : Row} (hr : r.Legible) {n : Nat} {w : String} (hw : ∃ x l, w.toList = x :: l ∧ isSpace x = false)
    {v : List Char} (hremark : r.remark.toList = w.toList ++ v) : Run (rowPattern n w a) ⟨b, r.text ++ rest⟩ s d s' ↔
      Run a ⟨w.toList.getLast?.or b, v ++ rest⟩ ((n, r.number.text) :: s) d s' := by
  rw [run_row hr hw, hremark, List.append_assoc]
  constructor
  · rintro ⟨more, hmore, h⟩
    rw [List.append_cancel_left hmore]
    exact h
  · exact fun h => ⟨_, rfl, h⟩

theorem run_label {label : String} (hlabel : label = "MET" ∨ label = "VIOLATED") :
    Run (.seq (.group 4 (.alt (.text "MET") (.text "VIOLATED"))) (.seq (.text ")") tailPattern))
      ⟨b, label.toList ++ (")".toList ++ rest)⟩ s d s' ↔ Run tailPattern ⟨some ')', rest⟩ ((4, label.toList) :: s) d s' := by
  have heats : Eats ⟨b, label.toList ++ (")".toList ++ rest)⟩ label.toList
      ⟨label.toList.getLast?.or b, ")".toList ++ rest⟩ :=
    ⟨rfl, rfl⟩
  have hmet : "MET".toList ++ (")".toList ++ rest) = 'M' :: ("ET)".toList ++ rest) := rfl
  have hviolated : "VIOLATED".toList ++ (")".toList ++ rest) = 'V' :: ("IOLATED)".toList ++ rest) := rfl
  have halt : ∀ {e : Cursor} {t : Captures}, Run (.alt (.text "MET") (.text "VIOLATED"))
      ⟨b, label.toList ++ (")".toList ++ rest)⟩ s e t ↔ t = s ∧
        Eats ⟨b, label.toList ++ (")".toList ++ rest)⟩ label.toList e := by
    intro e t
    rw [Pattern.run_alt, Pattern.run_text, Pattern.run_text]
    constructor
    · rintro (⟨rfl, h⟩ | ⟨rfl, h⟩)
      · rcases hlabel with rfl | rfl
        · exact ⟨rfl, h⟩
        · exact absurd (hviolated.symm.trans h.rest) (by simp)
      · rcases hlabel with rfl | rfl
        · exact absurd (hmet.symm.trans h.rest) (by simp)
        · exact ⟨rfl, h⟩
    · rintro ⟨rfl, h⟩
      rcases hlabel with rfl | rfl
      · exact Or.inl ⟨rfl, h⟩
      · exact Or.inr ⟨rfl, h⟩
  rw [Pattern.run_seq]
  constructor
  · rintro ⟨e, t, hgroup, h⟩
    obtain ⟨t', hword, rfl⟩ := Pattern.run_group.1 hgroup
    obtain ⟨rfl, heats'⟩ := halt.1 hword
    rw [heats.unique heats', heats.upTo] at h
    exact run_text_seq.1 h
  · intro h
    refine ⟨_, _, .group (halt.2 ⟨rfl, heats⟩), ?_⟩
    rw [heats.upTo]
    exact run_text_seq.2 h

/-- **A summary of three rows is matched with their numbers and the label.** -/
theorem matchAt_summary {j k : Nat} {r₁ r₂ r₃ : Row} {label : String} (h₁ : r₁.Legible) (h₂ : r₂.Legible) (h₃ : r₃.Legible)
    (hb : AtBol b) (hremark₁ : r₁.remark = "data required time") (hremark₂ : r₂.remark = "data arrival time")
    (hremark₃ : r₃.remark = "slack (" ++ label ++ ")") (hlabel : label = "MET" ∨ label = "VIOLATED") :
    ∃ d, summaryPattern.matchAt ⟨b, List.replicate (j + 1) '-' ++ '\n' :: (r₁.text ++ '\n' :: (r₂.text ++ '\n' ::
      (List.replicate (k + 1) '-' ++ '\n' :: (r₃.text ++ '\n' :: rest))))⟩ =
      some (d, [(4, label.toList), (3, r₃.number.text), (2, r₂.number.text), (1, r₁.number.text)]) := by
  have hslack : r₃.remark.toList = "slack (".toList ++ (label.toList ++ ")".toList) := by
    rw [hremark₃, String.toList_append, String.toList_append, List.append_assoc]
  have hrun : ∀ d s, Run summaryPattern ⟨b, List.replicate (j + 1) '-' ++ '\n' :: (r₁.text ++ '\n' :: (r₂.text ++ '\n' ::
      (List.replicate (k + 1) '-' ++ '\n' :: (r₃.text ++ '\n' :: rest))))⟩ [] d s ↔
      Run tailPattern ⟨some ')', '\n' :: rest⟩
        [(4, label.toList), (3, r₃.number.text), (2, r₂.number.text), (1, r₁.number.text)] d s := by
    intro d s
    rw [summaryPattern_eq, run_bol_seq hb, run_dashes_seq,
      run_row_remark h₁ ⟨'d', _, rfl, by decide⟩ (v := []) (by rw [hremark₁, List.append_nil]), List.nil_append,
        run_newline_seq,
      run_row_remark h₂ ⟨'d', _, rfl, by decide⟩ (v := []) (by rw [hremark₂, List.append_nil]), List.nil_append,
        run_newline_seq,
      run_dashes_seq, run_row_remark h₃ ⟨'s', _, rfl, by decide⟩ hslack, List.append_assoc, run_label hlabel]
  obtain ⟨⟨d, s⟩, hm⟩ := Option.isSome_iff_exists.1 (Pattern.matchAt_isSome_iff.2
    ⟨_, _, (hrun _ _).2 (run_tail.2 ⟨rfl, ⟨[], by simp, .nil _⟩, by simp⟩)⟩)
  obtain ⟨rfl, -⟩ := run_tail.1 ((hrun d s).1 (Pattern.matchAt_run hm))
  exact ⟨d, hm⟩

/-- Dashes before another row begin no summary. -/
theorem matchAt_summary_other {k : Nat} {r : Row} (hr : r.Legible)
    (h : clash r.remark.toList "data required time".toList = true) :
    summaryPattern.matchAt ⟨b, List.replicate (k + 1) '-' ++ '\n' :: (r.text ++ rest)⟩ = none := by
  refine matchAt_none_of_run (fun d s hrun => ?_)
  obtain ⟨c₁, t₁, hbol, h₁⟩ := Pattern.run_seq.1 (summaryPattern_eq ▸ hrun)
  obtain ⟨rfl, rfl, -⟩ := Pattern.run_bol.1 hbol
  obtain ⟨more, hmore, -⟩ := (run_row hr ⟨'d', _, rfl, by decide⟩).1 (run_dashes_seq.1 h₁)
  exact ne_of_clash h hmore

end Summary

/-! ## The banner and the unit -/

section Words

variable {a : Pattern} {b : Option Char} {d : Cursor} {s s' : Captures} {rest : List Char}

/-- A word after white space, where what follows it begins with white space. -/
theorem run_word_seq {p : Char → Bool} (hp : ∀ x, p x = true → isSpace x = false) {n : Nat} {blank w : List Char}
    (hblank : ∀ x ∈ blank, isSpace x = true) (hne : blank ≠ []) (hw : w ≠ [] ∧ ∀ x ∈ w, p x = true)
    (hrest : ∀ x ∈ rest.head?, isSpace x = true)
    (ha : ∀ {e d : Cursor} {t t' : Captures}, Run a e t d t' → ∀ x ∈ e.rest.head?, isSpace x = true) :
    Run (.seq (.many1 space) (.seq (.group n (.many1 (.one p))) a)) ⟨b, blank ++ (w ++ rest)⟩ s d s' ↔
      Run a ⟨w.getLast?.or (blank.getLast?.or b), rest⟩ ((n, w) :: s) d s' := by
  have hskip : Eats ⟨b, blank ++ (w ++ rest)⟩ blank ⟨blank.getLast?.or b, w ++ rest⟩ := ⟨rfl, rfl⟩
  have hword : Eats ⟨blank.getLast?.or b, w ++ rest⟩ w ⟨w.getLast?.or (blank.getLast?.or b), rest⟩ := ⟨rfl, rfl⟩
  constructor
  · intro h
    obtain ⟨c₁, t₁, hspace, h₁⟩ := Pattern.run_seq.1 h
    obtain ⟨rfl, blank', hne', hblank', hskip'⟩ := Pattern.run_many1_one.1 hspace
    obtain ⟨c₂, t₂, hgroup, h₂⟩ := Pattern.run_seq.1 h₁
    obtain ⟨t₃, hwords, rfl⟩ := Pattern.run_group.1 hgroup
    obtain ⟨rfl, w', hne'', hw', hword'⟩ := Pattern.run_many1_one.1 hwords
    have hsplit : blank ++ (w ++ rest) = blank' ++ (w' ++ c₂.rest) := by
      have hall := (hskip'.append hword').rest
      rw [List.append_assoc] at hall
      exact hall
    obtain ⟨rfl, rfl⟩ := word_unique hblank hblank' ⟨hw.1, fun x hx => hp x (hw.2 x hx)⟩
      ⟨hne'', fun x hx => hp x (hw' x hx)⟩ hrest (ha h₂) hsplit
    rw [hskip.unique hskip'] at hword' h₂
    rw [hword.unique hword', hword.upTo] at h₂
    exact h₂
  · intro h
    refine .seq (Pattern.run_many1_one.2 ⟨rfl, blank, hne, hblank, hskip⟩) (.seq (.group (Pattern.run_many1_one.2
      ⟨rfl, w, hw.1, hw.2, hword⟩)) ?_)
    rw [hword.upTo]
    exact h

/-- What begins with white space. -/
theorem run_space_head {e : Cursor} {t t' : Captures} (h : Run (.seq (.many1 space) a) e t d t') :
    ∀ x ∈ e.rest.head?, isSpace x = true := by
  intro x hx
  obtain ⟨e', t'', hspace, -⟩ := Pattern.run_seq.1 h
  obtain ⟨-, w, hne, hw, heats⟩ := Pattern.run_many1_one.1 hspace
  obtain ⟨y, w, rfl⟩ := List.exists_cons_of_ne_nil hne
  rw [heats.rest] at hx
  cases hx
  exact hw _ List.mem_cons_self

theorem nonSpace_excludes : ∀ x, (!isSpace x) = true → isSpace x = false := by
  intro x hx
  simpa using hx

def isHex (c : Char) : Bool := decide ('0' ≤ c ∧ c ≤ '9') || decide ('a' ≤ c ∧ c ≤ 'f')

theorem isHex_excludes (x : Char) (h : isHex x = true) : isSpace x = false := by
  rw [Bool.eq_false_iff]
  intro hspace
  have hcode := isSpace_toNat hspace
  simp only [isHex, Bool.or_eq_true, decide_eq_true_eq, Char.le_def, UInt32.le_iff_toNat_le] at h
  have hx : x.val.toNat = x.toNat := rfl
  have hbounds : ('0' : Char).val.toNat = 48 ∧ ('9' : Char).val.toNat = 57 ∧ ('a' : Char).val.toNat = 97 ∧
    ('f' : Char).val.toNat = 102 := by decide
  omega

theorem bannerPattern_eq : bannerPattern = .seq .bol (.seq (.text "OpenSTA") (.seq (.many1 space) (.seq (.group 1
    (.many1 nonSpace)) (.seq (.many1 space) (.seq (.group 2 (.many1 (.one isHex))) (.seq (.many1 space)
      (.seq (.text "Copyright") .empty))))))) := rfl

theorem unitPattern_eq : unitPattern = .seq .bol (.seq (.many space) (.seq (.text "time") (.seq (.many1 space)
    (.seq (.group 1 (.many1 nonSpace)) tailPattern)))) := rfl

theorem matchAt_banner (hb : AtBol b) : ∃ d, bannerPattern.matchAt ⟨b, "OpenSTA 3.1.0 396536743f Copyright".toList ++ rest⟩ =
    some (d, [(2, "396536743f".toList), (1, "3.1.0".toList)]) := by
  have hspaces : ∀ x ∈ " ".toList, isSpace x = true := by decide
  have htext : "OpenSTA 3.1.0 396536743f Copyright".toList ++ rest =
      "OpenSTA".toList ++ (" ".toList ++ ("3.1.0".toList ++ (" ".toList ++ ("396536743f".toList ++ (" ".toList ++
        ("Copyright".toList ++ rest)))))) := rfl
  have hhead : ∀ t : List Char, ∀ x ∈ (" ".toList ++ t).head?, isSpace x = true := by
    intro t x hx
    cases hx
    decide
  have hrun : ∀ d s, Run bannerPattern ⟨b, "OpenSTA 3.1.0 396536743f Copyright".toList ++ rest⟩ [] d s ↔
      Run (.seq (.many1 space) (.seq (.text "Copyright") .empty)) ⟨some 'f', " ".toList ++ ("Copyright".toList ++ rest)⟩
        [(2, "396536743f".toList), (1, "3.1.0".toList)] d s := by
    intro d s
    rw [htext, bannerPattern_eq, run_bol_seq hb, run_text_seq]
    refine (run_word_seq nonSpace_excludes hspaces (by decide) (by decide) (hhead _) run_space_head).trans ?_
    exact run_word_seq isHex_excludes hspaces (by decide) (by decide) (hhead _) run_space_head
  have hall : Eats ⟨some 'f', " ".toList ++ ("Copyright".toList ++ rest)⟩ (" ".toList ++ "Copyright".toList)
      ⟨some 't', rest⟩ := ⟨rfl, rfl⟩
  obtain ⟨c₁, hskip, hword⟩ := Pattern.eats_append_iff.1 hall
  obtain ⟨⟨d, s⟩, hm⟩ := Option.isSome_iff_exists.1 (Pattern.matchAt_isSome_iff.2 ⟨_, _, (hrun _ _).2 (.seq
    (Pattern.run_many1_one.2 ⟨rfl, _, by decide, hspaces, hskip⟩) (.seq (Pattern.run_text.2 ⟨rfl, hword⟩) .empty))⟩)
  obtain ⟨c₂, t₁, hspace, h₁⟩ := Pattern.run_seq.1 ((hrun d s).1 (Pattern.matchAt_run hm))
  obtain ⟨rfl, -⟩ := Pattern.run_many1_one.1 hspace
  obtain ⟨c₃, t₂, hcopyright, h₂⟩ := Pattern.run_seq.1 h₁
  obtain ⟨rfl, -⟩ := Pattern.run_text.1 hcopyright
  obtain ⟨rfl, -⟩ := Pattern.run_empty.1 h₂
  exact ⟨_, hm⟩

theorem matchAt_unit (hb : AtBol b) : ∃ d, unitPattern.matchAt ⟨b, " time 1ns".toList ++ '\n' :: rest⟩ =
    some (d, [(1, "1ns".toList)]) := by
  have hspaces : ∀ x ∈ " ".toList, isSpace x = true := by decide
  have htext : " time 1ns".toList ++ '\n' :: rest =
      " ".toList ++ ("time".toList ++ (" ".toList ++ ("1ns".toList ++ '\n' :: rest))) := rfl
  have htime : ∀ t : List Char, ∃ x l, "time".toList ++ t = x :: l ∧ isSpace x = false := fun t => ⟨'t', _, rfl, by decide⟩
  have hplace : Eats ⟨b, " time 1ns".toList ++ '\n' :: rest⟩ " ".toList
      ⟨some ' ', "time".toList ++ (" ".toList ++ ("1ns".toList ++ '\n' :: rest))⟩ := ⟨rfl, rfl⟩
  have hindent : ∀ {a : Pattern} {d : Cursor} {s : Captures}, Run (.seq (.many space) (.seq (.text "time") a))
      ⟨b, " time 1ns".toList ++ '\n' :: rest⟩ [] d s ↔ Run a ⟨some 'e', " ".toList ++ ("1ns".toList ++ '\n' :: rest)⟩
        [] d s := by
    intro a d s
    constructor
    · intro h
      obtain ⟨c₁, t₁, hspace, h₁⟩ := Pattern.run_seq.1 h
      obtain ⟨rfl, blank, hblank, hskip⟩ := Pattern.run_many_one.1 hspace
      obtain ⟨c₂, t₂, hword, -⟩ := Pattern.run_seq.1 h₁
      obtain ⟨-, heats⟩ := Pattern.run_text.1 hword
      have hsplit := hskip.rest
      rw [heats.rest, htext] at hsplit
      obtain ⟨rfl, -⟩ := blank_unique hspaces hblank (htime _) (htime _) hsplit
      rw [hplace.unique hskip] at h₁
      exact run_text_seq.1 h₁
    · exact fun h => .seq (Pattern.run_many_one.2 ⟨rfl, _, hspaces, hplace⟩) (run_text_seq.2 h)
  have hrun : ∀ d s, Run unitPattern ⟨b, " time 1ns".toList ++ '\n' :: rest⟩ [] d s ↔
      Run tailPattern ⟨some 's', '\n' :: rest⟩ [(1, "1ns".toList)] d s := by
    intro d s
    rw [unitPattern_eq, run_bol_seq hb, hindent]
    refine run_word_seq nonSpace_excludes hspaces (by decide) (by decide) (fun x hx => ?_) (fun h x hx => ?_)
    · cases hx
      decide
    · obtain ⟨-, ⟨w, hw, heats⟩, hend⟩ := run_tail.1 h
      rw [heats.rest] at hx
      exact head?_isSpace hw hend x hx
  obtain ⟨⟨d, s⟩, hm⟩ := Option.isSome_iff_exists.1 (Pattern.matchAt_isSome_iff.2
    ⟨_, _, (hrun _ _).2 (run_tail.2 ⟨rfl, ⟨[], by simp, .nil _⟩, by simp⟩)⟩)
  obtain ⟨rfl, -⟩ := run_tail.1 ((hrun d s).1 (Pattern.matchAt_run hm))
  exact ⟨d, hm⟩

end Words

/-! ## Counting a marker -/

/-- `sub` is nowhere in the line. -/
def lacks (sub l : List Char) : Prop := ∀ v ∈ l.tails, sub.isPrefixOf v = false

theorem lacks_of_not_mem {sub l : List Char} {x : Char} (hx : x ∈ sub) (hl : x ∉ l) : lacks sub l := by
  intro v hv
  rw [Bool.eq_false_iff]
  intro hbegins
  have hmem := (List.isPrefixOf_iff_prefix.1 hbegins).subset hx
  exact hl (((List.mem_tails _ _).1 hv).subset hmem)

theorem not_prefix_line {sub v rest : List Char} (hv : sub.isPrefixOf v = false) (hsub : '\n' ∉ sub) :
    sub.isPrefixOf (v ++ '\n' :: rest) = false := by
  rw [Bool.eq_false_iff] at hv ⊢
  intro hbegins
  have h := List.isPrefixOf_iff_prefix.1 hbegins
  rcases List.prefix_or_prefix_of_prefix h (⟨rest, by simp⟩ : v ++ ['\n'] <+: v ++ '\n' :: rest) with hshort | hlong
  · rcases List.prefix_concat_iff.1 hshort with heq | hshort
    · exact hsub (by rw [heq]; exact List.mem_append_right _ List.mem_cons_self)
    · exact hv (List.isPrefixOf_iff_prefix.2 hshort)
  · exact hsub (hlong.subset (List.mem_append_right _ List.mem_cons_self))

theorem countOf_skip {sub s : List Char} {x : Char} (f : Nat) (h : sub.isPrefixOf (x :: s) = false) :
    countOf sub (f + 1) (x :: s) = countOf sub f s := by
  rw [countOf.eq_def]
  dsimp only
  rw [h]
  rfl

theorem countOf_line {sub : List Char} (hsub : '\n' ∉ sub) (f : Nat) (rest : List Char) : ∀ l, lacks sub l →
    countOf sub (l.length + 1 + f) (l ++ '\n' :: rest) = countOf sub f rest
  | [], h => by
    rw [List.length_nil, Nat.zero_add, Nat.add_comm, List.nil_append]
    exact countOf_skip f (not_prefix_line (h [] (by simp)) hsub)
  | x :: l, h => by
    have hnone : sub.isPrefixOf (x :: (l ++ '\n' :: rest)) = false := not_prefix_line (h (x :: l) (by simp)) hsub
    have hskip := countOf_skip (l.length + 1 + f) hnone
    rw [List.length_cons, show l.length + 1 + 1 + f = l.length + 1 + f + 1 from by omega]
    refine hskip.trans (countOf_line hsub f rest l (fun v hv => h v ?_))
    rw [List.tails_cons]
    exact List.mem_cons_of_mem _ hv

theorem countOf_ofLines {sub : List Char} (hsub : '\n' ∉ sub) (rest : List Char) {ls : List (List Char)}
    (h : ∀ l ∈ ls, lacks sub l) : countOf sub ((Pattern.ofLines ls ++ rest).length + 1) (Pattern.ofLines ls ++ rest) =
      countOf sub (rest.length + 1) rest := by
  induction ls with
  | nil => rfl
  | cons l ls ih =>
    rw [Pattern.ofLines_cons, List.append_assoc, List.cons_append]
    have hlen : (l ++ '\n' :: (Pattern.ofLines ls ++ rest)).length + 1 =
        l.length + 1 + ((Pattern.ofLines ls ++ rest).length + 1) := by
      rw [List.length_append, List.length_cons]
      omega
    rw [hlen, countOf_line hsub _ _ l (h l List.mem_cons_self), ih (fun x hx => h x (List.mem_cons_of_mem l hx))]

end EdaLab
