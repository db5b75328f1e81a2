import EdaLab.PatternLines
import EdaLab.ReportRun
/-!
# ReportLabels — the labelled lines of an OpenSTA report

A labelled line is well formed when what follows the label is a value and its tail, on that line.  The pattern of its field
then matches there and captures that value (`Reads`), so where every line of a label is well formed the matches of the
pattern are the lines of the label, in order (`finditer_labelled`).
-/
namespace EdaLab

open Pattern (Captures Captured Cursor Eats Matches Run AtBol Anchored Apart atBol_newline)

/-! ## Lines -/

/-- The line that starts here; lines end where those of `re.MULTILINE` do. -/
def lineOf (c : Cursor) : List Char := c.rest.takeWhile (fun x => decide (x ≠ '\n'))

def linesOf (text : List Char) : List (List Char) := (Cursor.start text).starts.map lineOf

theorem newline_not_mem_lineOf (c : Cursor) : '\n' ∉ lineOf c := by
  intro h
  have hne := List.mem_takeWhile_imp h
  exact absurd rfl (of_decide_eq_true hne)

theorem lineOf_split (c : Cursor) : ∃ rest, c.rest = lineOf c ++ rest ∧ ∀ x ∈ rest.head?, x = '\n' := by
  refine ⟨c.rest.dropWhile (fun x => decide (x ≠ '\n')), List.takeWhile_append_dropWhile.symm, fun x hx => ?_⟩
  have hhead := List.head?_dropWhile_not (fun x => decide (x ≠ '\n')) c.rest
  cases hd : c.rest.dropWhile (fun x => decide (x ≠ '\n')) with
  | nil =>
    rw [hd] at hx
    cases hx
  | cons y ys =>
    rw [hd] at hx hhead
    cases hx
    simpa using hhead

theorem lines_bol {b b' : Option Char} (hb : AtBol b) (hb' : AtBol b') (text : List Char) :
    (Cursor.starts ⟨b, text⟩).map lineOf = (Cursor.starts ⟨b', text⟩).map lineOf := by
  cases text with
  | nil =>
    rw [Pattern.starts_nil, Pattern.starts_nil, if_pos hb, if_pos hb']
    rfl
  | cons x text =>
    rw [Pattern.starts_cons, Pattern.starts_cons, if_pos hb, if_pos hb']
    rfl

theorem takeWhile_append_of_mem {p : Char → Bool} {x : Char} {w : List Char} (hx : x ∈ w) (hp : p x = false)
    (rest : List Char) : (w ++ rest).takeWhile p = w.takeWhile p := by
  have hshort : (w.takeWhile p).length ≠ w.length := by
    intro hlen
    have hall := List.takeWhile_prefix (p := p) (l := w) |>.eq_of_length hlen
    rw [← hall] at hx
    rw [List.mem_takeWhile_imp hx] at hp
    cases hp
  rw [List.takeWhile_append, if_neg hshort]

/-- Up to the start of a line, the lines do not depend on what follows. -/
theorem lines_append_from (pre : List Char) : ∀ b : Option Char, AtBol (pre.getLast?.or b) →
    ∃ ls, ∀ post, (Cursor.starts ⟨b, pre ++ post⟩).map lineOf =
      ls ++ (Cursor.starts ⟨pre.getLast?.or b, post⟩).map lineOf := by
  induction pre with
  | nil => exact fun b _ => ⟨[], fun post => rfl⟩
  | cons x pre ih =>
    intro b hb
    rw [← Pattern.getLast?_or] at hb
    obtain ⟨ls, hls⟩ := ih (some x) hb
    have hnewline : '\n' ∈ x :: pre := by
      rw [Pattern.getLast?_or x pre none, Option.or_none] at hb
      obtain ⟨y, hy⟩ := Option.isSome_iff_exists.1 (List.getLast?_isSome.2 (List.cons_ne_nil x pre))
      rw [hy] at hb
      have hyn : y = '\n' := by simpa [AtBol] using hb
      rw [← hyn]
      exact List.mem_of_getLast? hy
    refine ⟨(if AtBol b then [(x :: pre).takeWhile (fun y => decide (y ≠ '\n'))] else []) ++ ls, fun post => ?_⟩
    rw [List.cons_append, Pattern.starts_cons, List.map_append, hls, ← Pattern.getLast?_or, List.append_assoc]
    congr 1
    split
    · simp only [List.map_cons, List.map_nil, lineOf]
      rw [← List.cons_append, takeWhile_append_of_mem hnewline (by simp)]
    · rfl

theorem linesOf_append {pre : List Char} (h : AtBol pre.getLast?) :
    ∃ ls, ∀ post, linesOf (pre ++ post) = ls ++ linesOf post := by
  have hnone : pre.getLast?.or none = pre.getLast? := Option.or_none
  obtain ⟨ls, hls⟩ := lines_append_from pre none (by rw [hnone]; exact h)
  refine ⟨ls, fun post => ?_⟩
  unfold linesOf Cursor.start
  rw [hls, hnone, lines_bol h Pattern.atBol_none]

theorem linesOf_line {line : List Char} (h : '\n' ∉ line) (rest : List Char) :
    linesOf (line ++ '\n' :: rest) = line :: linesOf rest := by
  unfold linesOf Cursor.start
  rw [Pattern.starts_line Pattern.atBol_none line rest h, List.map_cons, lines_bol atBol_newline Pattern.atBol_none]
  congr 1
  unfold lineOf
  rw [List.takeWhile_append_of_pos]
  · simp
  · intro x hx
    rw [decide_eq_true_eq]
    rintro rfl
    exact h hx

theorem linesOf_ofLines {ls : List (List Char)} (h : ∀ l ∈ ls, '\n' ∉ l) : linesOf (Pattern.ofLines ls) = ls ++ [[]] := by
  induction ls with
  | nil => rfl
  | cons l ls ih =>
    rw [Pattern.ofLines_cons, linesOf_line (h l List.mem_cons_self), ih (fun x hx => h x (List.mem_cons_of_mem l hx))]
    rfl

/-! ## Labels and values -/

/-- A label, and the value of what follows it on its line where that is well formed. -/
structure Label where
  text  : String
  value : List Char → Option (List Char)

/-- The lines that begin with the label, without it. -/
def Label.lines (f : Label) (text : List Char) : List (List Char) :=
  ((linesOf text).filter (fun line => f.text.toList.isPrefixOf line)).map (·.drop f.text.length)

/-- White space and an opening parenthesis. -/
def opens (s : List Char) : Bool := s.head?.any isSpace && decide ((s.dropWhile isSpace).head? = some '(')

/-- The shortest beginning that white space and a parenthesis follow. -/
def shortestPoint : List Char → Option (List Char)
  | []      => none
  | x :: xs => if opens xs then some [x] else (shortestPoint xs).map (x :: ·)

/-- A name, and a remark in parentheses. -/
def pointValue (line : List Char) : Option (List Char) :=
  if line.head?.any isSpace then shortestPoint (line.dropWhile isSpace) else none

/-- One word. -/
def wordValue (line : List Char) : Option (List Char) :=
  if line.head?.any isSpace then
    let word := (line.dropWhile isSpace).takeWhile (fun c => !isSpace c)
    if word ≠ [] ∧ ((line.dropWhile isSpace).dropWhile (fun c => !isSpace c)).all isSpace = true then some word else none
  else none

/-- One word that is a number. -/
def numberValue (line : List Char) : Option (List Char) :=
  (wordValue line).filter (fun word => (numberPattern.fullmatch word).isSome)

def startpointLabel : Label := ⟨"Startpoint:", pointValue⟩

def endpointLabel : Label := ⟨"Endpoint:", pointValue⟩

def pathGroupLabel : Label := ⟨"Path Group:", wordValue⟩

def pathTypeLabel : Label := ⟨"Path Type:", wordValue⟩

def worstLabel : Label := ⟨"worst slack max", numberValue⟩

/-- The pattern `a` reads the lines of the label. -/
structure Reads (a : Pattern) (f : Label) : Prop where
  anchored : Anchored a
  word     : ∃ x l, f.text.toList = x :: l ∧ isSpace x = false ∧ '\n' ∉ f.text.toList
  labelled : ∀ {c d : Cursor} {s : Captures}, Run a c [] d s → f.text.toList <+: c.rest
  /-- What a match takes after the line is white space. -/
  reads    : ∀ {b : Option Char} {line rest v : List Char}, AtBol b → '\n' ∉ line → (∀ x ∈ rest.head?, x = '\n') →
    f.value line = some v → ∃ d s u tail, a.matchAt ⟨b, f.text.toList ++ (line ++ rest)⟩ = some (d, s) ∧
      s.lookup 1 = some v ∧ Eats ⟨b, f.text.toList ++ (line ++ rest)⟩ (u ++ tail) d ∧ '\n' ∉ u ∧
      ∀ x ∈ tail, isSpace x = true

/-! ## Counting -/

section Counting

variable {a : Pattern} {f : Label} {text : List Char}

/-- A match begins with the label. -/
theorem Reads.matched (h : Reads a f) {c d : Cursor} {s : Captures} (hm : a.matchAt c = some (d, s)) :
    f.text.toList <+: c.rest := h.labelled (Pattern.matchAt_run hm)

/-- The line of a place has the label where the text there does. -/
theorem Reads.isPrefixOf_line (h : Reads a f) {c : Cursor} :
    f.text.toList.isPrefixOf (lineOf c) = true ↔ f.text.toList <+: c.rest := by
  obtain ⟨-, -, -, -, hplain⟩ := h.word
  rw [List.isPrefixOf_iff_prefix]
  constructor
  · intro hp
    exact hp.trans (List.takeWhile_prefix _)
  · rintro ⟨t, ht⟩
    unfold lineOf
    rw [← ht, List.takeWhile_append_of_pos]
    · exact List.prefix_append _ _
    · intro x hx
      rw [decide_eq_true_eq]
      rintro rfl
      exact hplain hx

/-- The match of a well-formed line. -/
theorem Reads.line (h : Reads a f) {c : Cursor} (hbol : AtBol c.before) (hp : f.text.toList <+: c.rest) {v : List Char}
    (hv : f.value ((lineOf c).drop f.text.length) = some v) : ∃ d s u tail, a.matchAt c = some (d, s) ∧
      s.lookup 1 = some v ∧ Eats c (u ++ tail) d ∧ '\n' ∉ u ∧ ∀ x ∈ tail, isSpace x = true := by
  obtain ⟨rest, hrest, hend⟩ := lineOf_split c
  obtain ⟨line, hline⟩ := List.isPrefixOf_iff_prefix.1 (h.isPrefixOf_line.2 hp)
  have hdrop : (lineOf c).drop f.text.length = line := by
    rw [← hline, ← String.length_toList, List.drop_left]
  have hnot : '\n' ∉ line := by
    intro hmem
    apply newline_not_mem_lineOf c
    rw [← hline]
    exact List.mem_append_right _ hmem
  rw [hdrop] at hv
  rw [← hline, List.append_assoc] at hrest
  obtain ⟨b, rest'⟩ := c
  simp only at hrest
  subst hrest
  exact h.reads hbol hnot hend hv

/-- Every line of the label is well formed. -/
def Label.WellFormed (f : Label) (text : List Char) : Prop := ∀ line ∈ f.lines text, (f.value line).isSome = true

theorem Label.WellFormed.value (hw : f.WellFormed text) {c : Cursor} (hc : c ∈ (Cursor.start text).starts)
    (hp : f.text.toList.isPrefixOf (lineOf c) = true) : ∃ v, f.value ((lineOf c).drop f.text.length) = some v := by
  apply Option.isSome_iff_exists.1
  apply hw
  unfold Label.lines linesOf
  exact List.mem_map_of_mem (List.mem_filter.2 ⟨List.mem_map_of_mem hc, hp⟩)

/-- No match runs over the start of another line of the label. -/
theorem Reads.apart (h : Reads a f) (hw : f.WellFormed text) : Apart a (Cursor.start text).starts := by
  intro c hc d s hm e he hde hec
  obtain ⟨hbol, v₁, hc₁⟩ := Pattern.starts_spec hc
  obtain ⟨hbol', v₂, he₁⟩ := Pattern.starts_spec he
  have hp := h.matched hm
  obtain ⟨v, hv⟩ := hw.value hc (h.isPrefixOf_line.2 hp)
  obtain ⟨d', s', u, tail, hm', -, heats, hu, htail⟩ := h.line hbol hp hv
  rw [hm] at hm'
  cases hm'
  obtain ⟨w, hce⟩ := Pattern.eats_of_shorter hc₁ he₁ (Nat.le_of_lt hec)
  obtain ⟨t, hed⟩ := Pattern.eats_of_shorter hce heats (Nat.le_of_lt hde)
  have hwt : w ++ t = u ++ tail := by
    have hall := hce.append hed
    exact List.append_cancel_right (hall.rest.symm.trans heats.rest)
  have hwne : w ≠ [] := by
    rintro rfl
    rw [Pattern.eats_nil_iff.1 hce] at hec
    exact absurd hec (Nat.lt_irrefl _)
  have htne : t ≠ [] := by
    rintro rfl
    rw [Pattern.eats_nil_iff.1 hed] at hde
    exact absurd hde (Nat.lt_irrefl _)
  -- a line start after `c` follows a newline, which is not among `u`
  have hnewline : '\n' ∈ w := by
    have hbefore := hce.before
    obtain ⟨x, hx⟩ := Option.isSome_iff_exists.1 (List.getLast?_isSome.2 hwne)
    rw [hx] at hbefore
    rw [hbefore] at hbol'
    have hxn : x = '\n' := by simpa [AtBol] using hbol'
    rw [← hxn]
    exact List.mem_of_getLast? hx
  have hspace : ∀ x ∈ t, isSpace x = true := by
    have hlong : u <+: w := by
      rcases List.prefix_or_prefix_of_prefix (⟨tail, rfl⟩ : u <+: u ++ tail) ⟨t, hwt⟩ with h | h
      · exact h
      · exact absurd (h.subset hnewline) hu
    obtain ⟨t', rfl⟩ := hlong
    rw [List.append_assoc] at hwt
    intro x hx
    apply htail
    rw [← List.append_cancel_left hwt]
    exact List.mem_append_right _ hx
  cases hme : a.matchAt e with
  | none => rfl
  | some r =>
    obtain ⟨d'', s''⟩ := r
    obtain ⟨x, l, hlabel, hx, -⟩ := h.word
    obtain ⟨y, t, rfl⟩ := List.exists_cons_of_ne_nil htne
    have hpe := h.matched hme
    rw [hlabel, hed.rest, List.cons_append] at hpe
    obtain ⟨rfl, -⟩ := List.cons_prefix_cons.1 hpe
    rw [hspace x List.mem_cons_self] at hx
    cases hx

/-- **The matches are the lines of the label, in order, each with the value of its line.** -/
theorem Reads.finditer (h : Reads a f) (hw : f.WellFormed text) :
    (a.finditer text).map (·.lookup 1) = (f.lines text).map f.value := by
  rw [Pattern.finditer_anchored h.anchored (h.apart hw)]
  unfold Label.lines linesOf
  rw [List.map_filterMap, List.filter_map, List.map_map, List.map_map, ← List.filterMap_eq_map, List.filterMap_filter]
  apply List.filterMap_congr
  intro c hc
  obtain ⟨hbol, -⟩ := Pattern.starts_spec hc
  by_cases hp : f.text.toList.isPrefixOf (lineOf c) = true
  · obtain ⟨v, hv⟩ := hw.value hc hp
    obtain ⟨d, s, u, tail, hm, hs, -⟩ := h.line hbol (h.isPrefixOf_line.1 hp) hv
    simp [Pattern.yield, hm, hs, hp, hv]
  · cases hm : a.matchAt c with
    | none => simp [Pattern.yield, hm, hp]
    | some r =>
      obtain ⟨d, s⟩ := r
      exact absurd (h.isPrefixOf_line.2 (h.matched hm)) hp

/-- The one line of a label, where its value is known. -/
theorem Reads.finditer_single (h : Reads a f) {v : List Char} (hv : (f.lines text).map f.value = [some v]) :
    ∃ s, a.finditer text = [s] ∧ s.lookup 1 = some v := by
  have hw : f.WellFormed text := by
    intro line hline
    have hmem : f.value line ∈ [some v] := by
      rw [← hv]
      exact List.mem_map_of_mem hline
    rw [List.mem_singleton.1 hmem]
    rfl
  obtain ⟨s, hs, hlookup⟩ := List.map_eq_singleton_iff.1 ((h.finditer hw).trans hv)
  exact ⟨s, hs, hlookup⟩

/-- A pattern that has a match has a line of its label. -/
theorem Reads.lines_ne_nil (h : Reads a f) (hf : a.finditer text ≠ []) : f.lines text ≠ [] := by
  intro hnone
  have hw : f.WellFormed text := by
    intro line hline
    rw [hnone] at hline
    cases hline
  have hfind := h.finditer hw
  rw [hnone, List.map_nil, List.map_eq_nil_iff] at hfind
  exact hf hfind

/-- One more line of the label, at the start of a line. -/
theorem Label.lines_splice (f : Label) (hf : '\n' ∉ f.text.toList) {pre line : List Char} (hpre : AtBol pre.getLast?)
    (hline : '\n' ∉ line) (post : List Char) :
    (f.lines (pre ++ ((f.text.toList ++ line) ++ '\n' :: post))).length = (f.lines (pre ++ post)).length + 1 := by
  obtain ⟨ls, hls⟩ := linesOf_append hpre
  have hnot : '\n' ∉ f.text.toList ++ line := by
    rw [List.mem_append, not_or]
    exact ⟨hf, hline⟩
  have hbegins : f.text.toList.isPrefixOf (f.text.toList ++ line) = true := by
    rw [List.isPrefixOf_iff_prefix]
    exact List.prefix_append _ _
  unfold Label.lines
  rw [hls, hls, linesOf_line hnot, List.filter_append, List.filter_append, List.filter_cons_of_pos hbegins]
  simp only [List.map_append, List.map_cons, List.length_append, List.length_cons]
  exact (Nat.add_assoc _ _ 1).symm

end Counting

/-! ## The patterns of the labels -/

theorem run_labelled {w : String} {a : Pattern} {c d : Cursor} {s : Captures}
    (h : Run (.seq .bol (.seq (.text w) a)) c [] d s) : w.toList <+: c.rest := by
  obtain ⟨e, t, hbol, hrest⟩ := Pattern.run_seq.1 h
  obtain ⟨-, rfl, -⟩ := Pattern.run_bol.1 hbol
  obtain ⟨e', t', htext, -⟩ := Pattern.run_seq.1 hrest
  obtain ⟨-, heats⟩ := Pattern.run_text.1 htext
  exact ⟨_, heats.rest.symm⟩

theorem opens_iff {s : List Char} : opens s = true ↔ ∃ blank rest, s = blank ++ '(' :: rest ∧ blank ≠ [] ∧
    ∀ x ∈ blank, isSpace x = true := by
  unfold opens
  rw [Bool.and_eq_true, decide_eq_true_eq]
  constructor
  · rintro ⟨hhead, hopen⟩
    cases hd : s.dropWhile isSpace with
    | nil =>
      rw [hd] at hopen
      cases hopen
    | cons y rest =>
      rw [hd] at hopen
      cases hopen
      refine ⟨s.takeWhile isSpace, rest, ?_, ?_, fun x hx => List.mem_takeWhile_imp hx⟩
      · rw [← hd, List.takeWhile_append_dropWhile]
      · cases s with
        | nil => cases hhead
        | cons x s =>
          have hx : isSpace x = true := hhead
          rw [List.takeWhile_cons_of_pos hx]
          exact List.cons_ne_nil _ _
  · rintro ⟨blank, rest, rfl, hne, hblank⟩
    obtain ⟨x, blank, rfl⟩ := List.exists_cons_of_ne_nil hne
    refine ⟨hblank x List.mem_cons_self, ?_⟩
    rw [List.dropWhile_append_of_pos hblank]
    rfl

theorem shortestPoint_some {s v : List Char} (h : shortestPoint s = some v) : ∃ more, s = v ++ more ∧ v ≠ [] ∧
    opens more = true ∧ ∀ v₁ v₂, v = v₁ ++ v₂ → v₁ ≠ [] → v₂ ≠ [] → opens (v₂ ++ more) = false := by
  induction s generalizing v with
  | nil => cases h
  | cons x xs ih =>
    unfold shortestPoint at h
    split at h
    · rename_i hopen
      cases h
      refine ⟨xs, rfl, List.cons_ne_nil _ _, hopen, fun v₁ v₂ heq h₁ h₂ => ?_⟩
      obtain ⟨y, v₁, rfl⟩ := List.exists_cons_of_ne_nil h₁
      rw [List.cons_append, List.cons.injEq] at heq
      exact absurd (List.append_eq_nil_iff.1 heq.2.symm).2 h₂
    · rename_i hopen
      obtain ⟨w, hw, rfl⟩ := Option.map_eq_some_iff.1 h
      obtain ⟨more, rfl, hne, hopens, hno⟩ := ih hw
      refine ⟨more, rfl, List.cons_ne_nil _ _, hopens, fun v₁ v₂ heq h₁ h₂ => ?_⟩
      obtain ⟨y, v₁, rfl⟩ := List.exists_cons_of_ne_nil h₁
      rw [List.cons_append, List.cons.injEq] at heq
      obtain ⟨rfl, heq⟩ := heq
      cases v₁ with
      | nil =>
        rw [List.nil_append] at heq
        rw [← heq]
        exact Bool.eq_false_iff.2 hopen
      | cons z v₁ => exact hno (z :: v₁) v₂ heq (List.cons_ne_nil _ _) h₂

/-- A line that goes on to a character that is no white space opens a parenthesis on that line or not at all. -/
theorem opens_append {s rest : List Char} (h : opens (s ++ rest) = true) (hs : ∃ x ∈ s, isSpace x = false) :
    opens s = true := by
  obtain ⟨x, hx, hns⟩ := hs
  have hmem := mem_dropWhile hx hns
  unfold opens at h ⊢
  rw [Bool.and_eq_true, decide_eq_true_eq] at h ⊢
  obtain ⟨y, s, rfl⟩ := List.exists_cons_of_ne_nil (List.ne_nil_of_mem hx)
  refine ⟨h.1, ?_⟩
  have hdrop := h.2
  rw [List.dropWhile_append] at hdrop
  split at hdrop
  · rename_i hempty
    rw [List.isEmpty_iff.1 hempty] at hmem
    cases hmem
  · rename_i hempty
    rw [← hdrop]
    cases hd : (y :: s).dropWhile isSpace with
    | nil => rw [hd] at hmem; cases hmem
    | cons z zs => rfl

theorem head?_any_of_ne_nil {s : List Char} (h : s.head?.any isSpace = true) : s.takeWhile isSpace ≠ [] := by
  cases s with
  | nil => cases h
  | cons x s =>
    have hx : isSpace x = true := h
    rw [List.takeWhile_cons_of_pos hx]
    exact List.cons_ne_nil _ _

theorem dropWhile_head {p : Char → Bool} {s : List Char} : ∀ x ∈ (s.dropWhile p).head?, p x = false := by
  intro x hx
  have hhead := List.head?_dropWhile_not p s
  cases hd : s.dropWhile p with
  | nil =>
    rw [hd] at hx
    cases hx
  | cons y ys =>
    rw [hd] at hx hhead
    cases hx
    simpa using hhead

/-- From the start of a labelled line, the engine is past the label and its white space. -/
theorem go_labelled {w : String} {a : Pattern} {b : Option Char} {blank rest : List Char} {s : Captures}
    {k : Cursor → Captures → Option (Cursor × Captures)} {r : Cursor × Captures} (hb : AtBol b) (hne : blank ≠ [])
    (hblank : ∀ x ∈ blank, isSpace x = true) (hrest : ∀ x ∈ rest.head?, isSpace x = false)
    (h : a.go ⟨blank.getLast?.or (w.toList.getLast?.or b), rest⟩ s k = some r) :
    (Pattern.seq .bol (.seq (.text w) (.seq (.many1 space) a))).go ⟨b, w.toList ++ (blank ++ rest)⟩ s k = some r := by
  rw [Pattern.go_seq, Pattern.go_bol hb, Pattern.go_seq, Pattern.go_text, Pattern.go_seq]
  exact Pattern.go_many1_longest hne hblank hrest h

/-- Where the engine is not past the name yet. -/
theorem go_tail_none {b : Option Char} {s : Captures} {rest : List Char} (h : opens rest = false)
    (k : Cursor → Captures → Option (Cursor × Captures)) :
    (Pattern.all [.many1 space, .text "("]).go ⟨b, rest⟩ s k = none := by
  cases hgo : (Pattern.all [.many1 space, .text "("]).go ⟨b, rest⟩ s k with
  | none => rfl
  | some r =>
    obtain ⟨d, s', hrun, -⟩ := Pattern.go_run _ _ _ _ _ hgo
    obtain ⟨e, t, hspace, hrest⟩ := Pattern.run_seq.1 hrun
    obtain ⟨-, blank, hne, hblank, heats⟩ := Pattern.run_many1_one.1 hspace
    obtain ⟨e', t', htext, -⟩ := Pattern.run_seq.1 hrest
    obtain ⟨-, hopen⟩ := Pattern.run_text.1 htext
    have hopens : opens rest = true :=
      opens_iff.2 ⟨blank, e'.rest, by rw [show rest = _ from heats.rest, hopen.rest]; rfl, hne, hblank⟩
    rw [h] at hopens
    cases hopens

theorem go_tail_some {b : Option Char} {s : Captures} {blank rest : List Char} (hne : blank ≠ [])
    (hblank : ∀ x ∈ blank, isSpace x = true) (k : Cursor → Captures → Option (Cursor × Captures)) {r : Cursor × Captures}
    (h : k ⟨some '(', rest⟩ s = some r) :
    (Pattern.all [.many1 space, .text "("]).go ⟨b, blank ++ '(' :: rest⟩ s k = some r := by
  unfold Pattern.all
  rw [List.foldr_cons, Pattern.go_seq]
  apply Pattern.go_many1_longest hne hblank
  · intro x hx
    cases hx
    decide
  · rw [List.foldr_cons, Pattern.go_seq, show '(' :: rest = "(".toList ++ rest from rfl, Pattern.go_text]
    exact h

/-- **A point pattern reads the lines of its label.** -/
theorem reads_point (name : String) (hword : ∃ x l, (name ++ ":").toList = x :: l ∧ isSpace x = false ∧
    '\n' ∉ (name ++ ":").toList) : Reads (pointPattern name) ⟨name ++ ":", pointValue⟩ := by
  refine ⟨Pattern.anchored_seq _, hword, run_labelled, ?_⟩
  intro b line rest v hb hline hrest hv
  have hv : pointValue line = some v := hv
  unfold pointValue at hv
  split at hv
  · rename_i hhead
    obtain ⟨more, hu, hne, hopens, hno⟩ := shortestPoint_some hv
    obtain ⟨blank', after, rfl, hne', hblank'⟩ := opens_iff.1 hopens
    have hsplit : line = line.takeWhile isSpace ++ (v ++ (blank' ++ '(' :: after)) := by
      rw [← hu, List.takeWhile_append_dropWhile]
    have hblank : ∀ x ∈ line.takeWhile isSpace, isSpace x = true := fun x hx => List.mem_takeWhile_imp hx
    generalize hbl : line.takeWhile isSpace = blank at hsplit hblank
    have hblne : blank ≠ [] := hbl ▸ head?_any_of_ne_nil hhead
    have htext : (name ++ ":").toList ++ (line ++ rest) =
        (name ++ ":").toList ++ (blank ++ (v ++ (blank' ++ '(' :: (after ++ rest)))) := by
      rw [hsplit]
      simp only [List.append_assoc, List.cons_append]
    have hhead' : ∀ x ∈ (v ++ (blank' ++ '(' :: (after ++ rest))).head?, isSpace x = false := by
      intro x hx
      apply dropWhile_head (s := line) x
      rw [hu]
      obtain ⟨y, v, rfl⟩ := List.exists_cons_of_ne_nil hne
      exact hx
    have hvline : ∀ x ∈ v, x ≠ '\n' := by
      rintro x hx rfl
      apply hline
      rw [hsplit]
      exact List.mem_append_right _ (List.mem_append_left _ hx)
    have hunopened : ∀ v₁ v₂, v = v₁ ++ v₂ → v₁ ≠ [] → v₂ ≠ [] →
        opens (v₂ ++ (blank' ++ '(' :: (after ++ rest))) = false := by
      intro v₁ v₂ heq h₁ h₂
      rw [Bool.eq_false_iff]
      intro h
      have hassoc : v₂ ++ (blank' ++ '(' :: (after ++ rest)) = (v₂ ++ (blank' ++ '(' :: after)) ++ rest := by
        simp only [List.append_assoc, List.cons_append]
      rw [hassoc] at h
      have hline' := opens_append h ⟨'(', by simp, by decide⟩
      rw [hno v₁ v₂ heq h₁ h₂] at hline'
      cases hline'
    rw [htext]
    refine ⟨⟨some '(', after ++ rest⟩, [(1, v)], ((name ++ ":").toList ++ (blank ++ (v ++ blank'))) ++
      ['('], [], ?_, rfl, ?_,
      ?_, by simp⟩
    · refine go_labelled hb hblne hblank hhead' ?_
      rw [List.foldr_cons, Pattern.go_seq, Pattern.go_group]
      refine Pattern.go_many1Lazy_first hne (fun x hx => decide_eq_true (hvline x hx)) ?_ ?_
      · intro v₁ v₂ heq h₁ h₂
        exact go_tail_none (hunopened v₁ v₂ heq h₁ h₂) _
      · refine go_tail_some hne' hblank' _ ?_
        rw [Pattern.upTo_append]
    · refine ⟨?_, ?_⟩
      · simp only [List.append_assoc, List.cons_append, List.nil_append, List.append_nil]
      · rw [List.append_nil, List.getLast?_concat]
        rfl
    · obtain ⟨-, -, -, -, hplain⟩ := hword
      rw [hsplit] at hline
      simp only [List.mem_append, List.mem_cons, List.not_mem_nil, or_false] at hline ⊢
      tauto
  · cases hv

/-- `a` captures one word. -/
structure IsWord (a : Pattern) : Prop where
  plain : a.plain = true
  word  : ∀ {w : List Char}, Matches a w → w ≠ [] ∧ ∀ x ∈ w, isSpace x = false

/-- What a match of a label and one word has taken. -/
theorem run_word {label : String} {a : Pattern} (ha : IsWord a) {c d : Cursor} {s : Captures}
    (h : Run (.all [.bol, .text label, .many1 space, .group 1 a, .many space, .eol]) c [] d s) :
    ∃ blank w tail, Eats c (label.toList ++ (blank ++ (w ++ tail))) d ∧ s = [(1, w)] ∧ blank ≠ [] ∧
      (∀ x ∈ blank, isSpace x = true) ∧ Matches a w ∧ (∀ x ∈ tail, isSpace x = true) ∧ ∀ x ∈ d.rest.head?, x = '\n' := by
  obtain ⟨c₁, t₁, hbol, h₁⟩ := Pattern.run_seq.1 h
  obtain ⟨rfl, rfl, -⟩ := Pattern.run_bol.1 hbol
  obtain ⟨c₂, t₂, htext, h₂⟩ := Pattern.run_seq.1 h₁
  obtain ⟨rfl, hlabel⟩ := Pattern.run_text.1 htext
  obtain ⟨c₃, t₃, hspace, h₃⟩ := Pattern.run_seq.1 h₂
  obtain ⟨rfl, blank, hne, hblank, hskip⟩ := Pattern.run_many1_one.1 hspace
  obtain ⟨c₄, t₄, hgroup, h₄⟩ := Pattern.run_seq.1 h₃
  obtain ⟨t₅, hword, rfl⟩ := Pattern.run_group.1 hgroup
  obtain ⟨rfl, w, hw, heats⟩ := (Pattern.run_plain ha.plain).1 hword
  obtain ⟨c₅, t₆, htail, h₅⟩ := Pattern.run_seq.1 h₄
  obtain ⟨rfl, tail, hblanks, htaken⟩ := Pattern.run_many_one.1 htail
  obtain ⟨c₆, t₇, heol, h₆⟩ := Pattern.run_seq.1 h₅
  obtain ⟨rfl, rfl, hend⟩ := Pattern.run_eol.1 heol
  obtain ⟨rfl, rfl⟩ := Pattern.run_empty.1 h₆
  refine ⟨blank, w, tail, hlabel.append (hskip.append (heats.append htaken)), by rw [heats.upTo], hne, hblank, hw,
    hblanks, ?_⟩
  intro x hx
  rw [hx] at hend
  exact of_decide_eq_true hend

theorem newline_isSpace : isSpace '\n' = true := by decide

/-- A word after white space, up to white space, is in one place of a text only. -/
theorem word_unique {blank blank' w w' t t' : List Char} (hblank : ∀ x ∈ blank, isSpace x = true)
    (hblank' : ∀ x ∈ blank', isSpace x = true) (hw : w ≠ [] ∧ ∀ x ∈ w, isSpace x = false)
    (hw' : w' ≠ [] ∧ ∀ x ∈ w', isSpace x = false) (ht : ∀ x ∈ t.head?, isSpace x = true)
    (ht' : ∀ x ∈ t'.head?, isSpace x = true) (h : blank ++ (w ++ t) = blank' ++ (w' ++ t')) :
    blank = blank' ∧ w = w' := by
  have hsplit : ∀ {blank w t : List Char}, (∀ x ∈ blank, isSpace x = true) → w ≠ [] → (∀ x ∈ w, isSpace x = false) →
      (∀ x ∈ t.head?, isSpace x = true) → (blank ++ (w ++ t)).takeWhile isSpace = blank ∧
        ((blank ++ (w ++ t)).dropWhile isSpace).takeWhile (fun x => !isSpace x) = w := by
    intro blank w t hblank hne hw ht
    have hneg : ∀ x ∈ w, (!isSpace x) = true := fun x hx => by rw [hw x hx]; rfl
    obtain ⟨x, w, rfl⟩ := List.exists_cons_of_ne_nil hne
    rw [List.takeWhile_append_of_pos hblank, List.dropWhile_append_of_pos hblank]
    have hx : isSpace x = false := hw x List.mem_cons_self
    have hstop : (x :: w ++ t).takeWhile isSpace = [] ∧ (x :: w ++ t).dropWhile isSpace = x :: w ++ t := by simp [hx]
    rw [hstop.1, hstop.2, List.takeWhile_append_of_pos hneg]
    refine ⟨List.append_nil _, ?_⟩
    cases t with
    | nil => simp
    | cons y t => simp [ht y rfl]
  obtain ⟨h₁, h₂⟩ := hsplit hblank hw.1 hw.2 ht
  obtain ⟨h₁', h₂'⟩ := hsplit hblank' hw'.1 hw'.2 ht'
  rw [h] at h₁ h₂
  exact ⟨h₁.symm.trans h₁', h₂.symm.trans h₂'⟩

theorem head?_isSpace {tail rest : List Char} (htail : ∀ x ∈ tail, isSpace x = true) (hrest : ∀ x ∈ rest.head?, x = '\n') :
    ∀ x ∈ (tail ++ rest).head?, isSpace x = true := by
  intro x hx
  cases tail with
  | nil =>
    rw [hrest x hx]
    exact newline_isSpace
  | cons y tail =>
    cases hx
    exact htail x List.mem_cons_self

/-- **A word pattern reads the lines of its label.** -/
theorem reads_word {label : String} {a : Pattern} {value : List Char → Option (List Char)} (ha : IsWord a)
    (hword : ∃ x l, label.toList = x :: l ∧ isSpace x = false ∧ '\n' ∉ label.toList)
    (hvalue : ∀ {line v}, value line = some v → wordValue line = some v ∧ Matches a v) :
    Reads (.all [.bol, .text label, .many1 space, .group 1 a, .many space, .eol]) ⟨label, value⟩ := by
  refine ⟨Pattern.anchored_seq _, hword, run_labelled, ?_⟩
  intro b line rest v hb hline hrest hv
  obtain ⟨hv, hmatches⟩ := hvalue hv
  unfold wordValue at hv
  split at hv
  · rename_i hhead
    dsimp only at hv
    split at hv
    · rename_i hfits
      cases hv
      obtain ⟨hne, htail⟩ := hfits
      have htail := List.all_eq_true.1 htail
      have hblne := head?_any_of_ne_nil hhead
      have hblank : ∀ x ∈ line.takeWhile isSpace, isSpace x = true := fun x hx => List.mem_takeWhile_imp hx
      have hsplit : line = line.takeWhile isSpace ++ ((line.dropWhile isSpace).takeWhile (fun c => !isSpace c) ++
          (line.dropWhile isSpace).dropWhile (fun c => !isSpace c)) := by
        rw [List.takeWhile_append_dropWhile, List.takeWhile_append_dropWhile]
      generalize line.takeWhile isSpace = blank at hsplit hblne hblank
      generalize (line.dropWhile isSpace).takeWhile (fun c => !isSpace c) = w at *
      generalize (line.dropWhile isSpace).dropWhile (fun c => !isSpace c) = tail at *
      have htext : label.toList ++ (line ++ rest) = label.toList ++ (blank ++ (w ++ (tail ++ rest))) := by
        rw [hsplit]
        simp only [List.append_assoc]
      rw [htext]
      -- there is a run to the end of the line, so the engine has a match
      have hrun : ∃ d s, Run (.all [.bol, .text label, .many1 space, .group 1 a, .many space, .eol])
          ⟨b, label.toList ++ (blank ++ (w ++ (tail ++ rest)))⟩ [] d s := by
        have hall : Eats ⟨b, label.toList ++ (blank ++ (w ++ (tail ++ rest)))⟩ (label.toList ++ (blank ++ (w ++ tail)))
            ⟨(label.toList ++ (blank ++ (w ++ tail))).getLast?.or b, rest⟩ :=
          ⟨by simp only [List.append_assoc], rfl⟩
        obtain ⟨c₁, h₁, hall⟩ := Pattern.eats_append_iff.1 hall
        obtain ⟨c₂, h₂, hall⟩ := Pattern.eats_append_iff.1 hall
        obtain ⟨c₃, h₃, h₄⟩ := Pattern.eats_append_iff.1 hall
        have hend : rest.head?.all (fun x => decide (x = '\n')) = true := by
          cases rest with
          | nil => rfl
          | cons x rest => simp [hrest x rfl]
        exact ⟨_, _, .seq (.bol hb) (.seq (Pattern.run_text.2 ⟨rfl, h₁⟩) (.seq (Pattern.run_many1_one.2
          ⟨rfl, blank, hblne, hblank, h₂⟩) (.seq (.group ((Pattern.run_plain ha.plain).2 ⟨rfl, w, hmatches, h₃⟩))
            (.seq (Pattern.run_many_one.2 ⟨rfl, tail, htail, h₄⟩) (.seq (.eol hend) .empty)))))⟩
      obtain ⟨⟨d, s⟩, hm⟩ := Option.isSome_iff_exists.1 (Pattern.matchAt_isSome_iff.2 hrun)
      obtain ⟨blank', w', tail', heats, rfl, hne', hblank', hw', htail', hend'⟩ := run_word ha (Pattern.matchAt_run hm)
      have hrests : blank ++ (w ++ (tail ++ rest)) = blank' ++ (w' ++ (tail' ++ d.rest)) := by
        have hall := heats.rest
        simp only [List.append_assoc] at hall
        exact List.append_cancel_left hall
      obtain ⟨rfl, rfl⟩ := word_unique hblank hblank' (ha.word hmatches) (ha.word hw') (head?_isSpace htail hrest)
        (head?_isSpace htail' hend') hrests
      refine ⟨d, _, label.toList ++ (blank ++ w), tail', hm, rfl, ?_, ?_, htail'⟩
      · rw [List.append_assoc, List.append_assoc]
        exact heats
      · obtain ⟨-, -, -, -, hplain⟩ := hword
        rw [hsplit] at hline
        simp only [List.mem_append] at hline ⊢
        tauto
    · cases hv
  · cases hv

theorem isWord_number : IsWord numberPattern := by
  refine ⟨numberPattern_plain, fun hw => ⟨number_ne_nil hw, fun x hx => ?_⟩⟩
  rw [Bool.eq_false_iff]
  intro hspace
  have hnumeric := number_numeric hw x hx
  rw [isNumeric_of_isSpace hspace] at hnumeric
  cases hnumeric

theorem isWord_nonSpace : IsWord (.many1 nonSpace) := by
  refine ⟨rfl, fun hw => ?_⟩
  obtain ⟨hne, hall⟩ := matches_many1_one hw
  exact ⟨hne, fun x hx => by simpa using hall x hx⟩

theorem wordValue_matches {line v : List Char} (h : wordValue line = some v) :
    wordValue line = some v ∧ Matches (.many1 nonSpace) v := by
  refine ⟨h, ?_⟩
  unfold wordValue at h
  split at h
  · dsimp only at h
    split at h
    · rename_i hfits
      cases h
      refine Pattern.matches_many1 hfits.1 (fun x hx => ?_)
      have hneg := List.mem_takeWhile_imp hx
      exact hneg
    · cases h
  · cases h

theorem numberValue_matches {line v : List Char} (h : numberValue line = some v) :
    wordValue line = some v ∧ Matches numberPattern v := by
  obtain ⟨hword, hnumber⟩ := Option.filter_eq_some_iff.1 h
  exact ⟨hword, (Pattern.fullmatch_plain numberPattern_plain).1 hnumber⟩

/-- A number after white space is its value. -/
theorem numberValue_blank {blank w : List Char} (hblank : ∀ x ∈ blank, isSpace x = true) (hne : blank ≠ [])
    (hw : Matches numberPattern w) : numberValue (blank ++ w) = some w := by
  obtain ⟨hwne, hns⟩ := isWord_number.word hw
  have hneg : ∀ x ∈ w, (!isSpace x) = true := fun x hx => by rw [hns x hx]; rfl
  have hdrop : (blank ++ w).dropWhile isSpace = w := by
    obtain ⟨y, w, rfl⟩ := List.exists_cons_of_ne_nil hwne
    rw [List.dropWhile_append_of_pos hblank, List.dropWhile_cons_of_neg (by simp [hns y])]
  have htake : w.takeWhile (fun c => !isSpace c) = w := List.takeWhile_eq_self_iff.2 hneg
  have hrest : w.dropWhile (fun c => !isSpace c) = [] := List.dropWhile_eq_nil_iff.2 hneg
  have hword : wordValue (blank ++ w) = some w := by
    obtain ⟨x, blank, rfl⟩ := List.exists_cons_of_ne_nil hne
    have hhead : (x :: blank ++ w).head?.any isSpace = true := hblank x List.mem_cons_self
    unfold wordValue
    rw [if_pos hhead, hdrop]
    dsimp only
    rw [htake, hrest, if_pos ⟨hwne, rfl⟩]
  unfold numberValue
  rw [hword, Option.filter_some, if_pos ((Pattern.fullmatch_plain numberPattern_plain).2 hw)]

theorem reads_startpoint : Reads (pointPattern "Startpoint") startpointLabel :=
  reads_point "Startpoint" ⟨'S', _, rfl, by decide, by decide⟩

theorem reads_endpoint : Reads (pointPattern "Endpoint") endpointLabel :=
  reads_point "Endpoint" ⟨'E', _, rfl, by decide, by decide⟩

theorem reads_pathGroup : Reads (wordPattern "Path Group") pathGroupLabel :=
  reads_word isWord_nonSpace ⟨'P', _, rfl, by decide, by decide⟩ wordValue_matches

theorem reads_pathType : Reads (wordPattern "Path Type") pathTypeLabel :=
  reads_word isWord_nonSpace ⟨'P', _, rfl, by decide, by decide⟩ wordValue_matches

theorem reads_worst : Reads worstPattern worstLabel :=
  reads_word isWord_number ⟨'w', _, rfl, by decide, by decide⟩ numberValue_matches

end EdaLab
