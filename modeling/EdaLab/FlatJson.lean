import EdaLab.PyValue
/-!
# FlatJson — an object of texts and numbers is read back

What `json.dumps` writes of a dictionary of texts and numbers, `json.loads` reads as the same dictionary, the texts with
their surrogate pairs joined: an integer as that integer, a float to the last bit and with the sign of its zero
(`loads_flat`).  No value is written as the beginning of another, so two such dictionaries are written alike only if their
values are (`flat_unique`).
-/
namespace EdaLab

open Json (Ends)

theorem Numeral.ofInt_wf (i : Int) : (ofInt i).Wf where
  whole := by
    unfold ofInt
    by_cases hi : i = 0
    · exact Or.inl (if_pos hi)
    · right
      simp only [if_neg hi]
      exact ⟨digitsOf_ne_nil (Int.natAbs_pos.2 hi), digitsOf_head (Int.natAbs_pos.2 hi)⟩
  lt_ten := by
    intro d hd
    unfold ofInt at hd
    by_cases hi : i = 0
    · simp only [if_pos hi, List.mem_singleton] at hd
      omega
    · simp only [if_neg hi] at hd
      exact digitsOf_lt_ten hd
  fraction := by simp [ofInt]
  exponent := by simp [ofInt]

theorem Numeral.ofInt_value (i : Int) :
    (if (ofInt i).negative then -(natOf (ofInt i).whole : Int) else natOf (ofInt i).whole) = i := by
  unfold ofInt
  by_cases hi : i = 0
  · subst hi
    rfl
  · simp only [if_neg hi, natOf_digitsOf, decide_eq_true_eq]
    split <;> omega

theorem Numeral.negZero_wf : negZero.Wf where
  whole := Or.inl rfl
  lt_ten := by simp [negZero]
  fraction := by simp [negZero]
  exponent := by simp [negZero]

/-! ## One value -/

namespace PyValue

/-- What is neither a list nor a dictionary, and is written to be read back: a float is a double. -/
def Scalar : PyValue → Prop
  | float (.finite q) => PyFloat.IsDouble q
  | array _           => False
  | object _          => False
  | _                 => True

/-- The value that comes back. -/
def readBack : PyValue → PyValue
  | str s => .str s.joined
  | v     => v

@[simp] theorem readBack_str (k : PyStr) : (str k).readBack = str k.joined := rfl

variable {f : Nat} {n : Numeral} {s t r : List Char} {v : PyValue}

theorem readLiteral_text (h : n.Wf) (s : List Char) : readLiteral (n.text ++ s) = none := by
  have hsame : literals.map (fun l => l.1) = Json.literals.map (fun l => l.1) := rfl
  have hnone : ∀ l ∈ literals, l.1.isPrefixOf (n.text ++ s) = false := by
    intro l hl
    obtain ⟨l', hl', heq⟩ := List.mem_map.1 (by rw [← hsame]; exact List.mem_map_of_mem hl)
    have hjson := Json.readLiteral_text h s
    rw [Json.readLiteral, Option.map_eq_none_iff, List.find?_eq_none] at hjson
    rw [← heq]
    exact Bool.eq_false_iff.2 (hjson l' hl')
  rw [readLiteral, List.find?_eq_none.2 (fun l hl => by rw [hnone l hl]; simp)]
  rfl

theorem readScalar_numeral (h : n.Wf) (hv : ofNumeral n = some v) (hs : Ends s) :
    readScalar (n.text ++ s) = some (v, s) := by
  rw [readScalar, readLiteral_text h, Json.readNumber_text h hs]
  simp [hv]

theorem ofNumeral_int {i : Int} (h : (Numeral.ofInt i).whole.length ≤ 4300) : ofNumeral (.ofInt i) = some (.int i) := by
  have hvalue := Numeral.ofInt_value i
  rw [ofNumeral, if_neg (by simp [Numeral.isFloat, Numeral.ofInt]), if_pos h, hvalue]

theorem ofNumeral_repr {q : ℚ} (h : PyFloat.IsDouble q) : ofNumeral (PyFloat.repr q) = some (.float (.finite q)) := by
  have hsign : ¬((PyFloat.repr q).negative = true ∧ q = 0) := by
    rintro ⟨hneg, rfl⟩
    simp [PyFloat.repr] at hneg
  rw [ofNumeral, if_pos (PyFloat.repr_isFloat q), PyFloat.repr_value h, PyDouble.signed, if_neg hsign]

theorem ofNumeral_negZero : ofNumeral .negZero = some (.float .negZero) := by
  have hvalue : Numeral.negZero.value = 0 := by simp [Numeral.value, Numeral.negZero, natOf]
  have hzero : PyFloat.ofRat 0 = .finite 0 := PyFloat.isDouble_zero
  have hfloat : Numeral.negZero.isFloat = true := rfl
  rw [ofNumeral, if_pos hfloat, hvalue, hzero]
  rfl

/-- A number does not start as a text, a list or a dictionary does. -/
theorem numeral_head (h : n.Wf) (s : List Char) : ∀ c ∈ (n.text ++ s).head?, c ≠ '"' ∧ c ≠ '[' ∧ c ≠ '{' := by
  obtain ⟨d, ds, hd, ht⟩ := Json.text_head h
  intro c hc
  by_cases hneg : n.negative = true
  · obtain rfl : '-' = c := by simpa [ht, hneg] using hc
    decide
  · obtain rfl : d.digitChar = c := by simpa [ht, hneg] using hc
    exact Json.digit_cases (P := fun c => c ≠ '"' ∧ c ≠ '[' ∧ c ≠ '{') (by decide) hd

theorem readValue_scalar (h : ∀ c ∈ s.head?, c ≠ '"' ∧ c ≠ '[' ∧ c ≠ '{') : readValue (f + 1) s = readScalar s := by
  cases s with
  | nil => rfl
  | cons c s =>
    obtain ⟨h₁, h₂, h₃⟩ := h c rfl
    rw [readValue]
    · rintro s' hc
      exact h₁ (List.cons.inj hc).1
    · rintro s' hc
      exact h₂ (List.cons.inj hc).1
    · rintro s' hc
      exact h₃ (List.cons.inj hc).1

theorem readPoints_quoted (k : PyStr) (s : List Char) :
    readPoints ((k.escaped ++ '"' :: s).length + 1) (k.escaped ++ '"' :: s) = some (k.joined, s) := by
  refine readPoints_escaped s k _ ?_
  have := length_escaped k
  rw [List.length_append]
  omega

/-- **A value is read back from what is written of it.** -/
theorem readValue_text {st : JsonStyle} (hv : v.Scalar) (ht : v.dumps st = some t) (hs : Ends s) :
    readValue (f + 1) (t ++ s) = some (v.readBack, s) ∧ Json.skipSpace (t ++ s) = t ++ s := by
  have hnumeral : ∀ n : Numeral, n.Wf → ofNumeral n = some v → n.text = t → v.readBack = v →
      readValue (f + 1) (t ++ s) = some (v.readBack, s) ∧ Json.skipSpace (t ++ s) = t ++ s := by
    rintro n hn hof rfl hback
    refine ⟨?_, Json.skipSpace_text hn s⟩
    rw [readValue_scalar (numeral_head hn s), readScalar_numeral hn hof hs, hback]
  cases v with
  | null => cases ht; exact ⟨rfl, rfl⟩
  | bool b => cases b <;> cases ht <;> exact ⟨rfl, rfl⟩
  | int i =>
    simp only [dumps] at ht
    split at ht
    · rename_i hlen
      exact hnumeral _ (Numeral.ofInt_wf i) (ofNumeral_int hlen) (Option.some.inj ht) rfl
    · cases ht
  | float x =>
    cases x with
    | finite q => exact hnumeral _ (PyFloat.repr_wf hv) (ofNumeral_repr hv) (Option.some.inj ht) rfl
    | negZero => exact hnumeral _ Numeral.negZero_wf ofNumeral_negZero (Option.some.inj ht) rfl
    | inf n => cases n <;> cases ht <;> exact ⟨rfl, rfl⟩
    | nan => cases ht; exact ⟨rfl, rfl⟩
  | str k =>
    cases ht
    have hread := readPoints_quoted k s
    refine ⟨?_, ?_⟩
    · simp only [PyStr.quoted, List.cons_append, List.append_assoc, List.nil_append, readValue, hread]
      rfl
    · rw [PyStr.quoted, List.cons_append, Json.skipSpace_cons (by decide)]
  | array l => cases hv
  | object m => cases hv

/-! ## A dictionary of such values -/

/-- A separator is its character and blanks. -/
structure Separates (st : JsonStyle) : Prop where
  comma : ∃ a, st.comma = ',' :: a ∧ ∀ c ∈ a, Json.isJsonSpace c = true
  colon : ∃ b, st.colon = ':' :: b ∧ ∀ c ∈ b, Json.isJsonSpace c = true

theorem compact_separates : Separates .compact := ⟨⟨[], rfl, by simp⟩, ⟨[], rfl, by simp⟩⟩

theorem spaced_separates : Separates .spaced := ⟨⟨[' '], rfl, by decide⟩, ⟨[' '], rfl, by decide⟩⟩

theorem skipSpace_blanks : ∀ {b : List Char}, (∀ c ∈ b, Json.isJsonSpace c = true) → ∀ s,
    Json.skipSpace (b ++ s) = Json.skipSpace s
  | [], _, _ => rfl
  | c :: b, h, s => by
    have hc := h c List.mem_cons_self
    rw [List.cons_append, Json.skipSpace, List.dropWhile_cons_of_pos hc]
    exact skipSpace_blanks (fun x hx => h x (List.mem_cons_of_mem c hx)) s

/-- A member as it comes back. -/
def memberBack (x : PyStr × PyValue) : PyStr × PyValue := (x.1.joined, x.2.readBack)

theorem ends_brace (s : List Char) : Ends ('}' :: s) := by
  intro c hc
  obtain rfl := Option.some.inj hc
  decide

theorem ends_comma (s : List Char) : Ends (',' :: s) := by
  intro c hc
  obtain rfl := Option.some.inj hc
  decide

section Members

variable {st : JsonStyle} {k : PyStr}

theorem readMembers_last (hst : Separates st) (hv : v.Scalar) (ht : v.dumps st = some t) (r : List Char) :
    readMembers (f + 2) (st.member (k, t) ++ '}' :: r) = some ([memberBack (k, v)], r) := by
  obtain ⟨b, hb, hblank⟩ := hst.colon
  obtain ⟨hread, hskip⟩ := readValue_text (f := f) hv ht (ends_brace r)
  have hkey := readPoints_quoted k (':' :: (b ++ (t ++ '}' :: r)))
  have hcolon := Json.skipSpace_cons (show Json.isJsonSpace ':' = false by decide) (b ++ (t ++ '}' :: r))
  have hbrace := Json.skipSpace_cons (show Json.isJsonSpace '}' = false by decide) r
  have hvalue : readValue (f + 1) (Json.skipSpace (b ++ (t ++ '}' :: r))) = some (v.readBack, '}' :: r) := by
    rw [skipSpace_blanks hblank, hskip, hread]
  simp only [JsonStyle.member, PyStr.quoted, hb, List.cons_append, List.append_assoc, List.nil_append, readMembers, hkey]
  simp [hcolon, hvalue, hbrace, memberBack]

theorem readMembers_cons {m : List (PyStr × PyValue)} {s : List Char} (hst : Separates st) (hv : v.Scalar)
    (ht : v.dumps st = some t) (hskip : Json.skipSpace s = s) (hm : readMembers (f + 1) s = some (m, r)) :
    readMembers (f + 2) (st.member (k, t) ++ (st.comma ++ s)) = some (memberBack (k, v) :: m, r) := by
  obtain ⟨a, ha, hblank⟩ := hst.comma
  obtain ⟨b, hb, hblank'⟩ := hst.colon
  obtain ⟨hread, hsame⟩ := readValue_text (f := f) hv ht (ends_comma (a ++ s))
  have hkey := readPoints_quoted k (':' :: (b ++ (t ++ ',' :: (a ++ s))))
  have hcolon := Json.skipSpace_cons (show Json.isJsonSpace ':' = false by decide) (b ++ (t ++ ',' :: (a ++ s)))
  have hcomma := Json.skipSpace_cons (show Json.isJsonSpace ',' = false by decide) (a ++ s)
  have hvalue : readValue (f + 1) (Json.skipSpace (b ++ (t ++ ',' :: (a ++ s)))) = some (v.readBack, ',' :: (a ++ s)) := by
    rw [skipSpace_blanks hblank', hsame, hread]
  have hrest : readMembers (f + 1) (Json.skipSpace (a ++ s)) = some (m, r) := by
    rw [skipSpace_blanks hblank, hskip, hm]
  change readMembers ((f + 1) + 1) _ = _
  generalize f + 1 = g at hvalue hrest
  simp only [JsonStyle.member, PyStr.quoted, ha, hb, List.cons_append, List.append_assoc, List.nil_append, readMembers, hkey]
  simp [hcolon, hvalue, hcomma, hrest, memberBack]

/-- The texts of the members of a dictionary, in their order. -/
inductive Texts (st : JsonStyle) : List (PyStr × PyValue) → List (PyStr × List Char) → Prop
  | nil : Texts st [] []
  | cons {k : PyStr} {v : PyValue} {t : List Char} {m : List (PyStr × PyValue)} {ts : List (PyStr × List Char)}
      (scalar : v.Scalar) (dumps_eq : v.dumps st = some t) (rest : Texts st m ts) : Texts st ((k, v) :: m) ((k, t) :: ts)

theorem readMembers_texts (hst : Separates st) {m : List (PyStr × PyValue)} {ts : List (PyStr × List Char)}
    (h : Texts st m ts) (hne : m ≠ []) (r : List Char) : ∀ f, m.length < f →
    readMembers f (st.comma.intercalate (ts.map st.member) ++ '}' :: r) = some (m.map memberBack, r) := by
  induction h with
  | nil => exact absurd rfl hne
  | @cons k v t m ts hv ht hrest ih =>
    intro f hf
    simp only [List.length_cons] at hf
    obtain ⟨f, rfl⟩ : ∃ g, f = g + 2 := ⟨f - 2, by omega⟩
    cases hrest with
    | nil =>
      rw [List.map_singleton, List.intercalate_singleton]
      exact readMembers_last hst hv ht r
    | @cons k' v' t' m ts hv' ht' hrest =>
      have hinner := ih (by simp) (f + 1) (by simp only [List.length_cons] at hf ⊢; omega)
      rw [List.map_cons, List.map_cons, List.intercalate_cons_cons, List.append_assoc, List.append_assoc]
      rw [List.map_cons] at hinner
      refine readMembers_cons hst hv ht ?_ hinner
      -- the next member starts with its key
      cases hts : ts.map st.member with
      | nil =>
        rw [List.intercalate_singleton, JsonStyle.member, PyStr.quoted, List.cons_append, List.cons_append,
          Json.skipSpace_cons (by decide)]
      | cons x xs =>
        rw [List.intercalate_cons_cons, JsonStyle.member, PyStr.quoted, List.cons_append, List.cons_append,
          List.cons_append, List.cons_append, Json.skipSpace_cons (by decide)]

/-- A dictionary as it is written. -/
def objectText (st : JsonStyle) (ts : List (PyStr × List Char)) : List Char :=
  '{' :: (st.comma.intercalate (ts.map st.member) ++ ['}'])

theorem length_texts {m : List (PyStr × PyValue)} {ts : List (PyStr × List Char)} (h : Texts st m ts) :
    m.length ≤ (st.comma.intercalate (ts.map st.member)).length := by
  induction h with
  | nil => simp
  | @cons k v t m ts hv ht hrest ih =>
    have hone : 1 ≤ (st.member (k, t)).length := by
      simp only [JsonStyle.member, PyStr.quoted, List.length_append, List.length_cons]
      omega
    cases hrest with
    | nil => simpa using hone
    | cons _ _ hrest =>
      rw [List.map_cons, List.map_cons, List.intercalate_cons_cons, List.length_append, List.length_append]
      rw [List.map_cons] at ih
      simp only [List.length_cons] at ih ⊢
      omega

/-- **A dictionary of texts and numbers is read back.** -/
theorem loads_flat (hst : Separates st) {m : List (PyStr × PyValue)} {ts : List (PyStr × List Char)} (h : Texts st m ts)
    (hne : m ≠ []) : loads (objectText st ts) = some (.object (dict (m.map memberBack))) := by
  have hlen := length_texts h
  have hread := readMembers_texts hst h hne [] ((objectText st ts).length) (by
    simp only [objectText, List.length_cons, List.length_append]
    omega)
  have hquote : ∃ s, st.comma.intercalate (ts.map st.member) ++ ['}'] = '"' :: s := by
    cases h with
    | nil => exact absurd rfl hne
    | @cons k v t m ts _ _ hrest =>
      rw [List.map_cons]
      cases ts.map st.member with
      | nil => exact ⟨_, by rw [List.intercalate_singleton, JsonStyle.member, PyStr.quoted]; rfl⟩
      | cons x xs => exact ⟨_, by rw [List.intercalate_cons_cons, JsonStyle.member, PyStr.quoted]; rfl⟩
  obtain ⟨s, hs⟩ := hquote
  have hskip : Json.skipSpace ('"' :: s) = '"' :: s := Json.skipSpace_cons (by decide) s
  have hvalue : readValue ((objectText st ts).length + 1) (objectText st ts) =
    some (.object (dict (m.map memberBack)), []) := by
    generalize (objectText st ts).length = f at hread ⊢
    rw [hs] at hread
    have hread' : (readMembers f ('"' :: s)).bind (fun x => some (PyValue.object (dict x.1), x.2)) =
        some (.object (dict (m.map memberBack)), []) := by
      rw [hread]
      rfl
    rw [objectText, hs, readValue, hskip]
    exact hread'
  rw [loads, objectText, Json.skipSpace_cons (by decide), ← objectText, hvalue]
  rfl

/-- **Two dictionaries that are written alike come back alike**, and with as many members. -/
theorem flat_unique (hst : Separates st) {m m' : List (PyStr × PyValue)} {ts ts' : List (PyStr × List Char)}
    (h : Texts st m ts) (h' : Texts st m' ts') (hne : m ≠ []) (hne' : m' ≠ []) (heq : objectText st ts = objectText st ts') :
    m.map memberBack = m'.map memberBack := by
  have hread := readMembers_texts hst h hne [] (m.length + m'.length + 1) (by omega)
  have hread' := readMembers_texts hst h' hne' [] (m.length + m'.length + 1) (by omega)
  have hbody : st.comma.intercalate (ts.map st.member) ++ ['}'] = st.comma.intercalate (ts'.map st.member) ++ ['}'] :=
    (List.cons.inj heq).2
  rw [hbody, hread'] at hread
  exact (Prod.mk.inj (Option.some.inj hread)).1.symm

/-- What `json.dumps` writes of a dictionary of such values are the texts of its members. -/
theorem texts_of_dumpsMembers : ∀ {m : List (PyStr × PyValue)} {ts : List (PyStr × List Char)},
    (∀ x ∈ m, x.2.Scalar) → dumpsMembers st m = some ts → Texts st m ts
  | [], _, _, h => by
    cases h
    exact .nil
  | (k, v) :: m, ts, hm, h => by
    rw [dumpsMembers, Option.bind_eq_some_iff] at h
    obtain ⟨t, ht, h⟩ := h
    obtain ⟨ts, hts, rfl⟩ := Option.map_eq_some_iff.1 h
    exact .cons (hm _ List.mem_cons_self) ht
      (texts_of_dumpsMembers (fun x hx => hm x (List.mem_cons_of_mem _ hx)) hts)

theorem setItem_new {v : PyValue} : ∀ {d : List (PyStr × PyValue)}, k ∉ d.map (·.1) → setItem k v d = d ++ [(k, v)]
  | [], _ => rfl
  | (j, w) :: d, h => by
    rw [List.map_cons, List.mem_cons, not_or] at h
    rw [setItem, if_neg (Ne.symm h.1), setItem_new h.2, List.cons_append]

/-- Members with different names are a dictionary. -/
theorem dict_of_nodup {m : List (PyStr × PyValue)} (h : (m.map (·.1)).Nodup) : dict m = m := by
  suffices hd : ∀ d, ((d ++ m).map (·.1)).Nodup → m.foldl (fun d x => setItem x.1 x.2 d) d = d ++ m from hd [] h
  induction m with
  | nil => exact fun d _ => (List.append_nil d).symm
  | cons x m ih =>
    intro d hd
    have hx : x.1 ∉ d.map (·.1) := by
      rw [List.map_append, List.map_cons] at hd
      exact fun hmem => (List.nodup_append.1 hd).2.2 _ hmem _ List.mem_cons_self rfl
    have hd' : ((d ++ [x] ++ m).map (·.1)).Nodup := by
      rw [List.append_assoc]
      exact hd
    rw [List.foldl_cons, setItem_new hx, ih (List.nodup_cons.1 h).2 (d ++ [x]) hd', List.append_assoc, List.singleton_append]

end Members

end PyValue

end EdaLab
