import EdaLab.Numeral
/-!
# PyJson — `json.loads`, and what `json.dumps` writes of a text

The reader follows Python's scanner: `NaN` and the infinities are literals, a number is an `int` unless it has a fraction
or an exponent, and what cannot be read is `none`, Python's `ValueError`.  An escape of a surrogate that is half of no pair
cannot be read either: Python keeps it, but no text of Lean has one.  `readString_escaped` says that a text is read back
from what `ensure_ascii` writes of it.
-/
namespace EdaLab

inductive Json
  | null
  | bool (b : Bool)
  | int (i : Int)
  | float (x : PyFloat)
  | str (s : String)
  | array (l : List Json)
  | object (members : List (String × Json))

namespace Json

/-! ## Equality -/

mutual

def same : Json → Json → Bool
  | .null, .null         => true
  | .bool a, .bool b     => decide (a = b)
  | .int a, .int b       => decide (a = b)
  | .float a, .float b   => decide (a = b)
  | .str a, .str b       => decide (a = b)
  | .array l, .array m   => sameItems l m
  | .object l, .object m => sameMembers l m
  | _, _                 => false

def sameItems : List Json → List Json → Bool
  | [], []         => true
  | a :: l, b :: m => same a b && sameItems l m
  | _, _           => false

def sameMembers : List (String × Json) → List (String × Json) → Bool
  | [], []                   => true
  | (k, a) :: l, (n, b) :: m => decide (k = n) && same a b && sameMembers l m
  | _, _                     => false

end

mutual

theorem same_iff : ∀ a b, same a b = true ↔ a = b
  | .null, b     => by cases b <;> simp [same]
  | .bool a, b   => by cases b <;> simp [same]
  | .int a, b    => by cases b <;> simp [same]
  | .float a, b  => by cases b <;> simp [same]
  | .str a, b    => by cases b <;> simp [same]
  | .array l, b  => by cases b <;> simp [same, sameItems_iff l]
  | .object l, b => by cases b <;> simp [same, sameMembers_iff l]

theorem sameItems_iff : ∀ l m, sameItems l m = true ↔ l = m
  | [], m     => by cases m <;> simp [sameItems]
  | a :: l, m => by cases m <;> simp [sameItems, same_iff a, sameItems_iff l]

theorem sameMembers_iff : ∀ l m, sameMembers l m = true ↔ l = m
  | [], m          => by cases m <;> simp [sameMembers]
  | (k, a) :: l, m => by cases m <;> simp [sameMembers, same_iff a, sameMembers_iff l, Prod.ext_iff]

end

instance : DecidableEq Json := fun a b => decidable_of_iff _ (same_iff a b)

/-! ## Texts -/

def hexDigit (n : Nat) : Char := "0123456789abcdef".toList.getD n '0'

def hexValue (c : Char) : Option Nat :=
  if '0' ≤ c ∧ c ≤ '9' then some (c.toNat - 48)
  else if 'a' ≤ c ∧ c ≤ 'f' then some (c.toNat - 87)
  else if 'A' ≤ c ∧ c ≤ 'F' then some (c.toNat - 55)
  else none

/-- `\uXXXX`. -/
def unicodeEscape (n : Nat) : List Char :=
  ['\\', 'u', hexDigit (n / 4096), hexDigit (n / 256 % 16), hexDigit (n / 16 % 16), hexDigit (n % 16)]

/-- The escapes of one letter. -/
def letterEscapes : List (Char × Char) :=
  [('"', '"'), ('\\', '\\'), ('\n', 'n'), ('\r', 'r'), ('\t', 't'), (Char.ofNat 12, 'f'), (Char.ofNat 8, 'b')]

/-- One character of a text, as `ensure_ascii` writes it: from `U+10000` on as a surrogate pair. -/
def escape (c : Char) : List Char :=
  match letterEscapes.find? (fun p => decide (p.1 = c)) with
  | some p => ['\\', p.2]
  | none =>
    if ' ' ≤ c ∧ c ≤ '~' then [c]
    else if c.toNat < 0x10000 then unicodeEscape c.toNat
    else
      unicodeEscape (0xD800 + (c.toNat - 0x10000) / 1024) ++ unicodeEscape (0xDC00 + (c.toNat - 0x10000) % 1024)

/-- A text as `json.dumps` writes it. -/
def quoted (s : String) : List Char := '"' :: (s.toList.flatMap escape ++ ['"'])

/-- The four hexadecimal digits of a `\u`. -/
def readHex : List Char → Option (Nat × List Char)
  | a :: b :: c :: d :: s =>
    match hexValue a, hexValue b, hexValue c, hexValue d with
    | some a, some b, some c, some d => some (a * 4096 + b * 256 + c * 16 + d, s)
    | _, _, _, _                     => none
  | _ => none

/-- What follows `\u`. -/
def readUnicode (s : List Char) : Option (Char × List Char) :=
  match readHex s with
  | none        => none
  | some (u, r) =>
    if 0xD800 ≤ u ∧ u < 0xDC00 then
      match r with
      | '\\' :: 'u' :: r =>
        match readHex r with
        | none        => none
        | some (l, r) =>
          if 0xDC00 ≤ l ∧ l < 0xE000 then some (Char.ofNat (0x10000 + (u - 0xD800) * 1024 + (l - 0xDC00)), r) else none
      | _ => none
    else if 0xDC00 ≤ u ∧ u < 0xE000 then none
    else some (Char.ofNat u, r)

/-- What follows a backslash. -/
def readEscape : List Char → Option (Char × List Char)
  | []       => none
  | 'u' :: s => readUnicode s
  | '/' :: s => some ('/', s)
  | e :: s   => (letterEscapes.find? (fun p => decide (p.2 = e))).map (fun p => (p.1, s))

/-- One character of a text, up to the closing quote; a control character has to be escaped. -/
def readChar : List Char → Option (Char × List Char)
  | []        => none
  | '\\' :: s => readEscape s
  | c :: s    => if c.toNat < 32 then none else some (c, s)

/-- A text after its opening quote. -/
def readString : Nat → List Char → Option (List Char × List Char)
  | 0, _          => none
  | _ + 1, '"' :: s => some ([], s)
  | f + 1, s      => do
    let (c, r) ← readChar s
    let (cs, r) ← readString f r
    return (c :: cs, r)

/-! ## Values -/

def isJsonSpace (c : Char) : Bool := decide (c = ' ' ∨ c = '\t' ∨ c = '\n' ∨ c = '\r')

def skipSpace (s : List Char) : List Char := s.dropWhile isJsonSpace

/-- A literal, and its value. -/
def literals : List (List Char × Json) :=
  [("null".toList, .null), ("true".toList, .bool true), ("false".toList, .bool false), ("NaN".toList, .float .nan),
    ("Infinity".toList, .float (.inf false)), ("-Infinity".toList, .float (.inf true))]

def readLiteral (s : List Char) : Option (Json × List Char) :=
  (literals.find? (fun l => l.1.isPrefixOf s)).map (fun l => (l.2, s.drop l.1.length))

/-- `int` refuses more than 4300 digits. -/
def ofNumeral (n : Numeral) : Option Json :=
  if n.isFloat then some (.float (.ofRat n.value))
  else if n.whole.length ≤ 4300 then some (.int (if n.negative then -(natOf n.whole : Int) else natOf n.whole))
  else none

def readScalar (s : List Char) : Option (Json × List Char) :=
  match readLiteral s with
  | some r => some r
  | none   => do
    let (n, r) ← readNumber s
    let v ← ofNumeral n
    return (v, r)

mutual

/-- A value at the start of a text, and what follows it. -/
def readValue : Nat → List Char → Option (Json × List Char)
  | 0, _     => none
  | f + 1, s =>
    match s with
    | '"' :: s => do
      let (t, r) ← readString (s.length + 1) s
      return (.str (String.ofList t), r)
    | '[' :: s =>
      match skipSpace s with
      | ']' :: r => some (.array [], r)
      | s        => do
        let (l, r) ← readElements f s
        return (.array l, r)
    | '{' :: s =>
      match skipSpace s with
      | '}' :: r => some (.object [], r)
      | s        => do
        let (m, r) ← readMembers f s
        return (.object m, r)
    | s => readScalar s

def readElements : Nat → List Char → Option (List Json × List Char)
  | 0, _     => none
  | f + 1, s => do
    let (v, r) ← readValue f s
    match skipSpace r with
    | ']' :: r => return ([v], r)
    | ',' :: r => do
      let (l, r) ← readElements f (skipSpace r)
      return (v :: l, r)
    | _ => none

def readMembers : Nat → List Char → Option (List (String × Json) × List Char)
  | 0, _     => none
  | f + 1, s =>
    match s with
    | '"' :: s => do
      let (k, r) ← readString (s.length + 1) s
      match skipSpace r with
      | ':' :: r => do
        let (v, r) ← readValue f (skipSpace r)
        match skipSpace r with
        | '}' :: r => return ([(String.ofList k, v)], r)
        | ',' :: r => do
          let (m, r) ← readMembers f (skipSpace r)
          return ((String.ofList k, v) :: m, r)
        | _ => none
      | _ => none
    | _ => none

end

/-- `json.loads`. -/
def loads (s : List Char) : Option Json := do
  let (v, r) ← readValue (s.length + 1) (skipSpace s)
  if skipSpace r = [] then some v else none

/-- `raw[key]` of an object: the last member of that name. -/
def member (members : List (String × Json)) (key : String) : Option Json :=
  (members.reverse.find? (fun m => decide (m.1 = key))).map (·.2)

/-! ## A text is read back -/

theorem hexDigit_value {n : Nat} (h : n < 16) : hexValue (hexDigit n) = some n := by
  have hall : ∀ i : Fin 16, hexValue (hexDigit i.val) = some i.val := by decide +kernel
  exact hall ⟨n, h⟩

theorem readHex_digits {n : Nat} (h : n < 65536) (s : List Char) :
    readHex (hexDigit (n / 4096) :: hexDigit (n / 256 % 16) :: hexDigit (n / 16 % 16) :: hexDigit (n % 16) :: s) =
      some (n, s) := by
  have hsum : n / 4096 * 4096 + n / 256 % 16 * 256 + n / 16 % 16 * 16 + n % 16 = n := by omega
  rw [readHex, hexDigit_value (by omega), hexDigit_value (by omega), hexDigit_value (by omega),
    hexDigit_value (by omega)]
  simp only [hsum]

/-- No character is a surrogate. -/
theorem toNat_valid (c : Char) : c.toNat < 0xD800 ∨ 0xDFFF < c.toNat ∧ c.toNat < 0x110000 := c.valid

theorem readEscape_letter {p : Char × Char} (h : p ∈ letterEscapes) (s : List Char) :
    readEscape (p.2 :: s) = some (p.1, s) := by
  simp only [letterEscapes, List.mem_cons, List.not_mem_nil, or_false] at h
  rcases h with rfl | rfl | rfl | rfl | rfl | rfl | rfl <;> rfl

theorem readChar_unicode (n : Nat) (s : List Char) : readChar (unicodeEscape n ++ s) =
    readUnicode (hexDigit (n / 4096) :: hexDigit (n / 256 % 16) :: hexDigit (n / 16 % 16) :: hexDigit (n % 16) :: s) := rfl

theorem readUnicode_plane {n : Nat} (h : n < 0x10000) (hs : n < 0xD800 ∨ 0xDFFF < n) (s : List Char) :
    readUnicode (hexDigit (n / 4096) :: hexDigit (n / 256 % 16) :: hexDigit (n / 16 % 16) :: hexDigit (n % 16) :: s) =
      some (Char.ofNat n, s) := by
  rw [readUnicode, readHex_digits h]
  simp only
  rw [if_neg (by omega), if_neg (by omega)]

theorem readUnicode_pair {u l : Nat} (hu : 0xD800 ≤ u ∧ u < 0xDC00) (hl : 0xDC00 ≤ l ∧ l < 0xE000) (s : List Char) :
    readUnicode (hexDigit (u / 4096) :: hexDigit (u / 256 % 16) :: hexDigit (u / 16 % 16) :: hexDigit (u % 16) ::
      (unicodeEscape l ++ s)) = some (Char.ofNat (0x10000 + (u - 0xD800) * 1024 + (l - 0xDC00)), s) := by
  have hlow := readHex_digits (by omega : l < 65536) s
  rw [readUnicode, readHex_digits (by omega)]
  simp only [unicodeEscape, List.cons_append, List.nil_append]
  rw [if_pos hu, hlow]
  simp only
  rw [if_pos hl]

theorem readChar_escape (c : Char) (s : List Char) : readChar (escape c ++ s) = some (c, s) := by
  unfold escape
  cases hl : letterEscapes.find? (fun p => decide (p.1 = c)) with
  | some p =>
    have hc : p.1 = c := by simpa using List.find?_some hl
    rw [← hc]
    exact readEscape_letter (List.mem_of_find?_eq_some hl) s
  | none =>
    have hvalid := toNat_valid c
    by_cases hprint : ' ' ≤ c ∧ c ≤ '~'
    · have hback : c ≠ '\\' := by
        rintro rfl
        revert hl
        decide
      have hlow : ¬ c.toNat < 32 := not_lt.2 hprint.1
      simp only [if_pos hprint, List.cons_append, List.nil_append]
      rw [readChar, if_neg hlow]
      exact hback
    · rw [if_neg hprint]
      by_cases hplane : c.toNat < 0x10000
      · rw [if_pos hplane]
        rw [readChar_unicode, readUnicode_plane hplane (hvalid.imp_right And.left), c.ofNat_toNat]
      · rw [if_neg hplane]
        have hsum : 0x10000 + (0xD800 + (c.toNat - 0x10000) / 1024 - 0xD800) * 1024 +
            (0xDC00 + (c.toNat - 0x10000) % 1024 - 0xDC00) = c.toNat := by omega
        rw [List.append_assoc, readChar_unicode, readUnicode_pair (by omega) (by omega), hsum, c.ofNat_toNat]

theorem escape_ne_quote (c : Char) : ∃ d ds, escape c = d :: ds ∧ d ≠ '"' := by
  unfold escape
  cases hl : letterEscapes.find? (fun p => decide (p.1 = c)) with
  | some p => exact ⟨'\\', [p.2], rfl, by decide⟩
  | none =>
    simp only
    by_cases hprint : ' ' ≤ c ∧ c ≤ '~'
    · refine ⟨c, [], by rw [if_pos hprint], ?_⟩
      rintro rfl
      revert hl
      decide
    · rw [if_neg hprint]
      by_cases hbmp : c.toNat < 0x10000
      · rw [if_pos hbmp]
        exact ⟨'\\', _, rfl, by decide⟩
      · rw [if_neg hbmp]
        exact ⟨'\\', _, rfl, by decide⟩

theorem readString_char {f : Nat} {c : Char} {s r : List Char} {t : List Char} (h : readString f s = some (t, r)) :
    readString (f + 1) (escape c ++ s) = some (c :: t, r) := by
  have hread := readChar_escape c s
  obtain ⟨d, ds, he, hd⟩ := escape_ne_quote c
  rw [he, List.cons_append] at hread ⊢
  rw [readString]
  · simp [hread, h]
  · rintro s' hcons
    exact hd (List.cons.inj hcons).1

/-- **A text is read back from what `ensure_ascii` writes of it.** -/
theorem readString_escaped (s : List Char) : ∀ (t : List Char) (f : Nat), t.length < f →
    readString f (t.flatMap escape ++ '"' :: s) = some (t, s)
  | [], f + 1, _ => rfl
  | c :: t, f + 1, h => by
    have ih := readString_escaped s t f (by simpa using h)
    rw [List.flatMap_cons, List.append_assoc]
    exact readString_char ih

theorem length_flatMap_escape (t : List Char) : t.length ≤ (t.flatMap escape).length := by
  induction t with
  | nil => simp
  | cons c t ih =>
    obtain ⟨d, ds, he, -⟩ := escape_ne_quote c
    rw [List.flatMap_cons, List.length_append, he, List.length_cons, List.length_cons]
    omega

/-! ## A float is read back -/

theorem text_head {n : Numeral} (h : n.Wf) :
    ∃ d ds, d < 10 ∧ n.text = (if n.negative then ['-'] else []) ++ d.digitChar :: ds := by
  obtain ⟨hw, hd, -, -⟩ := h
  have hne : n.whole ≠ [] := by
    rcases hw with hw | hw
    · rw [hw]
      simp
    · exact hw.1
  obtain ⟨d, ds, hl⟩ := List.exists_cons_of_ne_nil hne
  refine ⟨d, Numeral.digits ds ++ (Numeral.fractionText n.fraction ++ Numeral.exponentText n.exponent),
    hd d (by rw [hl]; exact List.mem_cons_self), ?_⟩
  rw [Numeral.text, hl]
  rfl

theorem digit_cases {P : Char → Prop} (h : ∀ i : Fin 10, P (Nat.digitChar i.val)) {d : Nat} (hd : d < 10) :
    P d.digitChar := h ⟨d, hd⟩

/-- No literal starts as a number does. -/
theorem literal_mismatch {l : List Char × Json} (h : l ∈ literals) {c : Char} (hc : digitValue c ≠ none) (s : List Char) :
    l.1.isPrefixOf (c :: s) = false ∧ l.1.isPrefixOf ('-' :: c :: s) = false := by
  have hne : ∀ x, digitValue x = none → (x == c) = false := by
    intro x hx
    rw [beq_eq_false_iff_ne]
    rintro rfl
    exact hc hx
  have hletters := And.intro (hne 'n' (by decide)) (And.intro (hne 't' (by decide)) (hne 'f' (by decide)))
  have hcapitals := And.intro (hne 'N' (by decide)) (And.intro (hne 'I' (by decide)) (hne '-' (by decide)))
  simp only [literals, List.mem_cons, List.not_mem_nil, or_false] at h
  rcases h with rfl | rfl | rfl | rfl | rfl | rfl <;> simp [List.isPrefixOf, hletters, hcapitals]

theorem readLiteral_text {n : Numeral} (h : n.Wf) (s : List Char) : readLiteral (n.text ++ s) = none := by
  obtain ⟨d, ds, hd, ht⟩ := text_head h
  have hdigit : digitValue d.digitChar ≠ none := by
    rw [digitValue_digitChar hd]
    simp
  have hnone : literals.find? (fun l => l.1.isPrefixOf (n.text ++ s)) = none := by
    rw [List.find?_eq_none]
    intro l hl
    rw [ht]
    by_cases hneg : n.negative = true
    · rw [if_pos hneg, List.cons_append, List.cons_append, List.nil_append, List.cons_append,
        (literal_mismatch hl hdigit (ds ++ s)).2]
      simp
    · rw [if_neg hneg, List.nil_append, List.cons_append, (literal_mismatch hl hdigit (ds ++ s)).1]
      simp
  rw [readLiteral, hnone]
  rfl

/-- **The float a text has is read from it.** -/
theorem readScalar_float {n : Numeral} (h : n.Wf) (hf : n.isFloat = true) {s : List Char} (hs : Ends s) :
    readScalar (n.text ++ s) = some (.float (.ofRat n.value), s) := by
  simp [readScalar, readLiteral_text h, readNumber_text h hs, ofNumeral, hf]

theorem readValue_scalar {f : Nat} {s : List Char} (h : ∀ c ∈ s.head?, c ≠ '"' ∧ c ≠ '[' ∧ c ≠ '{') :
    readValue (f + 1) s = readScalar s := by
  cases s with
  | nil => rfl
  | cons c s =>
    obtain ⟨h₁, h₂, h₃⟩ := h c rfl
    rw [readValue]
    · rintro s' hc
      exact h₁ (List.cons.inj hc).1
    · rintro s' hc
      exact h₂ (List.cons.inj hc).1
    · rintro s' hc
      exact h₃ (List.cons.inj hc).1

theorem readValue_float {f : Nat} {n : Numeral} (h : n.Wf) (hf : n.isFloat = true) {s : List Char} (hs : Ends s) :
    readValue (f + 1) (n.text ++ s) = some (.float (.ofRat n.value), s) := by
  rw [readValue_scalar, readScalar_float h hf hs]
  obtain ⟨d, ds, hd, ht⟩ := text_head h
  intro c hc
  by_cases hneg : n.negative = true
  · obtain rfl : '-' = c := by simpa [ht, hneg] using hc
    decide
  · obtain rfl : d.digitChar = c := by simpa [ht, hneg] using hc
    exact digit_cases (P := fun c => c ≠ '"' ∧ c ≠ '[' ∧ c ≠ '{') (by decide) hd

theorem readValue_quoted {f : Nat} (t : String) (s : List Char) :
    readValue (f + 1) (quoted t ++ s) = some (.str t, s) := by
  have hread : readString ((t.toList.flatMap escape ++ '"' :: s).length + 1) (t.toList.flatMap escape ++ '"' :: s) =
      some (t.toList, s) := by
    apply readString_escaped
    have := length_flatMap_escape t.toList
    rw [List.length_append]
    omega
  simp only [quoted, List.cons_append, List.append_assoc, List.nil_append, readValue, hread]
  simp

/-! ## An object is read back -/

theorem skipSpace_cons {c : Char} (h : isJsonSpace c = false) (s : List Char) : skipSpace (c :: s) = c :: s := by
  rw [skipSpace, List.dropWhile_cons_of_neg (by simp [h])]

theorem readKey (k : String) (s : List Char) :
    readString ((k.toList.flatMap escape ++ '"' :: s).length + 1) (k.toList.flatMap escape ++ '"' :: s) =
      some (k.toList, s) := by
  apply readString_escaped
  have := length_flatMap_escape k.toList
  rw [List.length_append]
  omega

section Members

variable {f : Nat} {k : String} {v : Json} {s r : List Char}

theorem readMembers_last (hv : readValue f (skipSpace s) = some (v, '}' :: r)) :
    readMembers (f + 1) (quoted k ++ ':' :: s) = some ([(k, v)], r) := by
  have hkey := readKey k (':' :: s)
  have hcolon := skipSpace_cons (show isJsonSpace ':' = false by decide) s
  have hbrace := skipSpace_cons (show isJsonSpace '}' = false by decide) r
  simp only [quoted, List.cons_append, List.append_assoc, List.nil_append, readMembers, hkey]
  simp [hcolon, hv, hbrace]

theorem readMembers_cons {m : List (String × Json)} {t : List Char} (hv : readValue f (skipSpace s) = some (v, ',' :: t))
    (hm : readMembers f (skipSpace t) = some (m, r)) :
    readMembers (f + 1) (quoted k ++ ':' :: s) = some ((k, v) :: m, r) := by
  have hkey := readKey k (':' :: s)
  have hcolon := skipSpace_cons (show isJsonSpace ':' = false by decide) s
  have hcomma := skipSpace_cons (show isJsonSpace ',' = false by decide) t
  simp only [quoted, List.cons_append, List.append_assoc, List.nil_append, readMembers, hkey]
  simp [hcolon, hv, hcomma, hm]

theorem skipSpace_text {n : Numeral} (h : n.Wf) (s : List Char) : skipSpace (n.text ++ s) = n.text ++ s := by
  obtain ⟨d, ds, hd, ht⟩ := text_head h
  have hdigit : isJsonSpace d.digitChar = false := digit_cases (P := fun c => isJsonSpace c = false) (by decide) hd
  rw [ht]
  by_cases hneg : n.negative = true
  · rw [if_pos hneg, List.cons_append, List.cons_append, skipSpace_cons (by decide)]
  · rw [if_neg hneg, List.nil_append, List.cons_append, skipSpace_cons hdigit]

theorem skipSpace_quoted (k : String) (s : List Char) : skipSpace (quoted k ++ s) = quoted k ++ s := by
  rw [quoted, List.cons_append, skipSpace_cons (by decide)]

theorem readValue_object {m : List (String × Json)} (h : readMembers f (quoted k ++ s) = some (m, r)) :
    readValue (f + 1) ('{' :: (quoted k ++ s)) = some (.object m, r) := by
  have hspace := skipSpace_quoted k s
  rw [quoted, List.cons_append] at h hspace ⊢
  rw [readValue, hspace]
  have hread : (do
      let (m, r) ← readMembers f ('"' :: (k.toList.flatMap escape ++ ['"'] ++ s))
      return (Json.object m, r)) = some (Json.object m, r) := by
    rw [h]
    rfl
  exact hread

end Members

end Json

end EdaLab
