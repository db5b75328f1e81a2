import EdaLab.PyJson
/-!
# PyStr — texts with surrogates, as `json` writes and reads them

A text of Python is a list of code points, and a surrogate is one like any other.  `ensure_ascii` writes a character from
`U+10000` on as it writes its two surrogates, so what comes back is the text with its surrogate pairs joined
(`readPoints_escaped`), and two texts are written alike exactly when they are alike joined (`escaped_eq_iff`).
-/
namespace EdaLab

abbrev CodePoint := Fin 0x110000

abbrev PyStr := List CodePoint

def CodePoint.ofNat (n : Nat) : CodePoint := Fin.ofNat 0x110000 n

def CodePoint.ofChar (c : Char) : CodePoint := .ofNat c.toNat

def PyStr.ofString (s : String) : PyStr := s.toList.map CodePoint.ofChar

namespace CodePoint

def isHigh (c : CodePoint) : Bool := decide (0xD800 ≤ c.val ∧ c.val < 0xDC00)

def isLow (c : CodePoint) : Bool := decide (0xDC00 ≤ c.val ∧ c.val < 0xE000)

def isSurrogate (c : CodePoint) : Bool := decide (0xD800 ≤ c.val ∧ c.val < 0xE000)

/-- The character of a surrogate pair. -/
def join (u l : CodePoint) : CodePoint := ofNat (0x10000 + (u.val - 0xD800) * 1024 + (l.val - 0xDC00))

/-- One code point of a text, as `ensure_ascii` writes it. -/
def escape (c : CodePoint) : List Char :=
  match Json.letterEscapes.find? (fun p => decide (p.1.toNat = c.val)) with
  | some p => ['\\', p.2]
  | none =>
    if 32 ≤ c.val ∧ c.val ≤ 126 then [Char.ofNat c.val]
    else if c.val < 0x10000 then Json.unicodeEscape c.val
    else
      Json.unicodeEscape (0xD800 + (c.val - 0x10000) / 1024) ++ Json.unicodeEscape (0xDC00 + (c.val - 0x10000) % 1024)

end CodePoint

namespace PyStr

def escaped (s : PyStr) : List Char := s.flatMap CodePoint.escape

/-- A text as `json.dumps` writes it. -/
def quoted (s : PyStr) : List Char := '"' :: (s.escaped ++ ['"'])

/-- A text with its surrogate pairs joined. -/
def joined : PyStr → PyStr
  | u :: l :: s => if u.isHigh && l.isLow then u.join l :: joined s else u :: joined (l :: s)
  | s           => s

end PyStr

/-! ## The scanner -/

/-- What follows `\u`: a surrogate that is half of no pair stands for itself. -/
def readPointUnicode (s : List Char) : Option (CodePoint × List Char) :=
  match Json.readHex s with
  | none        => none
  | some (u, r) =>
    if 0xD800 ≤ u ∧ u < 0xDC00 then
      match r with
      | '\\' :: 'u' :: r' =>
        match Json.readHex r' with
        | none          => none
        | some (l, r'') =>
          if 0xDC00 ≤ l ∧ l < 0xE000 then some (CodePoint.join (.ofNat u) (.ofNat l), r'')
          else some (.ofNat u, r)
      | _ => some (.ofNat u, r)
    else some (.ofNat u, r)

/-- What follows a backslash. -/
def readPointEscape : List Char → Option (CodePoint × List Char)
  | []       => none
  | 'u' :: s => readPointUnicode s
  | '/' :: s => some (.ofChar '/', s)
  | e :: s   => (Json.letterEscapes.find? (fun p => decide (p.2 = e))).map (fun p => (.ofChar p.1, s))

/-- One code point of a text, up to the closing quote; a control character has to be escaped. -/
def readPoint : List Char → Option (CodePoint × List Char)
  | []        => none
  | '\\' :: s => readPointEscape s
  | c :: s    => if c.toNat < 32 then none else some (.ofChar c, s)

/-- A text after its opening quote. -/
def readPoints : Nat → List Char → Option (PyStr × List Char)
  | 0, _            => none
  | _ + 1, '"' :: s => some ([], s)
  | f + 1, s        => do
    let (c, r) ← readPoint s
    let (cs, r) ← readPoints f r
    return (c :: cs, r)

/-! ## What the scanner reads of an escaped text -/

namespace CodePoint

theorem val_ofNat {n : Nat} (h : n < 0x110000) : (ofNat n).val = n := Nat.mod_eq_of_lt h

theorem ofNat_val (c : CodePoint) : ofNat c.val = c := Fin.ext (val_ofNat c.isLt)

theorem ofChar_ofNat {c : CodePoint} (h : c.val < 0xD800) : ofChar (Char.ofNat c.val) = c := by
  have hchar : (Char.ofNat c.val).toNat = c.val := by
    rw [Char.ofNat, dif_pos (Or.inl h)]
    rfl
  rw [ofChar, hchar, ofNat_val]

/-- The four ways a code point is written. -/
inductive Escaped (c : CodePoint) : List Char → Prop
  | letter (p : Char × Char) (listed : p ∈ Json.letterEscapes) (val_eq : p.1.toNat = c.val) : Escaped c ['\\', p.2]
  | plain (printable : 32 ≤ c.val ∧ c.val ≤ 126) (not_quote : Char.ofNat c.val ≠ '"') (not_back : Char.ofNat c.val ≠ '\\') :
    Escaped c [Char.ofNat c.val]
  | unicode (plane : c.val < 0x10000) : Escaped c (Json.unicodeEscape c.val)
  | pair (astral : 0x10000 ≤ c.val) :
    Escaped c (Json.unicodeEscape (0xD800 + (c.val - 0x10000) / 1024) ++
      Json.unicodeEscape (0xDC00 + (c.val - 0x10000) % 1024))

theorem escape_escaped (c : CodePoint) : Escaped c c.escape := by
  unfold escape
  cases hl : Json.letterEscapes.find? (fun p => decide (p.1.toNat = c.val)) with
  | some p => exact .letter p (List.mem_of_find?_eq_some hl) (by simpa using List.find?_some hl)
  | none =>
    have hnone := List.find?_eq_none.1 hl
    simp only
    by_cases hprint : 32 ≤ c.val ∧ c.val ≤ 126
    · rw [if_pos hprint]
      have hchar : (Char.ofNat c.val).toNat = c.val := by
        rw [Char.ofNat, dif_pos (Or.inl (by omega))]
        rfl
      refine .plain hprint (fun hc => ?_) (fun hc => ?_)
      · rw [hc] at hchar
        exact hnone ('"', '"') (by decide) (by simpa using hchar)
      · rw [hc] at hchar
        exact hnone ('\\', '\\') (by decide) (by simpa using hchar)
    · rw [if_neg hprint]
      by_cases hplane : c.val < 0x10000
      · rw [if_pos hplane]
        exact .unicode hplane
      · rw [if_neg hplane]
        exact .pair (not_lt.1 hplane)

theorem escape_surrogate {c : CodePoint} (h : c.isSurrogate = true) : c.escape = Json.unicodeEscape c.val := by
  have hrange : 0xD800 ≤ c.val ∧ c.val < 0xE000 := by simpa [isSurrogate] using h
  have hesc := escape_escaped c
  generalize c.escape = t at hesc
  cases hesc with
  | letter p hp hval =>
    simp only [Json.letterEscapes, List.mem_cons, List.not_mem_nil, or_false] at hp
    rcases hp with rfl | rfl | rfl | rfl | rfl | rfl | rfl <;> simp at hval <;> omega
  | plain hprint => omega
  | unicode => rfl
  | pair hastral => omega

end CodePoint

/-- A text that does not go on with a low surrogate. -/
def NoLow (t : List Char) : Prop :=
  ∀ r, t = '\\' :: 'u' :: r → ∃ n r', Json.readHex r = some (n, r') ∧ ¬(0xDC00 ≤ n ∧ n < 0xE000)

theorem noLow_quote (r : List Char) : NoLow ('"' :: r) := by
  intro r' h
  cases h

theorem noLow_escape {c : CodePoint} (h : c.isLow = false) (r : List Char) : NoLow (c.escape ++ r) := by
  intro r' heq
  have hlow : ¬(0xDC00 ≤ c.val ∧ c.val < 0xE000) := by simpa [CodePoint.isLow] using h
  have hesc := CodePoint.escape_escaped c
  generalize c.escape = t at hesc heq
  cases hesc with
  | letter p hp =>
    simp only [Json.letterEscapes, List.mem_cons, List.not_mem_nil, or_false] at hp
    rcases hp with rfl | rfl | rfl | rfl | rfl | rfl | rfl <;> simp at heq
  | plain _ _ hback =>
    simp only [List.cons_append, List.cons.injEq] at heq
    exact absurd heq.1 hback
  | unicode hplane =>
    simp only [Json.unicodeEscape, List.cons_append, List.nil_append, List.cons.injEq, true_and] at heq
    rw [← heq, Json.readHex_digits hplane]
    exact ⟨c.val, r, rfl, hlow⟩
  | pair hastral =>
    have hc := c.isLt
    simp only [Json.unicodeEscape, List.cons_append, List.nil_append, List.cons.injEq, true_and] at heq
    rw [← heq, Json.readHex_digits (by omega)]
    exact ⟨_, _, rfl, by omega⟩

theorem readPoint_unicode (n : Nat) (s : List Char) : readPoint (Json.unicodeEscape n ++ s) =
    readPointUnicode (Json.hexDigit (n / 4096) :: Json.hexDigit (n / 256 % 16) :: Json.hexDigit (n / 16 % 16) ::
      Json.hexDigit (n % 16) :: s) := rfl

theorem readPoint_pair {u l : Nat} (hu : 0xD800 ≤ u ∧ u < 0xDC00) (hl : 0xDC00 ≤ l ∧ l < 0xE000) (s : List Char) :
    readPoint (Json.unicodeEscape u ++ (Json.unicodeEscape l ++ s)) = some (CodePoint.join (.ofNat u) (.ofNat l), s) := by
  have hlow := Json.readHex_digits (by omega : l < 65536) s
  rw [readPoint_unicode, readPointUnicode, Json.readHex_digits (by omega)]
  simp only [Json.unicodeEscape, List.cons_append, List.nil_append]
  rw [if_pos hu, hlow]
  simp only
  rw [if_pos hl]

/-- A high surrogate stands for itself where no low one follows. -/
theorem readPoint_single {n : Nat} (hn : n < 0x10000) {s : List Char} (h : 0xD800 ≤ n ∧ n < 0xDC00 → NoLow s) :
    readPoint (Json.unicodeEscape n ++ s) = some (.ofNat n, s) := by
  rw [readPoint_unicode, readPointUnicode, Json.readHex_digits hn]
  simp only
  by_cases hhigh : 0xD800 ≤ n ∧ n < 0xDC00
  · rw [if_pos hhigh]
    split
    · rename_i r
      obtain ⟨l, r', hread, hlow⟩ := h hhigh r rfl
      rw [hread]
      simp only
      rw [if_neg hlow]
    · rfl
  · rw [if_neg hhigh]

theorem readPoint_escape {c : CodePoint} {s : List Char} (h : c.isHigh = true → NoLow s) :
    readPoint (c.escape ++ s) = some (c, s) := by
  have hc := c.isLt
  have hesc := CodePoint.escape_escaped c
  generalize c.escape = t at hesc
  cases hesc with
  | letter p hp hval =>
    have hread : readPoint ('\\' :: p.2 :: s) = some (.ofChar p.1, s) := by
      simp only [Json.letterEscapes, List.mem_cons, List.not_mem_nil, or_false] at hp
      rcases hp with rfl | rfl | rfl | rfl | rfl | rfl | rfl <;> rfl
    rw [List.cons_append, List.cons_append, List.nil_append, hread, CodePoint.ofChar, hval, CodePoint.ofNat_val]
  | plain hprint _ hback =>
    have hchar : (Char.ofNat c.val).toNat = c.val := by
      rw [Char.ofNat, dif_pos (Or.inl (by omega))]
      rfl
    rw [List.cons_append, List.nil_append, readPoint, hchar, if_neg (by omega), CodePoint.ofChar_ofNat (by omega)]
    exact hback
  | unicode hplane =>
    rw [readPoint_single hplane (fun hhigh => h (by simpa [CodePoint.isHigh] using hhigh)), CodePoint.ofNat_val]
  | pair hastral =>
    have hjoin : CodePoint.join (.ofNat (0xD800 + (c.val - 0x10000) / 1024))
      (.ofNat (0xDC00 + (c.val - 0x10000) % 1024)) = c := by
      rw [CodePoint.join, CodePoint.val_ofNat (by omega), CodePoint.val_ofNat (by omega),
        show 0x10000 + (0xD800 + (c.val - 0x10000) / 1024 - 0xD800) * 1024 +
          (0xDC00 + (c.val - 0x10000) % 1024 - 0xDC00) = c.val by omega, CodePoint.ofNat_val]
    rw [List.append_assoc, readPoint_pair (by omega) (by omega), hjoin]

theorem escape_head (c : CodePoint) : ∃ d ds, c.escape = d :: ds ∧ d ≠ '"' := by
  have hesc := CodePoint.escape_escaped c
  generalize c.escape = t at hesc
  cases hesc with
  | letter p => exact ⟨'\\', [p.2], rfl, by decide⟩
  | plain _ hquote => exact ⟨_, [], rfl, hquote⟩
  | unicode => exact ⟨'\\', _, rfl, by decide⟩
  | pair => exact ⟨'\\', _, rfl, by decide⟩

theorem readPoints_cons {f : Nat} {c d : CodePoint} {s r t : List Char} {cs : PyStr}
    (hread : readPoint (d.escape ++ s) = some (c, r))
    (hrest : readPoints f r = some (cs, t)) : readPoints (f + 1) (d.escape ++ s) = some (c :: cs, t) := by
  obtain ⟨x, xs, he, hx⟩ := escape_head d
  rw [he, List.cons_append] at hread ⊢
  rw [readPoints]
  · simp [hread, hrest]
  · rintro s' hcons
    exact hx (List.cons.inj hcons).1

/-- **A text comes back with its surrogate pairs joined.** -/
theorem readPoints_escaped (r : List Char) (s : PyStr) : ∀ f, s.length < f →
    readPoints f (s.escaped ++ '"' :: r) = some (s.joined, r) := by
  induction s using PyStr.joined.induct with
  | case1 u l s hpair ih =>
    intro f hf
    simp only [Bool.and_eq_true, CodePoint.isHigh, CodePoint.isLow, decide_eq_true_eq] at hpair
    obtain ⟨f, rfl⟩ : ∃ g, f = g + 1 := ⟨f - 1, by simp only [List.length_cons] at hf; omega⟩
    have hread : readPoint (u.escape ++ (l.escape ++ (PyStr.escaped s ++ '"' :: r))) =
        some (u.join l, PyStr.escaped s ++ '"' :: r) := by
      rw [CodePoint.escape_surrogate (by simp only [CodePoint.isSurrogate, decide_eq_true_eq]; omega),
        CodePoint.escape_surrogate (by simp only [CodePoint.isSurrogate, decide_eq_true_eq]; omega),
        readPoint_pair hpair.1 hpair.2, CodePoint.ofNat_val, CodePoint.ofNat_val]
    have hjoined : PyStr.joined (u :: l :: s) = u.join l :: PyStr.joined s := by
      rw [PyStr.joined, if_pos (by simpa [CodePoint.isHigh, CodePoint.isLow] using hpair)]
    rw [hjoined, PyStr.escaped, List.flatMap_cons, List.flatMap_cons, List.append_assoc, List.append_assoc]
    refine readPoints_cons hread (ih f ?_)
    simp only [List.length_cons] at hf
    omega
  | case2 u l s hpair ih =>
    intro f hf
    obtain ⟨f, rfl⟩ : ∃ g, f = g + 1 := ⟨f - 1, by simp only [List.length_cons] at hf; omega⟩
    have hjoined : PyStr.joined (u :: l :: s) = u :: PyStr.joined (l :: s) := by
      rw [PyStr.joined, if_neg hpair]
    rw [hjoined, PyStr.escaped, List.flatMap_cons, List.append_assoc]
    refine readPoints_cons (readPoint_escape (fun hhigh => ?_)) (ih f (by simpa using hf))
    rw [List.flatMap_cons, List.append_assoc]
    refine noLow_escape ?_ _
    simpa [hhigh] using hpair
  | case3 s hs =>
    intro f hf
    obtain ⟨f, rfl⟩ : ∃ g, f = g + 1 := ⟨f - 1, by omega⟩
    cases s with
    | nil => rfl
    | cons u s =>
      cases s with
      | nil =>
        have hend : readPoints f ('"' :: r) = some ([], r) := by
          obtain ⟨g, rfl⟩ : ∃ g, f = g + 1 := ⟨f - 1, by simp only [List.length_cons, List.length_nil] at hf; omega⟩
          rfl
        rw [PyStr.escaped, List.flatMap_cons, List.flatMap_nil, List.append_nil]
        exact readPoints_cons (readPoint_escape (fun _ => noLow_quote r)) hend
      | cons l s => exact absurd rfl (hs u l s)

/-! ## Texts that are written alike -/

/-- A pair is written as its character. -/
theorem escape_join {u l : CodePoint} (hu : u.isHigh = true) (hl : l.isLow = true) :
    (u.join l).escape = u.escape ++ l.escape := by
  simp only [CodePoint.isHigh, CodePoint.isLow, decide_eq_true_eq] at hu hl
  have hval : (u.join l).val = 0x10000 + (u.val - 0xD800) * 1024 + (l.val - 0xDC00) := CodePoint.val_ofNat (by omega)
  rw [CodePoint.escape_surrogate (c := u) (by simp only [CodePoint.isSurrogate, decide_eq_true_eq]; omega),
    CodePoint.escape_surrogate (c := l) (by simp only [CodePoint.isSurrogate, decide_eq_true_eq]; omega)]
  have hesc := CodePoint.escape_escaped (u.join l)
  generalize (u.join l).escape = t at hesc
  cases hesc with
  | letter p hp hchar =>
    rw [hval] at hchar
    simp only [Json.letterEscapes, List.mem_cons, List.not_mem_nil, or_false] at hp
    rcases hp with rfl | rfl | rfl | rfl | rfl | rfl | rfl <;> simp at hchar <;> omega
  | plain hprint => omega
  | unicode hplane => omega
  | pair =>
    rw [hval, show 0xD800 + (0x10000 + (u.val - 0xD800) * 1024 + (l.val - 0xDC00) - 0x10000) / 1024 = u.val by omega,
      show 0xDC00 + (0x10000 + (u.val - 0xD800) * 1024 + (l.val - 0xDC00) - 0x10000) % 1024 = l.val by omega]

theorem escaped_joined (s : PyStr) : s.joined.escaped = s.escaped := by
  induction s using PyStr.joined.induct with
  | case1 u l s hpair ih =>
    have hboth := Bool.and_eq_true_iff.1 hpair
    rw [PyStr.joined, if_pos hpair]
    simp only [PyStr.escaped, List.flatMap_cons] at ih ⊢
    rw [ih, escape_join hboth.1 hboth.2, List.append_assoc]
  | case2 u l s hpair ih =>
    rw [PyStr.joined, if_neg hpair]
    simp only [PyStr.escaped, List.flatMap_cons] at ih ⊢
    rw [ih]
  | case3 s hs =>
    have hself : s.joined = s := by
      rw [PyStr.joined]
      exact hs
    rw [hself]

/-- **Two texts are written alike exactly when they are alike joined.** -/
theorem escaped_eq_iff (s t : PyStr) : s.escaped = t.escaped ↔ s.joined = t.joined := by
  constructor
  · intro h
    have hs := readPoints_escaped [] s (s.length + t.length + 1) (by omega)
    rw [h, readPoints_escaped [] t (s.length + t.length + 1) (by omega)] at hs
    exact (Prod.mk.inj (Option.some.inj hs)).1.symm
  · intro h
    rw [← escaped_joined s, h, escaped_joined t]

theorem length_escaped (s : PyStr) : s.length ≤ s.escaped.length := by
  induction s with
  | nil => simp
  | cons c s ih =>
    obtain ⟨d, ds, he, -⟩ := escape_head c
    simp only [PyStr.escaped, List.flatMap_cons, List.length_append, he, List.length_cons] at ih ⊢
    omega

end EdaLab
