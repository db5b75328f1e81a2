import EdaLab.Base64
import EdaLab.Models
import EdaLab.PyJson
/-!
# Cursor — the cursor a page of Runs ends with

`_encode_cursor` writes the position of a Run as JSON in unpadded Base64, `_decode_cursor` reads what a client sends.  What
it cannot read is `invalid cursor`, but an integer too large for a float leaves it as an `OverflowError`.
`decode_encode_cursor`: the position that was written is read back, to the last bit of its time and the last character of
its id.
-/
namespace EdaLab

/-- What reading a cursor depends on besides: the codecs of `json` other than UTF-8, and `str` of what is no text. -/
structure Runtime where
  decode : String → List UInt8 → Option String
  str    : Json → String

inductive CursorError
  | invalidCursor
  | overflowError
  deriving DecidableEq

abbrev CursorKey := PyFloat × String

/-- What `_encode_cursor` passes to Base64. -/
def cursorText (run : RunRow) : List Char :=
  '{' :: (Json.quoted "updated_at" ++ ':' :: ((PyFloat.repr run.updatedAt).text ++
    ',' :: (Json.quoted "run_id" ++ ':' :: (Json.quoted run.jobId ++ ['}']))))

def encodeCursor (run : RunRow) : String :=
  String.ofList (Base64.unpad (Base64.encode (String.ofList (cursorText run)).toByteArray.data.toList))

/-- `json.detect_encoding`. -/
def detectEncoding (b : List UInt8) : String :=
  if [0, 0, 0xFE, 0xFF].isPrefixOf b || [0xFF, 0xFE, 0, 0].isPrefixOf b then "utf-32"
  else if [0xFE, 0xFF].isPrefixOf b || [0xFF, 0xFE].isPrefixOf b then "utf-16"
  else if [0xEF, 0xBB, 0xBF].isPrefixOf b then "utf-8-sig"
  else
    match b with
    | b₀ :: b₁ :: b₂ :: b₃ :: _ =>
      if b₀ = 0 then (if b₁ ≠ 0 then "utf-16-be" else "utf-32-be")
      else if b₁ = 0 then (if b₂ ≠ 0 ∨ b₃ ≠ 0 then "utf-16-le" else "utf-32-le")
      else "utf-8"
    | [b₀, b₁] => if b₀ = 0 then "utf-16-be" else if b₁ = 0 then "utf-16-le" else "utf-8"
    | _ => "utf-8"

/-- `json.loads` of bytes. -/
def loadBytes (py : Runtime) (b : List UInt8) : Option Json :=
  if detectEncoding b = "utf-8" then (String.fromUTF8? b.toByteArray).bind (fun s => Json.loads s.toList)
  else (py.decode (detectEncoding b) b).bind (fun s => Json.loads s.toList)

/-- Decimal digits with single underscores between them, and what follows them. -/
def digitPart : List Char → List Nat × List Char
  | []     => ([], [])
  | c :: s =>
    match decimalValue c, s with
    | none, s       => ([], c :: s)
    | some d, '_' :: t =>
      if t.head?.any isDecimal = true then (d :: (digitPart t).1, (digitPart t).2) else ([d], '_' :: t)
    | some d, s => (d :: (digitPart s).1, (digitPart s).2)

/-- The exponent that a text starts with. -/
def exponentPart : List Char → Option (Bool × List Nat) × List Char
  | []     => (none, [])
  | c :: s =>
    let (negative, body) := signed s
    if (c = 'e' ∨ c = 'E') ∧ (digitPart body).1 ≠ [] then (some (negative, (digitPart body).1), (digitPart body).2)
    else (none, c :: s)

/-- `float` of a text. -/
def PyFloat.ofText (s : String) : Option PyFloat :=
  let (negative, body) := signed (trim s.toList)
  let word := body.map Char.toLower
  if word = "inf".toList ∨ word = "infinity".toList then some (.inf negative)
  else if word = "nan".toList then some .nan
  else
    let whole := digitPart body
    let fraction := match whole.2 with
      | '.' :: t => digitPart t
      | r        => ([], r)
    let exponent := exponentPart fraction.2
    if whole.1 = [] ∧ fraction.1 = [] then none
    else if exponent.2 ≠ [] then none
    else some (.ofRat (Numeral.value ⟨negative, whole.1, some fraction.1, exponent.1⟩))

/-- `float` of a value. -/
def Json.toFloat : Json → Except CursorError PyFloat
  | .float x => .ok x
  | .bool b  => .ok (.finite (if b then 1 else 0))
  | .int i   =>
    match PyFloat.ofRat i with
    | .finite q => .ok (.finite q)
    | _         => .error .overflowError
  | .str s   =>
    match PyFloat.ofText s with
    | some x => .ok x
    | none   => .error .invalidCursor
  | _ => .error .invalidCursor

/-- `str` of a value. -/
def Runtime.strOf (py : Runtime) : Json → String
  | .str s => s
  | v      => py.str v

/-- `float(raw["updated_at"]), str(raw["run_id"])`. -/
def cursorKey (py : Runtime) : Json → Except CursorError CursorKey
  | .object m =>
    match Json.member m "updated_at" with
    | none   => .error .invalidCursor
    | some v =>
      match v.toFloat with
      | .error e => .error e
      | .ok x    =>
        match Json.member m "run_id" with
        | none   => .error .invalidCursor
        | some r => .ok (x, py.strOf r)
  | _ => .error .invalidCursor

def decodeCursor (py : Runtime) : Option String → Except CursorError (Option CursorKey)
  | none       => .ok none
  | some value =>
    if value = "" then .ok none
    else if value.toList.all (fun c => decide (c.toNat < 128)) = false then .error .invalidCursor
    else
      match (Base64.decode (Base64.pad value.toList)).bind (loadBytes py) with
      | none     => .error .invalidCursor
      | some raw =>
        match cursorKey py raw with
        | .error e => .error e
        | .ok key  => .ok (some key)

/-! ## What was written is read back -/

variable {run : RunRow}

theorem loads_cursorText (h : PyFloat.IsDouble run.updatedAt) : Json.loads (cursorText run) =
    some (.object [("updated_at", .float (.finite run.updatedAt)), ("run_id", .str run.jobId)]) := by
  have hfloat : ∀ f s, Json.readValue (f + 1) ((PyFloat.repr run.updatedAt).text ++ ',' :: s) =
      some (.float (.finite run.updatedAt), ',' :: s) := by
    intro f s
    have hends : Json.Ends (',' :: s) := by
      intro c hc
      obtain rfl := Option.some.inj hc
      decide
    rw [Json.readValue_float (PyFloat.repr_wf h) (PyFloat.repr_isFloat _) hends, PyFloat.repr_value h]
  have hid : ∀ f, Json.readMembers (f + 2) (Json.quoted "run_id" ++ ':' :: (Json.quoted run.jobId ++ ['}'])) =
      some ([("run_id", .str run.jobId)], []) := by
    intro f
    apply Json.readMembers_last
    rw [Json.skipSpace_quoted, Json.readValue_quoted]
  have hmembers : ∀ f, Json.readMembers (f + 3) (Json.quoted "updated_at" ++ ':' :: ((PyFloat.repr run.updatedAt).text ++
      ',' :: (Json.quoted "run_id" ++ ':' :: (Json.quoted run.jobId ++ ['}'])))) =
      some ([("updated_at", .float (.finite run.updatedAt)), ("run_id", .str run.jobId)], []) := by
    intro f
    apply Json.readMembers_cons
    · rw [Json.skipSpace_text (PyFloat.repr_wf h)]
      exact hfloat _ _
    · rw [Json.skipSpace_quoted]
      exact hid f
  obtain ⟨f, hf⟩ : ∃ f, (cursorText run).length = f + 3 := by
    refine ⟨(cursorText run).length - 3, ?_⟩
    simp only [cursorText, Json.quoted, List.length_append, List.length_cons]
    omega
  have hopen : Json.skipSpace (cursorText run) = cursorText run := Json.skipSpace_cons (by decide) _
  have hvalue : Json.readValue (f + 3 + 1) (cursorText run) =
      some (.object [("updated_at", .float (.finite run.updatedAt)), ("run_id", .str run.jobId)], []) :=
    Json.readValue_object (hmembers f)
  rw [Json.loads, hopen, hf, hvalue]
  rfl

/-- The JSON is UTF-8 from its first bytes on. -/
theorem cursorText_bytes (run : RunRow) : ∃ b : List UInt8,
    (String.ofList (cursorText run)).toByteArray.data.toList = 0x7B :: 0x22 :: 0x75 :: 0x70 :: b := by
  obtain ⟨s, hs⟩ : ∃ s, cursorText run = '{' :: '"' :: 'u' :: 'p' :: s := ⟨_, rfl⟩
  refine ⟨(String.ofList s).toByteArray.data.toList, ?_⟩
  rw [hs, String.toByteArray_ofList, String.toByteArray_ofList, List.utf8Encode_cons, List.utf8Encode_cons (c := '"'),
    List.utf8Encode_cons (c := 'u'), List.utf8Encode_cons (c := 'p')]
  simp only [List.utf8Encode_singleton, ByteArray.data_append, Array.toList_append, List.data_toByteArray]
  rfl

theorem detectEncoding_cursorText (run : RunRow) :
    detectEncoding (String.ofList (cursorText run)).toByteArray.data.toList = "utf-8" := by
  obtain ⟨b, hb⟩ := cursorText_bytes run
  rw [hb]
  rfl

theorem fromUTF8_bytes (s : String) : String.fromUTF8? s.toByteArray.data.toList.toByteArray = some s := by
  have hbytes : s.toByteArray.data.toList.toByteArray = s.toByteArray := by
    apply ByteArray.ext
    simp
  rw [hbytes, String.fromUTF8?, dif_pos s.isValidUTF8]
  rfl

theorem loadBytes_cursorText (py : Runtime) (h : PyFloat.IsDouble run.updatedAt) :
    loadBytes py (String.ofList (cursorText run)).toByteArray.data.toList =
      some (.object [("updated_at", .float (.finite run.updatedAt)), ("run_id", .str run.jobId)]) := by
  rw [loadBytes, if_pos (detectEncoding_cursorText run), fromUTF8_bytes, Option.bind_some, String.toList_ofList,
    loads_cursorText h]

/-- **`_decode_cursor(_encode_cursor(run))` is the position of the Run.** -/
theorem decode_encode_cursor (py : Runtime) (h : PyFloat.IsDouble run.updatedAt) :
    decodeCursor py (some (encodeCursor run)) = .ok (some (.finite run.updatedAt, run.jobId)) := by
  have hbytes : (String.ofList (cursorText run)).toByteArray.data.toList ≠ [] := by
    obtain ⟨b, hb⟩ := cursorText_bytes run
    rw [hb]
    simp
  have hne : encodeCursor run ≠ "" := by
    intro he
    have hnil : (encodeCursor run).toList = [] := by rw [he]; rfl
    rw [encodeCursor, String.toList_ofList] at hnil
    exact Base64.unpad_encode_ne_nil hbytes hnil
  have hascii : ((encodeCursor run).toList.all (fun c => decide (c.toNat < 128))) = true := by
    rw [encodeCursor, String.toList_ofList, List.all_eq_true]
    intro c hc
    exact decide_eq_true (Base64.unpad_encode_ascii hc)
  have hload : (Base64.decode (Base64.pad (encodeCursor run).toList)).bind (loadBytes py) =
      some (.object [("updated_at", .float (.finite run.updatedAt)), ("run_id", .str run.jobId)]) := by
    rw [encodeCursor, String.toList_ofList, Base64.pad_unpad_encode, Base64.decode_encode, Option.bind_some,
      loadBytes_cursorText py h]
  simp only [decodeCursor]
  rw [if_neg hne, if_neg (by rw [hascii]; decide), hload]
  rfl

end EdaLab
