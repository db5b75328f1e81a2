import EdaLab.Cursor
import EdaLab.PyStr
import Mathlib.Data.List.Sort
/-!
# PyValue — the values `json` reads and writes, as the HTTP server meets them

Beside `PyJson`, which is about texts without surrogates: here a text may hold surrogates, a float keeps the sign of its
zero, and an object is the dictionary that `json.loads` makes of it, where the last member of a name counts.
-/
namespace EdaLab

/-- A float, with the zero below zero. -/
inductive PyDouble
  | finite (q : ℚ)
  | negZero
  | inf (negative : Bool)
  | nan
  deriving DecidableEq

inductive PyValue
  | null
  | bool (b : Bool)
  | int (i : Int)
  | float (x : PyDouble)
  | str (s : PyStr)
  | array (l : List PyValue)
  | object (members : List (PyStr × PyValue))

/-! ## Numbers -/

/-- `repr` of an integer. -/
def Numeral.ofInt (i : Int) : Numeral where
  negative := decide (i < 0)
  whole := if i = 0 then [0] else digitsOf i.natAbs

/-- `-0.0`. -/
def Numeral.negZero : Numeral where
  negative := true
  whole := [0]
  fraction := some [0]

namespace PyDouble

/-- As `json.dumps` writes it. -/
def text : PyDouble → List Char
  | finite q  => (PyFloat.repr q).text
  | negZero   => Numeral.negZero.text
  | inf false => "Infinity".toList
  | inf true  => "-Infinity".toList
  | nan       => "NaN".toList

/-- A float whose digits came with a sign. -/
def signed (negative : Bool) : PyFloat → PyDouble
  | .finite q => if negative = true ∧ q = 0 then negZero else finite q
  | .inf n    => inf n
  | .nan      => nan

/-- `float` of a text. -/
def ofText (s : String) : Option PyDouble := (PyFloat.ofText s).map (signed (EdaLab.signed (trim s.toList)).1)

end PyDouble

/-! ## `json.dumps` -/

structure JsonStyle where
  comma    : List Char
  colon    : List Char
  sortKeys : Bool

/-- `sort_keys=True, separators=(",", ":")`. -/
def JsonStyle.compact : JsonStyle := ⟨[','], [':'], true⟩

/-- `sort_keys=True`. -/
def JsonStyle.spaced : JsonStyle := ⟨[',', ' '], [':', ' '], true⟩

namespace JsonStyle

variable (st : JsonStyle)

def inOrder (m : List (PyStr × List Char)) : List (PyStr × List Char) :=
  if st.sortKeys then m.insertionSort (fun a b => a.1 ≤ b.1) else m

def member (x : PyStr × List Char) : List Char := x.1.quoted ++ (st.colon ++ x.2)

end JsonStyle

namespace PyValue

mutual

/-- `none` is the `ValueError` of an integer of more than 4300 digits. -/
def dumps (st : JsonStyle) : PyValue → Option (List Char)
  | null       => some "null".toList
  | bool true  => some "true".toList
  | bool false => some "false".toList
  | int i      => if (Numeral.ofInt i).whole.length ≤ 4300 then some (Numeral.ofInt i).text else none
  | float x    => some x.text
  | str s      => some s.quoted
  | array l    => (dumpsElements st l).map (fun ts => '[' :: (st.comma.intercalate ts ++ [']']))
  | object m   =>
    (dumpsMembers st m).map (fun ts => '{' :: (st.comma.intercalate ((st.inOrder ts).map st.member) ++ ['}']))

def dumpsElements (st : JsonStyle) : List PyValue → Option (List (List Char))
  | []     => some []
  | v :: l => (dumps st v).bind (fun t => (dumpsElements st l).map (fun ts => t :: ts))

def dumpsMembers (st : JsonStyle) : List (PyStr × PyValue) → Option (List (PyStr × List Char))
  | []          => some []
  | (k, v) :: m => (dumps st v).bind (fun t => (dumpsMembers st m).map (fun ts => (k, t) :: ts))

end

/-! ## `json.loads` -/

/-- `d[key] = v`: a key that is there keeps its place. -/
def setItem (k : PyStr) (v : PyValue) : List (PyStr × PyValue) → List (PyStr × PyValue)
  | []          => [(k, v)]
  | (j, w) :: d => if j = k then (k, v) :: d else (j, w) :: setItem k v d

/-- The dictionary of the members of an object. -/
def dict (members : List (PyStr × PyValue)) : List (PyStr × PyValue) := members.foldl (fun d m => setItem m.1 m.2 d) []

def literals : List (List Char × PyValue) :=
  [("null".toList, .null), ("true".toList, .bool true), ("false".toList, .bool false), ("NaN".toList, .float .nan),
    ("Infinity".toList, .float (.inf false)), ("-Infinity".toList, .float (.inf true))]

def readLiteral (s : List Char) : Option (PyValue × List Char) :=
  (literals.find? (fun l => l.1.isPrefixOf s)).map (fun l => (l.2, s.drop l.1.length))

/-- `int` refuses more than 4300 digits. -/
def ofNumeral (n : Numeral) : Option PyValue :=
  if n.isFloat then some (.float (.signed n.negative (.ofRat n.value)))
  else if n.whole.length ≤ 4300 then some (.int (if n.negative then -(natOf n.whole : Int) else natOf n.whole))
  else none

def readScalar (s : List Char) : Option (PyValue × List Char) :=
  match readLiteral s with
  | some r => some r
  | none   => do
    let (n, r) ← Json.readNumber s
    let v ← ofNumeral n
    return (v, r)

mutual

/-- A value at the start of a text, and what follows it. -/
def readValue : Nat → List Char → Option (PyValue × List Char)
  | 0, _     => none
  | f + 1, s =>
    match s with
    | '"' :: s => do
      let (t, r) ← readPoints (s.length + 1) s
      return (.str t, r)
    | '[' :: s =>
      match Json.skipSpace s with
      | ']' :: r => some (.array [], r)
      | s        => do
        let (l, r) ← readElements f s
        return (.array l, r)
    | '{' :: s =>
      match Json.skipSpace s with
      | '}' :: r => some (.object [], r)
      | s        => do
        let (m, r) ← readMembers f s
        return (.object (dict m), r)
    | s => readScalar s

def readElements : Nat → List Char → Option (List PyValue × List Char)
  | 0, _     => none
  | f + 1, s => do
    let (v, r) ← readValue f s
    match Json.skipSpace r with
    | ']' :: r => return ([v], r)
    | ',' :: r => do
      let (l, r) ← readElements f (Json.skipSpace r)
      return (v :: l, r)
    | _ => none

def readMembers : Nat → List Char → Option (List (PyStr × PyValue) × List Char)
  | 0, _     => none
  | f + 1, s =>
    match s with
    | '"' :: s => do
      let (k, r) ← readPoints (s.length + 1) s
      match Json.skipSpace r with
      | ':' :: r => do
        let (v, r) ← readValue f (Json.skipSpace r)
        match Json.skipSpace r with
        | '}' :: r => return ([(k, v)], r)
        | ',' :: r => do
          let (m, r) ← readMembers f (Json.skipSpace r)
          return ((k, v) :: m, r)
        | _ => none
      | _ => none
    | _ => none

end

/-- `json.loads`. -/
def loads (s : List Char) : Option PyValue := do
  let (v, r) ← readValue (s.length + 1) (Json.skipSpace s)
  if Json.skipSpace r = [] then some v else none

/-- `d[key]`. -/
def item (d : List (PyStr × PyValue)) (key : String) : Option PyValue := d.lookup (.ofString key)

end PyValue

end EdaLab
