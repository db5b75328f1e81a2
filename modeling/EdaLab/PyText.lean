import EdaLab.Pattern
import Mathlib.Algebra.Order.Field.Rat
import Mathlib.Data.Int.Log
import Mathlib.Data.Rat.Floor
/-!
# PyText — Python's text and numbers

What `parse_report` uses of `str`, `int`, `float` and `re`: the white space and the decimal digits are Unicode's, a `float`
is an IEEE double (its value as an exact rational; the sign of a zero is not kept).
-/
namespace EdaLab

/-- An exception that leaves a function; `ValueError` is the one the parser catches. -/
inductive PyError
  | valueError (text : String)
  | keyError (key : String)
  | attributeError (text : String)
  | typeError (text : String)
  deriving DecidableEq

def PyError.text : PyError → String
  | valueError m | keyError m | attributeError m | typeError m => m

/-! ## `str` -/

/-- A statement about the characters of a text is decided on the text, never by trying every character. -/
instance (priority := high) decidableForallChar (p : Char → Prop) [DecidablePred p] (l : List Char) :
    Decidable (∀ c ∈ l, p c) := List.decidableBAll p l

instance (priority := high) decidableForallCharOption (p : Char → Prop) [DecidablePred p] (o : Option Char) :
    Decidable (∀ c ∈ o, p c) := Option.decidableForallMem o

/-- Two contents are compared by the arrays they hold. -/
instance (priority := high) decidableEqContent : DecidableEq ByteArray := ByteArray.instDecidableEq

/-- `str.isspace` of one character, which is `\s`. -/
def isSpace (c : Char) : Bool :=
  let n := c.toNat
  decide (9 ≤ n ∧ n ≤ 13) || decide (28 ≤ n ∧ n ≤ 32) || decide (n ∈ [0x85, 0xA0, 0x1680, 0x2028, 0x2029, 0x202F, 0x205F,
    0x3000]) || decide (0x2000 ≤ n ∧ n ≤ 0x200A)

def strip (s : List Char) : List Char := ((s.dropWhile isSpace).reverse.dropWhile isSpace).reverse

/-- Where `splitlines` ends a line; `\r\n` ends one. -/
def isLineBreak (c : Char) : Bool :=
  let n := c.toNat
  decide (10 ≤ n ∧ n ≤ 13) || decide (28 ≤ n ∧ n ≤ 30) || decide (n ∈ [0x85, 0x2028, 0x2029])

def splitlinesFrom (line : List Char) : List Char → List (List Char)
  | []                => if line = [] then [] else [line.reverse]
  | '\r' :: '\n' :: s => line.reverse :: splitlinesFrom [] s
  | c :: s            => if isLineBreak c then line.reverse :: splitlinesFrom [] s else splitlinesFrom (c :: line) s

def splitlines (s : List Char) : List (List Char) := splitlinesFrom [] s

/-- `s.count(sub)` for a `sub` that is not empty. -/
def countOf (sub : List Char) : Nat → List Char → Nat
  | 0, _     => 0
  | f + 1, s =>
    if sub.isPrefixOf s then 1 + countOf sub f (s.drop sub.length)
    else match s with
      | []     => 0
      | _ :: s => countOf sub f s

/-! ## Digits and `int` -/

/-- The zeros of the runs of ten decimal digits (category `Nd`). -/
def digitZeros : List Nat :=
  [0x30, 0x660, 0x6F0, 0x7C0, 0x966, 0x9E6, 0xA66, 0xAE6, 0xB66, 0xBE6, 0xC66, 0xCE6, 0xD66, 0xDE6, 0xE50, 0xED0, 0xF20,
   0x1040, 0x1090, 0x17E0, 0x1810, 0x1946, 0x19D0, 0x1A80, 0x1A90, 0x1B50, 0x1BB0, 0x1C40, 0x1C50, 0xA620, 0xA8D0, 0xA900,
   0xA9D0, 0xA9F0, 0xAA50, 0xABF0, 0xFF10, 0x104A0, 0x10D30, 0x11066, 0x110F0, 0x11136, 0x111D0, 0x112F0, 0x11450, 0x114D0,
   0x11650, 0x116C0, 0x11730, 0x118E0, 0x11950, 0x11C50, 0x11D50, 0x11DA0, 0x11F50, 0x16A60, 0x16AC0, 0x16B50, 0x1D7CE,
   0x1D7D8, 0x1D7E2, 0x1D7EC, 0x1D7F6, 0x1E140, 0x1E2F0, 0x1E4D0, 0x1E950, 0x1FBF0]

def decimalValue (c : Char) : Option Nat :=
  (digitZeros.find? (fun z => decide (z ≤ c.toNat ∧ c.toNat < z + 10))).map (fun z => c.toNat - z)

/-- `\d`. -/
def isDecimal (c : Char) : Bool := (decimalValue c).isSome

def natOf (digits : List Nat) : Nat := digits.foldl (fun n d => 10 * n + d) 0

/-- Digits, with single underscores between them. -/
def underscored : List Char → Option (List Nat)
  | []      => none
  | c :: cs =>
    match decimalValue c, cs with
    | none, _          => none
    | some d, []       => some [d]
    | some d, '_' :: s => (underscored s).map (d :: ·)
    | some d, s        => (underscored s).map (d :: ·)

/-- The sign of a number and what follows it. -/
def signed : List Char → Bool × List Char
  | '-' :: s => (true, s)
  | '+' :: s => (false, s)
  | s        => (false, s)

/-- What of the interpreter the parser's results depend on: `hashlib.sha256(…).hexdigest()` and the texts of the
`ValueError` of `int` and of `float`. -/
structure Interpreter where
  sha256     : ByteArray → String
  intError   : String → String
  floatError : String → String

/-- The white space around a number: C's of a character below U+0080, `str.isspace` of another.  U+001C to U+001F are
none. -/
def isNumberSpace (c : Char) : Bool := isSpace c && !decide (28 ≤ c.toNat ∧ c.toNat ≤ 31)

/-- What `int` and `float` read of a text. -/
def trim (s : List Char) : List Char := ((s.dropWhile isNumberSpace).reverse.dropWhile isNumberSpace).reverse

/-- `int(s)`, which refuses more than 4300 digits. -/
def Interpreter.int (py : Interpreter) (s : String) : Except PyError Int :=
  let (negative, body) := signed (trim s.toList)
  match underscored body with
  | none        => .error (.valueError (py.intError s))
  | some digits =>
    if digits.length ≤ 4300 then .ok (if negative then -(natOf digits : Int) else natOf digits)
    else .error (.valueError (py.intError s))

/-! ## `float` -/

inductive PyFloat
  | finite (q : ℚ)
  | inf (negative : Bool)
  | nan
  deriving DecidableEq

namespace PyFloat

def roundHalfEven (q : ℚ) : ℤ :=
  let r := q - q.floor
  if r < 1 / 2 then q.floor
  else if 1 / 2 < r then q.floor + 1
  else if q.floor % 2 = 0 then q.floor
  else q.floor + 1

/-- The nearest multiple of the unit in the last place: 53 bits, and none below `2 ^ (-1074)`. -/
def nearest (q : ℚ) : ℚ :=
  if q = 0 then 0
  else
    let unit : ℚ := 2 ^ max (Int.log 2 |q| - 52) (-1074)
    roundHalfEven (q / unit) * unit

/-- The double of a rational: infinite from `2 ^ 1024` on. -/
def ofRat (q : ℚ) : PyFloat := if |nearest q| < 2 ^ 1024 then finite (nearest q) else inf (decide (q < 0))

def neg : PyFloat → PyFloat
  | finite q => finite (-q)
  | inf n    => inf (!n)
  | nan      => nan

def add : PyFloat → PyFloat → PyFloat
  | finite a, finite b => ofRat (a + b)
  | inf n, inf m       => if n = m then inf n else nan
  | inf n, finite _    => inf n
  | finite _, inf m    => inf m
  | _, _               => nan

def sub (a b : PyFloat) : PyFloat := add a (neg b)

def abs : PyFloat → PyFloat
  | finite q => finite |q|
  | inf _    => inf false
  | nan      => nan

/-- `a > b`. -/
def gt : PyFloat → PyFloat → Bool
  | finite a, finite b => decide (b < a)
  | inf n, finite _    => !n
  | finite _, inf m    => m
  | inf n, inf m       => !n && m
  | _, _               => false

/-- `float(s)` for a text of `NUMBER`: a sign, digits, and perhaps a point and digits. -/
def parse (py : Interpreter) (s : List Char) : Except PyError PyFloat :=
  let (negative, body) := signed s
  let whole := body.takeWhile isDecimal
  let fraction := match body.dropWhile isDecimal with
    | []       => some []
    | '.' :: t => if t ≠ [] ∧ t.all isDecimal = true then some t else none
    | _        => none
  match fraction with
  | some t =>
    if whole = [] then .error (.valueError (py.floatError (String.ofList s)))
    else
      let q : ℚ := natOf ((whole ++ t).filterMap decimalValue) / 10 ^ t.length
      .ok (ofRat (if negative then -q else q))
  | none => .error (.valueError (py.floatError (String.ofList s)))

end PyFloat

/-- `NUMBER`. -/
def numberPattern : Pattern :=
  .all [.opt (.one (fun c => decide (c = '-' ∨ c = '+'))), .many1 (.one isDecimal),
    .opt (.seq (.text ".") (.many1 (.one isDecimal)))]

end EdaLab
