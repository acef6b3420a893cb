/-
  CameraStream.Js.Number

  JavaScript strings and numbers, as far as the server uses them.

  A string is its list of UTF-16 code units.  A number is NaN, an infinity or
  the rational value of a finite double; the two zeros are one value here, since
  no operation below tells them apart.  Conversions from text and quotients round
  to the nearest double (`Number.round`); sums of such values are exact.
-/

import Mathlib.Data.Int.Log
import Mathlib.Data.Rat.Floor

namespace CameraStream.Js

/-! ## Strings -/

/-- A string: its UTF-16 code units. -/
abbrev JsString := List UInt16

/-- The code units of one character. -/
def encodeUtf16 (c : Char) : JsString :=
  if c.toNat < 0x10000 then [c.toNat.toUInt16]
  else
    [(0xD800 + (c.toNat - 0x10000) / 0x400).toUInt16,
      (0xDC00 + (c.toNat - 0x10000) % 0x400).toUInt16]

/-- A string literal. -/
def js (s : String) : JsString := s.toList.flatMap encodeUtf16

/-- The UTF-8 bytes of one code point. -/
def utf8Char (n : Nat) : List UInt8 :=
  if n < 0x80 then [n.toUInt8]
  else if n < 0x800 then [(0xC0 + n / 0x40).toUInt8, (0x80 + n % 0x40).toUInt8]
  else if n < 0x10000 then
    [(0xE0 + n / 0x1000).toUInt8, (0x80 + n / 0x40 % 0x40).toUInt8,
      (0x80 + n % 0x40).toUInt8]
  else
    [(0xF0 + n / 0x40000).toUInt8, (0x80 + n / 0x1000 % 0x40).toUInt8,
      (0x80 + n / 0x40 % 0x40).toUInt8, (0x80 + n % 0x40).toUInt8]

def isHighSurrogate (u : UInt16) : Bool := 0xD800 ≤ u.toNat && u.toNat < 0xDC00

def isLowSurrogate (u : UInt16) : Bool := 0xDC00 ≤ u.toNat && u.toNat < 0xE000

/-- `Buffer.from(string)`: UTF-8, with U+FFFD for every unpaired surrogate. -/
def toUtf8 : JsString → List UInt8
  | [] => []
  | [u] => utf8Char (if isHighSurrogate u || isLowSurrogate u then 0xFFFD else u.toNat)
  | u :: v :: rest =>
      if isHighSurrogate u && isLowSurrogate v then
        utf8Char (0x10000 + (u.toNat - 0xD800) * 0x400 + (v.toNat - 0xDC00)) ++ toUtf8 rest
      else
        utf8Char (if isHighSurrogate u || isLowSurrogate u then 0xFFFD else u.toNat) ++
          toUtf8 (v :: rest)

/-- WhiteSpace and LineTerminator code units, which `trim` removes. -/
def isSpace (u : UInt16) : Bool :=
  let n := u.toNat
  (9 ≤ n && n ≤ 13) || n == 0x20 || n == 0xA0 || n == 0x1680 ||
    (0x2000 ≤ n && n ≤ 0x200A) || n == 0x2028 || n == 0x2029 || n == 0x202F ||
    n == 0x205F || n == 0x3000 || n == 0xFEFF

/-- `String.prototype.trim`. -/
def trim (s : JsString) : JsString :=
  ((s.dropWhile isSpace).reverse.dropWhile isSpace).reverse

/-! ## Numbers -/

inductive Number where
  | nan
  | posInf
  | negInf
  | finite (value : ℚ)
  deriving DecidableEq

namespace Number

/-- The nearest integer, ties to even. -/
def roundHalfEven (q : ℚ) : Int :=
  let below := q.floor
  let rest := q - below
  if rest < 1 / 2 then below
  else if 1 / 2 < rest then below + 1
  else if below % 2 = 0 then below
  else below + 1

/-- The nearest double, ties to even: 53 significant bits, least unit `2 ^ -1074`,
    overflow to an infinity from `2 ^ 1024` on. -/
def round (q : ℚ) : Number :=
  if q = 0 then .finite 0
  else
    let size := |q|
    -- the distance of neighbouring doubles around `q`
    let unit : Int := max (Int.log 2 size - 52) (-1074)
    let rounded : ℚ := roundHalfEven (size / 2 ^ unit) * 2 ^ unit
    if 2 ^ 1024 ≤ rounded then (if 0 < q then .posInf else .negInf)
    else .finite (if 0 < q then rounded else -rounded)

def ofInt (n : Int) : Number := .finite n

/-- `Math.max` of two arguments. -/
def max : Number → Number → Number
  | .nan, _ => .nan
  | _, .nan => .nan
  | .posInf, _ => .posInf
  | _, .posInf => .posInf
  | .negInf, y => y
  | x, .negInf => x
  | .finite p, .finite q => .finite (Max.max p q)

/-- `x < y`; false as soon as one side is NaN. -/
def lt : Number → Number → Bool
  | .nan, _ => false
  | _, .nan => false
  | .posInf, _ => false
  | _, .negInf => false
  | .negInf, _ => true
  | .finite _, .posInf => true
  | .finite p, .finite q => p < q

/-- How a quotient is represented: JavaScript takes the nearest double; `exact` is the
    division of arithmetic, for statements that take it as exact. -/
inductive Division where
  | double
  | exact
  deriving DecidableEq

def Division.represent : Division → ℚ → Number
  | .double, q => round q
  | .exact, q => .finite q

/-- `x / y` for a positive finite `x`. -/
def divPos (d : Division) (x : ℚ) : Number → Number
  | .nan => .nan
  | .posInf => .finite 0
  | .negInf => .finite 0
  | .finite q => if q = 0 then .posInf else d.represent (x / q)

/-- `x || y` for numbers: zero and NaN are falsy. -/
def orElse : Number → Number → Number
  | .nan, y => y
  | .finite q, y => if q = 0 then y else .finite q
  | x, _ => x

/-! ## `Number(string)` -/

def isDigit (u : UInt16) : Bool := 0x30 ≤ u.toNat && u.toNat ≤ 0x39

/-- The value of a digit or a letter digit. -/
def digitValue (u : UInt16) : Nat :=
  let n := u.toNat
  if 0x30 ≤ n ∧ n ≤ 0x39 then n - 0x30
  else if 0x41 ≤ n ∧ n ≤ 0x5A then n - 0x41 + 10
  else if 0x61 ≤ n ∧ n ≤ 0x7A then n - 0x61 + 10
  else 36

/-- The value of a digit string read in `base`. -/
def digitsToNat (base : Nat) (s : JsString) : Nat :=
  s.foldl (fun n u => n * base + digitValue u) 0

/-- A non-empty string of digits of `base`, as after `0x`, `0o` and `0b`. -/
def radixLiteral (base : Nat) (s : JsString) : Number :=
  if s ≠ [] ∧ s.all (fun u => digitValue u < base) then
    round (digitsToNat base s)
  else .nan

/-- The exponent part of a decimal literal, `some 0` when it is absent. -/
def exponentPart : JsString → Option Int
  | [] => some 0
  | u :: rest =>
      if u = 0x65 ∨ u = 0x45 then
        let (negative, digits) :=
          match rest with
          | 0x2D :: ds => (true, ds)
          | 0x2B :: ds => (false, ds)
          | ds => (false, ds)
        if digits ≠ [] ∧ digits.all isDigit then
          let n : Int := digitsToNat 10 digits
          some (if negative then -n else n)
        else none
      else none

/-- A decimal literal without sign. -/
def decimalLiteral (s : JsString) : Option ℚ :=
  let whole := s.takeWhile isDigit
  let rest := s.dropWhile isDigit
  let (fraction, rest) :=
    match rest with
    | 0x2E :: r => (r.takeWhile isDigit, r.dropWhile isDigit)
    | r => ([], r)
  -- `.` alone is no number, `1.` and `.5` are
  if whole = [] ∧ fraction = [] then none
  else
    (exponentPart rest).map fun e =>
      (digitsToNat 10 (whole ++ fraction) : ℚ) * 10 ^ (e - (fraction.length : Int))

/-- A decimal literal or `Infinity`, with the sign already read. -/
def unsignedLiteral (negative : Bool) (s : JsString) : Number :=
  if s = js "Infinity" then (if negative then .negInf else .posInf)
  else
    match decimalLiteral s with
    | some q => round (if negative then -q else q)
    | none => .nan

/-- `Number(string)`. -/
def ofString (s : JsString) : Number :=
  match trim s with
  -- an empty or blank string is zero
  | [] => .finite 0
  | 0x30 :: 0x78 :: ds => radixLiteral 16 ds
  | 0x30 :: 0x58 :: ds => radixLiteral 16 ds
  | 0x30 :: 0x6F :: ds => radixLiteral 8 ds
  | 0x30 :: 0x4F :: ds => radixLiteral 8 ds
  | 0x30 :: 0x62 :: ds => radixLiteral 2 ds
  | 0x30 :: 0x42 :: ds => radixLiteral 2 ds
  | 0x2B :: ds => unsignedLiteral false ds
  | 0x2D :: ds => unsignedLiteral true ds
  | ds => unsignedLiteral false ds

/-! ## `String(number)` -/

def natToJs (n : Nat) : JsString := js (toString n)

/-- The number `d` of `k` digits, as the digits `s` and the position `n` of the decimal
    point, if `s * 10 ^ (n - k)` reads back as `x`. -/
def digitsReading (x : ℚ) (k : Nat) (d : Int) : Option (Nat × Int) :=
  let scale : Int := Int.log 10 x + 1
  -- rounding up may carry into one more digit
  let (s, n) := if d.toNat = 10 ^ k then (10 ^ (k - 1), scale + 1) else (d.toNat, scale)
  if round (s * 10 ^ (n - (k : Int))) = .finite x then some (s, n) else none

/-- The `k` digits next to `x` that read back as `x`, for the given `k`.  Above a power of
    two the doubles are twice as far apart as below it, so that of the two neighbours of `x`
    the nearer one may fail where the other one reads back. -/
def digitsCandidate (x : ℚ) (k : Nat) : Option (Nat × Int) :=
  let digits := x * 10 ^ ((k : Int) - (Int.log 10 x + 1))
  let nearest := roundHalfEven digits
  let other := if nearest = digits.floor then digits.floor + 1 else digits.floor
  (digitsReading x k nearest).or (digitsReading x k other)

/-- The shortest digits that read back as `x`; seventeen always do. -/
def shortestDigits (x : ℚ) : Nat × Nat × Int :=
  let rec go (fuel k : Nat) : Nat × Nat × Int :=
    match digitsCandidate x k, fuel with
    | some (s, n), _ => (k, s, n)
    | none, 0 => (k, 0, 0)
    | none, fuel + 1 => go fuel (k + 1)
  go 16 1

def zeros (n : Nat) : JsString := List.replicate n 0x30

/-- The layout of `Number::toString` for a positive finite number. -/
def positiveToString (x : ℚ) : JsString :=
  let (k, s, n) := shortestDigits x
  let digits := natToJs s
  -- an integer, a decimal fraction, a small fraction, or exponential notation
  if (k : Int) ≤ n ∧ n ≤ 21 then digits ++ zeros (n - k).toNat
  else if 0 < n ∧ n ≤ 21 then
    digits.take n.toNat ++ js "." ++ digits.drop n.toNat
  else if -6 < n ∧ n ≤ 0 then js "0." ++ zeros (-n).toNat ++ digits
  else
    let e := n - 1
    let exponent := (if e < 0 then js "e-" else js "e+") ++ natToJs e.natAbs
    if k = 1 then digits ++ exponent
    else digits.take 1 ++ js "." ++ digits.drop 1 ++ exponent

/-- `String(number)`. -/
def toJsString : Number → JsString
  | .nan => js "NaN"
  | .posInf => js "Infinity"
  | .negInf => js "-Infinity"
  | .finite q =>
      if q = 0 then js "0"
      else if 0 < q then positiveToString q
      else js "-" ++ positiveToString (-q)

/-- `toFixed(1)`: the nearest tenth, the larger of two. -/
def toFixed1 : Number → JsString
  | .finite q =>
      if 10 ^ 21 ≤ |q| then toJsString (.finite q)
      else
        let tenths := (|q| * 10 + 1 / 2).floor.toNat
        (if q < 0 then js "-" else []) ++ natToJs (tenths / 10) ++ js "." ++
          natToJs (tenths % 10)
  | n => toJsString n

end Number

end CameraStream.Js
