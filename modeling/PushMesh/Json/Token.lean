import PushMesh.Json.Basic
import PushMesh.Number.Hex

/-!
# The tokens of a JSON text

A text is split into tokens before anything is read from it. A string whose escapes leave half of
a surrogate pair and a number too large for double precision are tokens of their own, because a
reader that skips a value accepts them and one that wants the value does not. The first fault in
the spelling of a token ends the list with `Token.malformed`.

`Token.text` writes a token, and `Token.scan` reads a text.
-/

namespace PushMesh.Json

/-- A token of a JSON text. -/
inductive Token where
  | leftBrace
  | rightBrace
  | leftBracket
  | rightBracket
  | comma
  | colon
  | null
  | bool (b : Bool)
  | number (n : Number)
  /-- A number that is well spelt but out of range. -/
  | vastNumber
  | string (s : String)
  /-- A string that is well spelt but holds half of a surrogate pair. -/
  | brokenString
  /-- A place where no token can be read. -/
  | malformed
deriving DecidableEq

namespace Token

/-! ## Writing -/

/-- A digit of a hexadecimal escape, in lower case. -/
def hexDigit (n : Nat) : Char := Nat.digitChar (n % 16)

/-- A character inside a quoted string: the quote, the backslash and the control characters are
escaped, everything else stands for itself. -/
def escape (c : Char) : List Char :=
  if c = '"' then ['\\', '"']
  else if c = '\\' then ['\\', '\\']
  else if c = '\x08' then ['\\', 'b']
  else if c = '\x0c' then ['\\', 'f']
  else if c = '\n' then ['\\', 'n']
  else if c = '\r' then ['\\', 'r']
  else if c = '\t' then ['\\', 't']
  else if c.toNat < 0x20 then ['\\', 'u', '0', '0', hexDigit (c.toNat / 16), hexDigit c.toNat]
  else [c]

/-- A string in quotes. -/
def quote (s : String) : List Char :=
  '"' :: s.toList.flatMap escape ++ ['"']

/-- The digits of an integer with its sign. -/
def integerText (n : Int) : List Char :=
  if n < 0 then '-' :: Decimal.digitText n.natAbs else Decimal.digitText n.natAbs

/-- The text of a number; a number that is not finite is written as null. -/
def numberText : Number → List Char
  | .int n => integerText n
  | .float x => if x.isFinite then x.text else ['n', 'u', 'l', 'l']

/-- The text of a token. -/
def text : Token → List Char
  | leftBrace => ['\x7b']
  | rightBrace => ['\x7d']
  | leftBracket => ['[']
  | rightBracket => [']']
  | comma => [',']
  | colon => [':']
  | null => ['n', 'u', 'l', 'l']
  | bool true => ['t', 'r', 'u', 'e']
  | bool false => ['f', 'a', 'l', 's', 'e']
  | number n => numberText n
  | string s => quote s
  | vastNumber => []
  | brokenString => []
  | malformed => []

/-! ## Reading strings -/

/-- A part of a quoted string: a character, or the code of a hexadecimal escape. -/
inductive Part where
  | char (c : Char)
  | code (n : Nat)

/-- The code of four hexadecimal digits. -/
def hexCode? (a b c d : Char) : Option Nat := do
  let a ← Number.hexDigit? a
  let b ← Number.hexDigit? b
  let c ← Number.hexDigit? c
  let d ← Number.hexDigit? d
  return ((a * 16 + b) * 16 + c) * 16 + d

/-- The character of a one-letter escape. -/
def escaped? : Char → Option Char
  | '"' => some '"'
  | '\\' => some '\\'
  | '/' => some '/'
  | 'b' => some '\x08'
  | 'f' => some '\x0c'
  | 'n' => some '\n'
  | 'r' => some '\r'
  | 't' => some '\t'
  | _ => none

/-- The parts of a string up to its closing quote, and what follows the quote. -/
def parts? : List Char → Option (List Part × List Char)
  | [] => none
  | '"' :: rest => some ([], rest)
  | '\\' :: 'u' :: a :: b :: c :: d :: rest => do
    let code ← hexCode? a b c d
    let (parts, rest) ← parts? rest
    return (.code code :: parts, rest)
  | '\\' :: c :: rest => do
    let c ← escaped? c
    let (parts, rest) ← parts? rest
    return (.char c :: parts, rest)
  | c :: rest => do
    guard (0x20 ≤ c.toNat ∧ c ≠ '\\')
    let (parts, rest) ← parts? rest
    return (.char c :: parts, rest)

/-- Whether a code is the first half of a surrogate pair. -/
def isHighHalf (n : Nat) : Bool := 0xD800 ≤ n && n < 0xDC00

/-- Whether a code is the second half of a surrogate pair. -/
def isLowHalf (n : Nat) : Bool := 0xDC00 ≤ n && n < 0xE000

/-- The characters that the parts stand for: two halves of a surrogate pair make one character, and
a half that is alone stands for nothing. -/
def chars? : List Part → Option (List Char)
  | [] => some []
  | .char c :: rest => (chars? rest).map (c :: ·)
  | .code high :: .code low :: rest =>
    if isHighHalf high then
      if isLowHalf low then
        (chars? rest).map (Char.ofNat (0x10000 + (high - 0xD800) * 0x400 + (low - 0xDC00)) :: ·)
      else none
    else if isLowHalf high then none
    else (chars? (.code low :: rest)).map (Char.ofNat high :: ·)
  | .code n :: rest =>
    if isHighHalf n || isLowHalf n then none
    else (chars? rest).map (Char.ofNat n :: ·)

/-! ## Reading numbers -/

/-- The spelling of a number: its sign, the digits before and after the point, and the exponent's
sign and digits. -/
structure Numeral where
  negative : Bool
  whole : List Char
  fraction : List Char
  exponent : Option (Bool × List Char)

/-- The value of a digit. -/
def digitValue (c : Char) : Nat := c.toNat - '0'.toNat

/-- The greatest significand that is kept exactly. -/
def significandLimit : Nat := UInt64.size - 1

/-- The significand with the digits added that fit, and how many did. -/
def takeDigits : Nat → List Char → Nat × Nat
  | s, [] => (s, 0)
  | s, c :: rest =>
    let t := s * 10 + digitValue c
    if t ≤ significandLimit then
      let (s, n) := takeDigits t rest
      (s, n + 1)
    else (s, 0)

/-- The greatest power of ten that divides or multiplies a significand in one step. -/
def greatestPower : Nat := 308

/-- A significand times or divided by a power of ten, in double precision steps: powers beyond
`greatestPower` are taken in several steps downwards, and are out of range upwards. A significand
of 64 bits is zero after three steps down. -/
def scaled? : Nat → Binary64 → Int → Option Binary64
  | 0, x, _ => some x
  | fuel + 1, x, e =>
    if e.natAbs ≤ greatestPower then
      let power := Binary64.ofNat (Nat.pow 10 e.natAbs)
      if 0 ≤ e then
        let y := x * power
        if y.isInfinite then none else some y
      else some (x / power)
    else if x.isZero then some x
    else if 0 ≤ e then none
    else scaled? fuel (x / Binary64.ofNat (Nat.pow 10 greatestPower)) (e + greatestPower)

/-- The greatest exponent that is kept exactly. -/
def exponentLimit : Nat := UInt32.size / 2 - 1

/-- An exponent as a number, or none when it exceeds the limit. -/
def exponentValue? (digits : List Char) : Option Nat :=
  go 0 digits
where
  go : Nat → List Char → Option Nat
    | n, [] => some n
    | n, c :: rest =>
      let m := n * 10 + digitValue c
      if m ≤ exponentLimit then go m rest else none

/-- The sum of two exponents, kept within 32 bits. -/
def addExponents (a b : Int) : Int :=
  max (-(exponentLimit : Int) - 1) (min exponentLimit (a + b))

namespace Numeral

/-- The double precision number of a spelling, or none when it is out of range. Digits beyond the
exact significand count by their place before the point and are dropped after it. -/
def float? (n : Numeral) : Option Binary64 := do
  let (s, kept) := takeDigits 0 n.whole
  let dropped := n.whole.length - kept
  let (s, places) := takeDigits s n.fraction
  let base : Int := (dropped : Int) - places
  let signed (x : Binary64) : Binary64 := if n.negative then -x else x
  match n.exponent with
  | none => (scaled? 4 (Binary64.ofNat s) base).map signed
  | some (negative, digits) =>
    match exponentValue? digits with
    | some e =>
      let e := addExponents base (if negative then -(e : Int) else e)
      (scaled? 4 (Binary64.ofNat s) e).map signed
    | none =>
      if s ≠ 0 ∧ negative = false then none else some (signed (Binary64.ofNat 0))

/-- The number of a spelling, or none when it is out of range. -/
def number? (n : Numeral) : Option Number :=
  if n.fraction = [] ∧ n.exponent = none ∧ (takeDigits 0 n.whole).2 = n.whole.length then
    let s := (takeDigits 0 n.whole).1
    if n.negative then
      if s = 0 ∨ UInt64.size / 2 < s then some (.float (-(Binary64.ofNat s)))
      else some (.int (-(s : Int)))
    else some (.int s)
  else n.float?.map .float

end Numeral

/-- The digits that a text starts with, and the rest. -/
def digits (cs : List Char) : List Char × List Char :=
  cs.span Char.isDigit

/-- The fraction after a point, at least one digit; without a point there is none. -/
def fraction? : List Char → Option (List Char × List Char)
  | '.' :: rest =>
    match digits rest with
    | ([], _) => none
    | (ds, rest) => some (ds, rest)
  | rest => some ([], rest)

/-- The exponent after its letter, at least one digit; without the letter there is none. -/
def exponent? (cs : List Char) : Option (Option (Bool × List Char) × List Char) :=
  let signed (cs : List Char) : Bool × List Char :=
    match cs with
    | '-' :: rest => (true, rest)
    | '+' :: rest => (false, rest)
    | rest => (false, rest)
  let read (cs : List Char) : Option (Option (Bool × List Char) × List Char) :=
    let (negative, rest) := signed cs
    match digits rest with
    | ([], _) => none
    | (ds, rest) => some (some (negative, ds), rest)
  match cs with
  | 'e' :: rest => read rest
  | 'E' :: rest => read rest
  | rest => some (none, rest)

/-- The spelling of a number: a zero is not followed by another digit. -/
def numeral? (negative : Bool) (cs : List Char) : Option (Numeral × List Char) :=
  match digits cs with
  | ([], _) => none
  | (whole, rest) =>
    if 1 < whole.length ∧ whole.head? = some '0' then none
    else do
      let (fraction, rest) ← fraction? rest
      let (exponent, rest) ← exponent? rest
      return (⟨negative, whole, fraction, exponent⟩, rest)

/-! ## Reading a text -/

/-- The blanks of a JSON text. -/
def isBlank (c : Char) : Bool :=
  c = ' ' || c = '\n' || c = '\t' || c = '\r'

/-- The token of a string after its opening quote. -/
def scanString (cs : List Char) : Token × List Char :=
  match parts? cs with
  | none => (malformed, [])
  | some (parts, rest) =>
    match chars? parts with
    | none => (brokenString, rest)
    | some s => (string (String.ofList s), rest)

/-- The token of a number after its sign. -/
def scanNumber (negative : Bool) (cs : List Char) : Token × List Char :=
  match numeral? negative cs with
  | none => (malformed, [])
  | some (n, rest) =>
    match n.number? with
    | none => (vastNumber, rest)
    | some x => (number x, rest)

/-- The first token of a text that does not start with a blank, and the rest. -/
def scanOne : List Char → Token × List Char
  | '\x7b' :: rest => (leftBrace, rest)
  | '\x7d' :: rest => (rightBrace, rest)
  | '[' :: rest => (leftBracket, rest)
  | ']' :: rest => (rightBracket, rest)
  | ',' :: rest => (comma, rest)
  | ':' :: rest => (colon, rest)
  | '"' :: rest => scanString rest
  | '-' :: rest => scanNumber true rest
  | 'n' :: 'u' :: 'l' :: 'l' :: rest => (null, rest)
  | 't' :: 'r' :: 'u' :: 'e' :: rest => (bool true, rest)
  | 'f' :: 'a' :: 'l' :: 's' :: 'e' :: rest => (bool false, rest)
  | cs => scanNumber false cs

/-- The tokens of a text, the last one being `malformed` when a token cannot be read. Every token
takes at least one character, so the length of the text bounds the steps. -/
def scanFrom : Nat → List Char → List Token
  | 0, _ => []
  | fuel + 1, cs =>
    match cs.dropWhile isBlank with
    | [] => []
    | c :: cs =>
      match scanOne (c :: cs) with
      | (malformed, _) => [malformed]
      | (t, rest) => t :: scanFrom fuel rest

/-- The tokens of a text. -/
def scan (text : String) : List Token :=
  let cs := text.toList
  scanFrom (cs.length + 1) cs

end Token

end PushMesh.Json
