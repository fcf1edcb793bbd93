import PushMesh.Number.Binary64
import PushMesh.Number.Word

/-!
# Signed and fractional numbers as text

An integer is written in decimal digits with a sign allowed before them. A double precision number
may have a fraction and an exponent besides, and infinity and the number without a value have names.
Blanks are not allowed anywhere. A number is read as the double precision number nearest to it.
-/

namespace PushMesh.Number

/-- A sign that may precede digits, and what follows: whether it is a minus sign. -/
def sign : List Char → Bool × List Char
  | '-' :: cs => (true, cs)
  | '+' :: cs => (false, cs)
  | cs => (false, cs)

/-- The integer that a sign and digits write. -/
def integer? (cs : List Char) : Option Int := do
  let (negative, digits) := sign cs
  let n ← Text.decimal? digits
  return if negative then -(n : Int) else n

/-- The number of signed words of 64 bits that are not negative. -/
def signedBound : Nat := UInt64.size / 2

/-- Whether an integer is a signed word of 64 bits. -/
def isSignedWord (n : Int) : Bool :=
  -(signedBound : Int) ≤ n && n < signedBound

/-- The signed word of 64 bits that a text writes. -/
def signedWord? (s : String) : Option Int :=
  (integer? s.toList).filter isSignedWord

/-- The power of ten beyond which every number with few digits is infinite, or below which it is
zero. -/
def greatestScale : Nat := 400

/-- The double precision number nearest to `± 0.digits · 10 ^ point`, the zeros before the first
other digit left out. -/
def nearest (negative : Bool) (digits : List Char) (point : Int) : Binary64 :=
  let significant := digits.dropWhile (· = '0')
  let point := point - (digits.length - significant.length : Nat)
  match Text.decimal? significant with
  | none => .ofRatio negative 0 1
  | some n =>
    if greatestScale < point then .infinite negative
    else if point < -(greatestScale : Int) then .ofRatio negative 0 1
    else .ofDecimal negative n (point - significant.length)

/-- The exponent after its letter; without the letter there is none. -/
def exponent? : List Char → Option Int
  | [] => some 0
  | c :: cs => if c = 'e' ∨ c = 'E' then integer? cs else none

/-- The double precision number of digits with perhaps a fraction and an exponent. There is at least
one digit before the exponent, on either side of the point. -/
def decimal? (negative : Bool) (cs : List Char) : Option Binary64 := do
  let (whole, rest) := cs.span Char.isDigit
  let (fraction, rest) := match rest with
    | '.' :: rest => rest.span Char.isDigit
    | rest => ([], rest)
  let exponent ← exponent? rest
  if whole.isEmpty && fraction.isEmpty then none
  else some (nearest negative (whole ++ fraction) (whole.length + exponent))

/-- The double precision number that a text writes. -/
def float? (s : String) : Option Binary64 :=
  let (negative, cs) := sign s.toList
  match String.ofList (cs.map Text.lowerAscii) with
  | "inf" => some (.infinite negative)
  | "infinity" => some (.infinite negative)
  | "nan" => some .nan
  | _ => decimal? negative cs

end PushMesh.Number
