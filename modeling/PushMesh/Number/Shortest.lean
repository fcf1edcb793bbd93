import PushMesh.Number.Binary64

/-!
# The shortest decimal that reads back

A finite double precision number is written with the fewest decimal digits that round back to it;
of several such decimals the nearest one is taken, and of two equally near the even one.

The search walks the decimal grids `10 ^ p` from coarse to fine. On each grid only the two
neighbours of the number can be nearest, and the first grid on which one of them lies within the
rounding interval has the fewest digits.
-/

namespace PushMesh

/-- The decimal number `digits · 10 ^ exponent`. -/
structure Decimal where
  digits : Nat
  exponent : Int
deriving DecidableEq

namespace Decimal

/-- Numerator and denominator of `num / den · 10 ^ e`. -/
def scale (num den : Nat) (e : Int) : Nat × Nat :=
  if 0 ≤ e then (num * Nat.pow 10 e.toNat, den) else (num, den * Nat.pow 10 (-e).toNat)

/-- The neighbour of `m · 2 ^ e` on the grid `10 ^ p` that rounds back to it, if there is one: the
rounding interval reaches half a unit up and half a unit of the binade below down, its ends
belonging to it when `m` is even. -/
def onGrid? (m : Nat) (e : Int) (p : Int) : Option Nat :=
  let below := if m = Nat.pow 2 (Binary64.precision - 1) ∧ Binary64.leastExponent < e then 1 else 2
  -- quarter units of the mantissa, as multiples of the grid
  let (num, den) := Binary64.scale 1 1 (e - 2)
  let (num, den) := scale num den (-p)
  let value := 4 * m * num
  let low := (4 * m - below) * num
  let high := (4 * m + 2) * num
  let within (d : Nat) : Bool :=
    if m % 2 = 0 then low ≤ d * den && d * den ≤ high else low < d * den && d * den < high
  let down := value / den
  let up := down + 1
  match within down, within up with
  | false, false => none
  | true, false => some down
  | false, true => some up
  | true, true =>
    let past := value - down * den
    let short := up * den - value
    if past < short then some down
    else if short < past then some up
    else if down % 2 = 0 then some down else some up

/-- The first hit on the grids from `10 ^ p` downwards. -/
def search (m : Nat) (e : Int) : Nat → Int → Decimal
  | 0, p => ⟨0, p⟩
  | fuel + 1, p =>
    match onGrid? m e p with
    | some d => ⟨d, p⟩
    | none => search m e fuel (p - 1)

/-- The same number without zeros at the end of its digits. -/
def strip : Nat → Decimal → Decimal
  | 0, d => d
  | fuel + 1, d =>
    if d.digits ≠ 0 ∧ d.digits % 10 = 0 then strip fuel ⟨d.digits / 10, d.exponent + 1⟩ else d

/-- The shortest decimal that rounds to `m · 2 ^ e`, for `m` not zero. The first grid is coarser
than the number, and seventeen digits always suffice. -/
def shortest (m : Nat) (e : Int) : Decimal :=
  let top := ((m.log2 : Int) + e + 1) * 30103 / 100000 + 2
  strip 20 (search m e 25 top)

/-- The digits of a number, `0` for zero. -/
def digitText (n : Nat) : List Char :=
  Nat.toDigits 10 n

/-- The number written with a point among or beside its digits and without an exponent; `point` is
the number of digits before the point, and `whole` ends a number without a fraction. -/
def positional (digits : List Char) (point : Int) (whole : List Char) : List Char :=
  if point ≤ 0 then '0' :: '.' :: (List.replicate (-point).toNat '0' ++ digits)
  else
    let k := point.toNat
    if digits.length ≤ k then digits ++ List.replicate (k - digits.length) '0' ++ whole
    else digits.take k ++ '.' :: digits.drop k

/-- The number written with one digit before the point and a signed exponent. -/
def scientific (digits : List Char) (point : Int) : List Char :=
  let mantissa :=
    match digits with
    | [] => ['0']
    | [d] => [d]
    | d :: ds => d :: '.' :: ds
  let exponent := point - 1
  mantissa ++ 'e' :: (if exponent < 0 then '-' else '+') :: digitText exponent.natAbs

end Decimal

namespace Binary64

/-- The sign, as written before the digits. -/
def signText (negative : Bool) : List Char :=
  if negative then ['-'] else []

/-- The shortest text of a finite number, always recognisable as one that is not an integer: from
`0.00001` up to less than `10 ^ 16` without an exponent, all others with one. -/
def text (x : Binary64) : List Char :=
  match x with
  | finite s m e =>
    if m = 0 then signText s ++ ['0', '.', '0']
    else
      let d := Decimal.shortest m e
      let digits := Decimal.digitText d.digits
      let point := digits.length + d.exponent
      signText s ++
        if -5 < point ∧ point ≤ 16 then Decimal.positional digits point ['.', '0']
        else Decimal.scientific digits point
  | infinite s => signText s ++ ['i', 'n', 'f']
  | nan => ['N', 'a', 'N']

/-- The shortest text of a number without an exponent; an integer is written without a point. -/
def plainText (x : Binary64) : List Char :=
  match x with
  | finite s m e =>
    if m = 0 then signText s ++ ['0']
    else
      let d := Decimal.shortest m e
      let digits := Decimal.digitText d.digits
      signText s ++ Decimal.positional digits (digits.length + d.exponent) []
  | infinite s => signText s ++ ['i', 'n', 'f']
  | nan => ['N', 'a', 'N']

end Binary64

end PushMesh
