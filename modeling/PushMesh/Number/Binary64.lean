/-!
# Double precision numbers in exact arithmetic

A finite number is kept as a signed integer times a power of two, and every operation computes its
exact quotient of natural numbers first and rounds once, to the nearest representable number with
ties to the even mantissa. Everything reduces to `Binary64.ofRatio`.
-/

namespace PushMesh

/-- A double precision number. -/
inductive Binary64 where
  /-- The number `± mantissa · 2 ^ exponent`, with at most 53 bits of mantissa. -/
  | finite (negative : Bool) (mantissa : Nat) (exponent : Int)
  /-- A number too large to be finite. -/
  | infinite (negative : Bool)
  /-- The result of an operation without a value. -/
  | nan
deriving DecidableEq

namespace Binary64

instance : Inhabited Binary64 := ⟨nan⟩

/-- The exponent of the least subnormal number. -/
def leastExponent : Int := -1074

/-- The greatest exponent of a finite number. -/
def greatestExponent : Int := 971

/-- The number of bits of a full mantissa. -/
def precision : Nat := 53

/-- The quotient rounded to the nearest integer, a half to the even neighbour. -/
def roundQuotient (num den : Nat) : Nat :=
  let q := num / den
  let r := 2 * (num % den)
  if r < den then q
  else if den < r then q + 1
  else if q % 2 = 0 then q else q + 1

/-- Numerator and denominator of `num / den · 2 ^ e`. -/
def scale (num den : Nat) (e : Int) : Nat × Nat :=
  if 0 ≤ e then (num * Nat.pow 2 e.toNat, den) else (num, den * Nat.pow 2 (-e).toNat)

/-- The exponent at which `num / den` has a full mantissa, or the least exponent. -/
def exponentOf (num den : Nat) : Int :=
  let e : Int := (num.log2 : Int) - den.log2 - precision
  let (n, d) := scale num den (-e)
  let e := if n / d < Nat.pow 2 precision then e else e + 1
  max e leastExponent

/-- The double precision number nearest to `± num / den`. -/
def ofRatio (negative : Bool) (num den : Nat) : Binary64 :=
  if num = 0 then finite negative 0 leastExponent
  else
    let e := exponentOf num den
    let (n, d) := scale num den (-e)
    let m := roundQuotient n d
    let (m, e) := if m = Nat.pow 2 precision then (Nat.pow 2 (precision - 1), e + 1) else (m, e)
    if greatestExponent < e then infinite negative else finite negative m e

/-- The double precision number nearest to a natural number. -/
def ofNat (n : Nat) : Binary64 := ofRatio false n 1

/-- The double precision number nearest to an integer. -/
def ofInt (n : Int) : Binary64 := ofRatio (n < 0) n.natAbs 1

/-- The double precision number nearest to `± digits · 10 ^ exponent`. -/
def ofDecimal (negative : Bool) (digits : Nat) (exponent : Int) : Binary64 :=
  if 0 ≤ exponent then ofRatio negative (digits * Nat.pow 10 exponent.toNat) 1
  else ofRatio negative digits (Nat.pow 10 (-exponent).toNat)

def isInfinite : Binary64 → Bool
  | infinite _ => true
  | _ => false

def isFinite : Binary64 → Bool
  | finite .. => true
  | _ => false

/-- Whether the number is zero of either sign. -/
def isZero : Binary64 → Bool
  | finite _ m _ => m == 0
  | _ => false

/-- The number with its sign changed. -/
def neg : Binary64 → Binary64
  | finite s m e => finite (!s) m e
  | infinite s => infinite (!s)
  | nan => nan

instance : Neg Binary64 := ⟨neg⟩

/-- The rounded product. -/
def mul : Binary64 → Binary64 → Binary64
  | nan, _ => nan
  | _, nan => nan
  | infinite s, infinite t => infinite (s != t)
  | infinite s, finite t m _ => if m = 0 then nan else infinite (s != t)
  | finite s m _, infinite t => if m = 0 then nan else infinite (s != t)
  | finite s m e, finite t n f =>
    let (num, den) := scale (m * n) 1 (e + f)
    ofRatio (s != t) num den

instance : Mul Binary64 := ⟨mul⟩

/-- The rounded quotient. -/
def div : Binary64 → Binary64 → Binary64
  | nan, _ => nan
  | _, nan => nan
  | infinite _, infinite _ => nan
  | infinite s, finite t _ _ => infinite (s != t)
  | finite s _ _, infinite t => ofRatio (s != t) 0 1
  | finite s m e, finite t n f =>
    if n = 0 then if m = 0 then nan else infinite (s != t)
    else
      let (num, den) := scale m n (e - f)
      ofRatio (s != t) num den

instance : Div Binary64 := ⟨div⟩

/-- The power by a natural number, by repeated squaring: every product is rounded, and the order of
the products is that of the binary digits of the exponent, the least significant first. -/
def pow (x : Binary64) (n : Nat) : Binary64 :=
  go (n.log2 + 1) x n (ofNat 1)
where
  /-- One digit of the exponent: `acc` takes the current square when the digit is one. -/
  go : Nat → Binary64 → Nat → Binary64 → Binary64
    | 0, _, _, acc => acc
    | fuel + 1, square, n, acc =>
      if n = 0 then acc
      else
        let acc := if n % 2 = 1 then acc * square else acc
        if n / 2 = 0 then acc else go fuel (square * square) (n / 2) acc

/-- Whether the magnitude `m · 2 ^ e` is less than `n · 2 ^ f`. -/
def magnitudeLt (m : Nat) (e : Int) (n : Nat) (f : Int) : Bool :=
  let (a, b) := scale m 1 (e - f)
  a < n * b

/-- The order of numbers; every comparison with a number without a value is false. -/
def lt : Binary64 → Binary64 → Bool
  | nan, _ => false
  | _, nan => false
  | infinite s, infinite t => s && !t
  | infinite s, finite .. => s
  | finite .., infinite t => !t
  | finite s m e, finite t n f =>
    match s, t with
    | false, false => magnitudeLt m e n f
    | true, true => magnitudeLt n f m e
    | true, false => m != 0 || n != 0
    | false, true => false

/-- The lesser number; a number without a value gives way to the other one. -/
def min (x y : Binary64) : Binary64 :=
  match x, y with
  | nan, y => y
  | x, nan => x
  | x, y => if lt y x then y else x

/-- Whether the number counts as true: it is not zero. -/
def isNonzero (x : Binary64) : Bool := !x.isZero

/-- The integer part of the magnitude of a finite number. -/
def truncate : Binary64 → Option Nat
  | finite _ m e =>
    let (num, den) := scale m 1 e
    some (num / den)
  | _ => none

/-- The nearest integer of the magnitude of a finite number, a half going up. -/
def roundMagnitude : Binary64 → Option Nat
  | finite _ m e =>
    let (num, den) := scale (2 * m) 1 e
    some ((num + den) / (2 * den))
  | _ => none

/-- The integer part as an unsigned word of `bits` bits: negative numbers and numbers without a
value give zero, numbers too large the greatest word. -/
def toWord (bits : Nat) (x : Binary64) : Nat :=
  match x with
  | nan => 0
  | infinite s => if s then 0 else Nat.pow 2 bits - 1
  | finite s _ _ => if s then 0 else Nat.min (x.truncate.getD 0) (Nat.pow 2 bits - 1)

end Binary64

end PushMesh
