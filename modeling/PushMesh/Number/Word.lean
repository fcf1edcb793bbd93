import PushMesh.Text.Blank

/-!
# Words of 64 bits as text

A word is written in decimal digits; a plus sign before them and leading zeros are allowed, blanks
are not.
-/

namespace PushMesh.Number

/-- The digits of a number after the plus sign that may precede them. -/
def withoutPlus : List Char → List Char
  | '+' :: cs => cs
  | cs => cs

/-- The number that a text writes, if it is less than a bound. -/
def below? (bound : Nat) (s : String) : Option Nat :=
  (Text.decimal? (withoutPlus s.toList)).filter (· < bound)

/-- The unsigned word of 64 bits that a text writes. -/
def word? (s : String) : Option UInt64 :=
  (below? UInt64.size s).map UInt64.ofNat

end PushMesh.Number
