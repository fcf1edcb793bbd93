import PushMesh.Number.Hex
import PushMesh.Text.Blank
import PushMesh.Text.Utf8

/-!
# Percent-encoding

In the target of a request a percent sign and two hexadecimal digits stand for a byte. A percent
sign without them stands for itself.
-/

namespace PushMesh.Http.Percent

/-- The value of a byte that is a hexadecimal digit. -/
def digit? (b : UInt8) : Option Nat :=
  Number.hexDigit? (Char.ofNat b.toNat)

/-- The byte that two hexadecimal digits write. -/
def byte? (high low : UInt8) : Option UInt8 := do
  return UInt8.ofNat ((← digit? high) * 16 + (← digit? low))

/-- The bytes for which a part of a target stands. -/
def decode : List UInt8 → List UInt8
  | 0x25 :: high :: low :: bs =>
    match byte? high low with
    | some b => b :: decode bs
    | none => 0x25 :: decode (high :: low :: bs)
  | b :: bs => b :: decode bs
  | [] => []

/-- The text for which a part of a path stands, if its bytes are one. -/
def text? (s : String) : Option String :=
  Text.Utf8.text? (decode (Text.Utf8.encode s.toList))

end PushMesh.Http.Percent
