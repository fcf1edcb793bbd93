/-!
# UTF-8

The bytes of a text, and the text of bytes. Bytes need not be well-formed: each longest start of a
character that is broken off, and each byte that starts no character, stands for one hole.
-/

namespace PushMesh.Text.Utf8

/-- The bytes of a text. -/
def encode (cs : List Char) : List UInt8 :=
  cs.flatMap String.utf8EncodeChar

/-- A character of which some bytes have been read. -/
structure Started where
  /-- The number of bytes that are still to come, less one. -/
  more : Nat
  /-- The least byte that may come next. -/
  low : Nat
  /-- The greatest byte that may come next. -/
  high : Nat
  /-- The bits read so far. -/
  bits : Nat
deriving DecidableEq

/-- What the first byte of a character tells. -/
inductive Lead where
  /-- It is the whole character. -/
  | whole (c : Char)
  | started (s : Started)
  /-- No character starts with it. -/
  | broken
deriving DecidableEq

/-- Looks at a byte where a character starts. The bounds on the second byte keep out forms that are
longer than needed, surrogates and numbers that are too great. -/
def lead (b : UInt8) : Lead :=
  let n := b.toNat
  if n < 0x80 then .whole (Char.ofNat n)
  else if n < 0xC2 then .broken
  else if n < 0xE0 then .started ⟨0, 0x80, 0xBF, n - 0xC0⟩
  else if n = 0xE0 then .started ⟨1, 0xA0, 0xBF, 0⟩
  else if n = 0xED then .started ⟨1, 0x80, 0x9F, 0xD⟩
  else if n < 0xF0 then .started ⟨1, 0x80, 0xBF, n - 0xE0⟩
  else if n = 0xF0 then .started ⟨2, 0x90, 0xBF, 0⟩
  else if n < 0xF4 then .started ⟨2, 0x80, 0xBF, n - 0xF0⟩
  else if n = 0xF4 then .started ⟨2, 0x80, 0x8F, 4⟩
  else .broken

/-- The characters of bytes, none standing for each hole. -/
def decodeFrom : Option Started → List UInt8 → List (Option Char)
  | none, [] => []
  | some _, [] => [none]
  | none, b :: bs =>
    match lead b with
    | .whole c => some c :: decodeFrom none bs
    | .started s => decodeFrom (some s) bs
    | .broken => none :: decodeFrom none bs
  | some s, b :: bs =>
    if s.low ≤ b.toNat ∧ b.toNat ≤ s.high then
      let bits := s.bits * 64 + (b.toNat - 0x80)
      match s.more with
      | 0 => some (Char.ofNat bits) :: decodeFrom none bs
      | more + 1 => decodeFrom (some ⟨more, 0x80, 0xBF, bits⟩) bs
    else
      match lead b with
      | .whole c => none :: some c :: decodeFrom none bs
      | .started s => none :: decodeFrom (some s) bs
      | .broken => none :: none :: decodeFrom none bs

/-- The characters of bytes, none standing for each hole. -/
def decode (bs : List UInt8) : List (Option Char) := decodeFrom none bs

/-- The text of well-formed bytes. -/
def text? (bs : List UInt8) : Option String :=
  ((decode bs).mapM id).map String.ofList

/-- The text of any bytes, with U+FFFD for each hole. -/
def text (bs : List UInt8) : String :=
  String.ofList ((decode bs).map (·.getD '\uFFFD'))

end PushMesh.Text.Utf8
