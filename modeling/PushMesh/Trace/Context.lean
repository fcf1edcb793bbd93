import PushMesh.Number.Hex
import PushMesh.Number.Word
import PushMesh.Text.Blank

/-!
# Trace contexts

A call can carry the context of a trace in two headers. The parent header has a version, the ids of
trace and span and flags in hexadecimal digits between hyphens. The state header lists members of
other systems. Context is always written in version 0 and with the sampling flag alone; a state that
cannot be read is dropped.
-/

namespace PushMesh.Trace

/-- The members of other systems, keys with values, in order. -/
abbrev Members := List (String × String)

namespace Members

/-- The greatest length of a key or a value in bytes. -/
def greatestLength : Nat := 256

/-- The greatest length of what follows the at sign in a key. -/
def greatestVendor : Nat := 13

/-- Whether a character is a lower case letter or a digit. -/
def isPlain (c : Char) : Bool :=
  ('a' ≤ c && c ≤ 'z') || ('0' ≤ c && c ≤ '9')

/-- Whether a character may stand in a key, the at sign aside. -/
def isKeyChar (c : Char) : Bool :=
  isPlain c || c = '_' || c = '-' || c = '*' || c = '/'

/-- Whether the first character, if there is one, is a lower case letter or a digit. -/
def startsPlain (cs : List Char) : Bool :=
  cs.head?.all isPlain

/-- Whether a text is a key: a name, or a name and a short vendor around an at sign. -/
def isKey (key : String) : Bool :=
  let cs := key.toList
  let isName (cs : List Char) := startsPlain cs && cs.all isKeyChar
  key.utf8ByteSize ≤ greatestLength &&
    match Text.splitOnce? '@' cs with
    | none => isName cs
    | some (name, vendor) =>
      !name.isEmpty && isName name && isName vendor && vendor.length ≤ greatestVendor

/-- Whether a text is a value. -/
def isValue (value : String) : Bool :=
  value.utf8ByteSize ≤ greatestLength && value.toList.all fun c => c ≠ ',' && c ≠ '='

/-- A member as written: key and value around equals signs. -/
def ofItem? (cs : List Char) : Option (String × String) := do
  let (key, value) ← Text.splitOnce? '=' cs
  let key := String.ofList key
  let value := String.ofList (value.dropWhile (· = '='))
  if isKey key && isValue value then some (key, value) else none

/-- The parts between separators, without an empty one at the end. -/
def parts (sep : Char) (cs : List Char) : List (List Char) :=
  let l := Text.splitAll sep cs
  if l.getLast?.any (·.isEmpty) then l.dropLast else l

/-- The members that a header lists. -/
def parse? (header : String) : Option Members :=
  (parts ',' header.toList).mapM ofItem?

/-- The members as a header. -/
def text (l : Members) : String :=
  String.intercalate "," (l.map fun (key, value) => key ++ "=" ++ value)

end Members

/-- The context of a trace. -/
structure Context where
  /-- The trace, a number of 128 bits. -/
  traceId : Nat
  /-- The span that the work belongs to, a number of 64 bits. -/
  spanId : Nat
  /-- Whether the trace is recorded. -/
  isSampled : Bool
  members : Members
deriving DecidableEq

namespace Context

/-- The name of the parent header. -/
def parentHeader : String := "traceparent"

/-- The name of the state header. -/
def stateHeader : String := "tracestate"

/-- A number of at most so many bits in hexadecimal digits, with a plus sign allowed before them. -/
def number? (bits : Nat) (cs : List Char) : Option Nat :=
  (Number.hex? (Number.withoutPlus cs)).filter (· < Nat.pow 2 bits)

/-- The number of an id, which is written in lower case and is not zero. -/
def id? (bits : Nat) (cs : List Char) : Option Nat :=
  if cs.any fun c => 'A' ≤ c && c ≤ 'Z' then none
  else (number? bits cs).filter (· ≠ 0)

/-- Whether a header of a version may have so many parts. -/
def allowsParts (version count : Nat) : Bool :=
  if version = 0 then count = 4 else version ≤ 254 && 4 ≤ count

/-- Whether the flags are known in a version. -/
def allowsFlags (version flags : Nat) : Bool :=
  version ≠ 0 || flags ≤ 2

/-- The context that a parent header writes. -/
def ofParent? (header : String) : Option Context := do
  let l := Members.parts '-' (Text.trim header.toList)
  match l with
  | version :: trace :: span :: flags :: _ =>
    let version ← number? 8 version
    let traceId ← id? 128 trace
    let spanId ← id? 64 span
    let flags ← number? 8 flags
    if allowsParts version l.length && allowsFlags version flags then
      some ⟨traceId, spanId, flags % 2 = 1, []⟩
    else none
  | _ => none

/-- The context that headers carry, each header given as its text if it is there. -/
def ofHeaders? (parent state : Option String) : Option Context := do
  let c ← ofParent? (← parent)
  return { c with members := (state.bind Members.parse?).getD [] }

/-- The id of the trace as written. -/
def traceText (c : Context) : String := String.ofList (Number.hexText 32 c.traceId)

/-- The id of the span as written. -/
def spanText (c : Context) : String := String.ofList (Number.hexText 16 c.spanId)

/-- The parent header. -/
def parentText (c : Context) : String :=
  "00-" ++ c.traceText ++ "-" ++ c.spanText ++ (if c.isSampled then "-01" else "-00")

/-- The headers that carry the context on. -/
def headers (c : Context) : List (String × String) :=
  [(parentHeader, c.parentText), (stateHeader, c.members.text)]

end Context

end PushMesh.Trace
