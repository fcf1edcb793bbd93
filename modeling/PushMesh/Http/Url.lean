import PushMesh.Http.Percent
import PushMesh.Number.Hex

/-!
# Addresses of web services

Which texts name a host that can be called: after the scheme stand perhaps a user with an at sign, a
host, and perhaps a colon and a port. A host whose last part is a number has to be the address of a
host in four bytes.
-/

namespace PushMesh.Http.Url

/-- Whether a character cannot stand in the name of a host. -/
def isForbidden (c : Char) : Bool :=
  c.toNat ≤ 0x20 || c.toNat = 0x7F || "#/:<>?@[\\]^|%".toList.contains c

/-- The number that a part of an address writes, in one of three bases. -/
def addressPart? (cs : List Char) : Option Nat :=
  match cs with
  | '0' :: 'x' :: rest => if rest.isEmpty then some 0 else Number.hex? rest
  | '0' :: 'X' :: rest => if rest.isEmpty then some 0 else Number.hex? rest
  | '0' :: rest =>
    rest.foldl (fun n c => n.bind fun n =>
      if '0' ≤ c ∧ c ≤ '7' then some (n * 8 + (c.toNat - 0x30)) else none) (some 0)
  | _ => Text.decimal? cs

/-- The parts of a host between dots, without an empty one at the end. -/
def hostParts (cs : List Char) : List (List Char) :=
  let l := Text.splitAll '.' cs
  if 1 < l.length ∧ l.getLast?.any (·.isEmpty) then l.dropLast else l

/-- Whether the last part of a host makes it a number. -/
def endsInNumber (parts : List (List Char)) : Bool :=
  parts.getLast?.any fun p =>
    (!p.isEmpty && p.all Char.isDigit) || (addressPart? p).isSome

/-- Whether numbers between dots are an address: all but the last are bytes, and the last fills up
the rest. -/
def isAddress (parts : List (List Char)) : Bool :=
  match parts.mapM addressPart? with
  | none => false
  | some l =>
    l.length ≤ 4 && l.dropLast.all (· < 256) && l.getLast?.all (· < Nat.pow 256 (5 - l.length))

/-- Whether a text is a host. -/
def isHost (cs : List Char) : Bool :=
  match Percent.text? (String.ofList cs) with
  | none => false
  | some host =>
    let cs := host.toList
    !cs.isEmpty && !cs.any isForbidden
      && (!endsInNumber (hostParts cs) || isAddress (hostParts cs))

/-- Whether a text is a port, or empty. -/
def isPort (cs : List Char) : Bool :=
  cs.isEmpty || (Text.decimal? cs).any (· < UInt16.size)

/-- Whether what stands between brackets may be an address of sixteen bytes. -/
def isLongAddress (cs : List Char) : Bool :=
  2 ≤ cs.count ':' && cs.all fun c => (Number.hexDigit? c).isSome || c = ':' || c = '.'

/-- Whether a text is a host with perhaps a port. -/
def isHostAndPort (cs : List Char) : Bool :=
  match cs with
  | '[' :: rest =>
    match Text.splitOnce? ']' rest with
    | some (address, []) => isLongAddress address
    | some (address, ':' :: port) => isLongAddress address && isPort port
    | _ => false
  | cs =>
    match Text.splitOnce? ':' cs with
    | some (host, port) => isHost host && isPort port
    | none => isHost cs

/-- The host and port that a text names after its scheme, without the user. -/
def authority (cs : List Char) : List Char :=
  let isSlash (c : Char) : Bool := c = '/' || c = '\\'
  let cs := (cs.filter fun c => c ≠ '\t' && c ≠ '\n' && c ≠ '\r').dropWhile isSlash
  let cs := cs.takeWhile fun c => !isSlash c && c ≠ '?' && c ≠ '#'
  match Text.splitOnce? '@' cs.reverse with
  | some (host, _) => host.reverse
  | none => cs

/-- Whether a text with a scheme can be called. -/
def isCallable (url : String) : Bool :=
  match Text.splitOnce? ':' url.toList with
  | some (_, rest) => isHostAndPort (authority rest)
  | none => false

end PushMesh.Http.Url
