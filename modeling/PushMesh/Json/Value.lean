import PushMesh.Json.Printer

/-!
# Reading JSON values

`Json.read?` reads one value of free form from a list of tokens. It keeps the containers that are
open on a stack, so that it walks the tokens once. The fields of an object come out in ascending
order of their keys, the last one winning where a key is repeated. Containers may be nested as deep
as the given bound; deeper ones are refused.

`Json.skip?` passes over one value without a bound on its depth and without looking at the values
of its strings and numbers.
-/

namespace PushMesh.Json

/-- An open container: the items read so far, the last one first, or the fields read so far in
ascending order and the key whose value comes next. -/
inductive Frame where
  | array (items : List Json)
  | object (fields : List (String × Json)) (key : String)

/-- The value of a token that is a value by itself. -/
def scalar? : Token → Option Json
  | .null => some null
  | .bool b => some (bool b)
  | .number n => some (number n)
  | .string s => some (string s)
  | _ => none

mutual

/-- Reads a value inside the open containers, then what follows it. -/
def readValue? (depth : Nat) : List Frame → List Token → Option (Json × List Token)
  | _, [] => none
  | stack, .leftBracket :: .rightBracket :: ts =>
    if stack.length < depth then readRest? depth stack (array []) ts else none
  | stack, .leftBracket :: ts =>
    if stack.length < depth then readValue? depth (.array [] :: stack) ts else none
  | stack, .leftBrace :: .rightBrace :: ts =>
    if stack.length < depth then readRest? depth stack (object []) ts else none
  | stack, .leftBrace :: .string k :: .colon :: ts =>
    if stack.length < depth then readValue? depth (.object [] k :: stack) ts else none
  | stack, t :: ts =>
    match scalar? t with
    | some j => readRest? depth stack j ts
    | none => none

/-- Goes on after the value `j`: the innermost container gets another item, or ends and is itself
the value. -/
def readRest? (depth : Nat) : List Frame → Json → List Token → Option (Json × List Token)
  | [], j, ts => some (j, ts)
  | .array items :: stack, j, .comma :: ts => readValue? depth (.array (j :: items) :: stack) ts
  | .array items :: stack, j, .rightBracket :: ts =>
    readRest? depth stack (array (j :: items).reverse) ts
  | .object fields key :: stack, j, .comma :: .string k :: .colon :: ts =>
    readValue? depth (.object (Table.place key j fields) k :: stack) ts
  | .object fields key :: stack, j, .rightBrace :: ts =>
    readRest? depth stack (object (Table.place key j fields)) ts
  | _ :: _, _, _ => none

end

/-- Reads one value, with containers nested at most `depth` deep. -/
def read? (depth : Nat) (ts : List Token) : Option (Json × List Token) :=
  readValue? depth [] ts

/-- An open container that is being skipped. -/
inductive Bracket where
  | array
  | object

/-- Whether a token is a string. -/
def isStringToken : Token → Bool
  | .string _ => true
  | .brokenString => true
  | _ => false

/-- Whether a token is a value by itself. -/
def isScalarToken : Token → Bool
  | .null => true
  | .bool _ => true
  | .number _ => true
  | .vastNumber => true
  | .string _ => true
  | .brokenString => true
  | _ => false

mutual

/-- Skips a value inside the open containers, then what follows it. -/
def skipValue? : List Bracket → List Token → Option (List Token)
  | _, [] => none
  | stack, .leftBracket :: .rightBracket :: ts => skipRest? stack ts
  | stack, .leftBracket :: ts => skipValue? (.array :: stack) ts
  | stack, .leftBrace :: .rightBrace :: ts => skipRest? stack ts
  | stack, .leftBrace :: k :: .colon :: ts =>
    if isStringToken k then skipValue? (.object :: stack) ts else none
  | stack, t :: ts => if isScalarToken t then skipRest? stack ts else none

/-- Goes on after a value that was skipped. -/
def skipRest? : List Bracket → List Token → Option (List Token)
  | [], ts => some ts
  | .array :: stack, .comma :: ts => skipValue? (.array :: stack) ts
  | .array :: stack, .rightBracket :: ts => skipRest? stack ts
  | .object :: stack, .comma :: k :: .colon :: ts =>
    if isStringToken k then skipValue? (.object :: stack) ts else none
  | .object :: stack, .rightBrace :: ts => skipRest? stack ts
  | _ :: _, _ => none

end

/-- What follows the value at the start of the tokens. -/
def skip? (ts : List Token) : Option (List Token) :=
  skipValue? [] ts

/-- The greatest number of containers that may stand inside each other in a text. -/
def greatestDepth : Nat := 127

/-- The value that a text holds, and nothing besides. -/
def parse? (text : String) : Option Json := do
  let (j, rest) ← read? greatestDepth (Token.scan text)
  guard rest.isEmpty
  return j

end PushMesh.Json
