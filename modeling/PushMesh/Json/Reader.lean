import PushMesh.Json.Value

/-!
# Reading typed data

A `Reader` takes a typed value off the front of a list of tokens. It can fail in two ways, and the
first fault in reading order decides: the text may be malformed there, or a well-formed value may
have the wrong shape. A reader is also told how many more containers may be opened.

Records (`Reader.record`) are read from an object, whose unknown fields are skipped and whose known
fields must not be repeated, or from an array of exactly their fields in order. Sums are written in
one of two ways: with the case and its content as two fields (`Reader.sum`), or with the name of
the case among the fields of the content (`Reader.flatSum`).
-/

namespace PushMesh.Json

/-- Why reading fails. -/
inductive Fault where
  /-- The text is not well-formed. -/
  | malformed
  /-- The value is well-formed but not of the wanted shape. -/
  | mismatch
deriving DecidableEq

/-- Reads a value from the front of the tokens, with a bound on the containers it may open. -/
abbrev Reader (α : Type) := ReaderT Nat (StateT (List Token) (Except Fault)) α

namespace Reader

variable {α β σ : Type}

/-- The tokens that are left. -/
def rest : Reader (List Token) := fun _ ts => .ok (ts, ts)

/-- Goes on with other tokens. -/
def setRest (ts : List Token) : Reader Unit := fun _ _ => .ok ((), ts)

/-- Fails. -/
def fault (f : Fault) : Reader α := fun _ _ => .error f

/-- Takes the next token; the end of the text is a fault of the text. -/
def next : Reader Token := fun _ ts =>
  match ts with
  | [] => .error .malformed
  | t :: ts => .ok (t, ts)

/-- The next token, which stays where it is. -/
def peek : Reader (Option Token) := fun _ ts => .ok (ts.head?, ts)

/-- The fault of finding the token `t` where a value of another shape is wanted. -/
def faultAt : Token → Fault
  | .leftBrace => .mismatch
  | .leftBracket => .mismatch
  | .null => .mismatch
  | .bool _ => .mismatch
  | .number _ => .mismatch
  | .string _ => .mismatch
  | _ => .malformed

/-- Takes exactly the token `t`, which belongs to the form of the text. -/
def expect (t : Token) : Reader Unit := do
  if (← next) = t then return else fault .malformed

/-- A string. -/
def string : Reader String := do
  match ← next with
  | .string s => return s
  | t => fault (faultAt t)

/-- A truth value. -/
def bool : Reader Bool := do
  match ← next with
  | .bool b => return b
  | t => fault (faultAt t)

/-- The null value. -/
def null : Reader Unit := do
  match ← next with
  | .null => return
  | t => fault (faultAt t)

/-- An unsigned word of 64 bits, written as an integer. -/
def word : Reader UInt64 := do
  match ← next with
  | .number (.int n) =>
    if 0 ≤ n ∧ n.toNat < UInt64.size then return UInt64.ofNat n.toNat else fault .mismatch
  | t => fault (faultAt t)

/-- A value of free form. -/
def value : Reader Json := fun depth ts =>
  match read? depth ts with
  | some r => .ok r
  | none => .error .malformed

/-- The tokens of a value of free form. -/
def buffered : Reader (List Token) := do
  let before ← rest
  let _ ← value
  let after ← rest
  return before.take (before.length - after.length)

/-- Passes over a value. -/
def skip : Reader Unit := fun _ ts =>
  match skip? ts with
  | some ts => .ok ((), ts)
  | none => .error .malformed

/-- A value that may be null. -/
def option (r : Reader α) : Reader (Option α) := do
  match ← peek with
  | some .null => let _ ← next; return none
  | _ => some <$> r

/-- Opens a container: the reader inside it has one container less to open. -/
def nested (r : Reader α) : Reader α := fun depth ts =>
  match depth with
  | 0 => .error .malformed
  | depth + 1 => r depth ts

/-- Reads from tokens that are set aside, however deep they are nested; any fault there is one of
shape. -/
def within (tokens : List Token) (r : Reader α) : Reader α := fun _ ts =>
  match r tokens.length tokens with
  | .ok (a, []) => .ok (a, ts)
  | _ => .error .mismatch

/-! ## Arrays -/

/-- Whether an array goes on: takes the comma before an item that is not the first, and leaves the
closing bracket. -/
def hasItem (first : Bool) : Reader Bool := do
  match ← peek with
  | some .rightBracket => return false
  | some .comma =>
    if first then fault .malformed
    else
      let _ ← next
      match ← peek with
      | some .rightBracket => fault .malformed
      | _ => return true
  | none => fault .malformed
  | some _ => if first then return true else fault .malformed

/-- The items up to the closing bracket, which is taken. Each item takes a token, so the number of
tokens bounds the steps. -/
def items (r : Reader α) : Nat → Bool → Reader (List α)
  | 0, _ => fault .malformed
  | fuel + 1, first => do
    if ← hasItem first then
      let a ← r
      let l ← items r fuel false
      return a :: l
    else
      expect .rightBracket
      return []

/-- An array of values of one shape. -/
def list (r : Reader α) : Reader (List α) := do
  match ← next with
  | .leftBracket =>
    let ts ← rest
    nested (items r (ts.length + 1) true)
  | t => fault (faultAt t)

/-! ## Records -/

/-- What the absence of a field means. -/
inductive Presence where
  /-- The field must be there. -/
  | required
  /-- An object may leave the field out. -/
  | optional
  /-- An object may leave the field out, and so may an array that ends before it. -/
  | defaulted
deriving DecidableEq

/-- A field of a record: its name and how its value is put into the record. -/
structure Field (σ : Type) where
  name : String
  presence : Presence
  read : Reader (σ → σ)

/-- A field that must be there. -/
def Field.required (name : String) (r : Reader α) (put : α → σ → σ) : Field σ :=
  ⟨name, .required, put <$> r⟩

/-- A field that may be null or left out of an object. -/
def Field.optional (name : String) (r : Reader α) (put : Option α → σ → σ) : Field σ :=
  ⟨name, .optional, put <$> option r⟩

/-- A field that may be left out of an object or missing at the end of an array. -/
def Field.defaulted (name : String) (r : Reader α) (put : α → σ → σ) : Field σ :=
  ⟨name, .defaulted, put <$> r⟩

/-- The key of the next field, or none at the closing brace, which is left. -/
def nextKey (first : Bool) : Reader (Option String) := do
  match ← next with
  | .rightBrace => setRest (.rightBrace :: (← rest)); return none
  | .comma =>
    if first then fault .malformed
    else
      match ← next with
      | .string k => return some k
      | _ => fault .malformed
  | .string k => if first then return some k else fault .malformed
  | _ => fault .malformed

/-- The fields up to the closing brace, which is taken. `seen` are the known fields read so far. -/
def objectFields (fields : List (Field σ)) : Nat → List String → Bool → σ → Reader σ
  | 0, _, _, _ => fault .malformed
  | fuel + 1, seen, first, s => do
    match ← nextKey first with
    | none =>
      if fields.all fun f => f.presence ≠ .required || seen.contains f.name then
        expect .rightBrace
        return s
      else fault .mismatch
    | some k =>
      match fields.find? (·.name == k) with
      | none =>
        expect .colon
        skip
        objectFields fields fuel seen false s
      | some f =>
        if seen.contains k then fault .mismatch
        else
          expect .colon
          let put ← f.read
          objectFields fields fuel (k :: seen) false (put s)

/-- The fields in order as the items of an array, whose closing bracket is taken. -/
def arrayFields : List (Field σ) → Bool → σ → Reader σ
  | [], _, s => do
    expect .rightBracket
    return s
  | f :: fields, first, s => do
    if ← hasItem first then
      let put ← f.read
      arrayFields fields false (put s)
    else if f.presence = .defaulted then arrayFields fields first s
    else fault .mismatch

/-- The fields of a record from the braces of an object on. -/
def objectRecord (fields : List (Field σ)) (blank : σ) : Reader σ := do
  match ← next with
  | .leftBrace =>
    let ts ← rest
    nested (objectFields fields (ts.length + 1) [] true blank)
  | t => fault (faultAt t)

/-- A record. Every field starts with its value in `blank`. -/
def record (fields : List (Field σ)) (blank : σ) : Reader σ := do
  match ← peek with
  | some .leftBracket =>
    let _ ← next
    nested (arrayFields fields true blank)
  | _ => objectRecord fields blank

/-! ## Sums -/

/-- A case of a sum: its name, how its content is read, and its value when there is no content. -/
structure Case (α : Type) where
  name : String
  content : Reader α
  bare : Option α

/-- A case with content. -/
def Case.of (name : String) (r : Reader α) : Case α := ⟨name, r, none⟩

/-- A case without content; null stands for the content where one is given. -/
def Case.plain (name : String) (a : α) : Case α := ⟨name, (fun _ => a) <$> null, some a⟩

/-- The case of the given name. -/
def findCase (cases : List (Case α)) (name : String) : Reader (Case α) :=
  match cases.find? (·.name == name) with
  | some c => return c
  | none => fault .mismatch

/-- The case that a tag names: its name, or an object whose one field has that name and is null. -/
def tag (cases : List (Case α)) : Reader (Case α) := do
  match ← next with
  | .string name => findCase cases name
  | .leftBrace =>
    nested do
      let name ← string
      let c ← findCase cases name
      expect .colon
      null
      expect .rightBrace
      return c
  | _ => fault .malformed

/-- The next field that is called `tagName` or `contentName`, or none at the closing brace. -/
def relevantKey (tagName contentName : String) : Nat → Bool → Reader (Option String)
  | 0, _ => fault .malformed
  | fuel + 1, first => do
    match ← nextKey first with
    | none => return none
    | some k =>
      if k = tagName ∨ k = contentName then return some k
      else
        expect .colon
        skip
        relevantKey tagName contentName fuel false

/-- The end of an object in which tag and content have been read: neither may come again. -/
def endOfSum (tagName contentName : String) (fuel : Nat) (a : α) : Reader α := do
  match ← relevantKey tagName contentName fuel false with
  | none =>
    expect .rightBrace
    return a
  | some _ => fault .mismatch

/-- A sum in an object, tag and content standing in either order. Content that comes first is set
aside until the tag is known. -/
def sumObject (tagName contentName : String) (cases : List (Case α)) (fuel : Nat) : Reader α := do
  match ← relevantKey tagName contentName fuel true with
  | none => fault .mismatch
  | some k =>
    expect .colon
    if k = tagName then
      let c ← tag cases
      match ← relevantKey tagName contentName fuel false with
      | none =>
        match c.bare with
        | some a =>
          expect .rightBrace
          return a
        | none => fault .mismatch
      | some k =>
        if k = tagName then fault .mismatch
        else
          expect .colon
          let a ← c.content
          endOfSum tagName contentName fuel a
    else
      let content ← buffered
      match ← relevantKey tagName contentName fuel false with
      | none => fault .mismatch
      | some k =>
        if k = contentName then fault .mismatch
        else
          expect .colon
          let c ← tag cases
          let a ← within content c.content
          endOfSum tagName contentName fuel a

/-- A sum in an array of tag and content. -/
def sumArray (cases : List (Case α)) : Reader α := do
  if ← hasItem true then
    let c ← tag cases
    if ← hasItem false then
      let a ← c.content
      expect .rightBracket
      return a
    else fault .mismatch
  else fault .mismatch

/-- A sum whose case and content are two fields. -/
def sum (tagName contentName : String) (cases : List (Case α)) : Reader α := do
  match ← next with
  | .leftBrace =>
    let ts ← rest
    nested (sumObject tagName contentName cases (ts.length + 1))
  | .leftBracket => nested (sumArray cases)
  | t => fault (faultAt t)

/-- The case and the tokens of all other fields, up to the closing brace, which is taken. -/
def flatFields (tagName : String) (cases : List (Case α)) :
    Nat → Bool → Option (Case α) → List Token → Reader (Option (Case α) × List Token)
  | 0, _, _, _ => fault .malformed
  | fuel + 1, first, found, fields => do
    match ← nextKey first with
    | none =>
      expect .rightBrace
      return (found, fields)
    | some k =>
      if k = tagName then
        if found.isSome then fault .mismatch
        else
          expect .colon
          let c ← findCase cases (← string)
          flatFields tagName cases fuel false (some c) fields
      else
        expect .colon
        let ts ← buffered
        let comma := if fields.isEmpty then [] else [.comma]
        flatFields tagName cases fuel false found (fields ++ comma ++ .string k :: .colon :: ts)

/-- The tokens of the items after the first one of an array, up to the closing bracket, which is
taken. -/
def flatItems : Nat → List Token → Reader (List Token)
  | 0, _ => fault .malformed
  | fuel + 1, tokens => do
    if ← hasItem false then
      let ts ← buffered
      let comma := if tokens.isEmpty then [] else [.comma]
      flatItems fuel (tokens ++ comma ++ ts)
    else
      expect .rightBracket
      return tokens

/-- A sum whose case is named by one of the fields of its content, or by the first item of an
array. The other fields are set aside until the case is known. -/
def flatSum (tagName : String) (cases : List (Case α)) : Reader α := do
  match ← next with
  | .leftBrace =>
    let ts ← rest
    nested do
      match ← flatFields tagName cases (ts.length + 1) true none [] with
      | (none, _) => fault .mismatch
      | (some c, fields) => within (.leftBrace :: fields ++ [.rightBrace]) c.content
  | .leftBracket =>
    let ts ← rest
    nested do
      if ← hasItem true then
        let name ← string
        let c ← findCase cases name
        let tokens ← flatItems (ts.length + 1) []
        within (.leftBracket :: tokens ++ [.rightBracket]) c.content
      else fault .mismatch
  | t => fault (faultAt t)

/-! ## Whole texts -/

/-- Reads one value from tokens and nothing besides. -/
def run (r : Reader α) (ts : List Token) : Except Fault α :=
  match r greatestDepth ts with
  | .ok (a, []) => .ok a
  | .ok (_, _ :: _) => .error .malformed
  | .error f => .error f

/-- Reads one value from a text and nothing besides. -/
def decode (r : Reader α) (text : String) : Except Fault α :=
  run r (Token.scan text)

/-- Reads a value of free form again as a typed one, however deep it is nested. -/
def ofJson? (r : Reader α) (j : Json) : Option α :=
  let ts := j.tokens
  match r ts.length ts with
  | .ok (a, []) => some a
  | _ => none

end Reader

end PushMesh.Json
