import PushMesh.Text.Blank

/-!
# Media types

A media type is a type and a subtype, separated by a slash, and parameters, each after a semicolon.
What follows the last plus sign of a subtype is its suffix. Upper and lower case do not differ.
-/

namespace PushMesh.Http

/-- A type with a subtype and its suffix. -/
structure MediaType where
  type : String
  subtype : String
  suffix : Option String
deriving DecidableEq

namespace MediaType

/-- Whether a character may stand in a type, a subtype, or the name or value of a parameter. -/
def isTokenChar (c : Char) : Bool :=
  ('a' ≤ c && c ≤ 'z') || ('A' ≤ c && c ≤ 'Z') || ('0' ≤ c && c ≤ '9')
    || "!#$%&'*+-.^_|~".toList.contains c || c.toNat = 0x60

/-- Whether characters make a token: at least one, and each of them allowed in it. -/
def isToken (cs : List Char) : Bool :=
  !cs.isEmpty && cs.all isTokenChar

/-- Whether a character may stand in a value between quotes. -/
def isQuotable (c : Char) : Bool :=
  0x1F < c.toNat && c.toNat != 0x7F

/-- Where in the parameters a character stands. -/
inductive Place where
  /-- Before a name: after a semicolon and perhaps spaces. -/
  | start
  /-- In a name. -/
  | name
  /-- Right after an equals sign. -/
  | equals
  /-- In a value without quotes. -/
  | value
  /-- Right after the opening quote of a value, which is not empty: another quote belongs to it. -/
  | opened
  /-- In a value between quotes. -/
  | quoted
  /-- After the closing quote of a value. -/
  | closed
deriving DecidableEq

/-- The place after a character, or none where the character may not stand. -/
def Place.next? (c : Char) : Place → Option Place
  | start => if c = ' ' then some start else if isTokenChar c then some name else none
  | name => if c = '=' then some equals else if isTokenChar c then some name else none
  | equals => if c = '"' then some opened else if isTokenChar c then some value else none
  | value => if c = ';' then some start else if isTokenChar c then some value else none
  | opened => if isQuotable c then some quoted else none
  | quoted => if c = '"' then some closed else if isQuotable c then some quoted else none
  | closed => if c = ';' then some start else if c = ' ' then some closed else none

/-- Whether the parameters may end at a place. -/
def Place.isEnd : Place → Bool
  | start => true
  | equals => true
  | value => true
  | closed => true
  | _ => false

/-- Whether the parameters after a semicolon are well-formed. -/
def areParameters (cs : List Char) : Bool :=
  (cs.foldl (fun (place : Option Place) c => place.bind (Place.next? c)) (some .start)).any
    Place.isEnd

/-- The parts before and after the last plus sign that is not the first character. -/
def splitSuffix (cs : List Char) : List Char × Option (List Char) :=
  match Text.splitOnce? '+' cs.reverse with
  | some (suffix, base) => if base.isEmpty then (cs, none) else (base.reverse, some suffix.reverse)
  | none => (cs, none)

/-- The media type that a text writes. -/
def parse? (s : String) : Option MediaType := do
  let (type, rest) ← Text.splitOnce? '/' (s.toList.map Text.lowerAscii)
  let (whole, parameters) := (Text.splitOnce? ';' rest).getD (rest, [])
  if isToken type && isToken whole && areParameters parameters then
    let (subtype, suffix) := splitSuffix whole
    return ⟨String.ofList type, String.ofList subtype, suffix.map String.ofList⟩
  else none

/-- Whether a media type is one of JSON, either by its subtype or by its suffix. -/
def isJson (t : MediaType) : Bool :=
  t.type == "application" && (t.subtype == "json" || t.suffix == some "json")

end MediaType

end PushMesh.Http
