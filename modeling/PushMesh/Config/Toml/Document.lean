import PushMesh.Config.Toml.Scalar
import PushMesh.Config.Toml.Section

/-!
# TOML documents

A document is a list of lines, each empty, a header or a key with a value, and each perhaps with a
comment at its end. `Document.parse?` reads a document as the fields of a table.
-/

namespace PushMesh.Config.Toml

open TextReader

/-- Passes over blanks within a line. -/
def skipBlanks : TextReader Unit := do
  let _ ← takeWhile isBlank

/-- Passes over a comment up to the end of its line, if there is one. -/
def skipComment : TextReader Unit := do
  if ← accept "#" then
    let cs ← takeWhile fun c => c ≠ '\n' && c ≠ '\r'
    if cs.all isVisible then return else failure

/-- Passes over a line break and says whether there was one. -/
def skipBreak : TextReader Bool := fun cs =>
  match afterBreak? cs with
  | some rest => some (true, rest)
  | none => some (false, cs)

/-- Passes over blanks, comments and line breaks, at most so many lines. -/
def skipSpace : Nat → TextReader Unit
  | 0 => return
  | fuel + 1 => do
    skipBlanks
    skipComment
    if ← skipBreak then skipSpace fuel

/-! ## Keys -/

/-- Whether a character may stand in a key without quotes. -/
def isKeyChar (c : Char) : Bool :=
  c.isAlphanum || c = '_' || c = '-'

/-- A part of a key. -/
def keyPart : TextReader String := do
  if ← accept "\"" then lineString '"'
  else if ← accept "'" then lineString '\''
  else
    let cs ← takeWhile isKeyChar
    if cs.isEmpty then failure else return String.ofList cs

/-- The parts of a key, of which there are at most so many. -/
def keyParts : Nat → TextReader (List String)
  | 0 => failure
  | fuel + 1 => do
    skipBlanks
    let part ← keyPart
    skipBlanks
    if ← accept "." then return part :: (← keyParts fuel) else return [part]

/-- A key with dots between its parts. -/
def key : TextReader (List String) := do keyParts (← remaining)

/-! ## Values -/

/-- The fields with a value added, as a table in braces lists them. -/
def addInline (l : Sections) (path : List String) (v : Value) : TextReader Sections := fun cs =>
  (Section.add v path l).map (·, cs)

/-- The items of a list up to its closing bracket. -/
def items (value : TextReader Value) : Nat → TextReader (List Value)
  | 0 => failure
  | fuel + 1 => do
    skipSpace (← remaining)
    if ← accept "]" then return []
    let v ← value
    skipSpace (← remaining)
    if ← accept "," then return v :: (← items value fuel)
    expect "]"
    return [v]

/-- The fields of a table in braces up to the closing brace, after those that were read before. -/
def inlineFields (value : TextReader Value) : Nat → Sections → TextReader Sections
  | 0, _ => failure
  | fuel + 1, l => do
    let path ← key
    expect "="
    skipBlanks
    let v ← value
    let l ← addInline l path v
    skipBlanks
    if ← accept "," then inlineFields value fuel l
    else
      expect "\x7d"
      return l

/-- A value, with at most so many containers around each other. -/
def value : Nat → TextReader Value
  | 0 => failure
  | fuel + 1 => do
    if ← accept "\"\"\"" then return .text (← blockString '"')
    else if ← accept "'''" then return .text (← blockString '\'')
    else if ← accept "\"" then return .text (← lineString '"')
    else if ← accept "'" then return .text (← lineString '\'')
    else if ← accept "[" then return .list (← items (value fuel) (← remaining))
    else if ← accept "\x7b" then
      skipBlanks
      if ← accept "\x7d" then return .table []
      else
        return .table (Section.fieldValues (← inlineFields (value fuel) (← remaining) []))
    else bare

/-! ## Lines -/

/-- A document of which some lines have been read. -/
structure Reading where
  root : Sections
  /-- The way to the table that is open. -/
  path : List String

/-- Turns a change of the fields that may fail into a step. -/
def Reading.change (r : Reading) (path : List String) (f : Sections → Option Sections) :
    TextReader Reading := fun cs =>
  (f r.root).map fun root => (⟨root, path⟩, cs)

/-- A header after its opening bracket. -/
def header (r : Reading) : TextReader Reading := do
  let isItem ← accept "["
  let path ← key
  expect (if isItem then "]]" else "]")
  match path.getLast? with
  | none => failure
  | some last =>
    let f := if isItem then Section.openItem last else Section.openTable last
    r.change path (Section.within f path.dropLast)

/-- A key and its value. -/
def field (r : Reading) : TextReader Reading := do
  let path ← key
  expect "="
  skipBlanks
  let v ← value ((← remaining) + 1)
  r.change r.path (Section.within (Section.add v path) r.path)

/-- A line without its end. -/
def line (r : Reading) : TextReader Reading := do
  skipBlanks
  match ← peek with
  | some '[' =>
    expect "["
    header r
  | some '#' => return r
  | some '\n' => return r
  | some '\r' => return r
  | none => return r
  | some _ => field r

/-- The lines of a document, of which there are at most so many. -/
def lines : Nat → Reading → TextReader Reading
  | 0, _ => failure
  | fuel + 1, r => do
    let r ← line r
    skipBlanks
    skipComment
    if ← skipBreak then lines fuel r
    else
      match ← peek with
      | none => return r
      | some _ => failure

/-- The fields of a document, or none where it is not well-formed. -/
def parse? (text : String) : Option Fields :=
  let cs := text.toList
  (lines (cs.length + 1) ⟨[], []⟩ cs).map fun (r, _) => Section.fieldValues r.root

end PushMesh.Config.Toml
