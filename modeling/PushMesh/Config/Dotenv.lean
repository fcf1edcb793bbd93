import PushMesh.Text.Blank

/-!
# Files of variables

A file of variables sets one variable a line. Values may stand in single quotes, where every
character stands for itself, or in double quotes, where a backslash escapes; quotes may go on over
several lines. Outside of single quotes a dollar sign starts the name of a variable whose value is
put in. The file is read up to the first line that is not well-formed.
-/

namespace PushMesh.Config.Dotenv

/-- Variables with their values, in the order in which they were set. -/
abbrev Variables := List (String × String)

/-! ## Lines -/

/-- Where in a line a character stands. -/
inductive Mode where
  | plain
  /-- After a blank. -/
  | blank
  /-- After a backslash outside of quotes. -/
  | escape
  /-- In quotes of either kind. -/
  | quoted (quote : Char)
  /-- After a backslash in quotes. -/
  | quotedEscape (quote : Char)
deriving DecidableEq

/-- The mode after a character outside of quotes. -/
def Mode.start (c : Char) (other : Mode) : Mode :=
  if c = '\\' then escape
  else if c = '"' ∨ c = '\'' then quoted c
  else other

/-- The mode after a character. -/
def Mode.next (c : Char) : Mode → Mode
  | plain => start c (if Text.isBlank c ∧ c ≠ '\n' ∧ c ≠ '\r' then blank else plain)
  | blank => start c plain
  | escape => plain
  | quoted q => if c = '\\' then quotedEscape q else if c = q then plain else quoted q
  | quotedEscape q => quoted q

/-- The lines of a text, each with its end. -/
def physicalLines : List Char → List (List Char)
  | [] => []
  | c :: cs =>
    if c = '\n' then [c] :: physicalLines cs
    else
      match physicalLines cs with
      | [] => [[c]]
      | l :: rest => (c :: l) :: rest

/-- The part of a line before a comment, and the mode at its end; a comment starts with a hash after
a blank. -/
def scan : Mode → List Char → List Char × Option Mode
  | mode, [] => ([], some mode)
  | mode, c :: cs =>
    if mode = .blank ∧ c = '#' then ([], none)
    else
      let (l, mode) := scan (mode.next c) cs
      (c :: l, mode)

/-- A line without the line break at its end. -/
def withoutBreak (cs : List Char) : List Char :=
  match cs.reverse with
  | '\n' :: '\r' :: rest => rest.reverse
  | '\n' :: rest => rest.reverse
  | _ => cs

/-- The lines of a text, where a line goes on as long as a quote is open or a blank or backslash
stands at its end. What is left without an end is no line. -/
def logicalLines : List Char → Mode → List (List Char) → List (Option (List Char))
  | _, .plain, [] => []
  | _, _, [] => [none]
  | before, mode, l :: rest =>
    if (Text.trimStart (before ++ l)).head? = some '#' then some [] :: logicalLines [] .plain rest
    else
      match scan mode l with
      | (l, none) => some (before ++ l) :: logicalLines [] .plain rest
      | (l, some .plain) => some (withoutBreak (before ++ l)) :: logicalLines [] .plain rest
      | (l, some mode) => logicalLines (before ++ l) mode rest

/-! ## Values -/

/-- A name after a dollar sign. -/
inductive Reference where
  /-- Letters and digits. -/
  | bare (name : List Char)
  /-- Everything up to a closing brace. -/
  | braced (name : List Char)

/-- How far a value has been read; texts are in reverse. -/
structure Scanner where
  output : List Char
  quote : Option Char
  isEscaped : Bool
  /-- Whether only a comment may follow. -/
  isOver : Bool
  reference : Option Reference

/-- Whether a character may stand in a name after a dollar sign. -/
def isNameChar (c : Char) : Bool := c.isAlphanum

/-- The scanner with the value of a name added to its output. -/
def Scanner.add (s : Scanner) (lookup : String → String) (name : List Char) : Scanner :=
  { s with
    output := (lookup (String.ofList name.reverse)).toList.reverse ++ s.output
    reference := none }

/-- The scanner with a character added to its output. -/
def Scanner.push (s : Scanner) (c : Char) : Scanner := { s with output := c :: s.output }

/-- Reads a character after a dollar sign. -/
def Scanner.refer (s : Scanner) (lookup : String → String) (c : Char) : Reference → Scanner
  | .braced name =>
    if c = '\x7d' then s.add lookup name
    else { s with reference := some (.braced (c :: name)) }
  | .bare name =>
    if isNameChar c then { s with reference := some (.bare (c :: name)) }
    else if c = '\x7b' ∧ name.isEmpty then { s with reference := some (.braced []) }
    else
      let s := s.add lookup name
      if c = '$' then { s with reference := some (.bare []) } else s.push c

/-- Reads the character after a backslash. -/
def Scanner.escaped? (s : Scanner) (c : Char) : Option Scanner :=
  let s := { s with isEscaped := false }
  if "\\'\"$ ".toList.contains c then some (s.push c)
  else if c = 'n' then some (s.push '\n')
  else none

/-- Reads a character outside of single quotes and references. -/
def Scanner.plain (s : Scanner) (c : Char) : Scanner :=
  if c = '$' then { s with reference := some (.bare []) }
  else if c = '\\' then { s with isEscaped := true }
  else if s.quote = some '"' then if c = '"' then { s with quote := none } else s.push c
  else if c = '"' ∨ c = '\'' then { s with quote := some c }
  else if c = ' ' ∨ c = '\t' then { s with isOver := true }
  else s.push c

/-- Reads the characters of a value. -/
def Scanner.run (lookup : String → String) : Scanner → List Char → Option Scanner
  | s, [] => some s
  | s, c :: cs =>
    if s.isOver then
      if c = ' ' ∨ c = '\t' then run lookup s cs
      else if c = '#' then some s
      else none
    else if s.isEscaped then (s.escaped? c).bind fun s => run lookup s cs
    else if s.quote = some '\'' then
      run lookup (if c = '\'' then { s with quote := none } else s.push c) cs
    else
      match s.reference with
      | some r => run lookup (s.refer lookup c r) cs
      | none => run lookup (s.plain c) cs

/-- The value that a text writes. -/
def value? (lookup : String → String) (cs : List Char) : Option String := do
  let s ← Scanner.run lookup ⟨[], none, false, false, none⟩ cs
  if s.quote.isSome then none
  else
    match s.reference with
    | some (.braced _) => none
    | some (.bare name) => some (String.ofList (s.add lookup name).output.reverse)
    | none => some (String.ofList s.output.reverse)

/-! ## Assignments -/

/-- A key at the front of a line, and what follows. -/
def key? (cs : List Char) : Option (String × List Char) :=
  match cs with
  | [] => none
  | c :: _ =>
    if c.isAlpha ∨ c = '_' then
      let (key, rest) := cs.span fun c => c.isAlphanum || c = '_' || c = '.'
      some (String.ofList key, Text.trimStart rest)
    else none

/-- What follows an equals sign and the blanks after it. -/
def afterEquals? : List Char → Option (List Char)
  | '=' :: cs => some (Text.trimStart cs)
  | _ => none

/-- The key of a line and the text after its equals sign. The key may follow the word `export`. -/
def assignment? (cs : List Char) : Option (String × List Char) := do
  let (key, rest) ← key? cs
  match afterEquals? rest with
  | some value => some (key, value)
  | none =>
    if key = "export" then do
      let (key, rest) ← key? rest
      return (key, ← afterEquals? rest)
    else none

/-- What a line says. -/
inductive Line where
  | empty
  | assignment (key : String) (value : String)
  | broken

/-- Reads a line. -/
def Line.ofChars (lookup : String → String) (cs : List Char) : Line :=
  let cs := Text.trimStart cs
  if cs.isEmpty ∨ cs.head? = some '#' then empty
  else
    match assignment? cs with
    | none => broken
    | some (key, value) =>
      if value.isEmpty ∨ value.head? = some '#' then assignment key ""
      else
        match value? lookup value with
        | some value => assignment key value
        | none => broken

/-- The variables after the lines of a file: one that is set already keeps its value. A reference
means the variable, or what the file itself gave for the name before. -/
def apply (environment : Variables) : Variables → List (Option (List Char)) → Variables
  | _, [] => environment
  | _, none :: _ => environment
  | given, some l :: rest =>
    let lookup (name : String) : String :=
      ((environment.lookup name).or (given.lookup name)).getD ""
    match Line.ofChars lookup l with
    | .empty => apply environment given rest
    | .broken => environment
    | .assignment key value =>
      let environment :=
        if (environment.lookup key).isSome then environment else environment ++ [(key, value)]
      apply environment ((key, value) :: given) rest

/-- The variables of an environment together with those that a file sets. -/
def load (environment : Variables) (file : String) : Variables :=
  apply environment [] (logicalLines [] .plain (physicalLines file.toList))

end PushMesh.Config.Dotenv
