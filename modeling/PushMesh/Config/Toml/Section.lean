import PushMesh.Config.Value

/-!
# Sections of a TOML document

A document builds a tree of tables. A table comes into being by its own header, by a header below
it, or by a key with dots, and a header may open it once only; keys with dots may add to a table
that such keys have made, and nothing may add to a list or a table written in braces. A header in
double brackets adds an item to a list of tables, and the headers below it belong to its last item.
-/

namespace PushMesh.Config.Toml

/-- How a table came into being. -/
inductive Origin where
  /-- By a header below it. -/
  | implied
  /-- By its own header. -/
  | opened
  /-- By a key with dots. -/
  | dotted
deriving DecidableEq

/-- A part of a document. -/
inductive Section where
  /-- A value that nothing is added to. -/
  | closed (v : Value)
  | table (origin : Origin) (fields : List (String × Section))
  /-- A list of tables. -/
  | tables (items : List (List (String × Section)))

/-- The fields of a table. -/
abbrev Sections := List (String × Section)

namespace Section

/-- The fields with the part of a key set. -/
def put : Sections → String → Section → Sections
  | [], key, s => [(key, s)]
  | (k, t) :: rest, key, s => if k = key then (k, s) :: rest else (k, t) :: put rest key s

/-- Changes the last item of a list. -/
def changeLast (f : Sections → Option Sections) :
    List Sections → Option (List Sections)
  | [] => none
  | [l] => (f l).map ([·])
  | l :: m :: rest => (changeLast f (m :: rest)).map (l :: ·)

/-- Enters a part on the way of a header, and changes the fields there. -/
def enter (f : Sections → Option Sections) : Option Section → Option Section
  | none => (f []).map (table .implied)
  | some (table origin l) => (f l).map (table origin)
  | some (tables items) => (changeLast f items).map tables
  | some (closed _) => none

/-- Changes the fields of the table at the end of a way of headers. -/
def within (f : Sections → Option Sections) : List String → Sections → Option Sections
  | [], l => f l
  | key :: keys, l => (enter (within f keys) (l.lookup key)).map (put l key)

/-- Opens a table by its header. -/
def openTable (key : String) (l : Sections) : Option Sections :=
  match l.lookup key with
  | none => some (put l key (table .opened []))
  | some (table .implied fields) => some (put l key (table .opened fields))
  | _ => none

/-- Opens a new item of a list of tables by its header. -/
def openItem (key : String) (l : Sections) : Option Sections :=
  match l.lookup key with
  | none => some (put l key (tables [[]]))
  | some (tables items) => some (put l key (tables (items ++ [[]])))
  | _ => none

/-- Adds a value under a key, of which all parts but the last name tables. -/
def add (v : Value) : List String → Sections → Option Sections
  | [], _ => none
  | [key], l =>
    match l.lookup key with
    | none => some (put l key (closed v))
    | some _ => none
  | key :: next :: keys, l =>
    match l.lookup key with
    | none => (add v (next :: keys) []).map fun m => put l key (table .dotted m)
    | some (table .dotted m) =>
      (add v (next :: keys) m).map fun m => put l key (table .dotted m)
    | some _ => none

mutual

/-- The value of a part. -/
def value : Section → Value
  | closed v => v
  | table _ l => .table (fieldValues l)
  | tables items => .list (itemValues items)

/-- The values of fields. -/
def fieldValues : Sections → Fields
  | [] => []
  | (k, s) :: rest => (k, value s) :: fieldValues rest

/-- The values of the items of a list. -/
def itemValues : List Sections → List Value
  | [] => []
  | l :: rest => .table (fieldValues l) :: itemValues rest

end

end Section

end PushMesh.Config.Toml
