import PushMesh.Number.Shortest
import PushMesh.Number.Written

/-!
# Configuration values

A configuration is a tree of tables whose leaves are texts, truth values, numbers and lists. Sources
are laid over each other: tables are merged field by field, and everything else is replaced. A leaf
is converted to the type that a setting wants.
-/

namespace PushMesh.Config

/-- A value of a configuration. -/
inductive Value where
  | text (s : String)
  | flag (b : Bool)
  /-- A signed word of 64 bits. -/
  | integer (n : Int)
  | decimal (x : Binary64)
  | list (items : List Value)
  | table (fields : List (String × Value))

/-- The fields of a table. -/
abbrev Fields := List (String × Value)

/-- The fields with the value of a key set. -/
def Fields.put : Fields → String → Value → Fields
  | [], key, v => [(key, v)]
  | (k, w) :: rest, key, v => if k = key then (k, v) :: rest else (k, w) :: Fields.put rest key v

namespace Value

instance : Inhabited Value := ⟨table []⟩

/-- The fields of a value that is a table, and none of any other value. -/
def fields : Value → Fields
  | table l => l
  | _ => []

mutual

/-- The value `old`, if there is one, with another value laid over it: tables are merged, and a
table without fields leaves everything as it is. -/
def overlay (old : Option Value) : Value → Value
  | text s => text s
  | flag b => flag b
  | integer n => integer n
  | decimal x => decimal x
  | list l => list l
  | table [] => old.getD (table [])
  | table ((k, v) :: rest) =>
    let l := (old.map fields).getD []
    table (overlayFields (l.put k (overlay (l.lookup k) v)) rest)

/-- The fields `l` with other fields laid over them. -/
def overlayFields (l : Fields) : Fields → Fields
  | [] => l
  | (k, v) :: rest => overlayFields (l.put k (overlay (l.lookup k) v)) rest

end

/-- The value at a path, with everything around it: a table in tables. -/
def atPath (v : Value) : List String → Value
  | [] => v
  | key :: keys => table [(key, atPath v keys)]

/-- The text that is shown of a number. -/
def integerText (n : Int) : String := toString n

/-! ## Conversions -/

/-- The names of truth values. -/
def flagOfName? (s : String) : Option Bool :=
  if ["true", "on", "yes"].contains s then some true
  else if ["false", "off", "no"].contains s then some false
  else none

/-- The value as a text: numbers and truth values are written out. -/
def toText? : Value → Option String
  | text s => some s
  | flag b => some (if b then "true" else "false")
  | integer n => some (integerText n)
  | decimal x => some (String.ofList x.plainText)
  | _ => none

/-- The value as a truth value: of numbers zero alone is false. -/
def toFlag? : Value → Option Bool
  | text s =>
    match Text.lowered s with
    | "1" => some true
    | "0" => some false
    | s => flagOfName? s
  | flag b => some b
  | integer n => some (n ≠ 0)
  | decimal x => some x.isNonzero
  | _ => none

/-- The greatest unsigned word of 64 bits. -/
def greatestWord : Nat := UInt64.size - 1

/-- A number rounded to the nearest unsigned word, a half away from zero. -/
def roundToWord (x : Binary64) : Nat :=
  match x with
  | .nan => 0
  | .infinite negative => if negative then 0 else greatestWord
  | .finite negative _ _ => if negative then 0 else min (x.roundMagnitude.getD 0) greatestWord

/-- The value as an unsigned word of 64 bits. -/
def toWord? : Value → Option Nat
  | text s =>
    match flagOfName? (Text.lowered s) with
    | some b => some b.toNat
    | none => (Number.word? s).map (·.toNat)
  | flag b => some b.toNat
  | integer n => if 0 ≤ n then some n.toNat else none
  | decimal x => some (roundToWord x)
  | _ => none

/-- The value as an unsigned word of 16 bits. -/
def toShortWord? (v : Value) : Option Nat :=
  v.toWord?.filter (· < UInt16.size)

/-- The value as a double precision number. -/
def toDecimal? : Value → Option Binary64
  | text s =>
    match flagOfName? (Text.lowered s) with
    | some b => some (.ofNat b.toNat)
    | none => Number.float? s
  | flag b => some (.ofNat b.toNat)
  | integer n => some (.ofInt n)
  | decimal x => some x
  | _ => none

/-- The value as a list of texts. -/
def toTexts? : Value → Option (List String)
  | list l => l.mapM toText?
  | _ => none

/-- The value as one of several names, whatever its case; a table of one field names it by its
key. -/
def toName? (names : List String) : Value → Option String
  | text s => names.find? (· == Text.lowered s)
  | table [(key, _)] => names.find? (· == Text.lowered key)
  | _ => none

end Value

end PushMesh.Config
