import PushMesh.Data.Table
import PushMesh.Number.Shortest

/-!
# JSON values

Numbers written without point and exponent stay integers as long as they fit a signed or an
unsigned word of 64 bits; all others are double precision numbers. An object lists its fields in
the order in which they are written. The objects that a reader builds from free-form data are in
ascending order of their keys, as `Json.object` makes them.
-/

namespace PushMesh

/-- A JSON number. -/
inductive Json.Number where
  | int (n : Int)
  | float (x : Binary64)
deriving DecidableEq

/-- A JSON value. -/
inductive Json where
  | null
  | bool (b : Bool)
  | number (n : Json.Number)
  | string (s : String)
  | array (items : List Json)
  | object (fields : List (String × Json))

namespace Json

instance : Inhabited Json := ⟨null⟩

/-- A natural number as a value. -/
def nat (n : Nat) : Json := number (.int n)

/-- An integer as a value. -/
def int (n : Int) : Json := number (.int n)

/-- A value that may be missing, written as null then. -/
def option {α : Type} (f : α → Json) : Option α → Json
  | none => null
  | some a => f a

/-- The values of a list, in order. -/
def list {α : Type} (f : α → Json) (l : List α) : Json := array (l.map f)

/-- The value of the first field called `key` of an object. -/
def field? (key : String) : Json → Option Json
  | object fields => fields.lookup key
  | _ => none

/-- The text of a string value. -/
def string? : Json → Option String
  | string s => some s
  | _ => none

/-- The natural number of a value. -/
def nat? : Json → Option Nat
  | number (.int n) => if 0 ≤ n then some n.toNat else none
  | _ => none

/-- The truth value of a value. -/
def bool? : Json → Option Bool
  | bool b => some b
  | _ => none

/-- The items of an array. -/
def items? : Json → Option (List Json)
  | array l => some l
  | _ => none

/-- The fields of an object. -/
def fields? : Json → Option (List (String × Json))
  | object l => some l
  | _ => none

end Json

end PushMesh
