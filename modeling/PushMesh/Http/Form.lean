import PushMesh.Http.Percent

/-!
# Forms in queries

A query lists fields between ampersands, each a name and, after the first equals sign, a value. A
plus sign stands for a space. Empty parts are passed over, and a field without an equals sign has
the empty value.
-/

namespace PushMesh.Http

/-- The fields of a query, in order. -/
abbrev Form := List (String × String)

namespace Form

/-- The text for which a name or a value stands; bytes that are no text leave U+FFFD. -/
def text (cs : List Char) : String :=
  let bytes := (Text.Utf8.encode cs).map fun b => if b = 0x2B then 0x20 else b
  Text.Utf8.text (Percent.decode bytes)

/-- The field that a part of a query writes. -/
def field (cs : List Char) : String × String :=
  match Text.splitOnce? '=' cs with
  | some (name, value) => (text name, text value)
  | none => (text cs, "")

/-- The fields that a query lists. -/
def ofQuery (query : String) : Form :=
  ((Text.splitAll '&' query.toList).filter (!·.isEmpty)).map field

/-- The values of a name, in order. -/
def values (form : Form) (name : String) : List String :=
  form.filterMap fun (k, v) => if k = name then some v else none

/-- Whether every one of the names has at most one value. -/
def isClear (form : Form) (names : List String) : Bool :=
  names.all fun name => (form.values name).length ≤ 1

/-- The first value of a name. -/
def value? (form : Form) (name : String) : Option String :=
  (form.values name).head?

end Form

end PushMesh.Http
