import PushMesh.Config.Dotenv
import PushMesh.Config.Value

/-!
# Environment variables as configuration

The name of a variable is a path: its parts stand between double underscores, and upper and lower
case do not differ. Its text is a truth value, an integer or a number if it reads as one, and else a
list where one is wanted, or a text.
-/

namespace PushMesh.Config

open Dotenv (Variables)

namespace Environment

/-- Whether a character may stand in a part of a path. -/
def isPathChar (c : Char) : Bool :=
  c.isAlphanum || c = '_' || c = '-' || c = ' '

/-- A lower case name with a dot for each double underscore. -/
def dotted : List Char → List Char
  | '_' :: '_' :: cs => '.' :: dotted cs
  | c :: cs => Text.lowerAscii c :: dotted cs
  | [] => []

/-- The path that a name writes; a name of another form is a single part. -/
def path (name : String) : List String :=
  let cs := dotted name.toList
  let parts := Text.splitAll '.' cs
  if parts.all fun p => !p.isEmpty && p.all isPathChar then parts.map String.ofList
  else [String.ofList cs]

/-- The value that a text writes, at a place where a list may be wanted. -/
def value (isList : Bool) (s : String) : Value :=
  match Text.lowered s with
  | "true" => .flag true
  | "false" => .flag false
  | _ =>
    match Number.signedWord? s, Number.float? s with
    | some n, _ => .integer n
    | none, some x => .decimal x
    | none, none =>
      if isList then .list ((Text.splitAll ',' s.toList).map fun cs => .text (String.ofList cs))
      else .text s

/-- The configuration with the variables of an environment laid over it, the later of two of one
name standing. `lists` are the paths at which a list is wanted. -/
def overlay (l : Fields) (lists : List (List String)) (environment : Variables) : Fields :=
  environment.foldl (fun l (name, s) =>
    let path := path name
    match (value (lists.contains path) s).atPath path with
    | .table fields => Value.overlayFields l fields
    | _ => l) l

end Environment

end PushMesh.Config
