import PushMesh.Text.Hidden

/-!
# Texts as literals

A text is shown in quotes, with escapes for the quote, the backslash and the characters that show
nothing by themselves. Tab, line feed, carriage return and NUL have short escapes, and any other
such character is given by its number.
-/

namespace PushMesh.Text

/-- A character inside a literal. -/
def literalChar (c : Char) : List Char :=
  if c = '"' then ['\\', '"']
  else if c = '\\' then ['\\', '\\']
  else if c = '\n' then ['\\', 'n']
  else if c = '\r' then ['\\', 'r']
  else if c = '\t' then ['\\', 't']
  else if c = '\x00' then ['\\', '0']
  else if isHidden c then '\\' :: 'u' :: '\x7b' :: (Nat.toDigits 16 c.toNat ++ ['\x7d'])
  else [c]

/-- A text as a literal. -/
def literal (s : String) : String :=
  String.ofList ('"' :: s.toList.flatMap literalChar ++ ['"'])

/-- Several texts with commas between them. -/
def commaList (l : List String) : String :=
  String.intercalate ", " l

/-- A set as shown: its members in braces. -/
def braces (l : List String) : String :=
  "\x7b" ++ commaList l ++ "\x7d"

/-- A list as shown: its items in brackets. -/
def brackets (l : List String) : String :=
  "[" ++ commaList l ++ "]"

/-- A value with named parts as shown. -/
def fields (name : String) (parts : List (String × String)) : String :=
  name ++ " \x7b " ++ commaList (parts.map fun (k, v) => k ++ ": " ++ v) ++ " \x7d"

/-- A value that may be missing as shown. -/
def optional (f : String → String) : Option String → String
  | none => "None"
  | some s => "Some(" ++ f s ++ ")"

end PushMesh.Text
