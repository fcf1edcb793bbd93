import PushMesh.Json.Token

/-!
# Writing JSON values

A value is written without blanks, its fields in the order in which it lists them. `Json.tokens`
is the written form as tokens, and the text is the text of the tokens.
-/

namespace PushMesh.Json

mutual

/-- The tokens of a value. -/
def tokens : Json → List Token
  | null => [.null]
  | bool b => [.bool b]
  | number n => [.number n]
  | string s => [.string s]
  | array [] => [.leftBracket, .rightBracket]
  | array (j :: l) => .leftBracket :: (j.tokens ++ itemTokens l)
  | object [] => [.leftBrace, .rightBrace]
  | object ((k, j) :: l) => .leftBrace :: .string k :: .colon :: (j.tokens ++ fieldTokens l)

/-- The tokens of the further items of an array. -/
def itemTokens : List Json → List Token
  | [] => [.rightBracket]
  | j :: l => .comma :: (j.tokens ++ itemTokens l)

/-- The tokens of the further fields of an object. -/
def fieldTokens : List (String × Json) → List Token
  | [] => [.rightBrace]
  | (k, j) :: l => .comma :: .string k :: .colon :: (j.tokens ++ fieldTokens l)

end

/-- The compact text of a value. -/
def text (j : Json) : String :=
  String.ofList (j.tokens.flatMap Token.text)

end PushMesh.Json
