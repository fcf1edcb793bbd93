import PushMesh.Config.Value
import PushMesh.Number.Hex

/-!
# Scalars of TOML

Strings stand in double quotes, where a backslash starts an escape, or in single quotes, where
nothing does; three quotes instead of one let a string go on over several lines. Numbers may have
underscores between their digits, and integers may be written in other bases. Dates and times are
kept as texts.
-/

namespace PushMesh.Config.Toml

/-- Reads something from the front of a text. -/
abbrev TextReader (α : Type) := StateT (List Char) Option α

namespace TextReader

/-- The next character, which stays where it is. -/
def peek : TextReader (Option Char) := fun cs => some (cs.head?, cs)

/-- Takes the next character. -/
def next : TextReader Char := fun cs =>
  match cs with
  | [] => none
  | c :: cs => some (c, cs)

/-- Takes the characters for which `p` holds. -/
def takeWhile (p : Char → Bool) : TextReader (List Char) := fun cs => some (cs.span p)

/-- Takes a text if it comes next, and says whether it does. -/
def accept (s : String) : TextReader Bool := fun cs =>
  match Text.afterPrefix? s.toList cs with
  | some rest => some (true, rest)
  | none => some (false, cs)

/-- Takes a text that has to come next. -/
def expect (s : String) : TextReader Unit := fun cs =>
  (Text.afterPrefix? s.toList cs).map ((), ·)

/-- The number of characters that are left. -/
def remaining : TextReader Nat := fun cs => some (cs.length, cs)

end TextReader

open TextReader

/-- Whether a character is a blank within a line. -/
def isBlank (c : Char) : Bool := c = ' ' || c = '\t'

/-- Whether a character may stand in a comment or, quotes and escapes aside, in a string. -/
def isVisible (c : Char) : Bool :=
  c = '\t' || (0x20 ≤ c.toNat && c.toNat ≠ 0x7F)

/-! ## Strings -/

/-- The character whose number is written in so many hexadecimal digits, and what follows. -/
def unicode? (digits : Nat) (cs : List Char) : Option (Char × List Char) := do
  let n ← Number.hex? (cs.take digits)
  if digits ≤ cs.length && n.isValidChar then some (Char.ofNat n, cs.drop digits) else none

/-- The character of an escape after its backslash, and what follows. -/
def escape? : List Char → Option (Char × List Char)
  | 'b' :: cs => some ('\x08', cs)
  | 't' :: cs => some ('\t', cs)
  | 'n' :: cs => some ('\n', cs)
  | 'f' :: cs => some ('\x0c', cs)
  | 'r' :: cs => some ('\r', cs)
  | '"' :: cs => some ('"', cs)
  | '\\' :: cs => some ('\\', cs)
  | 'u' :: cs => unicode? 4 cs
  | 'U' :: cs => unicode? 8 cs
  | _ => none

/-- What follows a line break. -/
def afterBreak? : List Char → Option (List Char)
  | '\n' :: cs => some cs
  | '\r' :: '\n' :: cs => some cs
  | _ => none

/-- What follows a backslash at the end of a line: blanks and line breaks are passed over. -/
def continued? (cs : List Char) : Option (List Char) :=
  let rest := cs.dropWhile isBlank
  (afterBreak? rest).map (·.dropWhile fun c => isBlank c || c = '\n' || c = '\r')

/-- The rest of a string on one line up to its closing quote, and what follows. -/
def line? (quote : Char) : Nat → List Char → Option (List Char × List Char)
  | 0, _ => none
  | _, [] => none
  | fuel + 1, c :: cs =>
    if c = quote then some ([], cs)
    else do
      let (c, cs) ←
        if c = '\\' ∧ quote = '"' then escape? cs
        else if isVisible c then some (c, cs)
        else none
      let (s, cs) ← line? quote fuel cs
      return (c :: s, cs)

/-- The rest of a string over several lines up to its three closing quotes, and what follows. One or
two more quotes before these belong to the string. -/
def block? (quote : Char) : Nat → List Char → Option (List Char × List Char)
  | 0, _ => none
  | _, [] => none
  | fuel + 1, c :: cs =>
    if c = quote ∧ cs.take 2 = [quote, quote] ∧ (cs.drop 2).head? ≠ some quote then
      some ([], cs.drop 2)
    else if c = quote ∧ cs.take 4 = List.replicate 4 quote then
      some ([quote, quote], cs.drop 4)
    else if c = '\\' ∧ quote = '"' then
      match continued? cs with
      | some cs => block? quote fuel cs
      | none => do
        let (c, cs) ← escape? cs
        let (s, cs) ← block? quote fuel cs
        return (c :: s, cs)
    else
      match afterBreak? (c :: cs) with
      | some cs => do
        let (s, cs) ← block? quote fuel cs
        return ('\n' :: s, cs)
      | none =>
        if isVisible c then do
          let (s, cs) ← block? quote fuel cs
          return (c :: s, cs)
        else none

/-- A string on one line after its opening quote. -/
def lineString (quote : Char) : TextReader String := fun cs =>
  (line? quote (cs.length + 1) cs).map fun (s, cs) => (String.ofList s, cs)

/-- A string over several lines after its three opening quotes; a line break right after them does
not count. -/
def blockString (quote : Char) : TextReader String := fun cs =>
  let cs := (afterBreak? cs).getD cs
  (block? quote (cs.length + 1) cs).map fun (s, cs) => (String.ofList s, cs)

/-! ## Numbers -/

/-- The digits between which single underscores may stand, without the underscores. -/
def digits? (isDigit : Char → Bool) (cs : List Char) : Option (List Char) :=
  let groups := Text.splitAll '_' cs
  if groups.all fun g => !g.isEmpty && g.all isDigit then some groups.flatten else none

/-- The number that digits write in a base. -/
def inBase (base : Nat) (digits : List Char) : Nat :=
  digits.foldl (fun n c => n * base + (Number.hexDigit? c).getD 0) 0

/-- Whether a character is a digit in a base. -/
def isDigitIn (base : Nat) (c : Char) : Bool :=
  (Number.hexDigit? c).any (· < base)

/-- The value of an integer, unless it is out of range. -/
def integerValue? (n : Int) : Option Value :=
  if Number.isSignedWord n then some (.integer n) else none

/-- Whether digits have no zero before them that is not needed. -/
def isPlainWhole (digits : List Char) : Bool :=
  digits.length ≤ 1 || digits.head? ≠ some '0'

/-- A fractional number: digits, then a fraction or an exponent or both. -/
def fractional? (negative : Bool) (cs : List Char) : Option Value := do
  let (mantissa, exponent) := (Text.splitOnce? 'e' (cs.map Text.lowerAscii)).getD (cs, ['0'])
  let (whole, fraction) := match Text.splitOnce? '.' mantissa with
    | some (whole, fraction) => (whole, some fraction)
    | none => (mantissa, none)
  let whole ← digits? Char.isDigit whole
  let fraction ← match fraction with
    | some fraction => digits? Char.isDigit fraction
    | none => some []
  let (down, exponent) := Number.sign exponent
  let exponent ← digits? Char.isDigit exponent
  let exponent ← Text.decimal? exponent
  let point : Int := whole.length + (if down then -(exponent : Int) else exponent)
  let x := Number.nearest negative (whole ++ fraction) point
  if isPlainWhole whole && !x.isInfinite then some (.decimal x) else none

/-- A number in decimal digits after its sign. -/
def decimalNumber? (negative : Bool) (cs : List Char) : Option Value :=
  match cs with
  | ['i', 'n', 'f'] => some (.decimal (.infinite negative))
  | ['n', 'a', 'n'] => some (.decimal .nan)
  | cs =>
    match digits? Char.isDigit cs with
    | some digits => do
      let n ← Text.decimal? digits
      if isPlainWhole digits then integerValue? (if negative then -(n : Int) else n) else none
    | none => fractional? negative cs

/-- A number. -/
def number? : List Char → Option Value
  | '0' :: 'x' :: cs => do integerValue? (inBase 16 (← digits? (isDigitIn 16) cs))
  | '0' :: 'o' :: cs => do integerValue? (inBase 8 (← digits? (isDigitIn 8) cs))
  | '0' :: 'b' :: cs => do integerValue? (inBase 2 (← digits? (isDigitIn 2) cs))
  | cs =>
    let (negative, cs) := Number.sign cs
    decimalNumber? negative cs

/-! ## Dates and times -/

/-- Whether a text starts like a date or a time: with four digits and a hyphen, or with two digits
and a colon. -/
def isMoment (cs : List Char) : Bool :=
  let startsWith (count : Nat) (c : Char) : Bool :=
    (cs.take count).length = count && (cs.take count).all Char.isDigit
      && (cs.drop count).head? = some c
  startsWith 4 '-' || startsWith 2 ':'

/-- Whether a character may stand in a number, a truth value, a date or a time. -/
def isBareChar (c : Char) : Bool :=
  c.isAlphanum || "+-_.:".toList.contains c

/-- A value that is neither quoted nor a container. -/
def bare : TextReader Value := do
  let cs ← takeWhile isBareChar
  match cs with
  | ['t', 'r', 'u', 'e'] => return .flag true
  | ['f', 'a', 'l', 's', 'e'] => return .flag false
  | cs => if isMoment cs then return .text (String.ofList cs) else number? cs

end PushMesh.Config.Toml
