import PushMesh.Number.Shortest
import PushMesh.Text.Blank
import PushMesh.Time.Instant

/-!
# Instants as text

An instant is written as RFC 3339 has it, in UTC with a final `Z` and a fraction of 0, 3, 6 or 9
digits, the fewest that keep its nanoseconds. A year outside 0 to 9999 has a sign.

Reading is more liberal: blanks are allowed before numbers, marks and the offset, a blank may stand
for the `T`, and the offset may be `Z`, `UTC` or hours and minutes with colons or blanks between.
-/

namespace PushMesh.Instant

/-! ## Writing -/

/-- A number with zeros before it up to the given width. -/
def padded (width n : Nat) : List Char :=
  let digits := Decimal.digitText n
  List.replicate (width - digits.length) '0' ++ digits

/-- The year, four digits or more, with a sign outside 0 to 9999. -/
def yearText (year : Int) : List Char :=
  if 0 ≤ year ∧ year ≤ 9999 then padded 4 year.natAbs
  else (if year < 0 then '-' else '+') :: padded 4 year.natAbs

/-- The fraction of a second. -/
def fractionText (nanos : Nat) : List Char :=
  if nanos = 0 then []
  else if nanos % 1000000 = 0 then '.' :: padded 3 (nanos / 1000000)
  else if nanos % 1000 = 0 then '.' :: padded 6 (nanos / 1000)
  else '.' :: padded 9 nanos

/-- The text of an instant. -/
def text (t : Instant) : String :=
  String.ofList <|
    yearText t.year ++ '-' :: padded 2 t.month ++ '-' :: padded 2 t.day
      ++ 'T' :: padded 2 t.hour ++ ':' :: padded 2 t.minute ++ ':' :: padded 2 t.second
      ++ fractionText t.nanos ++ ['Z']

/-! ## Reading -/

/-- Reads from the front of a list of characters, or fails. -/
abbrev Scanner := StateT (List Char) Option

/-- Passes over blanks. -/
def blanks : Scanner Unit := modify Text.trimStart

/-- The digits at the front, at most `width` of them. -/
def digitsUpTo (width : Nat) : Scanner (List Char) := do
  let cs ← get
  let ds := (cs.take width).takeWhile Char.isDigit
  set (cs.drop ds.length)
  return ds

/-- A number of one to `width` digits. -/
def number (width : Nat) : Scanner Nat := do
  let ds ← digitsUpTo width
  StateT.lift (Text.decimal? ds)

/-- A number after blanks. -/
def field (width : Nat) : Scanner Nat := do
  blanks
  number width

/-- The year: four digits at most, or any number of them after a sign. -/
def yearField : Scanner Int := do
  blanks
  let cs ← get
  match cs with
  | '-' :: rest => set rest; return -(← number rest.length)
  | '+' :: rest => set rest; return (← number rest.length)
  | _ => return (← number 4)

/-- A mark after blanks. -/
def mark (c : Char) : Scanner Unit := do
  blanks
  match ← get with
  | d :: rest => if c = d then set rest else failure
  | [] => failure

/-- What separates the date from the time of day. -/
def separator : Scanner Unit := do
  match ← get with
  | c :: rest => if c = 'T' ∨ c = 't' ∨ c = ' ' then set rest else failure
  | [] => failure

/-- The nanoseconds of a fraction; digits beyond the ninth are passed over. -/
def fraction : Scanner Nat := do
  match ← get with
  | '.' :: rest =>
    set rest
    let ds ← digitsUpTo 9
    let n ← StateT.lift (Text.decimal? ds)
    modify (·.dropWhile Char.isDigit)
    return n * Nat.pow 10 (9 - ds.length)
  | _ => return 0

/-- Two digits. -/
def twoDigits : Scanner Nat := do
  let ds ← digitsUpTo 2
  guard (ds.length = 2)
  StateT.lift (Text.decimal? ds)

/-- Hours and minutes of an offset. -/
def offsetMinutes : Scanner Nat := do
  let hours ← twoDigits
  modify (·.dropWhile fun c => c = ':' || Text.isBlank c)
  let minutes ← twoDigits
  guard (minutes < 60)
  return hours * 60 + minutes

/-- The offset of a local clock in minutes. -/
def offset : Scanner Int := do
  blanks
  let cs ← get
  match cs with
  | 'Z' :: rest => set rest; return 0
  | 'z' :: rest => set rest; return 0
  | '+' :: rest => set rest; return (← offsetMinutes)
  | '-' :: rest => set rest; return -(← offsetMinutes)
  | '\u2212' :: rest => set rest; return -(← offsetMinutes)
  | a :: b :: c :: rest =>
    guard ([a, b, c].map Text.lowerAscii = ['u', 't', 'c'])
    set rest
    return 0
  | _ => failure

/-- A date, a time of day and an offset, with nothing but blanks after them. -/
def scan : Scanner Instant := do
  let year ← yearField
  mark '-'
  let month ← field 2
  mark '-'
  let day ← field 2
  separator
  let hour ← field 2
  mark ':'
  let minute ← field 2
  mark ':'
  let second ← field 2
  let nanos ← fraction
  let offset ← offset
  blanks
  guard (← get).isEmpty
  guard (offset.natAbs < 1440)
  let t ← StateT.lift (ofFields? year month day hour minute second nanos)
  StateT.lift (t.ofLocal? offset)

/-- The instant that a text names. -/
def parse? (s : String) : Option Instant :=
  (scan.run s.toList).map (·.1)

end PushMesh.Instant
