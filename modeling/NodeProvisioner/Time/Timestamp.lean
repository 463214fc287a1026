import NodeProvisioner.Text.Properties
import NodeProvisioner.Time.Date

/-!
# Timestamps

A timestamp is an instant in Universal Time. In a text it has the form of RFC 3339, read somewhat
leniently: numbers may have fewer digits, space may stand around the separators, a blank may take
the place of the `T`, and years beyond four digits carry a sign. It is written with whole seconds
and a `Z`.
-/

namespace NodeProvisioner

/-- An instant: seconds from the start of 1970, and nanoseconds after it. In a leap second the
nanoseconds count on from a whole second. -/
structure Timestamp where
  seconds : Int
  nanos : Nat := 0
deriving DecidableEq, Repr, Inhabited

namespace Timestamp

/-- What is wrong with the text of a timestamp. -/
inductive Error where
  | tooShort
  | invalid
  | outOfRange
  | impossible
  | tooLong
deriving DecidableEq, Repr

/-- The error in words. -/
def Error.message : Error → String
  | tooShort => "premature end of input"
  | invalid => "input contains invalid characters"
  | outOfRange => "input is out of range"
  | impossible => "no possible date and time matching input"
  | tooLong => "trailing input"

/-! ## Reading -/

/-- The number of a run of digits. -/
def digitsValue (digits : List Char) : Nat :=
  digits.foldl (fun n c => 10 * n + (c.toNat - '0'.toNat)) 0

/-- A number of at most `most` digits, or of any number of them. -/
def number (most : Option Nat) (cs : List Char) : Except Error (Nat × List Char) :=
  match cs with
  | [] => .error .tooShort
  | _ =>
    let run := cs.takeWhile Char.isDigit
    let digits := match most with
      | none => run
      | some n => run.take n
    if digits.isEmpty then .error .invalid
    else if digitsValue digits < 0x8000000000000000 then .ok (digitsValue digits, cs.drop digits.length)
    else .error .outOfRange

/-- A number of at most two digits, after space, in a range. -/
def field (least greatest : Nat) (cs : List Char) : Except Error (Nat × List Char) := do
  let (n, rest) ← number (some 2) (Text.trimLeft cs)
  if least ≤ n ∧ n ≤ greatest then return (n, rest) else throw .outOfRange

/-- A year: of at most four digits, or of any number after a sign. -/
def yearField (cs : List Char) : Except Error (Int × List Char) := do
  let (year, rest) ← match Text.trimLeft cs with
    | '-' :: rest => (fun (n, rest) => (-(n : Int), rest)) <$> number none rest
    | '+' :: rest => (fun (n, rest) => ((n : Int), rest)) <$> number none rest
    | rest => (fun (n, rest) => ((n : Int), rest)) <$> number (some 4) rest
  if -0x80000000 ≤ year ∧ year < 0x80000000 then return (year, rest) else throw .outOfRange

/-- A separator after space. -/
def separator (c : Char) (cs : List Char) : Except Error (List Char) :=
  match Text.trimLeft cs with
  | [] => .error .tooShort
  | d :: rest => if c = d then .ok rest else .error .invalid

/-- The fraction of a second, in nanoseconds: digits beyond the ninth are dropped. -/
def fraction (cs : List Char) : Except Error (Nat × List Char) :=
  match cs with
  | '.' :: rest => do
    let (n, _) ← number (some 9) rest
    let digits := rest.takeWhile Char.isDigit
    return (n * Nat.pow 10 (9 - digits.length), rest.dropWhile Char.isDigit)
  | _ => .ok (0, cs)

/-- Two digits of an offset. -/
def twoDigits (cs : List Char) : Except Error (Nat × List Char) :=
  match cs with
  | a :: b :: rest =>
    if a.isDigit && b.isDigit then .ok (digitsValue [a, b], rest)
    else .error .invalid
  | [c] => if c.utf8Size ≥ 2 then .error .invalid else .error .tooShort
  | [] => .error .tooShort

/-- The offset from Universal Time, in seconds. -/
def offset (cs : List Char) : Except Error (Int × List Char) :=
  match cs with
  | [] => .error .tooShort
  | 'Z' :: rest => .ok (0, rest)
  | 'z' :: rest => .ok (0, rest)
  | u :: t :: c :: rest =>
    if u.toLower = 'u' ∧ t.toLower = 't' ∧ c.toLower = 'c' then .ok (0, rest) else signed cs
  | _ => signed cs
where
  signed : List Char → Except Error (Int × List Char)
    | '+' :: rest => magnitude rest
    | '-' :: rest => (fun (n, rest) => (-n, rest)) <$> magnitude rest
    | '−' :: rest => (fun (n, rest) => (-n, rest)) <$> magnitude rest
    | _ => .error .invalid
  magnitude (cs : List Char) : Except Error (Int × List Char) := do
    let (hours, rest) ← twoDigits cs
    let (minutes, rest) ← twoDigits (rest.dropWhile fun c => c = ':' || Text.isBlank c)
    if minutes < 60 then return (hours * 3600 + minutes * 60, rest) else throw .outOfRange

/-- The first second that there is in Universal Time. -/
def firstSecond : Int := (⟨-262143, 1, 1⟩ : Date).toDays * 86400

/-- The last second that there is in Universal Time. -/
def lastSecond : Int := (⟨262142, 12, 31⟩ : Date).toDays * 86400 + 86399

/-- Reads a timestamp. -/
def parse (s : String) : Except Error Timestamp := do
  let (year, cs) ← yearField s.toList
  let cs ← separator '-' cs
  let (month, cs) ← field 1 12 cs
  let cs ← separator '-' cs
  let (day, cs) ← field 1 31 cs
  let cs ← match cs with
    | [] => throw .tooShort
    | c :: rest => if c = 'T' ∨ c = 't' ∨ c = ' ' then pure rest else throw .invalid
  let (hour, cs) ← field 0 23 cs
  let cs ← separator ':' cs
  let (minute, cs) ← field 0 59 cs
  let cs ← separator ':' cs
  let (second, cs) ← field 0 60 cs
  let (nanos, cs) ← fraction cs
  let (offset, cs) ← offset (Text.trimLeft cs)
  unless (Text.trimLeft cs).isEmpty do throw .tooLong
  let date : Date := ⟨year, month, day⟩
  unless date.isValid && -262143 ≤ year && year ≤ 262142 && offset.natAbs < 86400 do throw .outOfRange
  let time : Int := hour * 3600 + minute * 60 + min second 59
  let leap := if second = 60 then 1000000000 else 0
  let seconds := date.toDays * 86400 + time - offset
  unless firstSecond ≤ seconds && seconds ≤ lastSecond do throw .impossible
  return ⟨seconds, nanos + leap⟩

/-! ## Writing -/

/-- The digits of a number, with zeros in front up to a width. -/
def padded (width n : Nat) : String :=
  let digits := Nat.toDigits 10 n
  String.ofList (List.replicate (width - digits.length) '0' ++ digits)

/-- A year: four digits, or a sign and at least four beyond those. -/
def yearText (year : Int) : String :=
  if 0 ≤ year ∧ year ≤ 9999 then padded 4 year.toNat
  else (if year < 0 then "-" else "+") ++ padded 4 year.natAbs

/-- Writes a timestamp with whole seconds. -/
def print (t : Timestamp) : String :=
  let date := Date.ofDays (t.seconds / 86400)
  let time := (t.seconds % 86400).toNat
  let second := time % 60 + t.nanos / 1000000000
  s!"{yearText date.year}-{padded 2 date.month}-{padded 2 date.day}T" ++
    s!"{padded 2 (time / 3600)}:{padded 2 (time / 60 % 60)}:{padded 2 second}Z"

end Timestamp

end NodeProvisioner
