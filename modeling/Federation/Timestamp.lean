import Federation.Text.Blank

/-!
Instants of universal time, to the nanosecond, and their text in the form `2024-01-01T00:00:00Z`.

A leap second is kept as the second before it with a thousand million nanoseconds or more.
-/
namespace Federation

structure Timestamp where
  /-- Seconds since the start of 1970. -/
  seconds : Int
  nanos : Nat
  deriving DecidableEq, Repr, Inhabited

namespace Timestamp

/-- Days from the start of 1970 to a date of the Gregorian calendar. -/
def daysOfDate (year : Int) (month day : Nat) : Int :=
  let y := if month ≤ 2 then year - 1 else year
  let era := Int.fdiv y 400
  let yoe := y - era * 400
  let m : Int := if month > 2 then (month : Int) - 3 else (month : Int) + 9
  let doy := (153 * m + 2) / 5 + (day : Int) - 1
  let doe := yoe * 365 + yoe / 4 - yoe / 100 + doy
  era * 146097 + doe - 719468

/-- Year, month and day of a count of days since the start of 1970. -/
def dateOfDays (days : Int) : Int × Nat × Nat :=
  let z := days + 719468
  let era := Int.fdiv z 146097
  let doe := z - era * 146097
  let yoe := (doe - doe / 1460 + doe / 36524 - doe / 146096) / 365
  let doy := doe - (365 * yoe + yoe / 4 - yoe / 100)
  let mp := (5 * doy + 2) / 153
  let d := doy - (153 * mp + 2) / 5 + 1
  let m := if mp < 10 then mp + 3 else mp - 9
  let y := yoe + era * 400 + (if m ≤ 2 then 1 else 0)
  (y, m.toNat, d.toNat)

def isLeapYear (y : Int) : Bool := Int.emod y 4 = 0 && (Int.emod y 100 ≠ 0 || Int.emod y 400 = 0)

def daysInMonth (y : Int) (m : Nat) : Nat :=
  if m = 2 then (if isLeapYear y then 29 else 28)
  else if m = 4 ∨ m = 6 ∨ m = 9 ∨ m = 11 then 30 else 31

/-- A number in decimal with at least `width` digits. -/
def padded (width n : Nat) : String :=
  let ds := Nat.toDigits 10 n
  String.ofList (List.replicate (width - ds.length) '0' ++ ds)

/-- Years of four digits stand alone, others carry a sign. -/
def yearText (y : Int) : String :=
  if 0 ≤ y ∧ y ≤ 9999 then padded 4 y.toNat
  else (if y < 0 then "-" else "+") ++ padded 4 y.natAbs

/-- A fraction has no, three, six or nine digits, as few as hold it. -/
def fractionText (nanos : Nat) : String :=
  if nanos = 0 then ""
  else if nanos % 1000000 = 0 then "." ++ padded 3 (nanos / 1000000)
  else if nanos % 1000 = 0 then "." ++ padded 6 (nanos / 1000)
  else "." ++ padded 9 nanos

def text (t : Timestamp) : String :=
  let days := Int.fdiv t.seconds 86400
  let second := (t.seconds - days * 86400).toNat
  let (y, m, d) := dateOfDays days
  let leap := if 1000000000 ≤ t.nanos then 1 else 0
  yearText y ++ "-" ++ padded 2 m ++ "-" ++ padded 2 d ++ "T" ++ padded 2 (second / 3600) ++ ":"
    ++ padded 2 (second / 60 % 60) ++ ":" ++ padded 2 (second % 60 + leap)
    ++ fractionText (t.nanos % 1000000000) ++ "Z"

inductive Fault where
  | outOfRange | impossible | invalid | tooShort | tooLong
  deriving DecidableEq, Repr

def Fault.message : Fault → String
  | .outOfRange => "input is out of range"
  | .impossible => "no possible date and time matching input"
  | .invalid => "input contains invalid characters"
  | .tooShort => "premature end of input"
  | .tooLong => "trailing input"

abbrev Scan (α : Type) := List Char → Except Fault (α × List Char)

def skipSpace (cs : List Char) : List Char := cs.dropWhile Text.isSpace

def decimal (ds : List Char) : Nat := ds.foldl (fun n c => n * 10 + (c.toNat - 48)) 0

/-- One to `width` digits. -/
def number (width : Nat) : Scan Nat := fun cs =>
  match cs with
  | [] => .error .tooShort
  | c :: _ =>
    if c.isDigit then
      let ds := (cs.take width).takeWhile Char.isDigit
      let n := decimal ds
      if n < 0x8000000000000000 then .ok (n, cs.drop ds.length) else .error .outOfRange
    else .error .invalid

/-- A number of one to `width` digits between two bounds, after space. -/
def bounded (width low high : Nat) : Scan Nat := fun cs => do
  let (n, rest) ← number width (skipSpace cs)
  if low ≤ n ∧ n ≤ high then return (n, rest) else throw .outOfRange

/-- A year has up to four digits, with a sign as many as it likes. -/
def year : Scan Int := fun cs => do
  match skipSpace cs with
  | '-' :: rest => do
    let (n, rest) ← number rest.length rest
    if n ≤ 0x80000000 then return (-(n : Int), rest) else throw .outOfRange
  | '+' :: rest => do
    let (n, rest) ← number rest.length rest
    if n < 0x80000000 then return ((n : Int), rest) else throw .outOfRange
  | rest => do
    let (n, rest) ← number 4 rest
    return ((n : Int), rest)

def literal (c : Char) : Scan Unit := fun cs =>
  match skipSpace cs with
  | [] => .error .tooShort
  | d :: rest => if d = c then .ok ((), rest) else .error .invalid

/-- A fraction of a second; digits beyond the ninth are dropped. -/
def fraction : Scan Nat := fun cs =>
  match cs with
  | '.' :: rest => do
    let (n, _) ← number 9 rest
    let digits := rest.takeWhile Char.isDigit
    return (n * Nat.pow 10 (9 - min 9 digits.length), rest.drop digits.length)
  | rest => .ok (0, rest)

/-- Two digits with no space before them. -/
def twoDigits : Scan Nat := fun cs =>
  match cs with
  | [] => .error .tooShort
  | [c] => if c.toNat < 128 then .error .tooShort else .error .invalid
  | a :: b :: rest =>
    if a.isDigit ∧ b.isDigit then .ok (decimal [a, b], rest) else .error .invalid

/-- The distance from universal time in seconds: `Z`, `UTC`, or a sign, hours and minutes. -/
def offset : Scan Int := fun cs =>
  let cs := skipSpace cs
  if (cs.take 3).map Char.toLower = ['u', 't', 'c'] then .ok (0, cs.drop 3)
  else
    let signed (sign : Int) (cs : List Char) : Except Fault (Int × List Char) := do
      let (h, cs) ← twoDigits cs
      let cs := cs.dropWhile fun c => c = ':' || Text.isSpace c
      let (m, cs) ← twoDigits cs
      if m ≤ 59 then return (sign * (h * 3600 + m * 60 : Nat), cs) else throw .outOfRange
    match cs with
    | [] => .error .tooShort
    | c :: rest =>
      if c = 'Z' ∨ c = 'z' then .ok (0, rest)
      else if c = '+' then signed 1 rest
      else if c = '-' ∨ c.toNat = 0x2212 then signed (-1) rest
      else .error .invalid

/-- The sign between date and time. -/
def separator : Scan Unit := fun cs =>
  match cs with
  | [] => .error .tooShort
  | c :: rest => if c = 'T' ∨ c = 't' ∨ c = ' ' then .ok ((), rest) else .error .invalid

/-- The first and the last year a calendar date can have. -/
def firstYear : Int := -262143

def lastYear : Int := 262142

def yearInRange (y : Int) : Bool := firstYear ≤ y && y ≤ lastYear

/-- Has a second of universal time a calendar date? -/
def secondInRange (seconds : Int) : Bool :=
  daysOfDate firstYear 1 1 * 86400 ≤ seconds && seconds < daysOfDate (lastYear + 1) 1 1 * 86400

def ofText (s : String) : Except Fault Timestamp := do
  let cs := s.toList
  let (y, cs) ← year cs
  let ((), cs) ← literal '-' cs
  let (mo, cs) ← bounded 2 1 12 cs
  let ((), cs) ← literal '-' cs
  let (d, cs) ← bounded 2 1 31 cs
  let ((), cs) ← separator cs
  let (h, cs) ← bounded 2 0 23 cs
  let ((), cs) ← literal ':' cs
  let (mi, cs) ← bounded 2 0 59 cs
  let ((), cs) ← literal ':' cs
  let (sec, cs) ← bounded 2 0 60 cs
  let (nano, cs) ← fraction cs
  let (off, cs) ← offset cs
  if skipSpace cs ≠ [] then throw .tooLong
  if 86400 ≤ off.natAbs ∨ ¬ yearInRange y ∨ daysInMonth y mo < d then throw .outOfRange
  let leap := if sec = 60 then 1 else 0
  let seconds := daysOfDate y mo d * 86400 + (h * 3600 + mi * 60 + (sec - leap) : Nat) - off
  if ¬ secondInRange seconds then throw .impossible
  return { seconds := seconds, nanos := nano + leap * 1000000000 }

end Timestamp
end Federation
