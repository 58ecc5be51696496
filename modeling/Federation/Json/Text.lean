import Federation.Decimal.Shortest
import Federation.Json.Basic

/-!
JSON documents as text. Reading keeps whole numbers exact as far as a value can hold them. Every
other number becomes a binary64 in two roundings: the leading digits, as many as sixty-four bits
hold, are rounded first, and the product or quotient with a power of ten afterwards, so the result
may be a neighbour of the nearest one. Of two members with one key the later one stays.
-/
namespace Federation.Json

namespace Text

abbrev Scan (α : Type) := List Char → Option (α × List Char)

def isBlank (c : Char) : Bool := c = ' ' || c = '\n' || c = '\r' || c = '\t'

def skip (cs : List Char) : List Char := cs.dropWhile isBlank

def hexDigit? (c : Char) : Option Nat :=
  if '0' ≤ c ∧ c ≤ '9' then some (c.toNat - 48)
  else if 'a' ≤ c ∧ c ≤ 'f' then some (c.toNat - 87)
  else if 'A' ≤ c ∧ c ≤ 'F' then some (c.toNat - 55)
  else none

/-- Four hexadecimal digits. -/
def unit : Scan Nat
  | a :: b :: c :: d :: rest => do
    let a ← hexDigit? a
    let b ← hexDigit? b
    let c ← hexDigit? c
    let d ← hexDigit? d
    return (((a * 16 + b) * 16 + c) * 16 + d, rest)
  | _ => none

/-- The character after a backslash and `u`; two halves of a pair make one. -/
def escapedUnit : Scan Char := fun cs => do
  let (high, rest) ← unit cs
  if 0xD800 ≤ high ∧ high < 0xDC00 then
    match rest with
    | '\\' :: 'u' :: rest => do
      let (low, rest) ← unit rest
      if 0xDC00 ≤ low ∧ low < 0xE000 then
        return (Char.ofNat (0x10000 + (high - 0xD800) * 0x400 + (low - 0xDC00)), rest)
      else none
    | _ => none
  else if 0xDC00 ≤ high ∧ high < 0xE000 then none
  else return (Char.ofNat high, rest)

def escape? (c : Char) : Option Char :=
  match c with
  | '"' => some '"'
  | '\\' => some '\\'
  | '/' => some '/'
  | 'b' => some '\x08'
  | 'f' => some '\x0c'
  | 'n' => some '\n'
  | 'r' => some '\r'
  | 't' => some '\t'
  | _ => none

/-- The rest of a string, after its opening quote; `done` holds what precedes, last first. -/
def stringTail : Nat → List Char → Scan String
  | 0, _, _ => none
  | _, _, [] => none
  | _, done, '"' :: rest => some (String.ofList done.reverse, rest)
  | fuel + 1, done, '\\' :: 'u' :: rest => do
    let (c, rest) ← escapedUnit rest
    stringTail fuel (c :: done) rest
  | fuel + 1, done, '\\' :: c :: rest => do
    let c ← escape? c
    stringTail fuel (c :: done) rest
  | fuel + 1, done, c :: rest =>
    if c.toNat < 32 ∨ c = '\\' then none else stringTail fuel (c :: done) rest

def digitValue (c : Char) : Nat := c.toNat - 48

/-- Appends digits to a number as long as sixty-four bits hold it; the rest is left. -/
def absorb : Nat → List Char → Nat × List Char
  | m, [] => (m, [])
  | m, c :: cs =>
    let n := m * 10 + digitValue c
    if n < UInt64.size then absorb n cs else (m, c :: cs)

/-- The number that digits write in full. -/
def digitsValue (ds : List Char) : Nat := ds.foldl (fun n c => n * 10 + digitValue c) 0

/-- The power of ten that is nearest to `10^n`. -/
def powerOfTen (n : Nat) : Float := Float.ofScientific 1 false n

/-- A number of sixty-four bits times `10^e`, unless that is too large. Powers that a binary64
cannot hold divide in two steps, and what is left after them is zero. -/
def scaled? (m : Nat) (e : Int) : Option Float :=
  let x := m.toUInt64.toFloat
  if m = 0 then some x
  else if 308 < e then none
  else if 0 ≤ e then
    let y := x * powerOfTen e.toNat
    if y.isInf then none else some y
  else if -308 ≤ e then some (x / powerOfTen e.natAbs)
  else if -616 ≤ e then some (x / powerOfTen 308 / powerOfTen (e.natAbs - 308))
  else some 0

/-- The binary64 with a sign and a magnitude of `m` times `10^e`. -/
def real? (negative : Bool) (m : Nat) (e : Int) : Option Json :=
  (scaled? m e).map fun x => .number (.real (if negative then -x else x).toBits)

def exponent : Scan Int := fun cs =>
  match cs with
  | 'e' :: rest | 'E' :: rest =>
    let (negative, rest) :=
      match rest with
      | '-' :: rest => (true, rest)
      | '+' :: rest => (false, rest)
      | rest => (false, rest)
    let ds := rest.takeWhile Char.isDigit
    if ds = [] then none
    else
      let n : Int := digitsValue ds
      some (if negative then -n else n, rest.drop ds.length)
  | _ => some (0, cs)

def fraction : Scan (List Char) := fun cs =>
  match cs with
  | '.' :: rest =>
    let ds := rest.takeWhile Char.isDigit
    if ds = [] then none else some (ds, rest.drop ds.length)
  | _ => some ([], cs)

def number : Scan Json := fun cs =>
  let (negative, cs) :=
    match cs with
    | '-' :: rest => (true, rest)
    | cs => (false, cs)
  let ds := cs.takeWhile Char.isDigit
  if ds = [] ∨ (ds.head? = some '0' ∧ ds.length ≠ 1) then none
  else do
    let after := cs.drop ds.length
    let (fs, rest) ← fraction after
    let (e, rest') ← exponent rest
    let (m, extra) := absorb 0 ds
    if after.length = rest'.length ∧ extra = [] ∧ (negative → 0 < m ∧ m ≤ 0x8000000000000000) then
      return (.number (.whole (if negative then -(m : Int) else m)), rest')
    else
      let (n, unread) := absorb m fs
      let j ← real? negative n (e + extra.length + unread.length - fs.length)
      return (j, rest')

mutual

def value : Nat → Scan Json
  | 0, _ => none
  | fuel + 1, cs =>
    match skip cs with
    | 'n' :: 'u' :: 'l' :: 'l' :: rest => some (.null, rest)
    | 't' :: 'r' :: 'u' :: 'e' :: rest => some (.bool true, rest)
    | 'f' :: 'a' :: 'l' :: 's' :: 'e' :: rest => some (.bool false, rest)
    | '"' :: rest => do
      let (s, rest) ← stringTail (rest.length + 1) [] rest
      return (.string s, rest)
    | '[' :: rest =>
      match skip rest with
      | ']' :: rest => some (.array [], rest)
      | rest => (items fuel rest).map fun r => (.array r.1, r.2)
    | '{' :: rest =>
      match skip rest with
      | '}' :: rest => some (.object [], rest)
      | rest => (members fuel rest).map fun r => (ofEntries r.1, r.2)
    | rest => number rest

def items : Nat → Scan (List Json)
  | 0, _ => none
  | fuel + 1, cs => do
    let (j, rest) ← value fuel cs
    match skip rest with
    | ',' :: rest => do
      let (js, rest) ← items fuel rest
      return (j :: js, rest)
    | ']' :: rest => return ([j], rest)
    | _ => none

def members : Nat → Scan (List (String × Json))
  | 0, _ => none
  | fuel + 1, cs =>
    match skip cs with
    | '"' :: rest => do
      let (key, rest) ← stringTail (rest.length + 1) [] rest
      match skip rest with
      | ':' :: rest => do
        let (j, rest) ← value fuel rest
        match skip rest with
        | ',' :: rest => do
          let (es, rest) ← members fuel rest
          return ((key, j) :: es, rest)
        | '}' :: rest => return ([(key, j)], rest)
        | _ => none
      | _ => none
    | _ => none

end

def escaped (c : Char) : String :=
  if c = '"' then "\\\""
  else if c = '\\' then "\\\\"
  else if c = '\n' then "\\n"
  else if c = '\r' then "\\r"
  else if c = '\t' then "\\t"
  else if c.toNat < 32 then
    let ds := Nat.toDigits 16 c.toNat
    "\\u" ++ String.ofList (List.replicate (4 - ds.length) '0' ++ ds)
  else String.singleton c

def string (s : String) : String := "\"" ++ String.join (s.toList.map escaped) ++ "\""

end Text

/-- The value a document holds. -/
def parse (s : String) : Option Json := do
  let cs := s.toList
  let (j, rest) ← Text.value (cs.length + 1) cs
  if Text.skip rest = [] then return j else none

mutual

/-- A document without spaces. -/
def render : Json → String
  | .null => "null"
  | .bool true => "true"
  | .bool false => "false"
  | .number (.whole n) => Int.repr n
  | .number (.real bits) => Binary64.text bits
  | .string s => Text.string s
  | .array js => "[" ++ renderItems js ++ "]"
  | .object es => "\x7b" ++ renderEntries es ++ "\x7d"

def renderItems : List Json → String
  | [] => ""
  | [j] => render j
  | j :: js => render j ++ "," ++ renderItems js

def renderEntries : List (String × Json) → String
  | [] => ""
  | [(k, j)] => Text.string k ++ ":" ++ render j
  | (k, j) :: es => Text.string k ++ ":" ++ render j ++ "," ++ renderEntries es

end

end Federation.Json
