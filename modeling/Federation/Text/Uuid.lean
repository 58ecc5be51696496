import Federation.Text.Hex

/-!
Universally unique identifiers and their text: thirty-two hexadecimal digits, plain or in groups
of 8, 4, 4, 4 and 12, the grouped form also in braces or after `urn:uuid:` in letters of either
case. They are written in groups and in lower case.
-/
namespace Federation

structure Uuid where
  value : BitVec 128
  deriving DecidableEq, Repr, Inhabited

namespace Uuid

def ofDigits? (cs : List Char) : Option Uuid :=
  (cs.foldl (fun acc c => acc.bind fun n => (Hex.digit? c).map (n * 16 + ·)) (some 0)).map
    fun n => ⟨BitVec.ofNat 128 n⟩

def digits (u : Uuid) : List Char :=
  let ds := Nat.toDigits 16 u.value.toNat
  List.replicate (32 - ds.length) '0' ++ ds

/-- Cuts digits into the five groups. -/
def groups (cs : List Char) : List (List Char) :=
  [cs.take 8, (cs.drop 8).take 4, (cs.drop 12).take 4, (cs.drop 16).take 4, cs.drop 20]

def text (u : Uuid) : String :=
  "-".intercalate ((groups u.digits).map String.ofList)

inductive Fault where
  | char (c : Char) (offset : Nat)
  | length (n : Nat)
  | groupCount (n : Nat)
  | groupLength (group expected found : Nat)
  deriving DecidableEq, Repr

def Fault.message : Fault → String
  | .char c i => "invalid character: found `" ++ String.singleton c ++ "` at " ++ Nat.repr i
  | .length n => "invalid length: found " ++ Nat.repr n
  | .groupCount n => "invalid group count: expected 5, found " ++ Nat.repr n
  | .groupLength g e f => "invalid group length in group " ++ Nat.repr g ++ ": expected "
      ++ Nat.repr e ++ ", found " ++ Nat.repr f

def byteLength (cs : List Char) : Nat := cs.foldl (fun n c => n + c.utf8Size) 0

/-- The first character that is neither a digit nor a hyphen, with its offset in bytes. -/
def strayChar? (offset : Nat) : List Char → Option Fault
  | [] => none
  | c :: cs =>
    if c = '-' ∨ (Hex.digit? c).isSome then strayChar? (offset + c.utf8Size) cs
    else some (.char c offset)

/-- Offsets of the hyphens. -/
def hyphens (cs : List Char) : List Nat :=
  (cs.zipIdx.filter fun p => p.1 = '-').map Prod.snd

/-- What stands in braces or after `urn:uuid:`, and how much precedes it. -/
def enclosed? (cs : List Char) : Option (List Char × Nat) :=
  if cs.head? = some '{' ∧ cs.getLast? = some '}' ∧ 2 ≤ cs.length then
    some ((cs.drop 1).dropLast, 1)
  else if (cs.take 9).map Char.toLower = "urn:uuid:".toList then some (cs.drop 9, 9)
  else none

/-- The part of a text that should hold the digits. -/
structure Body where
  chars : List Char
  /-- The offset at which it begins. -/
  start : Nat
  /-- May it do without hyphens? -/
  plain : Bool

def plainLength : Nat := 32

def groupedLength : Nat := 36

/-- A text as long as the bare grouped form is that form. Of any other text an enclosure is taken
off, and inside an enclosure of the right length offsets count anew. -/
def body (cs : List Char) : Body :=
  if byteLength cs = groupedLength then ⟨cs, 0, false⟩
  else
    match enclosed? cs with
    | some (inner, before) => ⟨inner, if byteLength inner = groupedLength then 0 else before, false⟩
    | none => ⟨cs, 0, true⟩

/-- The bytes of the longest form. -/
def longest : Nat := 45

/-- Why a text is no identifier. Its last group is taken to be all that four groups before it and
their hyphens leave of the whole text. -/
def fault (cs : List Char) : Fault :=
  let n := byteLength cs
  let b := body cs
  let hs := hyphens b.chars
  if longest < n then .length n
  else
    match strayChar? b.start b.chars with
    | some f => f
    | none =>
      if hs = [] ∧ b.plain then .length n
      else if hs.length ≠ 4 then .groupCount (hs.length + 1)
      else
        match (hs.zip [8, 13, 18, 23]).zipIdx.find? fun p => p.1.1 ≠ p.1.2 with
        | some ((h, e), i) =>
          .groupLength i ([8, 4, 4, 4].getD i 0) (h - (e - [8, 4, 4, 4].getD i 0))
        | none => .groupLength 4 12 (n - 24)

def ofText (s : String) : Except Fault Uuid :=
  let cs := s.toList
  let b := body cs
  let read :=
    if b.plain ∧ b.chars.length = plainLength then ofDigits? b.chars
    else if b.chars.length = groupedLength ∧ hyphens b.chars = [8, 13, 18, 23] then
      ofDigits? (b.chars.filter (· ≠ '-'))
    else none
  match read with
  | some u => .ok u
  | none => .error (fault cs)

end Uuid
end Federation
