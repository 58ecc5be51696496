import Federation.Text.Utf8

/-!
Bytes as text in base 64: the standard alphabet, padding required, and no bits beyond the last
byte. Three bytes make four symbols, so a text is read four symbols at a time, and only its last
group may be short of bytes.
-/
namespace Federation.Base64

/-- The alphabet in the order of its values. -/
def alphabet : String := "ABCDEFGHIJKLMNOPQRSTUVWXYZabcdefghijklmnopqrstuvwxyz0123456789+/"

def symbol (v : Nat) : Char := alphabet.toList.getD v 'A'

/-- The value of a symbol, given by its byte. -/
def value? (b : UInt8) : Option Nat :=
  let n := b.toNat
  if 65 ≤ n ∧ n ≤ 90 then some (n - 65)
  else if 97 ≤ n ∧ n ≤ 122 then some (n - 71)
  else if 48 ≤ n ∧ n ≤ 57 then some (n + 4)
  else if n = 43 then some 62
  else if n = 47 then some 63
  else none

/-- The byte of the padding sign. -/
def pad : UInt8 := 61

inductive Fault where
  | symbol (byte : UInt8) (offset : Nat)
  | lastSymbol (byte : UInt8) (offset : Nat)
  | length (n : Nat)
  | padding
  deriving DecidableEq, Repr

def Fault.message : Fault → String
  | .symbol b i => "Invalid symbol " ++ Nat.repr b.toNat ++ ", offset " ++ Nat.repr i ++ "."
  | .lastSymbol b i =>
    "Invalid last symbol " ++ Nat.repr b.toNat ++ ", offset " ++ Nat.repr i ++ "."
  | .length n => "Invalid input length: " ++ Nat.repr n
  | .padding => "Invalid padding"

def encodeChars : Bytes → List Char
  | [] => []
  | [a] =>
    let n := a.toNat * 65536
    [symbol (n / 262144), symbol (n / 4096 % 64), '=', '=']
  | [a, b] =>
    let n := a.toNat * 65536 + b.toNat * 256
    [symbol (n / 262144), symbol (n / 4096 % 64), symbol (n / 64 % 64), '=']
  | a :: b :: c :: rest =>
    let n := a.toNat * 65536 + b.toNat * 256 + c.toNat
    symbol (n / 262144) :: symbol (n / 4096 % 64) :: symbol (n / 64 % 64) :: symbol (n % 64)
      :: encodeChars rest

def encode (bs : Bytes) : String := String.ofList (encodeChars bs)

/-- The three bytes of four values. -/
def group (a b c d : Nat) : Bytes :=
  let n := a * 262144 + b * 4096 + c * 64 + d
  [(n / 65536).toUInt8, (n / 256).toUInt8, n.toUInt8]

def valueAt (offset : Nat) (b : UInt8) : Except Fault Nat :=
  match value? b with
  | some v => .ok v
  | none => .error (.symbol b offset)

/-- The values of symbols, from `offset` on. -/
def valuesAt (offset : Nat) : Bytes → Except Fault (List Nat)
  | [] => .ok []
  | b :: bs => do
    let v ← valueAt offset b
    let vs ← valuesAt (offset + 1) bs
    return v :: vs

/-- The padding of a group that has `count` symbols: it follows two or three symbols, runs to the
end, and fills the group. -/
def checkPadding (offset count : Nat) (padding : Bytes) : Except Fault Unit :=
  if padding ≠ [] ∧ (count < 2 ∨ padding.any (· ≠ pad)) then .error (.symbol pad (offset + count))
  else if count < 2 then .error (.length (offset + count))
  else if count + padding.length ≠ 4 then .error .padding
  else .ok ()

/-- The last group, of one to four bytes. -/
def decodeLast (offset : Nat) (bs : Bytes) : Except Fault Bytes := do
  let symbols := bs.takeWhile (· ≠ pad)
  let values ← valuesAt offset symbols
  checkPadding offset symbols.length (bs.dropWhile (· ≠ pad))
  match values with
  | [a, b, c, d] => return group a b c d
  | [a, b, c] =>
    if c % 4 = 0 then return (group a b c 0).take 2
    else throw (.lastSymbol (symbols.getLastD pad) (offset + 2))
  | [a, b] =>
    if b % 16 = 0 then return (group a b 0 0).take 1
    else throw (.lastSymbol (symbols.getLastD pad) (offset + 1))
  | _ => throw .padding

def decodeGroups (offset : Nat) : Bytes → Except Fault Bytes
  | [] => .ok []
  | a :: b :: c :: d :: e :: rest => do
    let a ← valueAt offset a
    let b ← valueAt (offset + 1) b
    let c ← valueAt (offset + 2) c
    let d ← valueAt (offset + 3) d
    let tail ← decodeGroups (offset + 4) (e :: rest)
    return group a b c d ++ tail
  | last => decodeLast offset last

/-- A single byte left over after the last full group, if it is no symbol, is reported before
anything else. -/
def strayByte? (bs : Bytes) : Option Fault :=
  match bs.getLast? with
  | some b => if bs.length % 4 = 1 ∧ b ≠ pad ∧ value? b = none then
      some (.symbol b (bs.length - 1)) else none
  | none => none

def decodeBytes (bs : Bytes) : Except Fault Bytes :=
  match strayByte? bs with
  | some f => .error f
  | none => decodeGroups 0 bs

def decode (s : String) : Except Fault Bytes := decodeBytes (Text.utf8 s)

example : encode [0, 1, 2, 255] = "AAEC/w==" := by decide
example : (decode "AAEC/w==").toOption = some [0, 1, 2, 255] := by decide

end Federation.Base64
