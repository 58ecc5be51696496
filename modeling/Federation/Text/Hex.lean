import Federation.Text.Utf8

/-!
Bytes as hexadecimal digits, two for each byte. Digits are written in lower case and read in either.
-/
namespace Federation.Hex

def digit? (c : Char) : Option Nat :=
  if '0' ≤ c ∧ c ≤ '9' then some (c.toNat - 48)
  else if 'a' ≤ c ∧ c ≤ 'f' then some (c.toNat - 87)
  else if 'A' ≤ c ∧ c ≤ 'F' then some (c.toNat - 55)
  else none

def decodeChars? : List Char → Option Bytes
  | [] => some []
  | [_] => none
  | a :: b :: cs => do
    let x ← digit? a
    let y ← digit? b
    let rest ← decodeChars? cs
    return (x * 16 + y).toUInt8 :: rest

def decode? (s : String) : Option Bytes := decodeChars? s.toList

def encodeChars (bs : Bytes) : List Char :=
  bs.flatMap fun b => [Nat.digitChar (b.toNat / 16), Nat.digitChar (b.toNat % 16)]

def encode (bs : Bytes) : String := String.ofList (encodeChars bs)

end Federation.Hex
