import Federation.Text.Hex

/-!
The AES block cipher with keys of 256 bits. A byte is a polynomial of degree below eight over the
field of two elements, modulo `x^8 + x^4 + x^3 + x + 1`; a block is sixteen bytes, column by column.
-/
namespace Federation

/-- Byte strings of a fixed length. -/
structure Octets (n : Nat) where
  bytes : Bytes
  length_bytes : bytes.length = n
  deriving DecidableEq, Repr

def Octets.ofBytes? (n : Nat) (bs : Bytes) : Option (Octets n) :=
  if h : bs.length = n then some ⟨bs, h⟩ else none

namespace Aes

/-- Multiplication by `x`. -/
def xtime (b : UInt8) : UInt8 :=
  if b.toNat < 128 then b <<< 1 else (b <<< 1) ^^^ 0x1b

/-- The product of two bytes, over the lowest `n` bits of the first. -/
def mulBits : Nat → UInt8 → UInt8 → UInt8
  | 0, _, _ => 0
  | n + 1, a, b => (if a % 2 = 1 then b else 0) ^^^ mulBits n (a >>> 1) (xtime b)

def mul (a b : UInt8) : UInt8 := mulBits 8 a b

/-- The inverse of a byte is its power 254, and zero is its own. -/
def inverse (b : UInt8) : UInt8 :=
  let b2 := mul b b
  let b4 := mul b2 b2
  let b8 := mul b4 b4
  let b16 := mul b8 b8
  let b32 := mul b16 b16
  let b64 := mul b32 b32
  let b128 := mul b64 b64
  mul b2 (mul b4 (mul b8 (mul b16 (mul b32 (mul b64 b128)))))

def rotateLeft (b : UInt8) (n : UInt8) : UInt8 := (b <<< n) ||| (b >>> (8 - n))

def substitute (b : UInt8) : UInt8 :=
  let i := inverse b
  i ^^^ rotateLeft i 1 ^^^ rotateLeft i 2 ^^^ rotateLeft i 3 ^^^ rotateLeft i 4 ^^^ 0x63

/-- The substitution of every byte. -/
def substitutions : Array UInt8 := ((List.range 256).map fun n => substitute n.toUInt8).toArray

def sbox (b : UInt8) : UInt8 := substitutions.getD b.toNat 0

def xorBytes (a b : Bytes) : Bytes := List.zipWith (· ^^^ ·) a b

/-- Row `r` moves `r` columns to the left. -/
def shiftRows (s : Bytes) : Bytes :=
  (List.range 16).map fun i => s.getD (i % 4 + 4 * ((i / 4 + i % 4) % 4)) 0

def mixColumn (a b c d : UInt8) : Bytes :=
  [xtime a ^^^ xtime b ^^^ b ^^^ c ^^^ d, a ^^^ xtime b ^^^ xtime c ^^^ c ^^^ d,
    a ^^^ b ^^^ xtime c ^^^ xtime d ^^^ d, xtime a ^^^ a ^^^ b ^^^ c ^^^ xtime d]

def mixColumns : Bytes → Bytes
  | a :: b :: c :: d :: rest => mixColumn a b c d ++ mixColumns rest
  | _ => []

/-- The constant of the `i`-th round of key expansion. -/
def roundConstant : Nat → UInt8
  | 0 => 1
  | i + 1 => xtime (roundConstant i)

/-- Word `i` of the expanded key, of four bytes, from those before it. -/
def nextWord (words : Array Bytes) (i : Nat) : Bytes :=
  let last := words.getD (i - 1) []
  let turned :=
    if i % 8 = 0 then
      xorBytes ((last.drop 1 ++ last.take 1).map sbox) [roundConstant (i / 8 - 1), 0, 0, 0]
    else if i % 8 = 4 then last.map sbox
    else last
  xorBytes (words.getD (i - 8) []) turned

/-- The sixty words of the expanded key. -/
def expand (key : Octets 32) : Array Bytes :=
  let start := ((List.range 8).map fun i => (key.bytes.drop (4 * i)).take 4).toArray
  (List.range 52).foldl (fun words i => words.push (nextWord words (i + 8))) start

def roundKey (words : Array Bytes) (round : Nat) : Bytes :=
  (List.range 4).flatMap fun i => words.getD (4 * round + i) []

def rounds (words : Array Bytes) (s : Bytes) : Bytes :=
  let s := xorBytes s (roundKey words 0)
  let s := (List.range 13).foldl
    (fun s i => xorBytes (mixColumns (shiftRows (s.map sbox))) (roundKey words (i + 1))) s
  xorBytes (shiftRows (s.map sbox)) (roundKey words 14)

/-- The cipher under one key. -/
def encryptBlock (key : Octets 32) : Bytes → Bytes :=
  let words := expand key
  fun block => rounds words block

/-- The standard's example for keys of this length. -/
example : (do
    let key ← Hex.decode? "000102030405060708090a0b0c0d0e0f101112131415161718191a1b1c1d1e1f"
    let block ← Hex.decode? "00112233445566778899aabbccddeeff"
    return Hex.encode (encryptBlock (← Octets.ofBytes? 32 key) block)) =
      some "8ea2b7ca516745bfeafc49904b496089" := by
  decide +kernel

end Aes
end Federation
