import Federation.Cipher.Aes

/-!
Sealing with AES-256 in Galois counter mode, without associated data: the text is hidden by a
keystream of encrypted counters, and sixteen bytes of authentication follow it.
-/
namespace Federation.Gcm

abbrev Block := BitVec 128

/-- The first sixteen bytes as one number, the first most significant; missing bytes are zero. -/
def block (bs : Bytes) : Block :=
  (List.range 16).foldl (fun b i => (b <<< 8) ||| BitVec.ofNat 128 (bs.getD i 0).toNat) 0

def unblock (b : Block) : Bytes :=
  (List.range 16).map fun i => (b >>> (8 * (15 - i))).toNat.toUInt8

/-- Blocks of sixteen bytes; the last may be shorter. -/
def blocks : Nat → Bytes → List Bytes
  | 0, _ => []
  | n + 1, bs => bs.take 16 :: blocks n (bs.drop 16)

def blocksOf (bs : Bytes) : List Bytes := blocks ((bs.length + 15) / 16) bs

/-- Division by the polynomial modulus after a shift. -/
def reduction : Block := 0xe1#128 <<< 120

/-- The product in the field of blocks, over the highest `n` bits of the first factor. -/
def mulBits : Nat → Block → Block → Block
  | 0, _, _ => 0
  | n + 1, x, v =>
    (if x.msb then v else 0) ^^^
      mulBits n (x <<< 1) (if v.getLsbD 0 then (v >>> 1) ^^^ reduction else v >>> 1)

def mul (x y : Block) : Block := mulBits 128 x y

def hash (h : Block) (bs : List Block) : Block := bs.foldl (fun y b => mul (y ^^^ b) h) 0

/-- Four hidden blocks and their length, from the standard's examples. -/
example : hash 0xacbef20579b4b8ebce889bac8732dad7 [0x522dc1f099567d07f47f37a32a84427d,
    0x643a8cdcbfe5c0c97598a2bd2555d1aa, 0x8cb08e48590dbb3da7b08b1056828838,
    0xc5f61e6393ba7a0abcc9f662898015ad, 512] = 0x4db870d37cb75fcb46097c36230d1612 := by
  decide +kernel

/-- The counter block of a nonce, starting at `n`. -/
def counter (nonce : Octets 12) (n : Nat) : Bytes :=
  let n := n % UInt32.size
  nonce.bytes ++ [(n / 0x1000000).toUInt8, (n / 0x10000).toUInt8, (n / 0x100).toUInt8, n.toUInt8]

/-- `n` blocks of keystream from the counter `start` on. -/
def keystream (cipher : Bytes → Bytes) (nonce : Octets 12) (start : Nat) : Nat → Bytes
  | 0 => []
  | n + 1 => cipher (counter nonce start) ++ keystream cipher nonce (start + 1) n

/-- A text under a stream; beyond the stream's end it stays as it is. -/
def mask : Bytes → Bytes → Bytes
  | [], _ => []
  | text, [] => text
  | t :: text, k :: stream => (t ^^^ k) :: mask text stream

@[simp] theorem length_mask (text stream : Bytes) : (mask text stream).length = text.length := by
  fun_induction mask text stream <;> simp_all

theorem mask_mask (text stream : Bytes) : mask (mask text stream) stream = text := by
  fun_induction mask text stream with
  | case1 => rfl
  | case2 t => cases t <;> rfl
  | case3 t text k stream ih =>
    simp only [mask, ih, UInt8.xor_assoc, UInt8.xor_self, UInt8.xor_zero]

/-- Hides or reveals a text. -/
def crypt (cipher : Bytes → Bytes) (nonce : Octets 12) (text : Bytes) : Bytes :=
  mask text (keystream cipher nonce 2 ((text.length + 15) / 16))

@[simp] theorem length_crypt (cipher : Bytes → Bytes) (nonce : Octets 12) (text : Bytes) :
    (crypt cipher nonce text).length = text.length := length_mask _ _

theorem crypt_crypt (cipher : Bytes → Bytes) (nonce : Octets 12) (text : Bytes) :
    crypt cipher nonce (crypt cipher nonce text) = text := by
  unfold crypt
  rw [length_mask, mask_mask]

def tagBytes : Nat := 16

/-- The authentication of a hidden text. -/
def tag (cipher : Bytes → Bytes) (nonce : Octets 12) (hidden : Bytes) : Bytes :=
  let h := block (cipher (List.replicate 16 0))
  let lengths : Block := BitVec.ofNat 128 (8 * hidden.length)
  let s := hash h ((blocksOf hidden).map block ++ [lengths])
  unblock (s ^^^ block (cipher (counter nonce 1)))

/-- The longest text that can be sealed. -/
def maxText : Nat := 0x1000000000

/-- Texts beyond the limit are refused. -/
def seal? (key : Octets 32) (nonce : Octets 12) (text : Bytes) : Option Bytes :=
  if text.length ≤ maxText then
    let cipher := Aes.encryptBlock key
    let hidden := crypt cipher nonce text
    some (hidden ++ tag cipher nonce hidden)
  else none

/-- The text of a sealing; anything else is refused. -/
def open? (key : Octets 32) (nonce : Octets 12) (bs : Bytes) : Option Bytes :=
  if bs.length < tagBytes then none
  else
    let cipher := Aes.encryptBlock key
    let hidden := bs.take (bs.length - tagBytes)
    if hidden.length ≤ maxText + tagBytes ∧
        bs.drop (bs.length - tagBytes) = tag cipher nonce hidden then
      some (crypt cipher nonce hidden)
    else none

end Federation.Gcm
