import Federation.Cipher.Aes
import Federation.Cipher.Error
import Federation.Cipher.Sealed

/-!
Symmetric ciphers over a catalogue of named keys, and the stored values they make and read.
-/
namespace Federation

/-- Ninety-six bits, drawn afresh for every encryption. -/
abbrev Nonce := Octets 12

/-- The nonce that writes a number with its least significant byte first. -/
def Nonce.ofNat (n : Nat) : Nonce :=
  ⟨(List.range 12).map fun i => (n / Nat.pow 256 i % 256).toUInt8, by simp⟩

/-- A cipher encrypts under one key of its catalogue and decrypts under any. -/
structure Cipher where
  name : String
  encryptionKeyId : String
  decryptionKeyIds : List String
  encrypt : Nonce → Bytes → Except CipherError Bytes
  decrypt : Bytes → String → Except CipherError Bytes

namespace Cipher

/-- Encrypts bytes into a value that can be stored. -/
def protect (cipher : Cipher) (nonce : Nonce) (text : Bytes) : Except CipherError Sealed := do
  let crypted ← cipher.encrypt nonce text
  return ⟨.encryption, cipher.name, cipher.encryptionKeyId, crypted⟩

def protectText (cipher : Cipher) (nonce : Nonce) (s : String) : Except CipherError Sealed :=
  cipher.protect nonce (Text.utf8 s)

/-- Decrypts a stored value that names this cipher and a key of its catalogue. -/
def reveal (cipher : Cipher) (v : Sealed) : Except CipherError Bytes :=
  if v.algorithm ≠ cipher.name then .error (.algorithmMismatch cipher.name v.algorithm)
  else if v.keyId ∉ cipher.decryptionKeyIds then .error (.unknownKey v.keyId)
  else cipher.decrypt v.crypted v.keyId

/-- A stored value that holds text. -/
def revealText (cipher : Cipher) (v : Sealed) : Except CipherError String := do
  let bs ← cipher.reveal v
  match Text.ofUtf8? bs with
  | some s => return s
  | none => throw .decryptFailed

end Cipher

/-- A secret in the clear, shown in diagnostics as asterisks only. -/
structure Secret where
  expose : String
  deriving DecidableEq

def Secret.shown (_ : Secret) : String := "SecretString(***)"

end Federation
