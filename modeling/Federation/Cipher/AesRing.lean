import Federation.Cipher.Basic
import Federation.Cipher.Gcm
import Federation.Cipher.Key

/-!
AES-256 in Galois counter mode over a ring of named keys. A ciphertext is the nonce followed by the
sealed text.
-/
namespace Federation

structure AesRing where
  encryptionKeyId : String
  keys : KeyStore

namespace AesRing

def algorithmName : String := "aes-256-gcm"

/-- Reads keys in order; the first that is missing is reported. -/
def load (store : KeyStore) : List String → KeyStore → Except CipherError KeyStore
  | [], ring => .ok ring
  | id :: ids, ring => do
    let k ← store.read id
    load store ids (ring.put k)

def ofConfig (config : KeyChoice) (store : KeyStore) : Except CipherError AesRing := do
  let keys ← load store config.ids {}
  return ⟨config.encryptionKeyId, keys⟩

/-- Provides the key to encrypt with if need be and loads the ring. A key that was provided stays in
the store even where another one is missing. -/
def prepare (config : KeyChoice) (store : KeyStore) (fresh : Octets 32) :
    Except CipherError AesRing × KeyStore :=
  match store.ensure config fresh with
  | .error e => (.error e, store)
  | .ok store => (ofConfig config store, store)

def nonceBytes : Nat := 12

def encrypt (ring : AesRing) (nonce : Nonce) (text : Bytes) : Except CipherError Bytes := do
  let key ← ring.keys.read ring.encryptionKeyId
  match Gcm.seal? key.material nonce text with
  | some s => return nonce.bytes ++ s
  | none => throw .encryptFailed

def decrypt (ring : AesRing) (bs : Bytes) (id : String) : Except CipherError Bytes :=
  match Octets.ofBytes? nonceBytes (bs.take nonceBytes) with
  | none => .error .decryptFailed
  | some nonce => do
    let key ← ring.keys.read id
    match Gcm.open? key.material nonce (bs.drop nonceBytes) with
    | some text => return text
    | none => throw .decryptFailed

def cipher (ring : AesRing) : Cipher where
  name := algorithmName
  encryptionKeyId := ring.encryptionKeyId
  decryptionKeyIds := ring.keys.ids
  encrypt := ring.encrypt
  decrypt := ring.decrypt

/-- How a ring is shown in diagnostics: its ids alone. -/
def shown (ring : AesRing) : String :=
  "AesCrypto \x7b encryption_key_id: " ++ Text.quoted ring.encryptionKeyId ++ ", keys: ["
    ++ ", ".intercalate (ring.keys.ids.map Text.quoted) ++ "] \x7d"

end AesRing
end Federation
