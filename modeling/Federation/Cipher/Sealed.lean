import Federation.Json.Read

/-!
Encrypted values as events carry them: the ciphertext with the names of the algorithm and the key
that made it.
-/
namespace Federation

inductive Protection where
  | encryption | hash
  deriving DecidableEq, Repr

structure Sealed where
  kind : Protection
  algorithm : String
  keyId : String
  crypted : Bytes
  deriving DecidableEq, Repr

namespace Protection

def variants : List (String × Protection) := [("encryption", .encryption), ("hash", .hash)]

def reader : Json.Reader Protection := .variant variants

def name : Protection → String
  | .encryption => "encryption"
  | .hash => "hash"

end Protection

namespace Sealed

/-- Bytes as text in base 64. -/
def bytesReader : Json.Reader Bytes := fun o j => do
  let s ← Json.Reader.text o j
  match Base64.decode s with
  | .ok bs => return bs
  | .error f => throw (.base64 f)

def schema : Json.Schema Sealed :=
  (((Json.Schema.required "cryptoType" Protection.reader).and
    (Json.Schema.required "algorithm" .text)).and
    ((Json.Schema.required "keyId" .text).and
      (Json.Schema.required "crypted" bytesReader))).map
    fun ((kind, algorithm), (keyId, crypted)) => ⟨kind, algorithm, keyId, crypted⟩

def layout : Json.Layout Sealed := .ofSchema "CryptoValue" schema

def reader : Json.Reader Sealed := layout.decode

def toJson (v : Sealed) : Json :=
  .ofEntries [("cryptoType", .string v.kind.name), ("algorithm", .string v.algorithm),
    ("keyId", .string v.keyId), ("crypted", .string (Base64.encode v.crypted))]

/-- How a value is shown in diagnostics, where its bytes do not appear. -/
def shown (v : Sealed) : String :=
  "CryptoValue \x7b crypto_type: "
    ++ (match v.kind with | .encryption => "Encryption" | .hash => "Hash")
    ++ ", algorithm: " ++ Text.quoted v.algorithm ++ ", key_id: " ++ Text.quoted v.keyId
    ++ ", crypted: [" ++ Nat.repr v.crypted.length ++ " bytes] \x7d"

end Sealed
end Federation
