/-!
What can go wrong with secrets and their keys.
-/
namespace Federation

inductive CipherError where
  | unknownKey (id : String)
  | encryptFailed
  | decryptFailed
  | invalidKey (id : String)
  | missingValue
  | algorithmMismatch (expected actual : String)
  | keyTaken (id : String)
  deriving DecidableEq, Repr

def CipherError.message : CipherError → String
  | .unknownKey id => "unknown key id: " ++ id
  | .encryptFailed => "encryption failed"
  | .decryptFailed => "decryption failed"
  | .invalidKey id => "invalid key material for key " ++ id
  | .missingValue => "no encrypted value present"
  | .algorithmMismatch expected actual =>
    "algorithm mismatch: value uses " ++ actual ++ ", expected " ++ expected
  | .keyTaken id => "key storage: key " ++ id ++ " already exists"

end Federation
