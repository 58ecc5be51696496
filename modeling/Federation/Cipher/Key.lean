import Federation.Cipher.Aes
import Federation.Cipher.Error
import Federation.Json.Read

/-!
Named keys, where they are kept, and which of them a cipher is to use.
-/
namespace Federation

structure Key where
  id : String
  material : Octets 32
  deriving DecidableEq, Repr

namespace Key

/-- Raw material makes a key only if it has thirty-two bytes. -/
def ofBytes (id : String) (bs : Bytes) : Except CipherError Key :=
  match Octets.ofBytes? 32 bs with
  | some m => .ok ⟨id, m⟩
  | none => .error (.invalidKey id)

/-- How a key is shown in diagnostics. -/
def shown (k : Key) : String := "Key \x7b id: " ++ Text.quoted k.id ++ ", .. \x7d"

end Key

/-- Which keys a cipher encrypts with and accepts. -/
structure KeyChoice where
  encryptionKeyId : String := ""
  decryptionKeyIds : List String := []
  deriving DecidableEq, Repr

namespace KeyChoice

def schema : Json.Schema KeyChoice :=
  ((Json.Schema.defaulted "encryptionKeyId" .text "").and
    (Json.Schema.defaulted "decryptionKeyIds" (.list .text) [])).map
    fun (e, ds) => ⟨e, ds⟩

def reader : Json.Reader KeyChoice := (Json.Layout.ofSchema "KeyConfig" schema).decode

/-- The keys to load, the one to encrypt with last. -/
def ids (c : KeyChoice) : List String := c.decryptionKeyIds ++ [c.encryptionKeyId]

end KeyChoice

/-- A store of keys, at most one for an id. -/
structure KeyStore where
  keys : List Key := []
  deriving DecidableEq, Repr

namespace KeyStore

def find? (s : KeyStore) (id : String) : Option Key := s.keys.find? fun k => k.id = id

/-- A key takes the place of an earlier one of its id. -/
def put (s : KeyStore) (k : Key) : KeyStore := ⟨k :: s.keys.filter fun l => l.id ≠ k.id⟩

theorem find?_put (s : KeyStore) (k : Key) (id : String) :
    (s.put k).find? id = if k.id = id then some k else s.find? id := by
  by_cases h : k.id = id
  · simp [put, find?, h]
  · simp only [put, find?, List.find?_cons, h, decide_false, List.find?_filter]
    congr
    grind

def ofList (ks : List Key) : KeyStore := ks.foldl put {}

def read (s : KeyStore) (id : String) : Except CipherError Key :=
  match s.find? id with
  | some k => .ok k
  | none => .error (.unknownKey id)

/-- Adds keys, none of whose ids may be stored already. -/
def create (s : KeyStore) (ks : List Key) : Except CipherError KeyStore :=
  match ks.find? fun k => (s.find? k.id).isSome with
  | some k => .error (.keyTaken k.id)
  | none => .ok (ks.foldl put s)

/-- Makes sure that the key to encrypt with exists; `fresh` is the material for a new one. -/
def ensure (s : KeyStore) (config : KeyChoice) (fresh : Octets 32) : Except CipherError KeyStore :=
  match s.find? config.encryptionKeyId with
  | some _ => .ok s
  | none => s.create [⟨config.encryptionKeyId, fresh⟩]

def ids (s : KeyStore) : List String := s.keys.map Key.id

end KeyStore
end Federation
