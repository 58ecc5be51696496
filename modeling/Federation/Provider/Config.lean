import Federation.Cipher.Basic
import Federation.Error
import Federation.Provider.Event

/-!
Desired configurations of providers, and the event that a new provider starts with.
-/
namespace Federation

namespace Settings

/-- The first rule of the kind with an empty field. -/
def brokenRule? (s : Settings S k) : Option Rule :=
  k.rules.find? fun r => r.fields.any fun f => f.isEmpty (s.get f)

def validate (s : Settings S k) : Except Refusal Unit :=
  match s.brokenRule? with
  | some r => .error (.empty r.label)
  | none => .ok ()

/-- The settings with their secret encrypted; it must not be blank. -/
def encrypted (cipher : Cipher) (nonce : Nonce) (s : Settings String k) :
    Except Error (Settings Sealed k) :=
  if h : k.hasSecret = true then
    if Text.isBlank (s.secret h) then .error (.refused (.empty k.secretLabel))
    else (Error.ofCipher (cipher.protectText nonce (s.secret h))).map fun v => ⟨s.plain, fun _ => v⟩
  else .ok ⟨s.plain, fun h' => absurd h' h⟩

end Settings

/-- What a provider of some kind should be. -/
structure Config where
  kind : Kind
  settings : Settings String kind

namespace Config

def variants : List (String × Kind) := Kind.all.map fun k => (k.name, k)

/-- The key that names the kind. -/
def kindKey : String := "type"

def ofKind (k : Kind) (j : Json) : Except Json.Fault Config :=
  ((Settings.desiredLayout k).decode .buffered j).map fun s => ⟨k, s⟩

/-- An object that names its kind, or an array that begins with it. -/
def reader : Json.Reader Config
  | o, .object entries =>
    match entries.lookup kindKey with
    | none => .error (.missing kindKey)
    | some j => do
      let k ← Json.Reader.variantName variants o j
      ofKind k (.object (entries.filter fun e => e.1 ≠ kindKey))
  | _, .array [] => .error (.missing kindKey)
  | o, .array (j :: js) => do
    let k ← Json.Reader.variantName variants o j
    ofKind k (.array js)
  | _, j => .error (.wrongType j (.tagged "IdpConfig"))

def validate (c : Config) : Except Error Unit := c.settings.validate.mapError .refused

/-- The event that a provider of this configuration starts with. -/
def addedDraft (cipher : Cipher) (nonce : Nonce) (c : Config) (stream : EventStream) :
    Except Error Draft := do
  let s ← c.settings.encrypted cipher nonce
  Error.ofFault ((Event.added c.kind stream.id s).draft stream)

end Config

/-- What an OpenID Connect provider should be turned into. -/
structure Migration where
  target : Target
  settings : Settings String target.kind

namespace Migration

def ofConfig? : Config → Option Migration
  | ⟨.azureAd, s⟩ => some ⟨.azureAd, s⟩
  | ⟨.google, s⟩ => some ⟨.google, s⟩
  | _ => none

def validate (m : Migration) : Except Error Unit := m.settings.validate.mapError .refused

def draft (cipher : Cipher) (nonce : Nonce) (m : Migration) (stream : EventStream) :
    Except Error Draft := do
  let s ← m.settings.encrypted cipher nonce
  Error.ofFault ((Event.migrated m.target stream.id s).draft stream)

end Migration
end Federation
