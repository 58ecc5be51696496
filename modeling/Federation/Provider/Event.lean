import Federation.Log.Entry
import Federation.Provider.Layout

/-!
The events in the life of a provider, under their tags, and their payloads.

Each kind has events of its own for a provider that is added or changed. The first providers were
recorded otherwise: events of one form for every protocol, and further ones for what is particular
to a protocol. Such histories are still read.
-/
namespace Federation

open Json (Schema Layout Fault)

/-- What an OpenID Connect provider can be turned into. -/
inductive Target where
  | azureAd | google
  deriving DecidableEq, Repr

def Target.kind : Target → Kind
  | .azureAd => .azureAd
  | .google => .google

/-- The protocol that an early event names. -/
inductive Protocol where
  | oidc | saml | jwt
  deriving DecidableEq, Repr

namespace Protocol

def variants : List (String × Protocol) := [("oidc", .oidc), ("saml", .saml), ("jwt", .jwt)]

def reader : Json.Reader Protocol := .variant variants

def name : Protocol → String
  | .oidc => "oidc"
  | .saml => "saml"
  | .jwt => "jwt"

/-- The kind of the providers of a protocol; there is none for SAML. -/
def kind? : Protocol → Option Kind
  | .oidc => some .oidc
  | .saml => none
  | .jwt => some .jwt

end Protocol

inductive Event where
  | added (k : Kind) (id : String) (settings : Settings Sealed k)
  | changed (k : Kind) (id : String) (revision : Revision Sealed k)
  | migrated (t : Target) (id : String) (settings : Settings Sealed t.kind)
  | removed (id : String)
  | configAdded (id name : String) (protocol : Protocol) (autoRegister : Bool)
  | configChanged (id : String) (name : Option String) (autoRegister : Option Bool)
  | configRemoved (id : String)
  | oidcConfigAdded (id clientId : String) (secret : Option Sealed) (issuer : String)
      (scopes : List String)
  | oidcConfigChanged (id : String) (clientId : Option String) (secret : Option Sealed)
      (issuer : Option String) (scopes : Option (List String))
  | jwtConfigAdded (id jwtEndpoint issuer keysEndpoint headerName : String)
  | jwtConfigChanged (id : String) (jwtEndpoint issuer keysEndpoint headerName : Option String)

inductive Tag where
  | added (k : Kind) | changed (k : Kind) | migrated (t : Target) | removed
  | configAdded | configChanged | configRemoved
  | oidcConfigAdded | oidcConfigChanged | jwtConfigAdded | jwtConfigChanged
  deriving DecidableEq, Repr

namespace Tag

def name : Tag → String
  | .added k => "idp." ++ k.tagPart ++ ".added"
  | .changed k => "idp." ++ k.tagPart ++ ".changed"
  | .migrated .azureAd => "idp.oidc.migrated.azure"
  | .migrated .google => "idp.oidc.migrated.google"
  | .removed => "idp.removed"
  | .configAdded => "idp.config.added"
  | .configChanged => "idp.config.changed"
  | .configRemoved => "idp.config.removed"
  | .oidcConfigAdded => "idp.oidc.config.added"
  | .oidcConfigChanged => "idp.oidc.config.changed"
  | .jwtConfigAdded => "idp.jwt.config.added"
  | .jwtConfigChanged => "idp.jwt.config.changed"

/-- The tags of the early events. -/
def early : List Tag := [.configAdded, .configChanged, .configRemoved, .oidcConfigAdded,
  .oidcConfigChanged, .jwtConfigAdded, .jwtConfigChanged]

def all : List Tag :=
  Kind.all.map added ++ Kind.all.map changed ++ [.migrated .azureAd, .migrated .google, .removed]
    ++ early

theorem mem_all (t : Tag) : t ∈ all := by
  rcases t with k | k | t | _ <;> first | decide | (cases k <;> decide) | (cases t <;> decide)

/-- The tag of an event type, if it is one of those given. -/
def find? (tags : List Tag) (type : String) : Option Tag := tags.find? fun t => t.name == type

end Tag

namespace Event

def idSchema : Schema String := .required "id" .text

/-- The key of the id in early events. -/
def earlyIdSchema : Schema String := .required "idpConfigId" .text

def removedLayout : Layout Event := (Layout.ofSchema "IdpRemoved" idSchema).map .removed

def configAddedLayout : Layout Event :=
  .ofSchema "LegacyConfigAdded" (((earlyIdSchema.and (.required "name" .text)).and
    ((Schema.defaulted "type" Protocol.reader .oidc).and
      (.defaulted "autoRegister" .flag false))).map
    fun ((id, name), (protocol, autoRegister)) => .configAdded id name protocol autoRegister)

def configChangedLayout : Layout Event :=
  .ofSchema "LegacyConfigChanged" ((earlyIdSchema.and ((Schema.optional "name" .text).and
    (.optional "autoRegister" .flag))).map
    fun (id, (name, autoRegister)) => .configChanged id name autoRegister)

def configRemovedLayout : Layout Event :=
  (Layout.ofSchema "LegacyConfigRemoved" earlyIdSchema).map .configRemoved

def oidcConfigAddedLayout : Layout Event :=
  .ofSchema "LegacyOidcConfigAdded" ((earlyIdSchema.and
    ((Schema.defaulted "clientId" .text "").and ((Schema.optional "clientSecret"
      Sealed.reader).and ((Schema.defaulted "issuer" .text "").and
        (.defaulted "scopes" (.list .text) []))))).map
    fun (id, (clientId, (secret, (issuer, scopes)))) =>
      .oidcConfigAdded id clientId secret issuer scopes)

def oidcConfigChangedLayout : Layout Event :=
  .ofSchema "LegacyOidcConfigChanged" ((earlyIdSchema.and
    ((Schema.optional "clientId" .text).and ((Schema.optional "clientSecret"
      Sealed.reader).and ((Schema.optional "issuer" .text).and
        (.optional "scopes" (.list .text)))))).map
    fun (id, (clientId, (secret, (issuer, scopes)))) =>
      .oidcConfigChanged id clientId secret issuer scopes)

def jwtConfigAddedLayout : Layout Event :=
  .ofSchema "LegacyJwtConfigAdded" ((earlyIdSchema.and
    ((Schema.defaulted "jwtEndpoint" .text "").and ((Schema.defaulted "issuer" .text "").and
      ((Schema.defaulted "keysEndpoint" .text "").and (.defaulted "headerName" .text ""))))).map
    fun (id, (jwtEndpoint, (issuer, (keysEndpoint, headerName)))) =>
      .jwtConfigAdded id jwtEndpoint issuer keysEndpoint headerName)

def jwtConfigChangedLayout : Layout Event :=
  .ofSchema "LegacyJwtConfigChanged" ((earlyIdSchema.and
    ((Schema.optional "jwtEndpoint" .text).and ((Schema.optional "issuer" .text).and
      ((Schema.optional "keysEndpoint" .text).and (.optional "headerName" .text))))).map
    fun (id, (jwtEndpoint, (issuer, (keysEndpoint, headerName)))) =>
      .jwtConfigChanged id jwtEndpoint issuer keysEndpoint headerName)

/-- The payload of a tag's events. -/
def layout : Tag → Layout Event
  | .added k => (Settings.addedLayout k).map fun (id, s) => .added k id s
  | .changed k => (Revision.layout k).map fun (id, r) => .changed k id r
  | .migrated t =>
    ((Settings.addedLayout t.kind).wrap ("OidcIdpMigrated" ++ t.kind.title)).map
      fun (id, s) => .migrated t id s
  | .removed => removedLayout
  | .configAdded => configAddedLayout
  | .configChanged => configChangedLayout
  | .configRemoved => configRemovedLayout
  | .oidcConfigAdded => oidcConfigAddedLayout
  | .oidcConfigChanged => oidcConfigChangedLayout
  | .jwtConfigAdded => jwtConfigAddedLayout
  | .jwtConfigChanged => jwtConfigChangedLayout

def decode (tag : Tag) (payload : Json) : Except Fault Event :=
  (layout tag).decode .document payload

/-- Reads an event whose type is one of the given tags; there is none otherwise. -/
def recognise (tags : List Tag) (type : String) (payload : Json) : Except Fault (Option Event) :=
  match Tag.find? tags type with
  | none => .ok none
  | some tag => (decode tag payload).map some

def tag : Event → Tag
  | .added k .. => .added k
  | .changed k .. => .changed k
  | .migrated t .. => .migrated t
  | .removed .. => .removed
  | .configAdded .. => .configAdded
  | .configChanged .. => .configChanged
  | .configRemoved .. => .configRemoved
  | .oidcConfigAdded .. => .oidcConfigAdded
  | .oidcConfigChanged .. => .oidcConfigChanged
  | .jwtConfigAdded .. => .jwtConfigAdded
  | .jwtConfigChanged .. => .jwtConfigChanged

/-- The provider that an event names. -/
def id : Event → String
  | .added _ id _ | .changed _ id _ | .migrated _ id _ | .removed id | .configAdded id .. |
    .configChanged id .. | .configRemoved id | .oidcConfigAdded id .. | .oidcConfigChanged id .. |
    .jwtConfigAdded id .. | .jwtConfigChanged id .. => id

/-- An entry for a value that is there. -/
def given (key : String) (f : α → Json) (v : Option α) : Entries :=
  (v.map fun a => (key, f a)).toList

def payload : Event → Except Fault Json
  | .added _ id s => s.addedToJson id
  | .changed _ id r => r.toJson id
  | .migrated _ id s => s.addedToJson id
  | .removed id => .ok (.ofEntries [("id", .string id)])
  | .configAdded id name protocol autoRegister =>
    .ok (.ofEntries [("idpConfigId", .string id), ("name", .string name),
      ("type", .string protocol.name), ("autoRegister", .bool autoRegister)])
  | .configChanged id name autoRegister =>
    .ok (.ofEntries (("idpConfigId", .string id) ::
      (given "name" .string name ++ given "autoRegister" .bool autoRegister)))
  | .configRemoved id => .ok (.ofEntries [("idpConfigId", .string id)])
  | .oidcConfigAdded id clientId secret issuer scopes =>
    .ok (.ofEntries [("idpConfigId", .string id), ("clientId", .string clientId),
      ("clientSecret", (secret.map Sealed.toJson).getD .null), ("issuer", .string issuer),
      ("scopes", .strings scopes)])
  | .oidcConfigChanged id clientId secret issuer scopes =>
    .ok (.ofEntries (("idpConfigId", .string id) ::
      (given "clientId" .string clientId ++ given "clientSecret" Sealed.toJson secret
        ++ given "issuer" .string issuer ++ given "scopes" .strings scopes)))
  | .jwtConfigAdded id jwtEndpoint issuer keysEndpoint headerName =>
    .ok (.ofEntries [("idpConfigId", .string id), ("jwtEndpoint", .string jwtEndpoint),
      ("issuer", .string issuer), ("keysEndpoint", .string keysEndpoint),
      ("headerName", .string headerName)])
  | .jwtConfigChanged id jwtEndpoint issuer keysEndpoint headerName =>
    .ok (.ofEntries (("idpConfigId", .string id) ::
      (given "jwtEndpoint" .string jwtEndpoint ++ given "issuer" .string issuer
        ++ given "keysEndpoint" .string keysEndpoint ++ given "headerName" .string headerName)))

/-- The event as something to append to a stream. -/
def draft (e : Event) (stream : EventStream) : Except Fault Draft :=
  e.payload.map fun j => ⟨stream, e.tag.name, j⟩

end Event
end Federation
