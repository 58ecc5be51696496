import Federation.Log.Fold
import Federation.Provider.Event
import Federation.Provider.Status

/-!
One provider of a known kind, rebuilt from its history. Each event says which settings it writes and
which status it asks for; once a provider is removed nothing changes any more.
-/
namespace Federation

namespace Kind

/-- The events that the histories of a kind are written in, in the order of queries. -/
def tags (k : Kind) : List Tag :=
  match k with
  | .oidc => [.added k, .changed k, .migrated .azureAd, .migrated .google, .removed]
  | .azureAd => [.added k, .migrated .azureAd, .changed k, .removed]
  | .google => [.added k, .migrated .google, .changed k, .removed]
  | _ => [.added k, .changed k, .removed]

/-- The early events in the histories of a kind. -/
def earlyTags : Kind → List Tag
  | .oidc => [.configAdded, .configChanged, .configRemoved, .oidcConfigAdded, .oidcConfigChanged]
  | .jwt => [.configAdded, .configChanged, .configRemoved, .jwtConfigAdded, .jwtConfigChanged]
  | _ => []

def readTags (k : Kind) : List Tag := k.tags ++ k.earlyTags

end Kind

namespace Event

/-- What an event says about the settings of a provider of a kind whose history it is in. The secret
is set to none where an event clears it. -/
def writes (k : Kind) : Event → Revision (Option Sealed) k
  | .added l _ s => if h : l = k then h ▸ (s.map some).toRevision else .empty
  | .changed l _ r => if h : l = k then h ▸ r.map some else .empty
  | .migrated t _ s => if h : t.kind = k then h ▸ (s.map some).toRevision else .empty
  | .removed _ | .configRemoved _ => .empty
  | .configAdded _ name _ autoRegister =>
    (Revision.empty.give .name name).give (.option .autoCreation) autoRegister
  | .configChanged _ name autoRegister =>
    (Revision.empty.giveSome .name name).giveSome (.option .autoCreation) autoRegister
  | .oidcConfigAdded _ clientId secret issuer scopes =>
    (((Revision.empty.give .clientId clientId).giveSecret secret).give .issuer issuer).give
      .scopes scopes
  | .oidcConfigChanged _ clientId secret issuer scopes =>
    (((Revision.empty.giveSome .clientId clientId).giveSomeSecret (secret.map some)).giveSome
      .issuer issuer).giveSome .scopes scopes
  | .jwtConfigAdded _ jwtEndpoint issuer keysEndpoint headerName =>
    (((Revision.empty.give .jwtEndpoint jwtEndpoint).give .issuer issuer).give
      .keysEndpoint keysEndpoint).give .headerName headerName
  | .jwtConfigChanged _ jwtEndpoint issuer keysEndpoint headerName =>
    (((Revision.empty.giveSome .jwtEndpoint jwtEndpoint).giveSome .issuer issuer).giveSome
      .keysEndpoint keysEndpoint).giveSome .headerName headerName

/-- The status that an event asks for in the history of a provider of a kind. An OpenID Connect
provider that is migrated lives on as a provider of another kind. -/
def asks (k : Kind) : Event → Option Status
  | .added .. | .configAdded .. => some .active
  | .migrated t .. => some (if t.kind = k then .active else .migrated)
  | .removed _ | .configRemoved _ => some .removed
  | _ => none

end Event

structure Provider (k : Kind) where
  status : Status := .unspecified
  settings : Settings (Option Sealed) k := .initial none k

namespace Provider

def apply (p : Provider k) (e : Event) : Provider k :=
  if p.status = .removed then p
  else
    { status := ((e.asks k).map p.status.transition).getD p.status
      settings := p.settings.revise (e.writes k) }

def fold (k : Kind) : Fold (Provider k) Event where
  recognise e := Event.recognise k.readTags e.type e.payload
  apply p _ e := p.apply e

theorem apply_of_removed {p : Provider k} (h : p.status = .removed) (e : Event) : p.apply e = p :=
  if_pos h

end Provider
end Federation
