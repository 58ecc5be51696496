import Federation.Cipher.Basic
import Federation.Error
import Federation.Provider.State

/-!
What a login needs of a provider: the settings of an active one with its secret in the clear, in the
shape that the protocol asks for. Clients are made for use and never stored.
-/
namespace Federation

/-- What a login may do to accounts. -/
structure Permissions where
  creationAllowed : Bool
  linkingAllowed : Bool
  autoCreation : Bool
  autoUpdate : Bool
  deriving DecidableEq, Repr

/-- An application as it is known to a remote service. -/
structure Registration where
  clientId : String
  clientSecret : Secret
  callback : String
  scopes : List String
  deriving DecidableEq

structure Endpoints where
  authorization : String
  token : String
  user : String
  deriving DecidableEq, Repr

structure OpenIdClient where
  registration : Registration
  issuer : String
  /-- Is the user asked to choose an account on every login? -/
  selectAccount : Bool
  /-- Is the user read from the identity token? -/
  idTokenMapping : Bool
  deriving DecidableEq

structure LdapClient where
  servers : List String
  startTls : Bool
  baseDn : String
  bindDn : String
  bindPassword : Secret
  userBase : String
  userObjectClasses : List String
  userFilters : List String
  timeout : Duration
  callback : String
  /-- Attributes that replace the usual ones. -/
  overrides : List (Attribute × String)
  deriving DecidableEq

inductive Connection where
  | oauth (registration : Registration) (endpoints : Endpoints) (idAttribute : String)
  | oidc (client : OpenIdClient)
  | jwt (issuer jwtEndpoint keysEndpoint headerName : String)
  | azureAd (registration : Registration) (tenant : String) (emailVerified : Bool)
  | github (registration : Registration) (endpoints : Endpoints)
  | gitlab (registration : Registration) (issuer : String)
  | google (client : OpenIdClient)
  | ldap (client : LdapClient)
  deriving DecidableEq

structure Client where
  name : String
  permissions : Permissions
  connection : Connection
  deriving DecidableEq

namespace Client

def githubEndpoints : Endpoints where
  authorization := "https://github.com/login/oauth/authorize"
  token := "https://github.com/login/oauth/access_token"
  user := "https://api.github.com/user"

def gitlabIssuer : String := "https://gitlab.com"

def googleIssuer : String := "https://accounts.google.com"

/-- The tenant that stands for all. -/
def commonTenant : String := "common"

/-- The endpoints of a tenant of Azure AD. -/
def azureEndpoints (tenant : String) : Endpoints where
  authorization := "https://login.microsoftonline.com/" ++ tenant ++ "/oauth2/v2.0/authorize"
  token := "https://login.microsoftonline.com/" ++ tenant ++ "/oauth2/v2.0/token"
  user := "https://graph.microsoft.com/v1.0/me"

def orElse (s fallback : String) : String := if s = "" then fallback else s

end Client

/-- The attribute that a field names, if it names one. -/
def LdapClient.override? : (f : Field) → f.Value → Option (Attribute × String)
  | .attribute a, (v : String) => if v = "" then none else some (a, v)
  | _, _ => none

/-- The attributes that are named, in the order of the bundle. -/
def LdapClient.overridesOf (r : Record Field.Value Bundle.attributes.fields) :
    List (Attribute × String) := (r.toList LdapClient.override?).filterMap id

namespace Settings

def permissions (s : Settings S k) : Permissions :=
  let r := s.bundle .options k.mem_options
  ⟨r (.option .creationAllowed) (by decide), r (.option .linkingAllowed) (by decide),
    r (.option .autoCreation) (by decide), r (.option .autoUpdate) (by decide)⟩

/-- How the service of a kind is reached, and under which name if the settings give none. -/
def connection (callback : String) : {k : Kind} → Settings Secret k → Connection
  | .oauth, s =>
    .oauth ⟨s.plain .clientId (by decide), s.secret (by decide), callback,
        s.plain .scopes (by decide)⟩
      ⟨s.plain .authorizationEndpoint (by decide), s.plain .tokenEndpoint (by decide),
        s.plain .userEndpoint (by decide)⟩
      (s.plain .idAttribute (by decide))
  | .oidc, s =>
    .oidc ⟨⟨s.plain .clientId (by decide), s.secret (by decide), callback,
        s.plain .scopes (by decide)⟩,
      s.plain .issuer (by decide), true, s.plain .idTokenMapping (by decide)⟩
  | .jwt, s =>
    .jwt (s.plain .issuer (by decide)) (s.plain .jwtEndpoint (by decide))
      (s.plain .keysEndpoint (by decide)) (s.plain .headerName (by decide))
  | .azureAd, s =>
    .azureAd ⟨s.plain .clientId (by decide), s.secret (by decide), callback,
        s.plain .scopes (by decide)⟩
      (Client.orElse (s.plain .tenant (by decide)) Client.commonTenant)
      (s.plain .emailVerified (by decide))
  | .github, s =>
    .github ⟨s.plain .clientId (by decide), s.secret (by decide), callback,
        s.plain .scopes (by decide)⟩
      Client.githubEndpoints
  | .githubEnterprise, s =>
    .github ⟨s.plain .clientId (by decide), s.secret (by decide), callback,
        s.plain .scopes (by decide)⟩
      ⟨s.plain .authorizationEndpoint (by decide), s.plain .tokenEndpoint (by decide),
        s.plain .userEndpoint (by decide)⟩
  | .gitlab, s =>
    .gitlab ⟨s.plain .clientId (by decide), s.secret (by decide), callback,
        s.plain .scopes (by decide)⟩
      Client.gitlabIssuer
  | .gitlabSelfHosted, s =>
    .gitlab ⟨s.plain .clientId (by decide), s.secret (by decide), callback,
        s.plain .scopes (by decide)⟩
      (s.plain .issuer (by decide))
  | .google, s =>
    .google ⟨⟨s.plain .clientId (by decide), s.secret (by decide), callback,
        s.plain .scopes (by decide)⟩,
      Client.googleIssuer, true, false⟩
  | .ldap, s =>
    .ldap
      { servers := s.plain .servers (by decide)
        startTls := s.plain .startTls (by decide)
        baseDn := s.plain .baseDn (by decide)
        bindDn := s.plain .bindDn (by decide)
        bindPassword := s.secret (by decide)
        userBase := s.plain .userBase (by decide)
        userObjectClasses := s.plain .userObjectClasses (by decide)
        userFilters := s.plain .userFilters (by decide)
        timeout := s.plain .timeout (by decide)
        callback := callback
        overrides := LdapClient.overridesOf (s.bundle .attributes (by decide)) }

end Settings

/-- The name of a service where the settings give none. -/
def Kind.serviceName : Kind → String
  | .github => "GitHub"
  | .gitlab => "GitLab"
  | .google => "Google"
  | _ => ""

namespace Provider

/-- The stored secret in the clear. -/
def revealed (cipher : Cipher) (s : Settings (Option Sealed) k) :
    Except CipherError (Settings Secret k) :=
  if h : k.hasSecret = true then
    match s.secret h with
    | none => .error .missingValue
    | some v => (cipher.revealText v).map fun text => ⟨s.plain, fun _ => ⟨text⟩⟩
  else .ok ⟨s.plain, fun h' => absurd h' h⟩

/-- Only an active provider has a client. -/
def client (cipher : Cipher) (id callback : String) (p : Provider k) : Except Error Client := do
  if p.status ≠ .active then throw (.refused (.inactive id p.status))
  let s ← Error.ofCipher (revealed cipher p.settings)
  return ⟨Client.orElse (s.get .name) k.serviceName, s.permissions, s.connection callback⟩

end Provider
end Federation
