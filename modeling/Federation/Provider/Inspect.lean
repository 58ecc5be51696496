import Federation.Provider.Client
import Federation.Provider.View

/-!
Models and clients as JSON, for people who look at them. Keys are written with underscores. The
secret of a client is shown in the clear, that of a model as it is stored.
-/
namespace Federation

namespace Inspect

/-- A key with its words parted by underscores. -/
def snake (key : String) : String :=
  String.ofList (key.toList.flatMap fun c => if c.isUpper then ['_', c.toLower] else [c])

def value : (s : Shape) → s.Value → Json
  | .text, (v : String) => .string v
  | .texts, (v : List String) => .strings v
  | .flag, (v : Bool) => .bool v
  | .span, (v : Duration) => .nat v.nanos

def secret (v : Option Sealed) : Json := (v.map Sealed.toJson).getD .null

def settings (s : Settings (Option Sealed) k) : Json :=
  .ofEntries (k.items.flatMap fun
    | .field f => [(snake f.key, value f.shape (s.get f))]
    | .secret => [(snake k.secretKey, secret s.secret?.join)]
    | .bundle b =>
      [(b.key, .ofEntries (b.fields.map fun f => (f.key, value f.shape (s.get f))))])

/-- How far a model has read; `date` shows the instant of the last change. -/
def base (date : Timestamp → Json) (b : Base) : Json :=
  .ofEntries [("aggregate_id", .string b.streamId), ("resource_owner", .string b.resourceOwner),
    ("instance_id", .string b.instanceId), ("processed_sequence", .nat b.processed),
    ("change_date", (b.changeDate.map date).getD .null)]

/-- What every model shows. -/
def common (date : Timestamp → Json) (kind id : String) (status : Status) (b : Base) : Entries :=
  [("kind", .string kind), ("id", .string id), ("state", .string status.name),
    ("base", base date b)]

def registration (r : Registration) : Entries :=
  [("client_id", .string r.clientId), ("client_secret", .string r.clientSecret.expose),
    ("callback_url", .string r.callback), ("scopes", .strings r.scopes)]

def endpoints (e : Endpoints) : Entries :=
  [("authorization_endpoint", .string e.authorization), ("token_endpoint", .string e.token),
    ("user_endpoint", .string e.user)]

def openId (c : OpenIdClient) : Entries :=
  registration c.registration ++ [("issuer", .string c.issuer),
    ("select_account", .bool c.selectAccount), ("id_token_mapping", .bool c.idTokenMapping)]

/-- Attributes that replace the usual ones, by the part of a user they stand for. -/
def overrides (os : List (Attribute × String)) : Json :=
  .array (os.map fun o => .strings [o.1.userField, o.2])

def ldap (c : LdapClient) : Entries :=
  [("servers", .strings c.servers), ("start_tls", .bool c.startTls), ("base_dn", .string c.baseDn),
    ("bind_dn", .string c.bindDn), ("bind_password", .string c.bindPassword.expose),
    ("user_base", .string c.userBase), ("user_object_classes", .strings c.userObjectClasses),
    ("user_filters", .strings c.userFilters), ("timeout", .nat c.timeout.nanos),
    ("callback_url", .string c.callback), ("attribute_overrides", overrides c.overrides)]

/-- The endpoints that follow from a tenant. -/
def tenant (name : String) : Entries :=
  let e := Client.azureEndpoints name
  [("tenant", .string name), ("authorization_endpoint()", .string e.authorization),
    ("token_endpoint()", .string e.token), ("user_endpoint()", .string e.user)]

/-- The name of a connection's form, and its members. -/
def connection : Connection → String × Entries
  | .oauth r e idAttribute =>
    ("OAuth", ("id_attribute", .string idAttribute) :: (registration r ++ endpoints e))
  | .oidc c => ("Oidc", openId c)
  | .jwt issuer jwtEndpoint keysEndpoint headerName =>
    ("Jwt", [("issuer", .string issuer), ("jwt_endpoint", .string jwtEndpoint),
      ("keys_endpoint", .string keysEndpoint), ("header_name", .string headerName)])
  | .azureAd r name emailVerified =>
    ("AzureAd", ("email_verified", .bool emailVerified) :: (registration r ++ tenant name))
  | .github r e => ("GitHub", registration r ++ endpoints e)
  | .gitlab r issuer => ("GitLab", ("issuer", .string issuer) :: registration r)
  | .google c => ("Google", openId c)
  | .ldap c => ("Ldap", ldap c)

def permissions (p : Permissions) : Json :=
  .ofEntries [("creation_allowed", .bool p.creationAllowed),
    ("linking_allowed", .bool p.linkingAllowed), ("auto_creation", .bool p.autoCreation),
    ("auto_update", .bool p.autoUpdate)]

end Inspect

def Client.toJson (c : Client) : Json :=
  let (form, members) := Inspect.connection c.connection
  .ofEntries ([("provider", .string form), ("name", .string c.name),
    ("options", Inspect.permissions c.permissions)] ++ members)

def Loaded.toJson (date : Timestamp → Json) : Loaded → Json
  | ⟨.provider k _ id, m⟩ =>
    let p : Provider k := m.state
    .ofEntries (Inspect.common date k.name id p.status m.base
      ++ [("fields", Inspect.settings p.settings)])
  | ⟨.removal _ id, m⟩ =>
    let status : Status := m.state
    .ofEntries (Inspect.common date "remove" id status m.base)
  | ⟨.discovery id, m⟩ =>
    let f : Finding := m.state
    .ofEntries (Inspect.common date "type" id f.status m.base
      ++ [("idp_type", .string (Kind.nameOf (f.provider.map Prod.fst))),
        ("owner", (f.provider.map fun p => p.2.toJson).getD .null)])

end Federation
