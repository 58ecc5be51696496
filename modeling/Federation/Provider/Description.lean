import Federation.Provider.Field
import Federation.Provider.Kind

/-!
What describes a provider of each kind: its items in the order in which they are written down, the
order in which changes to them are listed, and the fields that must not be empty.
-/
namespace Federation

/-- Fields of which none may be empty, and how a message calls them. -/
structure Rule where
  label : String
  fields : List Field
  deriving DecidableEq, Repr

namespace Kind

def items : Kind → List Item
  | .oauth => [.field .name, .field .clientId, .secret, .field .authorizationEndpoint,
      .field .tokenEndpoint, .field .userEndpoint, .field .scopes, .field .idAttribute,
      .bundle .options]
  | .oidc => [.field .name, .field .issuer, .field .clientId, .secret, .field .scopes,
      .field .idTokenMapping, .bundle .options]
  | .jwt => [.field .name, .field .issuer, .field .jwtEndpoint, .field .keysEndpoint,
      .field .headerName, .bundle .options]
  | .azureAd => [.field .name, .field .clientId, .secret, .field .scopes, .field .tenant,
      .field .emailVerified, .bundle .options]
  | .github | .gitlab | .google => [.field .name, .field .clientId, .secret, .field .scopes,
      .bundle .options]
  | .githubEnterprise => [.field .name, .field .clientId, .secret, .field .authorizationEndpoint,
      .field .tokenEndpoint, .field .userEndpoint, .field .scopes, .bundle .options]
  | .gitlabSelfHosted => [.field .name, .field .issuer, .field .clientId, .secret, .field .scopes,
      .bundle .options]
  | .ldap => [.field .name, .field .servers, .field .startTls, .field .baseDn, .field .bindDn,
      .secret, .field .userBase, .field .userObjectClasses, .field .userFilters, .field .timeout,
      .bundle .attributes, .bundle .options]

def changeOrder : Kind → List Item
  | .oauth => [.secret, .field .clientId, .field .name, .field .authorizationEndpoint,
      .field .tokenEndpoint, .field .userEndpoint, .field .scopes, .field .idAttribute,
      .bundle .options]
  | .oidc => [.secret, .field .clientId, .field .name, .field .issuer, .field .scopes,
      .field .idTokenMapping, .bundle .options]
  | .jwt => [.field .name, .field .issuer, .field .jwtEndpoint, .field .keysEndpoint,
      .field .headerName, .bundle .options]
  | .azureAd => [.secret, .field .clientId, .field .name, .field .tenant, .field .emailVerified,
      .field .scopes, .bundle .options]
  | .github | .gitlab | .google => [.secret, .field .name, .field .clientId, .field .scopes,
      .bundle .options]
  | .githubEnterprise => [.secret, .field .clientId, .field .name, .field .authorizationEndpoint,
      .field .tokenEndpoint, .field .userEndpoint, .field .scopes, .bundle .options]
  | .gitlabSelfHosted => [.secret, .field .name, .field .issuer, .field .clientId, .field .scopes,
      .bundle .options]
  | .ldap => [.secret, .field .name, .field .servers, .field .startTls, .field .baseDn,
      .field .bindDn, .field .userBase, .field .userObjectClasses, .field .userFilters,
      .field .timeout, .bundle .attributes, .bundle .options]

/-- Changes are listed for every item, once. -/
theorem changeOrder_perm (k : Kind) : k.changeOrder.isPerm k.items = true := by cases k <;> decide

/-- All fields, those that come in bundles too. -/
def fields (k : Kind) : List Field := k.items.flatMap Item.fields

def hasSecret (k : Kind) : Bool := k.items.contains .secret

def secretKey : Kind → String
  | .ldap => "bindPassword"
  | _ => "clientSecret"

/-- What messages call the secret. -/
def secretLabel : Kind → String
  | .ldap => "bind password"
  | _ => "client secret"

def rules : Kind → List Rule
  | .oauth => [⟨"name", [.name]⟩, ⟨"client id", [.clientId]⟩,
      ⟨"authorization endpoint", [.authorizationEndpoint]⟩, ⟨"token endpoint", [.tokenEndpoint]⟩,
      ⟨"user endpoint", [.userEndpoint]⟩, ⟨"id attribute", [.idAttribute]⟩]
  | .oidc | .gitlabSelfHosted => [⟨"name", [.name]⟩, ⟨"issuer", [.issuer]⟩,
      ⟨"client id", [.clientId]⟩]
  | .jwt => [⟨"name", [.name]⟩, ⟨"issuer", [.issuer]⟩, ⟨"jwt endpoint", [.jwtEndpoint]⟩,
      ⟨"keys endpoint", [.keysEndpoint]⟩]
  | .azureAd => [⟨"name", [.name]⟩, ⟨"client id", [.clientId]⟩]
  | .github | .gitlab | .google => [⟨"client id", [.clientId]⟩]
  | .githubEnterprise => [⟨"name", [.name]⟩, ⟨"client id", [.clientId]⟩,
      ⟨"authorization endpoint", [.authorizationEndpoint]⟩, ⟨"token endpoint", [.tokenEndpoint]⟩,
      ⟨"user endpoint", [.userEndpoint]⟩]
  | .ldap => [⟨"name", [.name]⟩, ⟨"servers", [.servers]⟩, ⟨"base dn", [.baseDn]⟩,
      ⟨"bind dn", [.bindDn]⟩, ⟨"user base", [.userBase]⟩,
      ⟨"user object classes and user filters", [.userObjectClasses, .userFilters]⟩]

theorem mem_fields_of_bundle {k : Kind} {b : Bundle} (h : .bundle b ∈ k.items) :
    ∀ f ∈ b.fields, f ∈ k.fields := fun _ hf => List.mem_flatMap.2 ⟨.bundle b, h, hf⟩

theorem mem_fields_of_field {k : Kind} {f : Field} (h : .field f ∈ k.items) : f ∈ k.fields :=
  List.mem_flatMap.2 ⟨.field f, h, List.mem_singleton.2 rfl⟩

theorem mem_options (k : Kind) : .bundle .options ∈ k.items := by cases k <;> decide

end Kind
end Federation
