import Federation.Duration
import Federation.Json.Read
import Federation.Record

/-!
The fields that describe identity providers, with the shape of their values and their names in JSON.
A kind's secret is no field: it has no value that could be compared.
-/
namespace Federation

/-- What a value may be. -/
inductive Shape where
  | text | texts | flag | span
  deriving DecidableEq, Repr

namespace Shape

def Value : Shape → Type
  | .text => String
  | .texts => List String
  | .flag => Bool
  | .span => Duration

instance (s : Shape) : DecidableEq s.Value :=
  match s with
  | .text => inferInstanceAs (DecidableEq String)
  | .texts => inferInstanceAs (DecidableEq (List String))
  | .flag => inferInstanceAs (DecidableEq Bool)
  | .span => inferInstanceAs (DecidableEq Duration)

/-- The value of a field that was never set. -/
def initial : (s : Shape) → s.Value
  | .text => ""
  | .texts => []
  | .flag => false
  | .span => ⟨0⟩

instance (s : Shape) : Inhabited s.Value := ⟨s.initial⟩

def reader : (s : Shape) → Json.Reader s.Value
  | .text => .text
  | .texts => .list .text
  | .flag => .flag
  | .span => .map Duration.mk (.unsigned 64)

/-- The empty value of a text is blank text, that of a list the list without elements; other values
are never empty. -/
def isEmpty : (s : Shape) → s.Value → Bool
  | .text, (v : String) => Text.isBlank v
  | .texts, (v : List String) => v.isEmpty
  | _, _ => false

/-- A span is written in nanoseconds, of which 64 bits have room. -/
def write : (s : Shape) → s.Value → Except Json.Fault Json
  | .text, (v : String) => .ok (.string v)
  | .texts, (v : List String) => .ok (.strings v)
  | .flag, (v : Bool) => .ok (.bool v)
  | .span, (v : Duration) =>
    if v.nanos < UInt64.size then .ok (.nat v.nanos) else .error .tooManyNanos

end Shape

/-- What a login may do to accounts. -/
inductive Permission where
  | creationAllowed | linkingAllowed | autoCreation | autoUpdate
  deriving DecidableEq, Repr

/-- Parts of a user that a directory can name its own attribute for. -/
inductive Attribute where
  | id | firstName | lastName | displayName | nickName | preferredUsername | email | emailVerified
  | phone | phoneVerified | preferredLanguage | avatarUrl | profile
  deriving DecidableEq, Repr

inductive Field where
  | name | issuer | clientId | authorizationEndpoint | tokenEndpoint | userEndpoint | jwtEndpoint
  | keysEndpoint | headerName | scopes | idAttribute | idTokenMapping | tenant | emailVerified
  | servers | startTls | baseDn | bindDn | userBase | userObjectClasses | userFilters | timeout
  | option (p : Permission)
  | attribute (a : Attribute)
  deriving DecidableEq, Repr

def Permission.key : Permission → String
  | .creationAllowed => "isCreationAllowed"
  | .linkingAllowed => "isLinkingAllowed"
  | .autoCreation => "isAutoCreation"
  | .autoUpdate => "isAutoUpdate"

namespace Attribute

def key : Attribute → String
  | .id => "idAttribute"
  | .firstName => "firstNameAttribute"
  | .lastName => "lastNameAttribute"
  | .displayName => "displayNameAttribute"
  | .nickName => "nickNameAttribute"
  | .preferredUsername => "preferredUsernameAttribute"
  | .email => "emailAttribute"
  | .emailVerified => "emailVerifiedAttribute"
  | .phone => "phoneAttribute"
  | .phoneVerified => "phoneVerifiedAttribute"
  | .preferredLanguage => "preferredLanguageAttribute"
  | .avatarUrl => "avatarURLAttribute"
  | .profile => "profileAttribute"

/-- The part of a user that an attribute stands for. -/
def userField : Attribute → String
  | .id => "id"
  | .firstName => "first_name"
  | .lastName => "last_name"
  | .displayName => "display_name"
  | .nickName => "nick_name"
  | .preferredUsername => "preferred_username"
  | .email => "email"
  | .emailVerified => "email_verified"
  | .phone => "phone"
  | .phoneVerified => "phone_verified"
  | .preferredLanguage => "preferred_language"
  | .avatarUrl => "avatar_url"
  | .profile => "profile"

end Attribute

namespace Field

def key : Field → String
  | .name => "name"
  | .issuer => "issuer"
  | .clientId => "clientId"
  | .authorizationEndpoint => "authorizationEndpoint"
  | .tokenEndpoint => "tokenEndpoint"
  | .userEndpoint => "userEndpoint"
  | .jwtEndpoint => "jwtEndpoint"
  | .keysEndpoint => "keysEndpoint"
  | .headerName => "headerName"
  | .scopes => "scopes"
  | .idAttribute => "idAttribute"
  | .idTokenMapping => "isIdTokenMapping"
  | .tenant => "tenant"
  | .emailVerified => "isEmailVerified"
  | .servers => "servers"
  | .startTls => "startTls"
  | .baseDn => "baseDn"
  | .bindDn => "bindDn"
  | .userBase => "userBase"
  | .userObjectClasses => "userObjectClasses"
  | .userFilters => "userFilters"
  | .timeout => "timeout"
  | .option p => p.key
  | .attribute a => a.key

def shape : Field → Shape
  | .scopes | .servers | .userObjectClasses | .userFilters => .texts
  | .idTokenMapping | .emailVerified | .startTls | .option _ => .flag
  | .timeout => .span
  | _ => .text

abbrev Value (f : Field) : Type := f.shape.Value

/-- May the field be left out where a provider is added? -/
def isOptional : Field → Bool
  | .scopes | .idAttribute | .idTokenMapping | .tenant | .emailVerified | .startTls
  | .userObjectClasses | .userFilters | .timeout | .option _ | .attribute _ => true
  | _ => false

def isEmpty (f : Field) (v : f.Value) : Bool := f.shape.isEmpty v

end Field

/-- Fields that always come together. -/
inductive Bundle where
  | options | attributes
  deriving DecidableEq, Repr

namespace Bundle

def fields : Bundle → List Field
  | .options => [.option .creationAllowed, .option .linkingAllowed, .option .autoCreation,
      .option .autoUpdate]
  | .attributes => [.attribute .id, .attribute .firstName, .attribute .lastName,
      .attribute .displayName, .attribute .nickName, .attribute .preferredUsername,
      .attribute .email, .attribute .emailVerified, .attribute .phone, .attribute .phoneVerified,
      .attribute .preferredLanguage, .attribute .avatarUrl, .attribute .profile]

/-- The key of a bundle where it is written as an object of its own. -/
def key : Bundle → String
  | .options => "options"
  | .attributes => "attributes"

def title : Bundle → String
  | .options => "Options"
  | .attributes => "LdapAttributes"

def patchTitle : Bundle → String
  | .options => "OptionChanges"
  | .attributes => "LdapAttributeChanges"

end Bundle

/-- What a kind's description is made of. -/
inductive Item where
  | field (f : Field)
  | secret
  | bundle (b : Bundle)
  deriving DecidableEq, Repr

def Item.fields : Item → List Field
  | .field f => [f]
  | .secret => []
  | .bundle b => b.fields

end Federation
