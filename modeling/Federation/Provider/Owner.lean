import Federation.Log.Entry

/-!
Who owns an identity provider: a whole instance or one of its organizations.
-/
namespace Federation

inductive Scope where
  | instanceWide | organization
  deriving DecidableEq, Repr

namespace Scope

/-- The type of the streams of a scope. -/
def streamType : Scope → String
  | .instanceWide => "instance"
  | .organization => "org"

def ofStreamType? (type : String) : Option Scope :=
  if type = "instance" then some .instanceWide
  else if type = "org" then some .organization
  else none

def other : Scope → Scope
  | .instanceWide => .organization
  | .organization => .instanceWide

def variants : List (String × Scope) := [("instance", .instanceWide), ("org", .organization)]

def reader : Json.Reader Scope := .variant variants

theorem ofStreamType?_streamType (s : Scope) : ofStreamType? s.streamType = some s := by
  cases s <;> decide

end Scope

structure Owner where
  scope : Scope
  instanceId : String
  resourceOwner : String
  deriving DecidableEq, Repr

namespace Owner

/-- An instance owns itself. -/
def ofInstance (instanceId : String) : Owner := ⟨.instanceWide, instanceId, instanceId⟩

def ofOrganization (instanceId org : String) : Owner := ⟨.organization, instanceId, org⟩

/-- The stream of a provider of this owner. -/
def stream (o : Owner) (id : String) : EventStream :=
  ⟨id, o.scope.streamType, o.resourceOwner, o.instanceId⟩

/-- The stream that the provider's id would have in the other scope. -/
def sibling (o : Owner) (id : String) : EventStream :=
  ⟨id, o.scope.other.streamType, o.resourceOwner, o.instanceId⟩

def toJson (o : Owner) : Json :=
  .ofEntries [("scope", .string o.scope.streamType), ("instance_id", .string o.instanceId),
    ("resource_owner", .string o.resourceOwner)]

end Owner
end Federation
