import Federation.Log.Fold
import Federation.Provider.Event
import Federation.Provider.Owner
import Federation.Provider.Status

/-!
Whether a provider of any kind exists, and of which kind it is. For the first question every event
of a provider's stream is read, so that its end is known; for the second an id is looked for in all
streams of an instance.
-/
namespace Federation

namespace Event

/-- Does the event say that a provider was added? -/
def isAdded : Event → Bool
  | .added .. | .configAdded .. => true
  | _ => false

def isRemoved : Event → Bool
  | .removed _ | .configRemoved _ => true
  | _ => false

/-- The kind that a provider has from the event on, if the event says so. -/
def kind? : Event → Option Kind
  | .added k .. => some k
  | .migrated t .. => some t.kind
  | .configAdded _ _ protocol _ => protocol.kind?
  | _ => none

end Event

namespace Removal

def tags : List Tag :=
  Kind.all.flatMap (fun k => [.added k, .changed k])
    ++ [.migrated .azureAd, .migrated .google, .removed]

def readTags : List Tag := tags ++ Tag.early

/-- Only events of the provider itself count. -/
def apply (id : String) (s : Status) (e : Event) : Status :=
  if e.id ≠ id then s
  else if e.isAdded then s.transition .active
  else if e.isRemoved then s.transition .removed
  else s

def fold (id : String) : Fold Status Event where
  recognise e := Event.recognise readTags e.type e.payload
  apply s _ e := apply id s e

end Removal

/-- What is known about an id. -/
structure Finding where
  status : Status := .unspecified
  /-- The kind and the owner of the provider that was last added and not removed. -/
  provider : Option (Kind × Owner) := none
  deriving DecidableEq, Repr

namespace Discovery

def tags : List Tag :=
  Kind.all.map Tag.added ++ [.migrated .azureAd, .migrated .google, .removed]

def earlyTags : List Tag := [.configAdded, .configRemoved]

def readTags : List Tag := tags ++ earlyTags

/-- The owner of a stream, if its type is one of providers' streams. -/
def owner? (a : EventStream) : Option Owner :=
  (Scope.ofStreamType? a.type).map fun scope => ⟨scope, a.instanceId, a.resourceOwner⟩

def apply (id : String) (f : Finding) (a : EventStream) (e : Event) : Finding :=
  if e.id ≠ id then f
  else if e.isRemoved then { status := f.status.transition .removed }
  else
    match e.kind?, owner? a with
    | some k, some owner => ⟨f.status.transition .active, some (k, owner)⟩
    | _, _ => f

def fold (id : String) : Fold Finding Event where
  recognise e := Event.recognise readTags e.type e.payload
  apply := apply id

end Discovery
end Federation
