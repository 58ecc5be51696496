import Federation.Json.Read

/-!
The life of an identity provider.
-/
namespace Federation

inductive Status where
  | unspecified | active | removed | migrated
  deriving DecidableEq, Repr, Inhabited

namespace Status

/-- Moves on where life allows it and stays otherwise: a provider becomes active, may be migrated
while active, and once it is active or migrated may be removed, for good. -/
def transition : Status → Status → Status
  | .unspecified, .active => .active
  | .active, .migrated => .migrated
  | .active, .removed => .removed
  | .migrated, .removed => .removed
  | s, _ => s

/-- The statuses along a path of moves. -/
def walk : Status → List Status → List Status
  | _, [] => []
  | s, next :: path => s.transition next :: walk (s.transition next) path

def isActive (s : Status) : Bool := s = .active

/-- Added and not removed. -/
def exists? (s : Status) : Bool := s = .active || s = .migrated

def variants : List (String × Status) :=
  [("unspecified", .unspecified), ("active", .active), ("removed", .removed),
    ("migrated", .migrated)]

def reader : Json.Reader Status := .variant variants

def name : Status → String
  | .unspecified => "unspecified"
  | .active => "active"
  | .removed => "removed"
  | .migrated => "migrated"

/-- The status as messages name it. -/
def title : Status → String
  | .unspecified => "Unspecified"
  | .active => "Active"
  | .removed => "Removed"
  | .migrated => "Migrated"

@[simp] theorem transition_removed (next : Status) : transition .removed next = .removed := by
  cases next <;> rfl

end Status
end Federation
