import Federation.Provider.Change
import Federation.Provider.Config
import Federation.Provider.View

/-!
The event that brings a provider in line with a desired configuration.
-/
namespace Federation

namespace Provider

/-- There is none if the provider is as desired already. -/
def changed? (cipher : Cipher) (nonce : Nonce) (id : String) (p : Provider k)
    (desired : Settings String k) : Except Error (Option Event) := do
  let cs ← Error.ofCipher (p.settings.changes cipher nonce desired)
  if cs.isEmpty then return none
  let r ← (Revision.ofChanges cs).mapError Error.refused
  return some (.changed k id r)

/-- The event for a stream, or a refusal if the configuration is of another kind. -/
def changedDraft? (cipher : Cipher) (nonce : Nonce) (p : Provider k) (stream : EventStream)
    (desired : Config) : Except Error (Option Draft) :=
  if h : desired.kind = k then do
    match ← p.changed? cipher nonce stream.id (h ▸ desired.settings) with
    | none => return none
    | some e => return some (← Error.ofFault (e.draft stream))
  else .error (.refused (.otherKind stream.id k desired.kind))

end Provider

/-- The stream that a model in a scope has read. -/
def Base.stream (b : Base) (scope : Scope) (id : String) : EventStream :=
  ⟨id, scope.streamType, b.resourceOwner, b.instanceId⟩

end Federation
