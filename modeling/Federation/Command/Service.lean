import Federation.Command.Program
import Federation.Command.Tuning
import Federation.Provider.Client
import Federation.Provider.Update

/-!
The commands on providers. A command that changes something loads what it decides on, decides, and
pushes under the condition that the stream has not moved since; if it has, it starts again.
-/
namespace Federation

/-- Where a stream stands after a command. -/
structure Details where
  sequence : Nat
  date : Timestamp
  resourceOwner : String
  deriving DecidableEq, Repr

namespace Details

def ofBase (b : Base) : Details := ⟨b.processed, b.changeDate.getD ⟨0, 0⟩, b.resourceOwner⟩

/-- A push that stored nothing has not succeeded. -/
def ofStored (events : List LogEntry) : Except Error Details :=
  match events.getLast? with
  | some e => .ok ⟨e.sequence, e.createdAt, e.stream.resourceOwner⟩
  | none => .error (.log (.unavailable .nothingStored))

end Details

/-- What all commands share. Every attempt at one encrypts with a nonce of its own. -/
structure Service where
  cipher : Cipher
  tuning : Tuning := {}
  editor : String
  nonce : Nat → Nonce

namespace Service

open Program

def latest (q : Query) : Program Nat := .latest q fun r => .done (r.mapError .log)

/-- Loads a view afresh. -/
def load (v : View) (base : Base) : Program (Model v.State) :=
  let q := v.query base
  if q.alternatives.isEmpty then pure (v.fresh base)
  else .filter q fun
    | .error e => fail (.log e)
    | .ok events =>
      match v.read (v.fresh base) events with
      | (m, .ok ()) => pure m
      | (_, .error e) => fail (.log e)

/-- Pushes events for streams that are where they were. -/
def push (s : Service) (expectations : List Expectation) (event : Draft) :
    Program Details :=
  .push ⟨s.editor, expectations, [event]⟩ fun
    | .error e => fail (.log e)
    | .ok events => .done (Details.ofStored events)

def retry (s : Service) (attempt : Nat → Program α) : Program α :=
  Program.retry attempt s.tuning.retries.toNat 0

/-- Everything that was ever recorded under an id, in either scope and for any owner. -/
def takenQuery (instanceId id : String) : Query :=
  ⟨[{ instanceId := some instanceId
      streamTypes := [Scope.instanceWide, Scope.organization].map Scope.streamType
      streamIds := [id] }]⟩

/-- One attempt to add a provider. -/
def addAttempt (s : Service) (owner : Owner) (id : String) (config : Config) (attempt : Nat) :
    Program Details := do
  let last ← latest (takenQuery owner.instanceId id)
  if 0 < last then refuse (.taken id)
  let event ← .done (config.addedDraft s.cipher (s.nonce attempt) (owner.stream id))
  s.push [⟨owner.stream id, 0⟩, ⟨owner.sibling id, 0⟩] event

/-- Adds a provider under an id that is free in both scopes. -/
def add (s : Service) (owner : Owner) (id : String) (config : Config) : Program Details := do
  .done config.validate
  s.retry (s.addAttempt owner id config)

/-- One attempt to update a provider. -/
def updateAttempt (s : Service) (owner : Owner) (id : String) (config : Config) (attempt : Nat) :
    Program Details := do
  let m ← load (.ofKind config.kind owner id) (.ofOwner owner id)
  let p : Provider config.kind := m.state
  match p.status with
  | .active =>
    let stream := m.base.stream owner.scope id
    match ← .done (p.changedDraft? s.cipher (s.nonce attempt) stream config) with
    | none => pure (.ofBase m.base)
    | some event => s.push [⟨stream, m.base.processed⟩] event
  | .migrated => refuse (.migrated id)
  | _ => refuse (.unknown id)

/-- Brings an active provider in line with a configuration of its kind; nothing is pushed if it is
so already. -/
def update (s : Service) (owner : Owner) (id : String) (config : Config) : Program Details := do
  .done config.validate
  s.retry (s.updateAttempt owner id config)

/-- One attempt to remove a provider. -/
def removeAttempt (s : Service) (owner : Owner) (id : String) : Program Details := do
  let m ← load (.ofRemoval owner id) (.ofOwner owner id)
  let status : Status := m.state
  if status ≠ .active then refuse (.unknown id)
  let event ← .done (Error.ofFault ((Event.removed id).draft (owner.stream id)))
  s.push [⟨owner.stream id, m.base.processed⟩] event

/-- Removes an active provider of any kind. -/
def remove (s : Service) (owner : Owner) (id : String) : Program Details :=
  s.retry fun _ => s.removeAttempt owner id

/-- One attempt to turn a provider into one of another kind. -/
def migrateAttempt (s : Service) (owner : Owner) (id : String) (m : Migration) (attempt : Nat) :
    Program Details := do
  let loaded ← load (.ofKind .oidc owner id) (.ofOwner owner id)
  let p : Provider .oidc := loaded.state
  match p.status with
  | .active =>
    let event ← .done (m.draft s.cipher (s.nonce attempt) (owner.stream id))
    s.push [⟨owner.stream id, loaded.base.processed⟩] event
  | .migrated => refuse (.migratedAlready id)
  | _ => refuse (.unknown id)

/-- Turns an active OpenID Connect provider into one of the target's kind. -/
def migrate (s : Service) (owner : Owner) (id : String) (m : Migration) : Program Details := do
  .done m.validate
  s.retry (s.migrateAttempt owner id m)

/-- What an id of an instance stands for. -/
def discover (instanceId id : String) : Program (Kind × Owner) := do
  let m ← load (.discovery id) (.ofInstance instanceId id)
  let f : Finding := m.state
  match f.status, f.provider with
  | .active, some found => pure found
  | _, _ => refuse (.unknown id)

def kind (instanceId id : String) : Program Kind := do
  let found ← discover instanceId id
  return found.1

/-- Makes the client of a provider. -/
def client (s : Service) (instanceId id callback : String) : Program Client := do
  let (k, owner) ← discover instanceId id
  let m ← load (.ofKind k owner id) (.ofOwner owner id)
  let p : Provider k := m.state
  .done (p.client s.cipher id callback)

end Service
end Federation
