import Federation.Log.Projection
import Federation.Provider.Presence
import Federation.Provider.State

/-!
The views of a log that commands decide on: a provider of a known kind, whether a provider exists,
and what an id stands for. A view names the events it wants by a query and rebuilds its state from
them.
-/
namespace Federation

inductive View where
  | provider (k : Kind) (scope : Scope) (id : String)
  | removal (scope : Scope) (id : String)
  | discovery (id : String)
  deriving DecidableEq, Repr

namespace View

def State : View → Type
  | .provider k _ _ => Provider k
  | .removal _ _ => Status
  | .discovery _ => Finding

def initial : (v : View) → v.State
  | .provider _ _ _ => ({} : Provider _)
  | .removal _ _ => Status.unspecified
  | .discovery _ => ({} : Finding)

def fold : (v : View) → Fold v.State Event
  | .provider k _ _ => Provider.fold k
  | .removal _ id => Removal.fold id
  | .discovery id => Discovery.fold id

/-- The events of given tags in one stream. -/
def streamItem (base : Base) (scope : Scope) (tags : List Tag) : Alternative where
  instanceId := some base.instanceId
  resourceOwner := some base.resourceOwner
  streamTypes := [scope.streamType]
  streamIds := [base.streamId]
  eventTypes := tags.map Tag.name

/-- The events of given tags whose payload names an id, in all streams of a scope. -/
def idItem (base : Base) (scope : Scope) (tags : List Tag) (key id : String) : Alternative where
  instanceId := some base.instanceId
  streamTypes := [scope.streamType]
  eventTypes := tags.map Tag.name
  eventData := [(key, .string id)]

def query : View → Base → Query
  | .provider k scope _, base => ⟨[streamItem base scope k.readTags]⟩
  | .removal scope _, base => ⟨[streamItem base scope Removal.readTags]⟩
  | .discovery id, base =>
    ⟨[Scope.instanceWide, Scope.organization].flatMap fun scope =>
      [idItem base scope Discovery.tags "id" id,
        idItem base scope Discovery.earlyTags "idpConfigId" id]⟩

def ofKind (k : Kind) (owner : Owner) (id : String) : View := .provider k owner.scope id

def ofRemoval (owner : Owner) (id : String) : View := .removal owner.scope id

end View

namespace Base

/-- The start of a stream. -/
def ofOwner (owner : Owner) (id : String) : Base :=
  { streamId := id, resourceOwner := owner.resourceOwner, instanceId := owner.instanceId }

/-- The start of whatever streams of an instance belong to an id. -/
def ofInstance (instanceId id : String) : Base :=
  { streamId := id, resourceOwner := "", instanceId := instanceId }

end Base

namespace View

/-- A model that has read nothing yet. -/
def fresh (v : View) (base : Base) : Model v.State := ⟨base, v.initial, []⟩

/-- The model after further events. -/
def read (v : View) (m : Model v.State) (events : List LogEntry) :
    Model v.State × Except LogError Unit := (m.append events).reduce v.fold

def projection (v : View) : Projection v.State Event := ⟨fun base _ => v.query base, v.fold⟩

/-- Reads what a log holds for the view. -/
def load (v : View) (m : Model v.State) (log : Log) : Model v.State × Except LogError Unit :=
  v.projection.load m log

/-- A query without alternatives asks nothing of the log. -/
theorem load_def (v : View) (m : Model v.State) (log : Log) :
    v.load m log =
      if (v.query m.base).alternatives.isEmpty then (m, .ok ())
      else
        match log.filter (v.query m.base) with
        | .error e => (m, .error e)
        | .ok events => v.read m events := rfl

end View

/-- A view with its model. -/
abbrev Loaded : Type := Projected View.State

namespace Loaded

def query (l : Loaded) : Query := Projected.query View.projection l

/-- Reads several views with one question to the log. -/
def loadAll (ls : List Loaded) (log : Log) : List Loaded × Except LogError Unit :=
  Projected.loadAll View.projection ls log

end Loaded
end Federation
