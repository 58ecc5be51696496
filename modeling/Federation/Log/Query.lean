import Federation.Log.Entry

/-!
Which events of a log are wanted. A query is a list of alternatives, and one without alternatives
wants nothing.
-/
namespace Federation

/-- Filters that must all hold. An empty list places no constraint. -/
structure Alternative where
  instanceId : Option String := none
  resourceOwner : Option String := none
  streamTypes : List String := []
  streamIds : List String := []
  eventTypes : List String := []
  /-- Members the payload must have with exactly these values, in increasing order of keys. -/
  eventData : Entries := []
  deriving Repr

structure Query where
  alternatives : List Alternative := []
  deriving Repr

namespace Alternative

/-- Is a value among those wanted, where none means any? -/
def allows (wanted : List String) (s : String) : Bool := wanted.isEmpty || wanted.contains s

def agrees (wanted : Option String) (s : String) : Bool :=
  match wanted with
  | none => true
  | some w => s == w

/-- Has the payload a member of this value? -/
def holds (payload : Json) (entry : String × Json) : Bool :=
  match payload.get? entry.1 with
  | some v => v.same entry.2
  | none => false

def wants (q : Alternative) (e : LogEntry) : Bool :=
  agrees q.instanceId e.stream.instanceId
    && agrees q.resourceOwner e.stream.resourceOwner
    && allows q.streamTypes e.stream.type
    && allows q.streamIds e.stream.id
    && allows q.eventTypes e.type
    && q.eventData.all (holds e.payload)

def toJson (q : Alternative) : Json :=
  let text (s : Option String) : Json := (s.map .string).getD .null
  .ofEntries [("instance_id", text q.instanceId), ("resource_owner", text q.resourceOwner),
    ("aggregate_types", .strings q.streamTypes), ("aggregate_ids", .strings q.streamIds),
    ("event_types", .strings q.eventTypes), ("event_data", .object q.eventData)]

end Alternative

namespace Query

def wants (q : Query) (e : LogEntry) : Bool := q.alternatives.any fun item => item.wants e

/-- The alternatives of both. -/
def merge (q r : Query) : Query := ⟨q.alternatives ++ r.alternatives⟩

def select (q : Query) (es : List LogEntry) : List LogEntry := es.filter q.wants

/-- The highest sequence among the events wanted, or zero. -/
def latest (q : Query) (es : List LogEntry) : Nat :=
  (q.select es).foldl (fun m e => max m e.sequence) 0

def toJson (q : Query) : Json := .array (q.alternatives.map Alternative.toJson)

end Query
end Federation
