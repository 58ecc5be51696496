import Federation.Json.Read

/-!
Events as a log stores them, and the streams they belong to.
-/
namespace Federation

/-- An event stream and the tenant that owns it. -/
structure EventStream where
  id : String
  type : String
  resourceOwner : String
  instanceId : String
  deriving DecidableEq, Repr, Inhabited

/-- What identifies a stream; its owner does not. -/
structure StreamName where
  instanceId : String
  type : String
  id : String
  deriving DecidableEq, Repr

/-- An event that is yet to be stored. -/
structure Draft where
  stream : EventStream
  type : String
  payload : Json
  deriving Repr

/-- A stored event. Sequences count the events of one stream, positions those of the whole log. -/
structure LogEntry where
  id : Uuid
  position : Nat
  stream : EventStream
  sequence : Nat
  type : String
  payload : Json
  creator : String
  createdAt : Timestamp
  deriving Repr

namespace EventStream

def name (a : EventStream) : StreamName := ⟨a.instanceId, a.type, a.id⟩

def schema : Json.Schema EventStream :=
  (((Json.Schema.required "id" .text).and (Json.Schema.required "typ" .text)).and
    ((Json.Schema.required "resource_owner" .text).and
      (Json.Schema.required "instance_id" .text))).map
    fun ((id, type), (resourceOwner, instanceId)) => ⟨id, type, resourceOwner, instanceId⟩

def reader : Json.Reader EventStream := (Json.Layout.ofSchema "Aggregate" schema).decode

def toJson (a : EventStream) : Json :=
  .ofEntries [("id", .string a.id), ("typ", .string a.type),
    ("resource_owner", .string a.resourceOwner), ("instance_id", .string a.instanceId)]

end EventStream

def Draft.toJson (e : Draft) : Json :=
  .ofEntries [("aggregate", e.stream.toJson), ("type", .string e.type), ("payload", e.payload)]

namespace LogEntry

def streamName (e : LogEntry) : StreamName := e.stream.name

def uuidReader : Json.Reader Uuid
  | _, .string s =>
    match Uuid.ofText s with
    | .ok u => .ok u
    | .error f => .error (.uuid f)
  | _, j => .error (.wrongType j .uuid)

def timestampReader : Json.Reader Timestamp
  | _, .string s =>
    match Timestamp.ofText s with
    | .ok t => .ok t
    | .error f => .error (.timestamp f)
  | _, j => .error (.wrongType j .timestamp)

def schema : Json.Schema LogEntry :=
  ((((Json.Schema.required "id" uuidReader).and
    (Json.Schema.required "position" (.unsigned 64))).and
    ((Json.Schema.required "aggregate" EventStream.reader).and
      (Json.Schema.required "sequence" (.unsigned 64)))).and
    (((Json.Schema.required "event_type" .text).and (Json.Schema.required "payload" .any)).and
      ((Json.Schema.required "creator" .text).and
        (Json.Schema.required "created_at" timestampReader)))).map
    fun (((id, position), (stream, sequence)), ((type, payload), (creator, createdAt))) =>
      ⟨id, position, stream, sequence, type, payload, creator, createdAt⟩

def reader : Json.Reader LogEntry := (Json.Layout.ofSchema "StoredEvent" schema).decode

def toJson (e : LogEntry) : Json :=
  .ofEntries [("id", .string e.id.text), ("position", .nat e.position),
    ("aggregate", e.stream.toJson), ("sequence", .nat e.sequence),
    ("event_type", .string e.type), ("payload", e.payload), ("creator", .string e.creator),
    ("created_at", .string e.createdAt.text)]

end LogEntry
end Federation
