import Federation.Log.Error
import Federation.Log.Batch
import Federation.Log.Query

/-!
A table of events: how it is made, in which order a push locks the streams it touches, and how calls
on it are answered when no connection can be had.
-/
namespace Federation

namespace StreamName

/-- The order of streams: by instance, then by type, then by id. -/
def before (a b : StreamName) : Bool :=
  a.instanceId < b.instanceId ||
    (a.instanceId = b.instanceId &&
      (a.type < b.type || (a.type = b.type && a.id < b.id)))

/-- Puts a stream at its place, once. -/
def insert (k : StreamName) : List StreamName → List StreamName
  | [] => [k]
  | l :: ls => if k = l then l :: ls else if k.before l then k :: l :: ls else l :: insert k ls

/-- Distinct streams in order. -/
def sorted (ks : List StreamName) : List StreamName := ks.foldl (fun acc k => insert k acc) []

/-- What a lock on the stream is named for. -/
def lockText (table : String) (k : StreamName) : String :=
  "/".intercalate [table, k.instanceId, k.type, k.id]

end StreamName

namespace Batch

/-- The streams that a push touches, in the order in which it locks them. -/
def streams (p : Batch) : List StreamName :=
  StreamName.sorted
    (p.expectations.map (fun c => c.stream.name) ++ p.events.map fun e => e.stream.name)

/-- The locks that a push takes, in order. -/
def locks (table : String) (p : Batch) : List String := p.streams.map fun k => k.lockText table

end Batch

namespace Sql

def defaultTable : String := "events"

def lines (ss : List String) : String := "\n".intercalate ss

def createTable (table : String) : String := lines [
  "CREATE TABLE IF NOT EXISTS " ++ table ++ " (",
  "                position BIGSERIAL PRIMARY KEY,",
  "                id UUID NOT NULL,",
  "                instance_id TEXT NOT NULL,",
  "                resource_owner TEXT NOT NULL,",
  "                aggregate_type TEXT NOT NULL,",
  "                aggregate_id TEXT NOT NULL,",
  "                sequence BIGINT NOT NULL,",
  "                event_type TEXT NOT NULL,",
  "                payload JSONB NOT NULL,",
  "                creator TEXT NOT NULL,",
  "                created_at TIMESTAMPTZ NOT NULL DEFAULT now(),",
  "                UNIQUE (instance_id, aggregate_type, aggregate_id, sequence)",
  "            )"]

def createTypeIndex (table : String) : String :=
  "CREATE INDEX IF NOT EXISTS " ++ table ++ "_event_type_idx ON " ++ table
    ++ " (instance_id, event_type)"

def createPayloadIndex (table : String) : String :=
  "CREATE INDEX IF NOT EXISTS " ++ table ++ "_payload_idx ON " ++ table ++ " USING GIN (payload)"

/-- The statements that make a table, in order. -/
def migration (table : String) : List String :=
  [createTable table, createTypeIndex table, createPayloadIndex table]

namespace Closed

/-- The answer of a call that needs a connection when all are closed. -/
def unavailable : Except LogError α := .error (.unavailable .closedPool)

def push (p : Batch) : Except LogError (List LogEntry) :=
  if p.events.isEmpty && p.expectations.isEmpty then .ok [] else unavailable

def filter (q : Query) : Except LogError (List LogEntry) :=
  if q.alternatives.isEmpty then .ok [] else unavailable

def latest (q : Query) : Except LogError Nat :=
  if q.alternatives.isEmpty then .ok 0 else unavailable

def health : Except LogError Unit := unavailable

def migrate : Except LogError Unit := unavailable

end Closed
end Sql
end Federation
