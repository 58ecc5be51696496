import Federation.Log.Error
import Federation.Log.Batch
import Federation.Log.Query
import Federation.Log.Tails

/-!
A log held in memory, with the ends of its streams beside the events. A push checks every
expectation against those ends and then appends its events, each one step further in its stream and
in the log; a push that is refused leaves the log as it was.
-/
namespace Federation

/-- What the clock and the source of identifiers give to one push. -/
structure Stamp where
  time : Timestamp
  id : Nat → Uuid

structure Log where
  events : List LogEntry := []
  /-- Where the streams of the events end. -/
  tails : Tails := {}
  available : Bool := true

namespace Log

def tail (log : Log) (name : StreamName) : Nat := log.tails.get name

/-- The first expectation that does not hold. -/
def conflict? (log : Log) (p : Batch) : Option LogError :=
  p.expectations.findSome? fun c =>
    let actual := log.tail c.stream.name
    if actual = c.expected then none
    else some (.conflict c.stream.type c.stream.id c.expected actual)

/-- Numbers events one after another: `stored` are those numbered so far, and `before` events were
in the log earlier. -/
def store (stamp : Stamp) (creator : String) (before : Nat) :
    List LogEntry → Tails → List Draft → List LogEntry × Tails
  | stored, tails, [] => (stored, tails)
  | stored, tails, p :: ps =>
    let sequence := tails.get p.stream.name + 1
    let position := before + stored.length + 1
    store stamp creator before (stored ++ [{
      id := stamp.id position
      position := position
      stream := p.stream
      sequence := sequence
      type := p.type
      payload := p.payload
      creator := creator
      createdAt := stamp.time }]) (tails.put p.stream.name sequence) ps

/-- A log that is unavailable answers no call. -/
def reached (log : Log) : Except LogError Unit :=
  if log.available then .ok () else .error (.unavailable .memory)

/-- The stored events of a push and the log after it. -/
def push (log : Log) (stamp : Stamp) (p : Batch) : Except LogError (List LogEntry × Log) := do
  log.reached
  match log.conflict? p with
  | some e => throw e
  | none =>
    let (stored, tails) := store stamp p.creator log.events.length [] log.tails p.events
    return (stored, { log with events := log.events ++ stored, tails := tails })

def filter (log : Log) (q : Query) : Except LogError (List LogEntry) := do
  log.reached
  return q.select log.events

def latest (log : Log) (q : Query) : Except LogError Nat := do
  log.reached
  return q.latest log.events

end Log
end Federation
