import Federation.Command.Limits
import Federation.Command.Program

/-!
A log at the far end of a channel: calls take time, rivals push in between, and the answer to a push
may be lost before the push arrives.
-/
namespace Federation

structure Channel where
  log : Log := {}
  /-- Pushes of rivals; one goes ahead of each push. -/
  rivals : List Batch := []
  pushDelay : Nat := 0
  readDelay : Nat := 0
  /-- How many of the next pushes get lost, though they seem to succeed. -/
  swallow : Nat := 0

namespace Channel

/-- Lets the next rival go ahead. -/
def rival (clock : Nat → Stamp) (c : Channel) : Except LogError Unit × Channel :=
  match c.rivals with
  | [] => (.ok (), c)
  | p :: ps =>
    let c := { c with rivals := ps }
    match c.log.push (clock c.log.events.length) p with
    | .ok (_, log) => (.ok (), { c with log := log })
    | .error e => (.error e, c)

/-- What becomes of a push once it is under way. -/
def arrive (clock : Nat → Stamp) (p : Batch) (c : Channel) :
    Except LogError (List LogEntry) × Channel :=
  if c.swallow = 0 then
    match c.log.push (clock c.log.events.length) p with
    | .ok (events, log) => (.ok events, { c with log := log })
    | .error e => (.error e, c)
  else (.ok [], { c with swallow := c.swallow - 1 })

/-- A push with all the time it needs. -/
def push (clock : Nat → Stamp) (p : Batch) (c : Channel) :
    Except LogError (List LogEntry) × Channel :=
  match c.rival clock with
  | (.error e, c) => (.error e, c)
  | (.ok (), c) => c.arrive clock p

end Channel

namespace Program

/-- Runs over a channel from an instant on, every call within limits. -/
def runOver (clock : Nat → Stamp) (limits : Limits) :
    Program α → Nat → Channel → Except Error α × Channel
  | .done r, _, c => (r, c)
  | .latest q next, now, c =>
    if limits.refuses now then runOver clock limits (next (.error .cancelled)) now c
    else
      match limits.cut? now c.readDelay with
      | some (e, t) => runOver clock limits (next (.error e)) t c
      | none => runOver clock limits (next (c.log.latest q)) (now + c.readDelay) c
  | .filter q next, now, c =>
    if limits.refuses now then runOver clock limits (next (.error .cancelled)) now c
    else
      match limits.cut? now c.readDelay with
      | some (e, t) => runOver clock limits (next (.error e)) t c
      | none => runOver clock limits (next (c.log.filter q)) (now + c.readDelay) c
  | .push p next, now, c =>
    if limits.refuses now then runOver clock limits (next (.error .cancelled)) now c
    else
      match c.rival clock with
      | (.error e, c) => runOver clock limits (next (.error e)) now c
      | (.ok (), c) =>
        match limits.cut? now c.pushDelay with
        | some (e, t) => runOver clock limits (next (.error e)) t c
        | none =>
          match c.arrive clock p with
          | (r, d) => runOver clock limits (next r) (now + c.pushDelay) d

end Program
end Federation
