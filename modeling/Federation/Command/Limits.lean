import Federation.Log.Error

/-!
When a call on a log is given up. Time is counted in whole milliseconds. A call that ends at the
very instant of a limit has ended in time, and of two limits at one instant the deadline comes
first.
-/
namespace Federation

structure Limits where
  /-- Was the command cancelled before it began? -/
  cancelled : Bool := false
  /-- When it is cancelled, if it is. -/
  cancelAt : Option Nat := none
  /-- The time allowed for one call. -/
  timeout : Option Duration := none
  deriving DecidableEq, Repr

namespace Limits

/-- A call that would begin after the cancellation is not made. -/
def refuses (l : Limits) (now : Nat) : Bool := l.cancelled || l.cancelAt.any fun t => t < now

/-- What ends a call that begins now and never ends by itself, and when. -/
def interruption? (l : Limits) (now : Nat) : Option (LogError × Nat) :=
  match l.timeout, l.cancelAt with
  | none, none => none
  | some d, none => some (.deadline d, now + d.millisUp)
  | none, some t => some (.cancelled, t)
  | some d, some t =>
    if now + d.millisUp ≤ t then some (.deadline d, now + d.millisUp) else some (.cancelled, t)

/-- What cuts a call short that begins now and needs a time. -/
def cut? (l : Limits) (now needed : Nat) : Option (LogError × Nat) :=
  (l.interruption? now).filter fun i => i.2 < now + needed

/-- How a call ends that begins at once; `needed` is none if it never ends by itself. -/
def guard (l : Limits) (needed : Option Nat) (result : Except LogError α) :
    Option (Except LogError α) :=
  if l.refuses 0 then some (.error .cancelled)
  else
    match needed with
    | none => (l.interruption? 0).map fun i => .error i.1
    | some n =>
      match l.cut? 0 n with
      | some i => some (.error i.1)
      | none => some result

end Limits
end Federation
