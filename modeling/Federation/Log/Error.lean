import Federation.Duration
import Federation.Json.Fault

/-!
What can go wrong between a caller and a log.
-/
namespace Federation

/-- Why a log could not be reached. -/
inductive Outage where
  | memory
  | closedPool
  | nothingStored
  | other (text : String)
  deriving DecidableEq, Repr

def Outage.message : Outage → String
  | .memory => "in-memory event log is unavailable"
  | .closedPool => "attempted to acquire a connection on a closed pool"
  | .nothingStored => "push stored no events"
  | .other text => text

inductive LogError where
  | unavailable (outage : Outage)
  /-- A stream is no longer where a push expected it. -/
  | conflict (type id : String) (expected actual : Nat)
  | cancelled
  | deadline (limit : Duration)
  | malformed (fault : Json.Fault)
  deriving Repr

namespace LogError

def message : LogError → String
  | .unavailable outage => "storage unavailable: " ++ outage.message
  | .conflict type id expected actual =>
    "concurrency conflict on " ++ type ++ "/" ++ id ++ ": expected sequence " ++ Nat.repr expected
      ++ ", stream is at " ++ Nat.repr actual
  | .cancelled => "operation cancelled"
  | .deadline limit => "operation exceeded deadline of " ++ limit.text
  | .malformed fault => "(de)serialization error: " ++ fault.message

/-- The same call may succeed when repeated unchanged. -/
def isRetryable : LogError → Bool
  | .unavailable _ => true
  | _ => false

def isConflict : LogError → Bool
  | .conflict .. => true
  | _ => false

/-- The call was given up before it completed. -/
def isCancelled : LogError → Bool
  | .cancelled | .deadline _ => true
  | _ => false

end LogError
end Federation
